import CrumbleCracker.Lib.Bytes

/-!
# TCP sequence numbers and buffers

Comparison modulo `2 ^ 32`, the retransmission queue, and segments that came before the ones in front of them.
-/

namespace CrumbleCracker.Netstack

open List

/-! ## Sequence numbers -/

/-- `seqLT`: `int32(a-b) < 0`. -/
def seqLT (a b : UInt32) : Bool := 0x80000000 ≤ a - b

/-- `seqLTE`: `int32(a-b) <= 0`. -/
def seqLTE (a b : UInt32) : Bool := a = b || seqLT a b

/-- `seqGT`: `int32(a-b) > 0`. -/
def seqGT (a b : UInt32) : Bool := a ≠ b && !seqLT a b

/-- `seqOverlap`: the ranges `[aStart, aEnd)` and `[bStart, bEnd)` overlap. -/
def seqOverlap (aStart aEnd bStart bEnd : UInt32) : Bool := seqLT aStart bEnd && seqLT bStart aEnd

/-- The sequence number `n` places after `iss`. -/
def seqAt (iss : UInt32) (n : Nat) : UInt32 := iss + UInt32.ofNat n

variable (iss : UInt32)

@[simp] theorem seqAt_zero : seqAt iss 0 = iss := by simp [seqAt]

theorem seqAt_add (m n : Nat) : seqAt iss (m + n) = seqAt iss m + UInt32.ofNat n := by
  rw [seqAt, seqAt, UInt32.ofNat_add, UInt32.add_assoc]

/-- The difference of two sequence numbers is that of their places. -/
theorem toNat_seqAt_sub {m n : Nat} (h : m ≤ n) : (seqAt iss n - seqAt iss m).toNat = (n - m) % 2 ^ 32 := by
  have hn : seqAt iss n = seqAt iss m + UInt32.ofNat (n - m) := by
    rw [← seqAt_add]
    congr 1
    omega
  rw [hn, UInt32.add_comm, UInt32.add_sub_cancel]
  exact UInt32.toNat_ofNat'

theorem seqLTE_seqAt_of_lt {a b : Nat} (h : a < b) (hnear : b - a < 2 ^ 31) :
    seqLTE (seqAt iss b) (seqAt iss a) = false := by
  have hdiff := toNat_seqAt_sub iss h.le
  rw [Nat.mod_eq_of_lt (by omega)] at hdiff
  have hne : seqAt iss b ≠ seqAt iss a := by
    intro heq
    rw [heq, UInt32.sub_self, UInt32.toNat_zero] at hdiff
    omega
  have hlt : seqLT (seqAt iss b) (seqAt iss a) = false := by
    rw [seqLT, decide_eq_false_iff_not, UInt32.le_iff_toNat_le, hdiff]
    show ¬ 2 ^ 31 ≤ b - a
    omega
  rw [seqLTE, hlt, decide_eq_false hne]
  rfl

/-! ## The retransmission queue -/

def sendBufCapacity : Nat := 256 * 1024

/-- `tcpSendSegment`; when it was sent is left to the timer's events. -/
structure TcpSendSegment where
  seqStart : UInt32
  seqEnd : UInt32
  payload : Bytes
  retxCount : Nat := 0
  /-- Ghost: the place of `seqStart` after the first sequence number. -/
  off : Nat
deriving DecidableEq

def sendBufUsed (segs : List TcpSendSegment) : Nat := (segs.map fun s => s.payload.length).sum

/-- `tcpSendBuffer.append`: `none` when the queue is full. -/
def sendBufAppend (segs : List TcpSendSegment) (seg : TcpSendSegment) : Option (List TcpSendSegment) :=
  if sendBufCapacity < sendBufUsed segs + seg.payload.length then none else some (segs ++ [seg])

/-- `tcpSendBuffer.ack`: the segments that end at or before `ackNum` go. -/
def sendBufAck (segs : List TcpSendSegment) (ackNum : UInt32) : List TcpSendSegment :=
  segs.filter fun s => !seqLTE s.seqEnd ackNum

def markRetransmitted : List TcpSendSegment → List TcpSendSegment
  | [] => []
  | s :: ss => { s with retxCount := s.retxCount + 1 } :: ss

/-! ## Reassembly -/

def maxOOOSegments : Nat := 16

structure TcpOOOSegment where
  seqStart : UInt32
  seqEnd : UInt32
  payload : Bytes
deriving DecidableEq

/-- `tcpRecvBuffer.insert`: dropped when it overlaps a buffered segment or the buffer is full. -/
def oooInsert (segs : List TcpOOOSegment) (seg : TcpOOOSegment) : List TcpOOOSegment :=
  if segs.any fun e => seqOverlap seg.seqStart seg.seqEnd e.seqStart e.seqEnd then segs
  else if maxOOOSegments ≤ segs.length then segs
  else
    let i := segs.findIdx fun e => seqLT seg.seqStart e.seqStart
    segs.take i ++ seg :: segs.drop i

/-- One pass of `collectContiguous`: the payloads found, the segments kept and the next number. -/
def collectPass : List TcpOOOSegment → UInt32 → List Bytes × List TcpOOOSegment × UInt32
  | [], next => ([], [], next)
  | s :: ss, next =>
    if s.seqStart = next then
      let (found, kept, next) := collectPass ss s.seqEnd
      (s.payload :: found, kept, next)
    else
      let (found, kept, next) := collectPass ss next
      (found, s :: kept, next)

/-- The passes of `collectContiguous`, until one finds nothing; each that finds something leaves fewer segments. -/
def collectLoop : Nat → List TcpOOOSegment → UInt32 → List Bytes × List TcpOOOSegment × UInt32
  | 0, segs, next => ([], segs, next)
  | n + 1, segs, next =>
    let (found, kept, next) := collectPass segs next
    if found = [] then ([], kept, next)
    else
      let (more, kept, next) := collectLoop n kept next
      (found ++ more, kept, next)

def collectContiguous (segs : List TcpOOOSegment) (next : UInt32) : List Bytes × List TcpOOOSegment × UInt32 :=
  collectLoop (segs.length + 1) segs next

/-- Every buffered segment ends where its payload does. -/
def OOOSized (segs : List TcpOOOSegment) : Prop := ∀ s ∈ segs, s.seqEnd = s.seqStart + UInt32.ofNat s.payload.length

variable {segs : List TcpOOOSegment}

theorem OOOSized.insert (h : OOOSized segs) {seg : TcpOOOSegment}
    (hseg : seg.seqEnd = seg.seqStart + UInt32.ofNat seg.payload.length) : OOOSized (oooInsert segs seg) := by
  unfold oooInsert
  split
  · exact h
  split
  · exact h
  · exact forall_mem_append.2 ⟨fun s hs => h s (mem_of_mem_take hs),
      forall_mem_cons.2 ⟨hseg, fun s hs => h s (mem_of_mem_drop hs)⟩⟩

theorem collectPass_spec (h : OOOSized segs) (next : UInt32) : OOOSized (collectPass segs next).2.1 ∧
    (collectPass segs next).2.2 = seqAt next (collectPass segs next).1.flatten.length := by
  induction segs generalizing next with
  | nil => exact ⟨h, (seqAt_zero next).symm⟩
  | cons s ss ih =>
    have htail : OOOSized ss := fun t ht => h t (mem_cons_of_mem s ht)
    unfold collectPass
    split
    · rename_i hs
      obtain ⟨hkept, hnext⟩ := ih htail s.seqEnd
      refine ⟨hkept, ?_⟩
      show (collectPass ss s.seqEnd).2.2 = seqAt next (s.payload :: (collectPass ss s.seqEnd).1).flatten.length
      rw [hnext, h s mem_cons_self, hs, flatten_cons, length_append, Nat.add_comm, seqAt, seqAt,
        UInt32.ofNat_add, UInt32.add_assoc, UInt32.add_comm (UInt32.ofNat _) (UInt32.ofNat s.payload.length)]
    · obtain ⟨hkept, hnext⟩ := ih htail next
      exact ⟨forall_mem_cons.2 ⟨h s mem_cons_self, hkept⟩, hnext⟩

theorem collectLoop_spec (n : Nat) (h : OOOSized segs) (next : UInt32) : OOOSized (collectLoop n segs next).2.1 ∧
    (collectLoop n segs next).2.2 = seqAt next (collectLoop n segs next).1.flatten.length := by
  induction n generalizing segs next with
  | zero => exact ⟨h, (seqAt_zero next).symm⟩
  | succ n ih =>
    obtain ⟨hkept, hnext⟩ := collectPass_spec h next
    unfold collectLoop
    dsimp only
    split
    · rename_i hnil
      rw [hnil] at hnext
      exact ⟨hkept, hnext⟩
    · obtain ⟨hkept', hnext'⟩ := ih hkept (collectPass segs next).2.2
      refine ⟨hkept', ?_⟩
      show (collectLoop n _ _).2.2 = seqAt next ((collectPass segs next).1 ++ (collectLoop n _ _).1).flatten.length
      rw [hnext', hnext, flatten_append, length_append, seqAt_add]
      rfl

/-- `collectContiguous` moves the next number over exactly the bytes it returns. -/
theorem collectContiguous_spec (h : OOOSized segs) (next : UInt32) : OOOSized (collectContiguous segs next).2.1 ∧
    (collectContiguous segs next).2.2 = seqAt next (collectContiguous segs next).1.flatten.length :=
  collectLoop_spec _ h next

end CrumbleCracker.Netstack
