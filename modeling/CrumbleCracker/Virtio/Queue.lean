import CrumbleCracker.Lib.Bytes

/-!
# Virtqueues in guest memory

A queue lives in memory that the guest shares with the device: a descriptor table, the available ring the guest
fills and the used ring the device fills. Every access to it goes through `GuestMemory` and may fail.
-/

namespace CrumbleCracker.Virtio

/-- `GuestMemory`: `ReadIPA` and `WriteIPA`, either of which may fail. -/
structure GuestMemory (M : Type) where
  readIPA : M → UInt64 → Nat → Option Bytes
  writeIPA : M → UInt64 → Bytes → Option M

/-- `queue`: the registers of one virtqueue. -/
structure Queue where
  size : UInt16 := 0
  ready : Bool := false
  descAddr : UInt64 := 0
  availAddr : UInt64 := 0
  usedAddr : UInt64 := 0
  lastAvailIdx : UInt16 := 0
  usedIdx : UInt16 := 0
deriving DecidableEq

structure Descriptor where
  addr : UInt64
  length : UInt32
  flags : UInt16
  next : UInt16
deriving DecidableEq

def descFNext : UInt16 := 1

def descFWrite : UInt16 := 2

/-- The descriptor has `descFNext` set. -/
def Descriptor.hasNext (d : Descriptor) : Bool := d.flags &&& descFNext != 0

/-- The descriptor has `descFWrite` set: the buffer is the device's to write. -/
def Descriptor.writable (d : Descriptor) : Bool := d.flags &&& descFWrite != 0

/-- What the buffer takes of the bytes that are left of a packet. -/
def Descriptor.takes (d : Descriptor) (rest : Bytes) : Bytes := if d.writable then rest.take d.length.toNat else []

theorem Descriptor.takes_prefix (d : Descriptor) (rest : Bytes) : d.takes rest <+: rest := by
  unfold takes
  split
  · exact List.take_prefix _ _
  · exact List.nil_prefix

/-- What a walk over a queue can end with. -/
inductive QueueError where
  | memory
  | descriptorOutOfRange (index : UInt16)
  | chainLoop
  | chainTooSmall (wrote want : Nat)
  | payloadTruncated (got want : Nat)
deriving DecidableEq

def u16At (b : Bytes) (off : Nat) : UInt16 := UInt16.ofNat (natLE (field b off 2))

def u32At (b : Bytes) (off : Nat) : UInt32 := UInt32.ofNat (natLE (field b off 4))

def u64At (b : Bytes) (off : Nat) : UInt64 := UInt64.ofNat (natLE (field b off 8))

section Access

variable {M : Type} (G : GuestMemory M)

/-- A read that reports its failure. -/
def GuestMemory.read (m : M) (addr : UInt64) (n : Nat) : Except QueueError Bytes :=
  match G.readIPA m addr n with
  | some b => .ok b
  | none => .error .memory

def Queue.readAvailIdx (q : Queue) (m : M) : Except QueueError UInt16 :=
  (G.read m q.availAddr 4).map fun header => u16At header 2

/-- The head of the chain at the device's position in the available ring. -/
def Queue.readAvailEntry (q : Queue) (m : M) : Except QueueError UInt16 :=
  let slot := q.lastAvailIdx % q.size
  (G.read m (q.availAddr + 4 + slot.toUInt64 * 2) 2).map fun entry => u16At entry 0

def Queue.readDescriptor (q : Queue) (m : M) (index : UInt16) : Except QueueError Descriptor :=
  if q.size ≤ index then .error (.descriptorOutOfRange index)
  else (G.read m (q.descAddr + index.toUInt64 * 16) 16).map fun b =>
    { addr := u64At b 0, length := u32At b 8, flags := u16At b 12, next := u16At b 14 }

/-- The loop of `readChainLocked`: `i` turns are left, `out` has been read. -/
def Queue.readChainLoop (q : Queue) (m : M) : Nat → UInt16 → Bytes → Except QueueError Bytes
  | 0, _, _ => .error .chainLoop
  | i + 1, index, out => do
    let desc ← q.readDescriptor G m index
    let chunk ← if !desc.writable && 0 < desc.length then G.read m desc.addr desc.length.toNat else .ok []
    if desc.hasNext then q.readChainLoop m i desc.next (out ++ chunk) else .ok (out ++ chunk)

/-- `readChainLocked`: the readable bytes of the chain at `head`. -/
def Queue.readChain (q : Queue) (m : M) (head : UInt16) : Except QueueError Bytes :=
  q.readChainLoop G m q.size.toNat head []

/-- The loop of `fillChainLocked`: `i` turns are left, `written` has gone to the buffers before `index`. Memory written
before an error stays written. -/
def Queue.fillChainLoop (q : Queue) (packet : Bytes) : Nat → M → UInt16 → Bytes → M × Except QueueError Bytes
  | 0, m, _, _ => (m, .error .chainLoop)
  | i + 1, m, index, written =>
    match q.readDescriptor G m index with
    | .error e => (m, .error e)
    | .ok desc =>
      let chunk := desc.takes (packet.drop written.length)
      match if chunk = [] then some m else G.writeIPA m desc.addr chunk with
      | none => (m, .error .memory)
      | some m' =>
        let written' := written ++ chunk
        if desc.hasNext then q.fillChainLoop packet i m' desc.next written'
        else if written'.length < packet.length then (m', .error (.chainTooSmall written'.length packet.length))
        else (m', .ok written')

/-- `fillChainLocked`: `packet` written to the writable buffers of the chain at `head`, with the bytes these then
hold. -/
def Queue.fillChain (q : Queue) (m : M) (head : UInt16) (packet : Bytes) : M × Except QueueError Bytes :=
  q.fillChainLoop G packet q.size.toNat m head []

/-- `writeUsedLocked`: one used entry, then the used index. The index of the queue has moved on even when the second
write fails. -/
def Queue.writeUsed (q : Queue) (m : M) (head : UInt16) (usedLen : UInt32) : Queue × M × Except QueueError Unit :=
  let slot := q.usedIdx % q.size
  let elem := bytesLE 4 head.toNat ++ bytesLE 4 usedLen.toNat
  match G.writeIPA m (q.usedAddr + 4 + slot.toUInt64 * 8) elem with
  | none => (q, m, .error .memory)
  | some m₁ =>
    let q' := { q with usedIdx := q.usedIdx + 1 }
    match G.writeIPA m₁ (q.usedAddr + 2) (bytesLE 2 q'.usedIdx.toNat) with
    | none => (q', m₁, .error .memory)
    | some m₂ => (q', m₂, .ok ())

/-! ## What they return -/

/-- Where an entry of the used ring has been written, the two bytes of the used index can be written after it. A ring
that lies in mapped memory has this, and one that is not mapped at all. -/
def Queue.IndexWritable (q : Queue) : Prop :=
  ∀ (m m' : M) (slot idx : UInt16) (elem : Bytes), slot < q.size → elem.length = 8 →
    G.writeIPA m (q.usedAddr + 4 + slot.toUInt64 * 8) elem = some m' →
    (G.writeIPA m' (q.usedAddr + 2) (bytesLE 2 idx.toNat)).isSome

/-- A chain filled without error holds the packet: nothing is cut off, nothing is written twice. -/
theorem Queue.fillChainLoop_ok {q : Queue} {packet : Bytes} (i : Nat) (m : M) (index : UInt16) (written : Bytes)
    (hw : written <+: packet) {m' : M} {data : Bytes}
    (h : q.fillChainLoop G packet i m index written = (m', .ok data)) :
    data = packet := by
  induction i generalizing m index written with
  | zero => simp [fillChainLoop] at h
  | succ i ih =>
    unfold fillChainLoop at h
    split at h
    · simp at h
    rename_i desc _
    -- what one buffer takes continues the packet where the buffers before it ended
    have hchunk : written ++ desc.takes (packet.drop written.length) <+: packet := by
      obtain ⟨rest, rfl⟩ := hw
      rw [List.drop_left]
      exact (List.prefix_append_right_inj _).2 (desc.takes_prefix _)
    simp only at h
    split at h
    · simp at h
    split at h
    · exact ih _ _ _ hchunk h
    split at h
    · cases (Prod.mk.inj h).2
    · rename_i hlen
      simp only [Prod.mk.injEq, Except.ok.injEq] at h
      rw [← h.2]
      exact hchunk.eq_of_length (le_antisymm hchunk.length_le (by omega))

/-- What `writeUsed` does to the queue: nothing when the entry cannot be written, else its index moves on; an error
after that is an index that could not be written. -/
theorem Queue.writeUsed_cases (q : Queue) (hsize : q.size ≠ 0) (m : M) (head : UInt16) (usedLen : UInt32) :
    (∃ e, q.writeUsed G m head usedLen = (q, m, .error e)) ∨
    (∃ m' e, ¬ q.IndexWritable G ∧ q.writeUsed G m head usedLen = ({ q with usedIdx := q.usedIdx + 1 }, m', .error e)) ∨
    ∃ m', q.writeUsed G m head usedLen = ({ q with usedIdx := q.usedIdx + 1 }, m', .ok ()) := by
  unfold writeUsed
  dsimp only
  split
  · exact .inl ⟨_, rfl⟩
  rename_i m₁ helem
  split
  · rename_i hnone
    refine .inr (.inl ⟨m₁, _, fun hw => ?_, rfl⟩)
    have hslot : q.usedIdx % q.size < q.size := UInt16.mod_lt _ (UInt16.pos_iff_ne_zero.2 hsize)
    have hsome := hw m m₁ _ (q.usedIdx + 1) _ hslot (by simp) helem
    rw [hnone] at hsome
    cases hsome
  · exact .inr (.inr ⟨_, rfl⟩)

end Access

/-- Memory that is mapped everywhere. -/
def ram : GuestMemory (UInt64 → UInt8) where
  readIPA m addr n := some ((List.range n).map fun i => m (addr + UInt64.ofNat i))
  writeIPA m addr b := some fun x => if (x - addr).toNat < b.length then b.getD (x - addr).toNat 0 else m x

/-- Memory that is mapped below `top` only. -/
def ramBelow (top : Nat) : GuestMemory (UInt64 → UInt8) where
  readIPA m addr n := if addr.toNat + n ≤ top then ram.readIPA m addr n else none
  writeIPA m addr b := if addr.toNat + b.length ≤ top then ram.writeIPA m addr b else none

theorem ramBelow_indexWritable {top : Nat} {q : Queue} (h : (q.usedAddr + 2).toNat + 2 ≤ top) :
    q.IndexWritable (ramBelow top) := by
  intro m m' slot idx elem _ _ _
  simp only [ramBelow, length_bytesLE, if_pos h]
  rfl

/-! ## Fields of a little-endian record -/

variable {off : Nat} {b : Bytes}

theorem u16At_eq {x : UInt16} (h : field b off 2 = bytesLE 2 x.toNat) : u16At b off = x := by
  rw [u16At, h, natLE_bytesLE, show (256 ^ 2 : Nat) = 2 ^ 16 from rfl, Nat.mod_eq_of_lt x.toNat_lt, UInt16.ofNat_toNat]

theorem u32At_eq {x : UInt32} (h : field b off 4 = bytesLE 4 x.toNat) : u32At b off = x := by
  rw [u32At, h, natLE_bytesLE, show (256 ^ 4 : Nat) = 2 ^ 32 from rfl, Nat.mod_eq_of_lt x.toNat_lt, UInt32.ofNat_toNat]

theorem u64At_eq {x : UInt64} (h : field b off 8 = bytesLE 8 x.toNat) : u64At b off = x := by
  rw [u64At, h, natLE_bytesLE, show (256 ^ 8 : Nat) = 2 ^ 64 from rfl, Nat.mod_eq_of_lt x.toNat_lt, UInt64.ofNat_toNat]

end CrumbleCracker.Virtio
