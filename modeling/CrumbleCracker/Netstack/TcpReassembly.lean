import CrumbleCracker.Lib.Turns
import CrumbleCracker.Netstack.TcpReceive

/-!
# Reassembly

Segments of the guest's stream arrive in any order, repeated and cut anew. Segments ahead of the expected number are
kept and matched by their first number alone, and one that was passed over stays. While the segments that arrive and
those kept lie less than `2 ^ 32` bytes from the places a call can come to, what is passed to `enqueueData` is a prefix
of the stream and each payload is delivered at its own place (`delivered_exact`); `2 ^ 32` bytes later a segment that
stayed is delivered again (`stale_delivered`).
-/

namespace CrumbleCracker.Netstack

open List

/-! ## Numbers and places -/

variable {n : Nat}

theorem eq_of_seqAt_eq {irs : UInt32} {m : Nat} (h : seqAt irs m = seqAt irs n) (hm : m < n + 2 ^ 32)
    (hn : n < m + 2 ^ 32) :
    m = n := by
  rcases Nat.le_total m n with hle | hle
  · have hdiff := toNat_seqAt_sub irs hle
    rw [h, UInt32.sub_self, UInt32.toNat_zero, Nat.mod_eq_of_lt (by omega)] at hdiff
    omega
  · have hdiff := toNat_seqAt_sub irs hle
    rw [h, UInt32.sub_self, UInt32.toNat_zero, Nat.mod_eq_of_lt (by omega)] at hdiff
    omega

theorem piecesAt_append (off : Nat) (xs ys : List Bytes) :
    piecesAt off (xs ++ ys) = piecesAt off xs ++ piecesAt (off + xs.flatten.length) ys := by
  induction xs generalizing off with
  | nil => rfl
  | cons x xs ih =>
    rw [cons_append, piecesAt, ih, piecesAt, flatten_cons, length_append, Nat.add_assoc]
    rfl

theorem flatMap_piecesAt (off : Nat) (xs : List Bytes) : (piecesAt off xs).flatMap Piece.data = xs.flatten := by
  induction xs generalizing off with
  | nil => rfl
  | cons x xs ih => rw [piecesAt, flatMap_cons, ih, flatten_cons]

theorem flatten_prefixes {stream : Bytes} {off : Nat} {xs : List Bytes}
    (h : ∀ p ∈ piecesAt off xs, p.data <+: stream.drop p.off) : xs.flatten <+: stream.drop off := by
  induction xs generalizing off with
  | nil => exact nil_prefix
  | cons x xs ih =>
    have hx : x <+: stream.drop off := h ⟨off, x⟩ mem_cons_self
    have hxs := ih fun p hp => h p (mem_cons_of_mem _ hp)
    obtain ⟨rest, hrest⟩ := hx
    rw [← drop_drop, ← hrest, drop_left] at hxs
    rw [flatten_cons, ← hrest]
    exact prefix_append_right_inj x |>.2 hxs

/-! ## Segments -/

/-- A segment that carries a slice of the stream. -/
structure Arrival (stream : Bytes) where
  off : Nat
  payload : Bytes
  slice : payload <+: stream.drop off
  nonempty : payload ≠ []

variable {stream : Bytes} {irs : UInt32}

def Arrival.hdr (irs : UInt32) (a : Arrival stream) : TcpHeader := { seq := seqAt irs a.off, payload := a.payload }

def Arrival.kept (irs : UInt32) (a : Arrival stream) : TcpOOOSegment :=
  { seqStart := seqAt irs a.off, seqEnd := seqAt irs a.off + UInt32.ofNat a.payload.length, payload := a.payload }

/-- `handleSegment` with a payload, up to the unlock: the receiving side and what goes to `enqueueData`. -/
def RecvSide.arrive (r : RecvSide) (hdr : TcpHeader) : RecvSide × List Piece :=
  if hdr.seq ≠ r.guestSeq then (r.keep hdr, []) else (r.accept hdr.payload, piecesAt r.got (r.ready hdr.payload))

theorem arrive_eq {r : RecvSide} {a : Arrival stream} (h : seqAt irs a.off = r.guestSeq) :
    r.arrive (a.hdr irs) = (r.accept a.payload, piecesAt r.got (r.ready a.payload)) := if_neg (not_not.2 h)

theorem TcpConn.receivePayload_arrives (i : Nat) {hdr : TcpHeader} (hfin : hdr.fin = false) (c : TcpConn) :
    c.receivePayload i hdr = { c with recv := (c.recv.arrive hdr).1 }.release i
      (.actions ((c.recv.arrive hdr).2.map (fun p => Action.enqueue (some p)) ++ [Action.sendAck])) := by
  unfold receivePayload RecvSide.arrive
  split
  · rfl
  · dsimp only
    rw [hfin]
    rfl

/-- The receiving side with its history. -/
structure Reassembly (stream : Bytes) where
  recv : RecvSide
  seen : List (Arrival stream) := []
  /-- The arrivals whose segments have been kept since. -/
  buffered : List (Arrival stream) := []
  /-- What was passed to `enqueueData`. -/
  delivered : List Piece := []

namespace Reassembly

def step (irs : UInt32) (R : Reassembly stream) (a : Arrival stream) : Reassembly stream :=
  { recv := (R.recv.arrive (a.hdr irs)).1, seen := R.seen ++ [a]
    buffered := (R.buffered ++ [a]).filter fun b => b.kept irs ∈ (R.recv.arrive (a.hdr irs)).1.oooRecvBuf
    delivered := R.delivered ++ (R.recv.arrive (a.hdr irs)).2 }

def start (stream : Bytes) (irs : UInt32) : Reassembly stream := { recv := { guestSeq := irs } }

def run (irs : UInt32) (as : List (Arrival stream)) : Reassembly stream := runFrom (step irs) (start stream irs) as

/-- The segments are arrivals less than `2 ^ 32` bytes from all places from `lo` to `hi`. -/
def Around (irs : UInt32) (seen : List (Arrival stream)) (lo hi : Nat) (segs : List TcpOOOSegment) : Prop :=
  ∀ s ∈ segs, ∃ a ∈ seen, s = a.kept irs ∧ a.off < lo + 2 ^ 32 ∧ hi < a.off + 2 ^ 32

def bufferedBytes (segs : List TcpOOOSegment) : Nat := (segs.map fun s => s.payload.length).sum

/-- A segment is less than `2 ^ 32` bytes from the expected place, and those kept are less than that from the expected
place and from the furthest one the segment can lead to, which is behind it and all that is kept. -/
def Near (R : Reassembly stream) (a : Arrival stream) : Prop :=
  (a.off < R.recv.got + 2 ^ 32 ∧ R.recv.got < a.off + 2 ^ 32) ∧ ∀ b ∈ R.buffered, b.off < R.recv.got + 2 ^ 32 ∧
    R.recv.got + a.payload.length + bufferedBytes R.recv.oooRecvBuf < b.off + 2 ^ 32

/-! ## What is collected -/

/-- The pieces are arrivals at their own places. -/
def Own (seen : List (Arrival stream)) (ps : List Piece) : Prop :=
  ∀ p ∈ ps, ∃ a ∈ seen, a.off = p.off ∧ a.payload = p.data

section Collect

variable {seen : List (Arrival stream)} {lo hi : Nat}

variable {segs : List TcpOOOSegment}

theorem Around.sized (h : Around irs seen lo hi segs) : OOOSized segs := by
  intro s hs
  obtain ⟨a, -, rfl, -⟩ := h s hs
  rfl

theorem collectPass_own (h : Around irs seen lo hi segs) (hlo : lo ≤ n)
    (hhi : n + bufferedBytes segs ≤ hi) :
    Own seen (piecesAt n (collectPass segs (seqAt irs n)).1) ∧ (collectPass segs (seqAt irs n)).2.1 ⊆ segs ∧
      (collectPass segs (seqAt irs n)).1.flatten.length + bufferedBytes (collectPass segs (seqAt irs n)).2.1 =
        bufferedBytes segs := by
  induction segs generalizing n with
  | nil => exact ⟨nofun, List.Subset.refl _, rfl⟩
  | cons s ss ih =>
    have htail : Around irs seen lo hi ss := fun t ht => h t (mem_cons_of_mem s ht)
    obtain ⟨a, ha, rfl, hbelow, habove⟩ := h s mem_cons_self
    have hbytes (ss : List TcpOOOSegment) : bufferedBytes (a.kept irs :: ss) = a.payload.length + bufferedBytes ss :=
      rfl
    rw [hbytes] at hhi
    unfold collectPass
    split
    · rename_i hs
      dsimp only
      have hn : a.off = n := eq_of_seqAt_eq hs (by omega) (by omega)
      have hnext : (a.kept irs).seqEnd = seqAt irs (n + a.payload.length) := by
        rw [seqAt_add, ← hn]
        rfl
      rw [hnext]
      obtain ⟨hown, hsub, hlen⟩ := ih htail (n := n + a.payload.length) (by omega) (by omega)
      refine ⟨forall_mem_cons.2 ⟨⟨a, ha, hn, rfl⟩, hown⟩, fun s hs => mem_cons_of_mem _ (hsub hs), ?_⟩
      rw [hbytes, flatten_cons, length_append, Nat.add_assoc, hlen]
      rfl
    · obtain ⟨hown, hsub, hlen⟩ := ih htail hlo (by omega)
      refine ⟨hown, cons_subset_cons _ hsub, ?_⟩
      rw [hbytes, hbytes, ← hlen]
      exact Nat.add_left_comm _ _ _

theorem collectLoop_own (k : Nat) (h : Around irs seen lo hi segs) (hlo : lo ≤ n)
    (hhi : n + bufferedBytes segs ≤ hi) :
    Own seen (piecesAt n (collectLoop k segs (seqAt irs n)).1) ∧ (collectLoop k segs (seqAt irs n)).2.1 ⊆ segs := by
  induction k generalizing segs n with
  | zero => exact ⟨forall_mem_nil _, List.Subset.refl _⟩
  | succ k ih =>
    have hnext : (collectPass segs (seqAt irs n)).2.2 =
        seqAt irs (n + (collectPass segs (seqAt irs n)).1.flatten.length) := by
      rw [(collectPass_spec h.sized (seqAt irs n)).2, seqAt_add]
      rfl
    obtain ⟨hown, hsub, hlen⟩ := collectPass_own h hlo hhi
    unfold collectLoop
    dsimp only
    split
    · exact ⟨forall_mem_nil _, hsub⟩
    · rw [hnext]
      obtain ⟨hown', hsub'⟩ := ih (fun s hs => h s (hsub hs))
        (n := n + (collectPass segs (seqAt irs n)).1.flatten.length) (by omega) (by omega)
      rw [piecesAt_append]
      exact ⟨forall_mem_append.2 ⟨hown, hown'⟩, fun s hs => hsub (hsub' hs)⟩

end Collect

/-! ## Runs -/

/-- The numbers agree with what was delivered, and that is a prefix of the stream, each piece an arrival at its place.
What is kept are segments that arrived. -/
structure Exact (irs : UInt32) (R : Reassembly stream) : Prop where
  seq : R.recv.guestSeq = seqAt irs R.recv.got
  data : R.delivered.flatMap Piece.data = stream.take R.recv.got
  own : Own R.seen R.delivered
  arrived : R.buffered ⊆ R.seen
  kept : ∀ s ∈ R.recv.oooRecvBuf, ∃ b ∈ R.buffered, s = b.kept irs

theorem Own.mono {seen seen' : List (Arrival stream)} {ps : List Piece} (h : Own seen ps) (hsub : seen ⊆ seen') :
    Own seen' ps := by
  intro p hp
  obtain ⟨a, ha, heq⟩ := h p hp
  exact ⟨a, hsub ha, heq⟩

section Step

variable {R : Reassembly stream} (h : Exact irs R) {a : Arrival stream}
include h

theorem Exact.around (hnear : Near R a) : Around irs R.seen R.recv.got
    (R.recv.got + a.payload.length + bufferedBytes R.recv.oooRecvBuf) R.recv.oooRecvBuf := by
  intro s hs
  obtain ⟨b, hb, rfl⟩ := h.kept s hs
  exact ⟨b, h.arrived hb, rfl, hnear.2 b hb⟩

/-- A step keeps nothing but what was kept before and the segment itself. -/
theorem Exact.kept_step (hsub : ∀ s ∈ (R.step irs a).recv.oooRecvBuf, s ∈ R.recv.oooRecvBuf ∨ s = a.kept irs) :
    (R.step irs a).buffered ⊆ (R.step irs a).seen ∧
      ∀ s ∈ (R.step irs a).recv.oooRecvBuf, ∃ b ∈ (R.step irs a).buffered, s = b.kept irs := by
  refine ⟨fun b hb => ?_, fun s hs => ?_⟩
  · rcases mem_append.1 (mem_of_mem_filter hb) with hb | hb
    · exact mem_append_left _ (h.arrived hb)
    · exact mem_append_right _ hb
  · have hfound : ∃ b ∈ R.buffered ++ [a], s = b.kept irs := by
      rcases hsub s hs with hold | rfl
      · obtain ⟨b, hb, rfl⟩ := h.kept s hold
        exact ⟨b, mem_append_left _ hb, rfl⟩
      · exact ⟨a, mem_append_right _ mem_cons_self, rfl⟩
    obtain ⟨b, hb, rfl⟩ := hfound
    exact ⟨b, mem_filter.2 ⟨hb, decide_eq_true hs⟩, rfl⟩

omit h in
theorem mem_keep {s : TcpOOOSegment} (hs : s ∈ (R.recv.keep (a.hdr irs)).oooRecvBuf) :
    s ∈ R.recv.oooRecvBuf ∨ s = a.kept irs := by
  unfold RecvSide.keep oooInsert at hs
  split at hs
  · dsimp only at hs
    split at hs
    · exact .inl hs
    · split at hs
      · exact .inl hs
      · rcases mem_append.1 hs with hs | hs
        · exact .inl (mem_of_mem_take hs)
        · exact (mem_cons.1 hs).symm.imp_left mem_of_mem_drop
  · exact .inl hs

theorem Exact.step (hnear : Near R a) : Exact irs (R.step irs a) := by
  have hsub : R.seen ⊆ R.seen ++ [a] := subset_append_left _ _
  by_cases hin : seqAt irs a.off = R.recv.guestSeq
  rotate_left
  · have harrive : R.recv.arrive (a.hdr irs) = (R.recv.keep (a.hdr irs), []) := if_pos hin
    have hkeep : R.recv.keep (a.hdr irs) = { R.recv with oooRecvBuf := (R.recv.keep (a.hdr irs)).oooRecvBuf } := by
      unfold RecvSide.keep
      split <;> rfl
    obtain ⟨harrived, hkept⟩ := h.kept_step (a := a) fun s hs => by
      rw [Reassembly.step, harrive] at hs
      exact mem_keep hs
    refine ⟨?_, ?_, ?_, harrived, hkept⟩ <;> rw [Reassembly.step, harrive, hkeep]
    · exact h.seq
    · rw [append_nil]
      exact h.data
    · rw [append_nil]
      exact h.own.mono hsub
  · have harrive := arrive_eq hin
    rw [h.seq] at hin
    have hoff : a.off = R.recv.got := eq_of_seqAt_eq hin hnear.1.1 hnear.1.2
    have haround := h.around hnear
    have hnext : R.recv.guestSeq + UInt32.ofNat a.payload.length = seqAt irs (R.recv.got + a.payload.length) := by
      rw [seqAt_add, h.seq]
    have hgot : (R.recv.accept a.payload).got = R.recv.got + (R.recv.ready a.payload).flatten.length := rfl
    have hready : R.recv.ready a.payload =
        a.payload :: (collectContiguous R.recv.oooRecvBuf (seqAt irs (R.recv.got + a.payload.length))).1 := by
      rw [RecvSide.ready, hnext]
    obtain ⟨hcollect, hleft⟩ := collectLoop_own (R.recv.oooRecvBuf.length + 1) haround
      (n := R.recv.got + a.payload.length) (Nat.le_add_right _ _) le_rfl
    obtain ⟨harrived, hkept⟩ := h.kept_step (a := a) fun s hs => by
      rw [Reassembly.step, harrive] at hs
      change s ∈ (collectContiguous R.recv.oooRecvBuf (R.recv.guestSeq + UInt32.ofNat a.payload.length)).2.1 at hs
      rw [hnext] at hs
      exact .inl (hleft hs)
    have hown : Own (R.seen ++ [a]) (piecesAt R.recv.got (R.recv.ready a.payload)) := by
      rw [hready]
      exact forall_mem_cons.2 ⟨⟨a, mem_append_right _ mem_cons_self, hoff, rfl⟩, Own.mono hcollect hsub⟩
    refine ⟨?_, ?_, ?_, harrived, hkept⟩ <;> rw [Reassembly.step, harrive]
    · show (collectContiguous R.recv.oooRecvBuf (R.recv.guestSeq + UInt32.ofNat a.payload.length)).2.2 =
        seqAt irs (R.recv.accept a.payload).got
      rw [hnext, (collectContiguous_spec haround.sized _).2, hgot, hready, flatten_cons, length_append,
        ← Nat.add_assoc, seqAt_add irs (R.recv.got + _)]
      rfl
    · have hslices : ∀ p ∈ piecesAt R.recv.got (R.recv.ready a.payload), p.data <+: stream.drop p.off := by
        intro p hp
        obtain ⟨b, -, hoff', hdata⟩ := hown p hp
        rw [← hoff', ← hdata]
        exact b.slice
      show (R.delivered ++ piecesAt R.recv.got (R.recv.ready a.payload)).flatMap Piece.data =
        stream.take (R.recv.accept a.payload).got
      rw [flatMap_append, flatMap_piecesAt, h.data, hgot, take_add,
        ← prefix_iff_eq_take.1 (flatten_prefixes hslices)]
    · exact forall_mem_append.2 ⟨h.own.mono hsub, hown⟩

end Step

theorem seen_run (irs : UInt32) (as : List (Arrival stream)) (R : Reassembly stream) :
    (runFrom (step irs) R as).seen = R.seen ++ as := by
  induction as generalizing R with
  | nil => exact (append_nil _).symm
  | cons a as ih => exact (ih _).trans (append_assoc R.seen [a] as)

theorem delivered_exact (irs : UInt32) (as : List (Arrival stream))
    (hnear : Throughout (step irs) Near (start stream irs) as) :
    (run irs as).delivered.flatMap Piece.data = stream.take (run irs as).recv.got ∧
      ∀ p ∈ (run irs as).delivered, ∃ a ∈ as, a.off = p.off ∧ a.payload = p.data := by
  have hstart : Exact irs (start stream irs) := ⟨(seqAt_zero irs).symm, rfl, nofun, nofun, nofun⟩
  have h : Exact irs (run irs as) := Throughout.invariant (fun _ _ h => h.step) hstart hnear
  refine ⟨h.data, fun p hp => ?_⟩
  have hseen : (run irs as).seen = as := seen_run irs as (start stream irs)
  rw [← hseen]
  exact h.own p hp

/-- Three bytes in two segments, the second first and repeated. -/
def swapped : List (Arrival [1, 2, 3]) :=
  [⟨1, [2, 3], ⟨[], rfl⟩, by decide⟩, ⟨0, [1], ⟨[2, 3], rfl⟩, by decide⟩, ⟨1, [2, 3], ⟨[], rfl⟩, by decide⟩]

theorem delivered_exact_swapped : Throughout (step 5) Near (start _ 5) swapped ∧
    (run 5 swapped).delivered.flatMap Piece.data = [1, 2, 3] := by
  have hnear : Throughout (step 5) Near (start _ 5) swapped := by
    refine ⟨⟨by decide, by decide⟩, ⟨by decide, by decide⟩, ⟨by decide, by decide⟩, trivial⟩
  exact ⟨hnear, (delivered_exact 5 swapped hnear).1⟩

/-! ## A segment that stays -/

/-- The byte 1 at place 10, zeros elsewhere. -/
def oneByte (n : Nat) : Bytes := List.replicate 10 0 ++ 1 :: List.replicate n 0

theorem oneByte_length (n : Nat) : (oneByte n).length = n + 11 := by simp [oneByte]

/-- The segment with this byte, ahead of the others. -/
def staying (n : Nat) : Arrival (oneByte n) := ⟨10, [1], ⟨List.replicate n 0, rfl⟩, nofun⟩

/-- The segment of `len` bytes at a place. -/
def cut {n : Nat} (off len : Nat) (h : off + len < n + 11) (hlen : 0 < len) : Arrival (oneByte n) :=
  ⟨off, ((oneByte n).drop off).take len, take_prefix _ _, by
    intro hnil
    have := congrArg List.length hnil
    rw [length_take, length_drop, oneByte_length, length_nil] at this
    omega⟩

theorem cut_length {off len : Nat} (h : off + len < n + 11) (hlen : 0 < len) :
    (cut off len h hlen).payload.length = len := by
  show (((oneByte n).drop off).take len).length = len
  rw [length_take, length_drop, oneByte_length]
  omega

/-- After `k` segments of 32768 bytes in order the segment is still kept. -/
structure Stayed {n : Nat} (R : Reassembly (oneByte n)) (k : Nat) : Prop where
  recv : R.recv = { guestSeq := seqAt 0 (k * 32768), oooRecvBuf := [(staying n).kept 0], got := k * 32768 }
  length : (R.delivered.flatMap Piece.data).length = k * 32768

theorem Stayed.step {k : Nat} {R : Reassembly (oneByte n)} (h : Stayed R k) (hk : k * 32768 + 32768 < n + 11) :
    Stayed (R.step 0 (cut (k * 32768) 32768 hk (by decide))) (k + 1) := by
  have hne : ((staying n).kept 0).seqStart ≠ seqAt 0 (k * 32768 + 32768) := by
    intro heq
    have := congrArg UInt32.toNat heq
    simp [Arrival.kept, staying, seqAt] at this
    omega
  have hcollect : collectContiguous [(staying n).kept 0] (seqAt 0 (k * 32768 + 32768)) =
      ([], [(staying n).kept 0], seqAt 0 (k * 32768 + 32768)) := by
    simp only [collectContiguous, collectLoop, collectPass, if_neg hne, if_true, length_singleton]
  have hlen := cut_length hk (by decide)
  have hplace : k * 32768 + 32768 = (k + 1) * 32768 := by omega
  unfold Reassembly.step
  rw [arrive_eq (congrArg RecvSide.guestSeq h.recv).symm, h.recv, RecvSide.accept, RecvSide.ready, hlen,
    ← seqAt_add, hcollect, hplace]
  refine ⟨?_, ?_⟩
  · rw [flatten_singleton, hlen, hplace]
  · rw [flatMap_append, flatMap_piecesAt, flatten_singleton, length_append, h.length, hlen, hplace]

theorem exists_stayed {k : Nat} (hk : k * 32768 ≤ n) :
    ∃ as : List (Arrival (oneByte n)), (∀ a ∈ as, a.payload.length ≤ 32768) ∧ Stayed (run 0 as) k := by
  induction k with
  | zero =>
    refine ⟨[staying n], ?_, ?_, rfl⟩
    · exact forall_mem_singleton.2 (Nat.le_of_ble_eq_true rfl)
    · show (RecvSide.arrive { guestSeq := 0 } ((staying n).hdr 0)).1 = _
      have hseq : ((staying n).hdr 0).seq = 10 := rfl
      rw [RecvSide.arrive, RecvSide.keep, hseq, if_pos (by decide), if_pos (by decide)]
      rfl
  | succ k ih =>
    obtain ⟨as, hsmall, h⟩ := ih (Nat.le_trans (Nat.mul_le_mul_right _ (Nat.le_succ k)) hk)
    have hcut : k * 32768 + 32768 < n + 11 := by
      rw [Nat.add_mul] at hk
      omega
    refine ⟨as ++ [cut (k * 32768) 32768 hcut (by decide)], ?_, ?_⟩
    · refine forall_mem_append.2 ⟨hsmall, forall_mem_singleton.2 ?_⟩
      rw [cut_length]
    · rw [run, runFrom, foldl_append]
      exact h.step hcut

theorem Stayed.found {R : Reassembly (oneByte n)} (h : Stayed R 131072) (hn : n = 2 ^ 32)
    (hcut : 131072 * 32768 + 10 < n + 11) :
    ¬ (R.step 0 (cut (131072 * 32768) 10 hcut (by decide))).delivered.flatMap Piece.data <+: oneByte n := by
  have hlen := cut_length hcut (by decide)
  have hcollect : (collectContiguous [(staying n).kept 0] (seqAt 0 (131072 * 32768 + 10))).1 = [[1]] := by
    have hten : seqAt 0 (131072 * 32768 + 10) = 10 := by decide
    rw [hten]
    rfl
  unfold Reassembly.step
  rw [arrive_eq (congrArg RecvSide.guestSeq h.recv).symm, flatMap_append, flatMap_piecesAt, h.recv,
    RecvSide.ready, hlen, ← seqAt_add, hcollect]
  rintro ⟨rest, hrest⟩
  have hfront : (R.delivered.flatMap Piece.data ++ (cut _ 10 hcut (by decide)).payload).length = n + 10 := by
    rw [length_append, h.length, hlen, hn]
    rfl
  have hone : (oneByte n)[n + 10]? = some 1 := by
    rw [← hrest, flatten_cons, flatten_singleton, ← append_assoc, append_assoc, ← hfront,
      getElem?_append_right le_rfl, Nat.sub_self]
    rfl
  have hzero : (oneByte n)[n + 10]? = some 0 := by
    rw [oneByte, getElem?_append_right (by simp), length_replicate, Nat.add_sub_cancel, getElem?_cons,
      if_neg (by omega), getElem?_replicate, if_pos (by omega)]
  rw [hone] at hzero
  exact absurd hzero (by decide)

theorem stale_delivered : ∃ as : List (Arrival (oneByte (2 ^ 32))),
    (∀ a ∈ as, a.payload.length ≤ 32768) ∧ ¬ (run 0 as).delivered.flatMap Piece.data <+: oneByte (2 ^ 32) := by
  obtain ⟨as, hsmall, h⟩ := exists_stayed (n := 2 ^ 32) (k := 131072) (by decide)
  refine ⟨as ++ [cut (131072 * 32768) 10 (by decide) (by decide)], ?_, ?_⟩
  · refine forall_mem_append.2 ⟨hsmall, forall_mem_singleton.2 ?_⟩
    rw [cut_length]
    decide
  · rw [run, runFrom, foldl_append]
    exact h.found rfl _

end Reassembly

end CrumbleCracker.Netstack
