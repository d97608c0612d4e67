import CrumbleCracker.Netstack.TcpConn

/-!
# Acknowledgements

What `handleSegment` makes of an acknowledgement number (`SendSide.trackAck`; `segment_trackAck` : a call that no other
one interrupts does that before its switch). `sendAcked` and `hostSeq` are compared with it as plain numbers, the
segments of the send buffer modulo `2 ^ 32`, and a number above `hostSeq` is taken over for both. `tracked_iff` says for
which numbers this is what a number in the window from `sendAcked` to `hostSeq`, and one outside it, should do.
-/

namespace CrumbleCracker.Netstack

open List

/-- `x` is in the range of numbers modulo `2 ^ 32` from `lo`, exclusive, to `hi`, inclusive. -/
def SeqBetween (lo x hi : UInt32) : Prop := 0 < x - lo ∧ x - lo ≤ hi - lo
deriving Decidable

namespace SendSide

variable {s : SendSide} {ack : UInt32}

/-- With nothing left in flight `nagleBuf` goes out. -/
def flushNagle (s : SendSide) : SendSide :=
  if s.sendBuf ≠ [] then s else if s.nagleBuf = [] then s else { s.take s.nagleBuf with nagleBuf := [] }

/-- `handleSegment` up to the resync, for a segment with an acknowledgement. -/
def ackStage (s : SendSide) (hdr : TcpHeader) : SendSide :=
  let oldWnd := s.peerWnd
  let s := { s with peerWnd := hdr.window }
  if s.sendAcked < hdr.ack then (s.acknowledge hdr.ack).flushNagle
  else if hdr.ack = s.sendAcked && s.sendBuf ≠ [] && hdr.payload = [] && !hdr.syn && !hdr.fin && !hdr.rst
      && hdr.window = oldWnd then
    { s with dupAcks := s.dupAcks + 1 }
  else s

/-- The resync, where it is made. -/
def resynced (s : SendSide) (ack : UInt32) : SendSide := if s.hostSeq < ack then s.resync ack else s

/-- `handleSegment` up to its switch: the sending side, and whether `sendCond.Broadcast` was called. -/
def trackAck (s : SendSide) (hdr : TcpHeader) : SendSide × Bool :=
  let t := s.ackStage hdr
  (t.resynced hdr.ack, s.sendAcked < hdr.ack || t.hostSeq < hdr.ack || (s.peerWnd = 0 && 0 < hdr.window))

/-- What an acknowledgement should do: one in the window is taken over, takes the segments it covers out of the send
buffer and wakes the calls of `Write` that wait; any other one does nothing. -/
def Tracked (s : SendSide) (ack : UInt32) (r : SendSide × Bool) : Prop :=
  if SeqBetween s.sendAcked ack s.hostSeq then
    r.1.sendAcked = ack ∧ r.1.sendBuf = s.sendBuf.filter (fun seg => SeqBetween ack seg.seqEnd s.hostSeq) ∧ r.2 = true
  else r.1.sendAcked = s.sendAcked ∧ r.1.hostSeq = s.hostSeq ∧ r.1.sendBuf = s.sendBuf
deriving Decidable

/-- The numbers have not wrapped between `sendAcked` and `ack`, and the segments beyond it are those that end less than
`2 ^ 31` later; or `ack` is above neither `sendAcked` nor `hostSeq`. -/
def Unwrapped (s : SendSide) (ack : UInt32) : Prop :=
  if SeqBetween s.sendAcked ack s.hostSeq then
    s.sendAcked < ack ∧ ∀ seg ∈ s.sendBuf, seg.seqEnd - ack ≤ s.hostSeq - ack ↔ seg.seqEnd - ack < 0x80000000
  else ack ≤ s.sendAcked ∧ ack ≤ s.hostSeq

theorem flushNagle_acked (s : SendSide) :
    (s.flushNagle.sendAcked, s.flushNagle.sendBuf) = (s.sendAcked, s.sendBuf) := by
  unfold flushNagle
  split
  · rfl
  · split <;> rfl

/-- A number above `sendAcked` is taken over; the resync would make it the same. -/
theorem trackAck_new {hdr : TcpHeader} (h : s.sendAcked < hdr.ack) :
    (s.trackAck hdr).1.sendAcked = hdr.ack ∧ (s.trackAck hdr).1.sendBuf = sendBufAck s.sendBuf hdr.ack ∧
      (s.trackAck hdr).2 = true := by
  have hstage : s.ackStage hdr = ({ s with peerWnd := hdr.window }.acknowledge hdr.ack).flushNagle := if_pos h
  have hacked := flushNagle_acked ({ s with peerWnd := hdr.window }.acknowledge hdr.ack)
  rw [← hstage, Prod.mk.injEq] at hacked
  simp only [trackAck, resynced, decide_eq_true h, Bool.true_or, and_true]
  split
  · exact ⟨rfl, hacked.2⟩
  · exact hacked

/-- Any other one only matters to the resync. -/
theorem trackAck_old {hdr : TcpHeader} (h : ¬ s.sendAcked < hdr.ack) : (s.trackAck hdr).1.sendBuf = s.sendBuf ∧
      ((s.trackAck hdr).1.sendAcked, (s.trackAck hdr).1.hostSeq) =
        if s.hostSeq < hdr.ack then (hdr.ack, hdr.ack) else (s.sendAcked, s.hostSeq) := by
  have hstage : s.ackStage hdr =
      { s with peerWnd := hdr.window, dupAcks := (s.ackStage hdr).dupAcks } := by
    simp only [ackStage, if_neg h]
    split <;> rfl
  rw [trackAck, hstage]
  dsimp only [resynced]
  split <;> exact ⟨rfl, rfl⟩

/-- The two ways to compare a number with `ack` agree. -/
theorem not_seqLTE_iff (x ack hostSeq : UInt32) :
    (!seqLTE x ack) = decide (SeqBetween ack x hostSeq) ↔ (x - ack ≤ hostSeq - ack ↔ x - ack < 0x80000000) := by
  have hpos : 0 < x - ack ↔ x ≠ ack := by
    rw [UInt32.pos_iff_ne_zero, ne_eq, UInt32.sub_eq_iff_eq_add, UInt32.zero_add]
  have hself : x = ack → x - ack ≤ hostSeq - ack ∧ x - ack < 0x80000000 := by
    intro h
    simp [h]
  rw [Bool.eq_iff_iff]
  simp only [seqLTE, seqLT, SeqBetween, hpos, Bool.not_eq_true', Bool.or_eq_false_iff, decide_eq_false_iff_not,
    decide_eq_true_eq, UInt32.not_le]
  tauto

theorem sendBufAck_eq_filter_iff (segs : List TcpSendSegment) (ack hostSeq : UInt32) :
    sendBufAck segs ack = segs.filter (fun seg => SeqBetween ack seg.seqEnd hostSeq) ↔
      ∀ seg ∈ segs, seg.seqEnd - ack ≤ hostSeq - ack ↔ seg.seqEnd - ack < 0x80000000 := by
  simp only [← not_seqLTE_iff]
  constructor
  · intro h seg hseg
    rw [Bool.eq_iff_iff]
    have hmem := congrArg (seg ∈ ·) h
    simpa only [sendBufAck, mem_filter, hseg, true_and, eq_iff_iff] using hmem
  · exact filter_congr

/-- A number in the window that is not above `sendAcked` is not above `hostSeq` either: both have wrapped. -/
theorem wrapped (hin : SeqBetween s.sendAcked ack s.hostSeq) (hold : ¬ s.sendAcked < ack) :
    ¬ s.hostSeq < ack ∧ s.sendAcked ≠ ack := by
  have hs := s.sendAcked.toNat_lt
  have ha := ack.toNat_lt
  have hh := s.hostSeq.toNat_lt
  simp only [SeqBetween, UInt32.lt_iff_toNat_lt, UInt32.le_iff_toNat_le, UInt32.toNat_sub, UInt32.toNat_zero, ne_eq,
    ← UInt32.toNat_inj] at *
  omega

theorem tracked_iff (s : SendSide) (hdr : TcpHeader) : s.Tracked hdr.ack (s.trackAck hdr) ↔ s.Unwrapped hdr.ack := by
  unfold Tracked Unwrapped
  by_cases hnew : s.sendAcked < hdr.ack
  · obtain ⟨hacked, hbuf, hwoken⟩ := trackAck_new hnew
    rw [hacked, hbuf, hwoken, sendBufAck_eq_filter_iff]
    split
    · simp [hnew]
    · simp [(UInt32.ne_of_lt hnew).symm, UInt32.not_le.2 hnew]
  · obtain ⟨hbuf, hseqs⟩ := trackAck_old hnew
    rw [hbuf]
    split
    · next hin =>
      obtain ⟨hle, hne⟩ := wrapped hin hnew
      rw [if_neg hle] at hseqs
      simp only [Prod.mk.injEq] at hseqs
      simp [hseqs.1, hne, hnew]
    · split at hseqs
      · next hbeyond =>
        simp only [Prod.mk.injEq] at hseqs
        simp [hseqs.2, (UInt32.ne_of_lt hbeyond).symm, UInt32.not_le.2 hbeyond]
      · next hbeyond =>
        simp only [Prod.mk.injEq] at hseqs
        simp [hseqs, UInt32.not_lt.1 hnew, UInt32.not_lt.1 hbeyond]

end SendSide

namespace TcpConn

variable {c : TcpConn} {i : Nat} {t : Task} {hdr : TcpHeader}

/-- The turns of `handleSegment` that can come to its switch. -/
inductive SegmentTurn (hdr : TcpHeader) : Task → Prop
  | segment : SegmentTurn hdr (.segment hdr)
  | timer (left : Bool) : SegmentTurn hdr (.segmentTimer hdr left)
  | resume : SegmentTurn hdr (.segmentResume hdr)

/-- Task `i`, with no other call in between, comes to the switch of `handleSegment` with the sending side `s`: of its
last turn, the switch is left to be made of a connection that differs only in the sending side and the timer. -/
inductive Switches (i : Nat) (hdr : TcpHeader) (ch : Choice) (s : SendSide) : TcpConn → Prop
  | last {c b : TcpConn} {t : Task} (hi : c.tasks[i]? = some t) (hmu : needsMu t = true → c.mu = none)
      (ht : SegmentTurn hdr t) (hb : b = { c with send := s, timer := b.timer })
      (h : c.runTask i t ch = b.segmentSwitch i hdr ch) : Switches i hdr ch s c
  | turn {c : TcpConn} {t : Task} (hi : c.tasks[i]? = some t) (hmu : needsMu t = true → c.mu = none)
      (h : Switches i hdr ch s (c.runTask i t ch)) : Switches i hdr ch s c

variable {s : SendSide}

theorem segmentRest_resynced (hack : hdr.hasAck = true) (ch : Choice) (hs : c.send = s) :
    c.segmentRest i hdr ch = segmentSwitch i hdr ch { c with send := s.resynced hdr.ack } := by
  subst hs
  simp only [segmentRest, hack, Bool.true_and, decide_eq_true_eq, SendSide.resynced]
  split <;> rfl

theorem switches_segmentSend {f : Frame} (hack : hdr.hasAck = true) (ch : Choice)
    (hi : c.tasks[i]? = some (.segmentSend hdr f)) (hmu : c.mu = none) (hs : c.send = s) :
    Switches i hdr ch (s.resynced hdr.ack) c := by
  have hlt : i < c.tasks.length := (List.getElem?_eq_some_iff.1 hi).1
  refine .turn hi nofun ?_
  unfold runTask transmit
  dsimp only
  split <;> exact .last (getElem?_set_self (by simpa [goto])) (fun _ => hmu) .resume rfl
    (segmentRest_resynced hack ch hs)

theorem switches_segmentTimer (hack : hdr.hasAck = true) (ch : Choice)
    (hi : c.tasks[i]? = some (.segmentTimer hdr (s.sendBuf ≠ []))) (hs : c.send = s) :
    Switches i hdr ch (s.flushNagle.resynced hdr.ack) c := by
  subst hs
  have hrun := segmentTimer.eq_def i hdr (c.send.sendBuf ≠ []) ch c
  simp only [decide_eq_true_eq] at hrun
  unfold SendSide.flushNagle
  by_cases hleft : c.send.sendBuf ≠ []
  · rw [if_pos hleft] at hrun ⊢
    exact .last hi nofun (.timer _) rfl (hrun.trans (segmentRest_resynced hack ch rfl))
  · rw [if_neg hleft] at hrun ⊢
    split at hrun
    · next hnagle =>
      rw [if_pos hnagle]
      exact .last hi nofun (.timer _) rfl (hrun.trans (segmentRest_resynced hack ch rfl))
    · next hnagle =>
      rw [if_neg hnagle]
      refine .turn hi nofun ?_
      rw [runTask, hrun]
      exact switches_segmentSend hack ch (getElem?_set_self (List.getElem?_eq_some_iff.1 hi).1) rfl rfl

/-- `handleSegment`, when no other call gets in between, comes to its switch with the sending side of `trackAck`. -/
theorem segment_trackAck (hi : c.tasks[i]? = some (.segment hdr)) (hmu : c.mu = none) (hopen : c.closed = false)
    (hack : hdr.hasAck = true) (ch : Choice) : Switches i hdr ch (c.send.trackAck hdr).1 c := by
  have hlt : i < c.tasks.length := (List.getElem?_eq_some_iff.1 hi).1
  have hrun : c.runTask i (.segment hdr) ch = _ := segment.eq_def i hdr ch c
  rw [if_neg (by simp [hopen]), if_neg (by simp [hack])] at hrun
  dsimp only at hrun
  simp only [SendSide.trackAck, SendSide.ackStage]
  split at hrun
  · next hnew =>
    rw [if_pos hnew]
    refine .turn hi (fun _ => hmu) (hrun ▸ ?_)
    exact .turn (getElem?_set_self hlt) nofun
      (switches_segmentTimer hack ch (getElem?_set_self (by simpa [goto])) rfl)
  · next hold =>
    rw [if_neg hold]
    split at hrun
    · next hdup =>
      rw [if_pos hdup]
      simp only [duplicateAck] at hrun
      split at hrun
      · split at hrun
        · refine .turn hi (fun _ => hmu) (hrun ▸ ?_)
          exact switches_segmentSend hack ch (getElem?_set_self hlt) hmu rfl
        · exact .last hi (fun _ => hmu) .segment rfl (hrun.trans (segmentRest_resynced hack ch rfl))
      · exact .last hi (fun _ => hmu) .segment rfl (hrun.trans (segmentRest_resynced hack ch rfl))
    · next hdup =>
      rw [if_neg hdup]
      exact .last hi (fun _ => hmu) .segment rfl (hrun.trans (segmentRest_resynced hack ch rfl))

theorem segment_trackAck_established : let hdr : TcpHeader := { ack := 1, hasAck := true }
    let c := (established 0 0 9 false 0).step (.call (.segment hdr))
    Switches 0 hdr {} (c.send.trackAck hdr).1 c := segment_trackAck rfl rfl rfl rfl {}

/-- Two bytes are sent from the last number on: their acknowledgement, 1, is dropped, and one of four more bytes is
believed. -/
theorem acks_mistaken :
    let c := (established 0xffffffff 0 100 false 0).run (.call (.write [1, 2]) :: List.replicate 8 (.run 0 {}))
    ¬ c.send.Tracked 1 (c.send.trackAck { ack := 1, hasAck := true, window := 100 }) ∧
      ¬ c.send.Tracked 5 (c.send.trackAck { ack := 5, hasAck := true, window := 100 }) := by
  decide

end TcpConn

end CrumbleCracker.Netstack
