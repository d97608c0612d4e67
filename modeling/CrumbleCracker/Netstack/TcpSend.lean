import CrumbleCracker.Netstack.TcpSteps

/-!
# The numbers of the sending side

In every run in which no acknowledgement lies beyond what was numbered, the guest's FIN is accepted only after
`CloseWrite` and what Nagle's algorithm has held back fits the window when it is flushed (`Numbered`), the bytes of the
stream have consecutive numbers from `iss` on, every frame and every segment kept for retransmission holds the stream's
bytes at its place, at most one FIN is numbered, and that behind the last byte (`Sends`). `N` is that Nagle's algorithm
stays off; with it the condition is `Orderly`.
-/

namespace CrumbleCracker.Netstack

open List

variable {N : Prop} {iss : UInt32} {seg : TcpSendSegment} {t : Task} {as : List Action} {i : Nat}

/-! ## Numbers -/

theorem toNat_shift_le (w : UInt16) {k : UInt8} (hk : k ≤ 14) : (w.toUInt32 <<< k.toUInt32).toNat ≤ 2 ^ 30 := by
  have hw := w.toNat_lt
  have hk : k.toNat ≤ 14 := by simpa [UInt8.le_iff_toNat_le] using hk
  rw [UInt32.toNat_shiftLeft, UInt16.toNat_toUInt32, UInt8.toNat_toUInt32, Nat.mod_eq_of_lt (by omega : k.toNat < 32),
    Nat.shiftLeft_eq]
  have hpow : 2 ^ k.toNat ≤ 2 ^ 14 := Nat.pow_le_pow_right (by omega) hk
  have hmul : w.toNat * 2 ^ k.toNat ≤ 65535 * 2 ^ 14 := Nat.mul_le_mul (by omega) hpow
  have hmod := Nat.mod_le (w.toNat * 2 ^ k.toNat) (2 ^ 32)
  omega

theorem toNat_shift_lt (w : UInt16) {k : UInt8} (hk : k < 32) :
    (w.toUInt32 <<< k.toUInt32).toNat ≤ 2 ^ 32 - 2 ^ 16 := by
  have hw := w.toNat_lt
  have hk : k.toNat < 32 := by simpa [UInt8.lt_iff_toNat_lt] using hk
  rw [UInt32.toNat_shiftLeft, UInt16.toNat_toUInt32, UInt8.toNat_toUInt32, Nat.mod_eq_of_lt hk, Nat.shiftLeft_eq]
  by_cases h16 : k.toNat ≤ 16
  · have hpow : 2 ^ k.toNat ≤ 2 ^ 16 := Nat.pow_le_pow_right (by omega) h16
    have hmul : w.toNat * 2 ^ k.toNat ≤ 65535 * 2 ^ 16 := Nat.mul_le_mul (by omega) hpow
    have hmod := Nat.mod_le (w.toNat * 2 ^ k.toNat) (2 ^ 32)
    omega
  · -- what is left of a larger shift is a multiple of `2 ^ 16`
    have hdvd : 2 ^ 16 ∣ w.toNat * 2 ^ k.toNat := Dvd.dvd.mul_left (pow_dvd_pow 2 (by omega)) _
    have hdvd : 2 ^ 16 ∣ w.toNat * 2 ^ k.toNat % 2 ^ 32 := (Nat.dvd_mod_iff (by decide)).2 hdvd
    have hmod := Nat.mod_lt (w.toNat * 2 ^ k.toNat) (show 0 < 2 ^ 32 by decide)
    omega

/-- The window leaves room at the top of the numbers, whatever is advertised. -/
theorem SendSide.window_le (s : SendSide) : s.window.toNat ≤ 2 ^ 32 - 2 ^ 16 := by
  have hw := s.peerWnd.toNat_lt
  unfold window
  split
  · split
    · exact toNat_shift_lt s.peerWnd ‹_›
    · simp
  · rw [UInt16.toNat_toUInt32]
    omega

theorem SendSide.window_le_of_scale {s : SendSide} (h : s.peerWndScale ≤ 14) : s.window.toNat ≤ 2 ^ 30 := by
  have hw := s.peerWnd.toNat_lt
  unfold window
  split
  · split
    · exact toNat_shift_le s.peerWnd h
    · simp
  · rw [UInt16.toNat_toUInt32]
    omega

/-- The sending side counts from `iss`, with at most `B` bytes in flight. -/
structure Numbers (N : Prop) (iss : UInt32) (B : Nat) (s : SendSide) : Prop where
  host : s.hostSeq = seqAt iss s.hostOff
  acked : s.sendAcked = seqAt iss s.ackOff
  le : s.ackOff ≤ s.hostOff
  off : s.hostOff = s.stream.length + s.finOffs.length
  fins : s.finOffs.length ≤ 1
  finsAt : ∀ q ∈ s.finOffs, q = s.stream.length
  bound : s.stream.length ≤ s.ackOff + B
  scaled : ∀ w : UInt16, { s with peerWnd := w }.window.toNat ≤ B
  noNagle : N → s.nagleEnabled = false
  nagleBuf : N → s.nagleBuf = []

/-- What acknowledgements, windows and retransmissions change, the stream kept. -/
def SameNumbers (s s' : SendSide) : Prop :=
  s' = { s with peerWnd := s'.peerWnd, sendBuf := s'.sendBuf, dupAcks := s'.dupAcks }

theorem SameNumbers.stream {s s' : SendSide} (h : SameNumbers s s') : s'.stream = s.stream := by rw [h]

theorem SameNumbers.finOffs {s s' : SendSide} (h : SameNumbers s s') : s'.finOffs = s.finOffs := by rw [h]

namespace Numbers

variable {iss : UInt32} {B : Nat} {s s' : SendSide}

section

variable (h : Numbers N iss B s)

include h

theorem same (hs : SameNumbers s s') : Numbers N iss B s' := by
  rw [SameNumbers] at hs
  rw [hs]
  exact ⟨h.host, h.acked, h.le, h.off, h.fins, h.finsAt, h.bound, h.scaled, h.noNagle, h.nagleBuf⟩

theorem toNat_inFlight (hB : B + 1 < 2 ^ 32) : s.inFlight.toNat = s.hostOff - s.ackOff := by
  have hoff := h.off
  have hfins := h.fins
  have hbound := h.bound
  rw [SendSide.inFlight, h.host, h.acked, toNat_seqAt_sub iss h.le, Nat.mod_eq_of_lt (by omega)]

/-- An acknowledgement between `sendAcked` and `hostSeq` moves `sendAcked` on by its distance. -/
theorem ackOff_add_le (hB : B + 1 < 2 ^ 32) {ack : UInt32} (hlt : s.sendAcked < ack)
    (hle : ack ≤ s.hostSeq) : s.ackOff + (ack - s.sendAcked).toNat ≤ s.hostOff := by
  have hflight := h.toNat_inFlight hB
  have hlt' : s.sendAcked.toNat < ack.toNat := UInt32.lt_iff_toNat_lt.1 hlt
  have hle' : ack.toNat ≤ s.hostSeq.toNat := UInt32.le_iff_toNat_le.1 hle
  rw [SendSide.inFlight, UInt32.toNat_sub_of_le _ _ (UInt32.le_iff_toNat_le.2 (by omega))] at hflight
  rw [UInt32.toNat_sub_of_le _ _ (UInt32.le_iff_toNat_le.2 (by omega))]
  have := h.le
  omega

theorem acknowledge (hB : B + 1 < 2 ^ 32) {ack : UInt32} (hlt : s.sendAcked < ack)
    (hle : ack ≤ s.hostSeq) : Numbers N iss B (s.acknowledge ack) := by
  refine ⟨h.host, ?_, h.ackOff_add_le hB hlt hle, h.off, h.fins, h.finsAt, ?_, h.scaled, h.noNagle, h.nagleBuf⟩
  · show ack = seqAt iss (s.ackOff + (ack - s.sendAcked).toNat)
    rw [seqAt_add, ← h.acked, UInt32.ofNat_toNat, UInt32.add_comm, UInt32.sub_add_cancel]
  · show s.stream.length ≤ s.ackOff + (ack - s.sendAcked).toNat + B
    have := h.bound
    omega

theorem fits (hB : B + 1 < 2 ^ 32) (hroom : s.inFlight < s.window) {n : Nat}
    (hn : n ≤ (s.window - s.inFlight).toNat) : s.hostOff + n ≤ s.ackOff + s.window.toNat := by
  have hflight := h.toNat_inFlight hB
  have hroom' := UInt32.lt_iff_toNat_lt.1 hroom
  rw [UInt32.toNat_sub_of_le _ _ (UInt32.le_iff_toNat_le.2 hroom'.le)] at hn
  omega

theorem take (hfin : s.finOffs = []) {data left : Bytes} (hfits : s.hostOff + data.length ≤ s.ackOff + s.window.toNat)
    (hleft : N → left = []) : Numbers N iss B { s.take data with nagleBuf := left } := by
  have hoff := h.off
  have hle := h.le
  have hscaled : s.window.toNat ≤ B := h.scaled s.peerWnd
  rw [hfin, length_nil] at hoff
  have hlen : (s.stream ++ data).length = s.stream.length + data.length := length_append
  refine ⟨?_, h.acked, ?_, ?_, h.fins, ?_, ?_, h.scaled, h.noNagle, hleft⟩
  · show s.hostSeq + UInt32.ofNat data.length = seqAt iss (s.hostOff + data.length)
    rw [seqAt_add, h.host]
  · show s.ackOff ≤ s.hostOff + data.length
    omega
  · show s.hostOff + data.length = (s.stream ++ data).length + s.finOffs.length
    rw [hfin, length_nil]
    omega
  · show ∀ q ∈ s.finOffs, _
    rw [hfin]
    exact nofun
  · show (s.stream ++ data).length ≤ s.ackOff + B
    omega

theorem takeFin (hfin : s.finOffs = []) : Numbers N iss B s.takeFin := by
  have hoff := h.off
  have hle := h.le
  rw [hfin, length_nil] at hoff
  have hfins : s.takeFin.finOffs = [s.hostOff] := by
    show s.finOffs ++ [s.hostOff] = _
    rw [hfin]
    rfl
  refine ⟨?_, h.acked, ?_, ?_, ?_, ?_, h.bound, h.scaled, h.noNagle, h.nagleBuf⟩
  · show s.hostSeq + 1 = seqAt iss (s.hostOff + 1)
    rw [seqAt_add, h.host]
    rfl
  · show s.ackOff ≤ s.hostOff + 1
    omega
  · show s.hostOff + 1 = s.stream.length + s.takeFin.finOffs.length
    rw [hfins, length_singleton]
    omega
  · rw [hfins, length_singleton]
  · rw [hfins]
    intro q hq
    rw [mem_singleton.1 hq]
    show s.hostOff = s.stream.length
    omega

end

end Numbers

/-! ## What holds bytes of the stream -/

/-- `payload` is what the stream has at place `off`, whose number is `seq`. -/
structure Slice (iss : UInt32) (stream : Bytes) (seq : UInt32) (off : Nat) (payload : Bytes) : Prop where
  seq : seq = seqAt iss off
  data : payload <+: stream.drop off

variable {stream : Bytes}

theorem Slice.append {seq : UInt32} {off : Nat} {payload : Bytes} (h : Slice iss stream seq off payload)
    (more : Bytes) :
    Slice iss (stream ++ more) seq off payload := by
  refine ⟨h.seq, h.data.trans ?_⟩
  rw [drop_append]
  exact prefix_append _ _

theorem Slice.end_le {seq : UInt32} {off : Nat} {payload : Bytes} (h : Slice iss stream seq off payload)
    (hne : payload ≠ []) :
    off + payload.length ≤ stream.length := by
  have hlen := h.data.length_le
  rw [length_drop] at hlen
  have := length_pos_iff.2 hne
  omega

structure SegSound (iss : UInt32) (stream : Bytes) (seg : TcpSendSegment) : Prop where
  slice : Slice iss stream seg.seqStart seg.off seg.payload
  seqEnd : seg.seqEnd = seqAt iss (seg.off + seg.payload.length)

theorem SegSound.append (h : SegSound iss stream seg) (more : Bytes) :
    SegSound iss (stream ++ more) seg := ⟨h.slice.append more, h.seqEnd⟩

def FrameSound (iss : UInt32) (stream : Bytes) (f : Frame) : Prop := Slice iss stream f.seq f.off f.payload

variable {f : Frame}

theorem FrameSound.segment (h : FrameSound iss stream f) : SegSound iss stream f.segment := by
  refine ⟨h, ?_⟩
  show f.seq + UInt32.ofNat f.payload.length = seqAt iss (f.off + f.payload.length)
  rw [seqAt_add, h.seq]

theorem sendBufAck_sound {segs : List TcpSendSegment} (h : ∀ s ∈ segs, SegSound iss stream s) (ack : UInt32) :
    ∀ s ∈ sendBufAck segs ack, SegSound iss stream s :=
  fun s hs => h s (mem_of_mem_filter hs)

theorem markRetransmitted_sound {segs : List TcpSendSegment} (h : ∀ s ∈ segs, SegSound iss stream s) :
    ∀ s ∈ markRetransmitted segs, SegSound iss stream s := by
  cases segs with
  | nil => exact h
  | cons x xs =>
    obtain ⟨hx, hxs⟩ := forall_mem_cons.1 h
    exact forall_mem_cons.2 ⟨⟨hx.slice, hx.seqEnd⟩, hxs⟩

/-- What a call holds agrees with the stream, and it does not turn on Nagle's algorithm if that stays off. -/
structure Sound (N : Prop) (iss : UInt32) (stream : Bytes) (t : Task) : Prop where
  frames : ∀ f ∈ t.frames, FrameSound iss stream f
  segs : ∀ s ∈ t.segs, SegSound iss stream s
  noDelay : N → t ≠ .setNoDelay false

theorem Sound.append (h : Sound N iss stream t) (more : Bytes) : Sound N iss (stream ++ more) t :=
  ⟨fun f hf => Slice.append (h.frames f hf) more, fun s hs => (h.segs s hs).append more, h.noDelay⟩

theorem sound_reader (h : t.isReader = true) : Sound N iss stream t := by
  refine ⟨?_, ?_, ?_⟩
  · rw [Task.frames_reader h]
    exact nofun
  · rw [Task.segs_reader h]
    exact nofun
  · rintro - rfl
    cases h

theorem sound_actions (h : (Task.actions as).frames = []) : Sound N iss stream (.actions as) := by
  refine ⟨?_, nofun, fun _ => nofun⟩
  rw [h]
  exact nofun

theorem sound_frame (hf : FrameSound iss stream f) (hframes : t.frames = [f]) (hsegs : t.segs = [])
    (hne : t ≠ .setNoDelay false) : Sound N iss stream t := by
  refine ⟨?_, ?_, fun _ => hne⟩
  · rw [hframes]
    exact forall_mem_singleton.2 hf
  · rw [hsegs]
    exact nofun

theorem sound_seg (hs : SegSound iss stream seg) (hframes : t.frames = []) (hsegs : t.segs = [seg])
    (hne : t ≠ .setNoDelay false) : Sound N iss stream t := by
  refine ⟨?_, ?_, fun _ => hne⟩
  · rw [hframes]
    exact nofun
  · rw [hsegs]
    exact forall_mem_singleton.2 hs

theorem sound_empty (hframes : t.frames = []) (hsegs : t.segs = []) (hne : t ≠ .setNoDelay false) :
    Sound N iss stream t := by
  refine ⟨?_, ?_, fun _ => hne⟩
  · rw [hframes]
    exact nofun
  · rw [hsegs]
    exact nofun

theorem fins_cons (a : Action) (as : List Action) : (Task.actions as).fins ≤ (Task.actions (a :: as)).fins :=
  count_le_count_cons

theorem Sound.rest {a : Action} (h : Sound N iss stream (.actions (a :: as))) : Sound N iss stream (.actions as) := by
  refine ⟨fun f hf => h.frames f ?_, nofun, fun _ => nofun⟩
  obtain ⟨b, hb, hbf⟩ := mem_filterMap.1 hf
  exact mem_filterMap.2 ⟨b, mem_cons_of_mem a hb, hbf⟩

theorem Sound.send (hf : FrameSound iss stream f) (h : Sound N iss stream (.actions as)) :
    Sound N iss stream (.actions (.transmit f :: as)) :=
  ⟨forall_mem_cons.2 ⟨hf, h.frames⟩, nofun, fun _ => nofun⟩

/-! ## FINs to come -/

/-- The FINs that calls are about to number. -/
def finsToCome (ts : List Task) : Nat := (ts.map Task.fins).sum

theorem finsToCome_set {ts : List Task} (hi : ts[i]? = some t) (t' : Task) :
    finsToCome (ts.set i t') + t.fins = finsToCome ts + t'.fins :=
  sum_set Task.fins hi t'

theorem finsToCome_append (ts : List Task) (t : Task) : finsToCome (ts ++ [t]) = finsToCome ts + t.fins := by
  simp [finsToCome]

namespace TcpConn

/-! ## The invariant -/

/-- The host has closed its direction. -/
def Closing (c : TcpConn) : Prop := c.writeClosed = true ∨ c.closed = true
deriving Decidable

structure Sends (N : Prop) (iss : UInt32) (B : Nat) (c : TcpConn) : Prop where
  state : Connected c.state
  numbers : Numbers N iss B c.send
  fins : c.send.finOffs.length + finsToCome c.tasks ≤ if c.Closing then 1 else 0
  wire : ∀ f ∈ c.wire, FrameSound iss c.send.stream f
  buf : ∀ s ∈ c.send.sendBuf, SegSound iss c.send.stream s
  tasks : ∀ t ∈ c.tasks, Sound N iss c.send.stream t

variable {B : Nat} {c : TcpConn}

section Kept

variable (h : Sends N iss B c)

include h

theorem Sends.finOffs_nil (hopen : ¬ c.Closing) : c.send.finOffs = [] := by
  have hfins := h.fins
  rw [if_neg hopen] at hfins
  exact length_eq_zero_iff.1 (by omega)

/-- Task `i` moves from `t` to `t'`; the numbers stay, and what it holds agrees with the stream. -/
structure Keeps (N : Prop) (iss : UInt32) (i : Nat) (t t' : Task) (c c' : TcpConn) : Prop where
  tasks : c'.tasks = c.tasks.set i t'
  state : Connected c'.state
  send : SameNumbers c.send c'.send
  closing : c.Closing → c'.Closing
  fins : t'.fins ≤ t.fins
  wire : ∀ f ∈ c'.wire, f ∈ c.wire ∨ f ∈ t.frames
  buf : ∀ s ∈ c'.send.sendBuf, SegSound iss c.send.stream s
  task : Sound N iss c.send.stream t'

variable {c' : TcpConn}

theorem Sends.keeps {t' : Task} (hi : c.tasks[i]? = some t) (hk : Keeps N iss i t t' c c') : Sends N iss B c' := by
  have hmem : t ∈ c.tasks := mem_of_getElem? hi
  refine ⟨hk.state, h.numbers.same hk.send, ?_, ?_, ?_, ?_⟩
  · have hset := finsToCome_set hi t'
    have hfins := h.fins
    have hle := hk.fins
    rw [hk.tasks, hk.send.finOffs]
    by_cases hclosing : c.Closing
    · rw [if_pos hclosing] at hfins
      rw [if_pos (hk.closing hclosing)]
      omega
    · rw [if_neg hclosing] at hfins
      omega
  · rw [hk.send.stream]
    intro f hf
    rcases hk.wire f hf with hf | hf
    · exact h.wire f hf
    · exact (h.tasks t hmem).frames f hf
  · rw [hk.send.stream]
    exact hk.buf
  · rw [hk.send.stream, hk.tasks]
    exact forall_mem_set h.tasks hk.task

/-- What `Sends` reads of a connection. -/
def sending (c : TcpConn) : List Task × TcpState × SendSide × Bool × Bool × List Frame :=
  (c.tasks, c.state, c.send, c.closed, c.writeClosed, c.wire)

theorem Sends.goes (t' : Task) (hi : c.tasks[i]? = some t) (hsame : c'.sending = (c.goto i t').sending)
    (hfins : t'.fins ≤ t.fins) (hsound : Sound N iss c.send.stream t') : Sends N iss B c' := by
  simp only [sending, Prod.mk.injEq] at hsame
  obtain ⟨htasks, hstate, hsend, hclosed, hwriteClosed, hwire⟩ := hsame
  refine h.keeps hi ⟨htasks, ?_, ?_, ?_, hfins, ?_, ?_, hsound⟩
  · rw [hstate]
    exact h.state
  · rw [hsend]
    rfl
  · unfold Closing
    rw [hclosed, hwriteClosed]
    exact id
  · rw [hwire]
    exact fun f hf => .inl hf
  · rw [hsend]
    exact h.buf

theorem Sends.returns (hi : c.tasks[i]? = some t) (hsame : c'.sending = (c.goto i .done).sending) : Sends N iss B c' :=
  h.goes .done hi hsame (Nat.zero_le _) (sound_reader rfl)

theorem Sends.other (tm : TimerSide) (m : Option Nat) :
    Sends N iss B { c with timer := tm, mu := m } := ⟨h.state, h.numbers, h.fins, h.wire, h.buf, h.tasks⟩

/-! ## Segments -/

/-- An acknowledgement is looked at that lies at or below `hostSeq`; a FIN is accepted that comes after `CloseWrite`. -/
def SegmentOrderly (c : TcpConn) (hdr : TcpHeader) : Prop :=
  (hdr.hasAck = true → ¬ c.send.hostSeq < hdr.ack) ∧ (AcceptsFin c hdr → c.writeClosed = true)
deriving Decidable

variable {hdr : TcpHeader}

variable (ch : Choice)

theorem segmentSwitch_sends (hi : c.tasks[i]? = some t) (hfin : AcceptsFin c hdr → c.writeClosed = true) :
    Sends N iss B (c.segmentSwitch i hdr ch) := by
  obtain ⟨r, s, t', heq, hto⟩ := segmentSwitch_cases h.state i hdr ch
  rw [heq]
  refine h.keeps hi ⟨rfl, hto.connected h.state, rfl, id, ?_, fun f hf => .inl hf, h.buf, ?_⟩
  · cases hto with
    | done | reset | discard _ _ => exact Nat.zero_le _
    | stay hq => rw [hq.fins]; exact Nat.zero_le _
    | fin hq hf =>
      rename_i as
      -- after `CloseWrite` no FIN answers the guest's
      have hcount : (Task.actions (as ++ finActions c.writeClosed)).fins = 0 := by
        show (as ++ finActions c.writeClosed).count .sendFin = 0
        rw [hfin hf, count_append]
        exact congrArg (· + 0) hq.fins
      rw [hcount]
      exact Nat.zero_le _
  · obtain ⟨rfl | ⟨as, rfl⟩, hframes⟩ := hto.shape
    · exact sound_reader rfl
    · exact sound_actions hframes

omit h in
theorem segmentRest_eq (ho : hdr.hasAck = true → ¬ c.send.hostSeq < hdr.ack) (i : Nat) (ch : Choice) :
    c.segmentRest i hdr ch = c.segmentSwitch i hdr ch := by
  have hack : (hdr.hasAck && decide (c.send.hostSeq < hdr.ack)) = false := by
    cases hhas : hdr.hasAck with
    | false => rfl
    | true => exact decide_eq_false (ho hhas)
  rw [segmentRest, if_neg (by rw [hack]; exact nofun)]

theorem segmentRest_sends (hi : c.tasks[i]? = some t) (ho : SegmentOrderly c hdr) :
    Sends N iss B (c.segmentRest i hdr ch) := by
  rw [segmentRest_eq ho.1]
  exact segmentSwitch_sends h ch hi ho.2

theorem Sends.resends (s : SendSide) (hs : SameNumbers c.send s)
    (hbuf : ∀ seg ∈ s.sendBuf, SegSound iss c.send.stream seg) :
    Sends N iss B { c with send := s } := by
  have hstream := hs.stream
  refine ⟨h.state, h.numbers.same hs, ?_, ?_, ?_, ?_⟩
  · show s.finOffs.length + _ ≤ _
    rw [hs.finOffs]
    exact h.fins
  · show ∀ f ∈ c.wire, FrameSound iss s.stream f
    rw [hstream]
    exact h.wire
  · show ∀ seg ∈ s.sendBuf, SegSound iss s.stream seg
    rw [hstream]
    exact hbuf
  · show ∀ u ∈ c.tasks, Sound N iss s.stream u
    rw [hstream]
    exact h.tasks

omit h in
theorem retransmission_sound (c : TcpConn) (h : SegSound iss stream seg) :
    FrameSound iss stream (c.retransmission seg) := ⟨h.slice.seq, h.slice.data⟩

theorem frame_sound : FrameSound iss c.send.stream c.frame :=
  ⟨h.numbers.host, nil_prefix⟩

theorem acknowledge_sends (hB : B + 1 < 2 ^ 32) (hi : c.tasks[i]? = some t) (hlt : c.send.sendAcked < hdr.ack)
    (hle : hdr.ack ≤ c.send.hostSeq) (m : Option Nat) :
    Sends N iss B ({ c with send := c.send.acknowledge hdr.ack, mu := m }.goto i (.segmentLen hdr)) := by
  refine Sends.goes (c := { c with send := c.send.acknowledge hdr.ack, mu := m }) ?_ (.segmentLen hdr) hi rfl
    (Nat.zero_le _) (sound_empty rfl rfl nofun)
  exact ⟨h.state, h.numbers.acknowledge hB hlt hle, h.fins, h.wire, sendBufAck_sound h.buf hdr.ack, h.tasks⟩

theorem segment_sends (hB : B + 1 < 2 ^ 32) (hi : c.tasks[i]? = some t) (ho : SegmentOrderly c hdr) :
    Sends N iss B (c.segment i hdr ch) := by
  have hlooks : ∀ wnd dup, Sends N iss B (c.looks wnd dup) := fun wnd dup => h.resends _ rfl h.buf
  refine segment_rule (h.returns hi rfl) (fun wnd dup _ => segmentRest_sends (hlooks wnd dup) ch hi ho) ?_ ?_
  · intro wnd dup _ seg hseg
    refine (hlooks wnd dup).goes (.segmentSend hdr _) hi rfl (Nat.zero_le _) ?_
    exact sound_frame (retransmission_sound _ (h.buf seg hseg)) rfl rfl nofun
  · intro _ hhas hlt
    exact acknowledge_sends (hlooks hdr.window c.send.dupAcks) hB hi hlt (UInt32.not_lt.1 (ho.1 hhas)) _

/-! ## The rest of a call -/

theorem transmit_sends {t' : Task} (ok : Bool) (hi : c.tasks[i]? = some t) (hf : f ∈ t.frames)
    (hfins : t'.fins ≤ t.fins)
    (hsound : Sound N iss c.send.stream t') : Sends N iss B ((c.transmit f ok).goto i t') := by
  have hsend : (c.transmit f ok).send = c.send := by unfold transmit; split <;> rfl
  have hclosing : (c.transmit f ok).writeClosed = c.writeClosed := by unfold transmit; split <;> rfl
  refine h.keeps hi ⟨?_, ?_, ?_, ?_, hfins, ?_, ?_, hsound⟩
  · show (c.transmit f ok).tasks.set i t' = _
    rw [transmit_tasks]
  · show Connected (c.transmit f ok).state
    rw [transmit_state]
    exact h.state
  · show SameNumbers c.send (c.transmit f ok).send
    rw [hsend]
    rfl
  · show c.Closing → (c.transmit f ok).writeClosed = true ∨ (c.transmit f ok).closed = true
    rw [hclosing, transmit_closed]
    exact id
  · intro g hg
    rcases mem_transmit_wire hg with hg | rfl
    · exact .inl hg
    · exact .inr hf
  · show ∀ s ∈ (c.transmit f ok).send.sendBuf, _
    rw [hsend]
    exact h.buf

/-- A FIN that is about to be numbered is the first, and the host has closed its direction. -/
theorem Sends.fin_first (hi : c.tasks[i]? = some t) (ht : 0 < t.fins) : c.send.finOffs = [] ∧ c.Closing := by
  have hset := finsToCome_set hi .done
  have hfins := h.fins
  have hdone : Task.fins .done = 0 := rfl
  by_cases hclosing : c.Closing
  · rw [if_pos hclosing] at hfins
    exact ⟨length_eq_zero_iff.1 (by omega), hclosing⟩
  · rw [if_neg hclosing] at hfins
    omega

theorem sendFin_sends (hi : c.tasks[i]? = some (.actions (.sendFin :: as))) :
    Sends N iss B
      ({ c with send := c.send.takeFin }.goto i (.actions (.transmit { c.frame with fin := true } :: as))) := by
  have hcount : (Task.actions (.sendFin :: as)).fins = (Task.actions as).fins + 1 := count_cons_self
  have hcount' : (Task.actions (.transmit { c.frame with fin := true } :: as)).fins = (Task.actions as).fins := by
    show List.count _ (_ :: as) = List.count _ as
    simp
  obtain ⟨hnil, hclosing⟩ := h.fin_first hi (by omega)
  have hset := finsToCome_set hi (.actions (.transmit { c.frame with fin := true } :: as))
  have hfins := h.fins
  rw [if_pos hclosing, hnil, length_nil] at hfins
  refine ⟨h.state, h.numbers.takeFin hnil, ?_, h.wire, h.buf, ?_⟩
  · show (c.send.finOffs ++ [c.send.hostOff]).length + finsToCome (c.tasks.set i _) ≤ if c.Closing then 1 else 0
    rw [if_pos hclosing, hnil]
    show 1 + _ ≤ 1
    omega
  · exact forall_mem_set h.tasks (.send (frame_sound h) (h.tasks _ (mem_of_getElem? hi)).rest)

/-- The host closes its direction, and its FIN is to come. -/
theorem Sends.closes (t' : Task) (hi : c.tasks[i]? = some t) (htasks : c'.tasks = c.tasks.set i t')
    (hstate : Connected c'.state) (hsend : c'.send = c.send) (hwire : c'.wire = c.wire) (hclosing : c'.Closing)
    (hfins : t'.fins ≤ t.fins + if c.Closing then 0 else 1) (hsound : Sound N iss c.send.stream t') :
    Sends N iss B c' := by
  refine ⟨hstate, by rw [hsend]; exact h.numbers, ?_, ?_, ?_, ?_⟩
  · have hset := finsToCome_set hi t'
    have hle := h.fins
    rw [hsend, htasks, if_pos hclosing]
    split at hle
    · rename_i hc
      rw [if_pos hc] at hfins
      omega
    · rename_i hc
      rw [if_neg hc] at hfins
      omega
  · rw [hwire, hsend]
    exact h.wire
  · rw [hsend]
    exact h.buf
  · rw [hsend, htasks]
    exact forall_mem_set h.tasks hsound

theorem closeSection_sends (hi : c.tasks[i]? = some (.actions (.close :: as))) :
    Sends N iss B (c.closeSection i as) := by
  have hrest : Sound N iss c.send.stream (.actions as) := (h.tasks _ (mem_of_getElem? hi)).rest
  unfold closeSection
  split
  · exact h.goes (.actions as) hi rfl (fins_cons _ as) hrest
  · rename_i hclosed
    dsimp only
    refine h.closes (.actions _) hi rfl (.inr (.inr rfl)) rfl rfl (.inr rfl) ?_ ?_
    · split
      · rename_i hneed
        have hopen : ¬ c.Closing := by
          rintro (hw | hc)
          · rw [hw] at hneed
            simp at hneed
          · exact hclosed hc
        rw [if_neg hopen]
        show List.count _ (_ :: _ :: _ :: _ :: as) ≤ List.count _ (_ :: as) + 1
        simp
      · show List.count _ (_ :: _ :: _ :: as) ≤ List.count _ (_ :: as) + _
        simp
    · refine ⟨fun f hf => hrest.frames f ?_, nofun, fun _ => nofun⟩
      split at hf
      · exact hf
      · exact hf

theorem act_sends {a : Action} (hi : c.tasks[i]? = some (.actions (a :: as))) : Sends N iss B (c.act i a as ch) := by
  have hrest : Sound N iss c.send.stream (.actions as) := (h.tasks _ (mem_of_getElem? hi)).rest
  cases a with
  | enqueue data =>
    rw [act]
    split <;> exact h.goes (.actions as) hi rfl (fins_cons _ as) hrest
  | sendAck =>
    refine h.goes (.actions (.transmit c.frame :: as)) hi rfl ?_ (.send (frame_sound h) hrest)
    show List.count _ (_ :: as) ≤ List.count _ (_ :: as)
    simp
  | sendFin => exact sendFin_sends h hi
  | transmit f => exact transmit_sends h ch.ok hi mem_cons_self (fins_cons _ as) hrest
  | close => exact closeSection_sends h hi
  | clearSend => exact h.keeps hi ⟨rfl, h.state, rfl, id, fins_cons _ as, fun f hf => .inl hf, by rintro _ ⟨⟩, hrest⟩
  | stopTimer | clearRecv => exact h.goes (.actions as) hi rfl (fins_cons _ as) hrest

theorem closeWrite_sends (hi : c.tasks[i]? = some .closeWrite) : Sends N iss B (c.closeWrite i) := by
  refine closeWrite_rule (h.returns hi rfl) fun hc hw => ?_
  have hopen : ¬ c.Closing := by
    rw [Closing, hc, hw]
    exact nofun
  refine h.closes (.actions [.sendFin]) hi rfl h.state rfl rfl (.inl rfl) ?_ (sound_actions rfl)
  rw [if_neg hopen]
  exact le_rfl

/-! ## `Write` -/

/-- What `Write` takes from its buffer at once. -/
def chunk (c : TcpConn) (b : Bytes) (written : Nat) : Bytes := (b.drop written).take (maxChunk c.send)

/-- What `Write` is about to send: what Nagle's algorithm has held back comes first. -/
def outgoing (c : TcpConn) (b : Bytes) (written : Nat) : Bytes :=
  (c.send.nagleBuf ++ c.chunk b written).take (maxChunk c.send)

/-- What `Write` then leaves in `nagleBuf`. -/
def held (c : TcpConn) (b : Bytes) (written : Nat) : Bytes :=
  (c.send.nagleBuf ++ c.chunk b written).drop (maxChunk c.send)

def outgoingFrame (c : TcpConn) (b : Bytes) (written : Nat) : Frame :=
  { c.frame with
    psh := written + (c.outgoing b written).length = b.length && c.held b written = []
    payload := c.outgoing b written }

def chunkFrame (c : TcpConn) (b : Bytes) (written : Nat) : Frame :=
  { c.frame with psh := written + (c.chunk b written).length = b.length, payload := c.chunk b written }

/-- `Write` is about to number a chunk. -/
def Takes (c : TcpConn) (b : Bytes) (written : Nat) : Prop :=
  ¬c.Closing ∧ c.send.inFlight < c.send.window ∧
    ¬(c.send.nagleEnabled = true ∧ (c.chunk b written).length < maxPayload ∧ 0 < c.send.inFlight)
deriving Decidable

variable {b : Bytes}

omit h in
theorem writeSection_cases {P : TcpConn → Prop} {written : Nat} {ch : Choice} (hstays : P c)
    (hall : b.length ≤ written → P (c.writeReturns i b b.length true)) (hstops : P (c.writeReturns i b written false))
    (hholds : c.send.nagleEnabled = true → ¬c.Closing → P ({ c with
      send := { c.send with nagleBuf := c.send.nagleBuf ++ c.chunk b written } }.goto i
        (.write b (written + (c.chunk b written).length))))
    (htakes : c.Takes b written → P ({ c with
      send := { c.send.take (c.outgoing b written) with nagleBuf := c.held b written } }.goto i
        (.writeTransmit b written (c.outgoingFrame b written)))) :
    P (c.writeSection i b written ch) := by
  unfold writeSection
  split
  · exact hall ‹_›
  split
  · exact hstops
  rename_i hopen
  have hopen : ¬c.Closing := by
    rintro (hw | hc)
    · simp [hw] at hopen
    · simp [hc] at hopen
  split
  · rename_i hroom
    have hroom : 0 < c.send.window ∧ c.send.inFlight < c.send.window := by simpa using hroom
    dsimp only
    split
    · rename_i hnagle
      simp only [Bool.and_eq_true] at hnagle
      exact hholds hnagle.1.1 hopen
    · rename_i hnagle
      exact htakes ⟨hopen, hroom.2, by simpa [chunk] using hnagle⟩
  · split
    · exact hstops
    · exact hstays

omit h in
/-- Without Nagle's algorithm a chunk is sent as it is. -/
theorem writeSection_rule {P : TcpConn → Prop} {written : Nat} {ch : Choice} (hs : Numbers True iss B c.send)
    (hstays : P c)
    (hall : b.length ≤ written → P (c.writeReturns i b b.length true)) (hstops : P (c.writeReturns i b written false))
    (htakes : ¬ c.Closing → c.send.inFlight < c.send.window →
      P ({ c with send := { c.send.take (c.chunk b written) with nagleBuf := [] } }.goto i
        (.writeTransmit b written (c.chunkFrame b written)))) :
    P (c.writeSection i b written ch) := by
  have hout : c.outgoing b written = c.chunk b written := by
    rw [outgoing, hs.nagleBuf trivial, nil_append, chunk, take_take, Nat.min_self]
  have hheld : c.held b written = [] := by
    rw [held, hs.nagleBuf trivial, nil_append, chunk]
    exact drop_eq_nil_of_le (length_take_le _ _)
  refine writeSection_cases hstays hall hstops (fun hnagle _ => ?_) fun ht => ?_
  · rw [hs.noNagle trivial] at hnagle
    cases hnagle
  · have hframe : c.outgoingFrame b written = c.chunkFrame b written := by simp [outgoingFrame, chunkFrame, hout, hheld]
    rw [hout, hheld, hframe]
    exact htakes ht.1 ht.2.1

omit h in
theorem length_outgoing_le (c : TcpConn) (b : Bytes) (written : Nat) :
    (c.outgoing b written).length ≤ (c.send.window - c.send.inFlight).toNat :=
  (length_take_le _ _).trans (Nat.min_le_right _ _)

/-- Bytes that fit the window of an open connection are numbered, and a call has the frame to send. -/
theorem Sends.takes (t' : Task) {f : Frame} {left : Bytes} (hi : c.tasks[i]? = some t) (hopen : ¬ c.Closing)
    (hfits : c.send.hostOff + f.payload.length ≤ c.send.ackOff + c.send.window.toNat) (hleft : N → left = [])
    (hseq : f.seq = c.send.hostSeq) (hoff : f.off = c.send.hostOff) (hframes : t'.frames = [f]) (hsegs : t'.segs = [])
    (hfins : t'.fins = 0) (hne : t' ≠ .setNoDelay false) :
    Sends N iss B ({ c with send := { c.send.take f.payload with nagleBuf := left } }.goto i t') := by
  have hset := finsToCome_set hi t'
  have hcome := h.fins
  refine ⟨h.state, h.numbers.take (h.finOffs_nil hopen) hfits hleft, ?_, ?_, ?_, ?_⟩
  · show c.send.finOffs.length + finsToCome (c.tasks.set i _) ≤ if c.Closing then 1 else 0
    omega
  · exact fun g hg => (h.wire g hg).append _
  · exact fun seg hseg => (h.buf seg hseg).append _
  · refine forall_mem_set (fun u hu => (h.tasks u hu).append _) (sound_frame ⟨hseq.trans ?_, ?_⟩ hframes hsegs hne)
    · rw [hoff]
      exact h.numbers.host
    · have hend : c.send.hostOff = c.send.stream.length := by
        rw [h.numbers.off, h.finOffs_nil hopen]
        rfl
      show f.payload <+: (c.send.stream ++ f.payload).drop f.off
      rw [hoff, hend, drop_left]

/-- What is flushed from `nagleBuf` fits the window of an open connection. -/
def FlushFits (c : TcpConn) : Prop :=
  c.send.nagleBuf ≠ [] → ¬c.Closing ∧ c.send.inFlight.toNat + c.send.nagleBuf.length ≤ c.send.window.toNat
deriving Decidable

def flushFrame (c : TcpConn) : Frame := { c.frame with psh := true, payload := c.send.nagleBuf }

theorem FlushFits.fits (hB : B + 1 < 2 ^ 32) (hf : FlushFits c) (hne : c.send.nagleBuf ≠ []) :
    c.send.hostOff + c.send.nagleBuf.length ≤ c.send.ackOff + c.send.window.toNat := by
  have hflight := h.numbers.toNat_inFlight hB
  have hle := (hf hne).2
  have := h.numbers.le
  omega

theorem flush_sends (hB : B + 1 < 2 ^ 32) (hi : c.tasks[i]? = some t) (hf : FlushFits c) (hne : c.send.nagleBuf ≠ [])
    (hdr : TcpHeader) (tm : TimerSide) : Sends N iss B ({ c with
      timer := tm, send := { c.send.take c.send.nagleBuf with nagleBuf := [] } }.release i
        (.segmentSend hdr c.flushFrame)) :=
  (h.takes (.segmentSend hdr c.flushFrame) (f := c.flushFrame) hi (hf hne).1 (FlushFits.fits h hB hf hne)
    (fun _ => rfl) rfl rfl rfl rfl rfl nofun).other tm none

variable {written : Nat}

theorem take_sends (hB : B + 1 < 2 ^ 32) (hi : c.tasks[i]? = some (.write b written)) (ht : c.Takes b written) :
    Sends N iss B ({ c with send := { c.send.take (c.outgoing b written) with nagleBuf := c.held b written } }.goto i
      (.writeTransmit b written (c.outgoingFrame b written))) := by
  have hfits := h.numbers.fits hB ht.2.1 (c.length_outgoing_le b written)
  refine h.takes (.writeTransmit b written _) (f := c.outgoingFrame b written) hi ht.1 hfits (fun hN => ?_) rfl rfl rfl rfl rfl nofun
  rw [held, h.numbers.nagleBuf hN, nil_append, chunk]
  exact drop_eq_nil_of_le (length_take_le _ _)

theorem writeReturns_sends (hi : c.tasks[i]? = some t) (b : Bytes) (n : Nat) (ok : Bool) :
    Sends N iss B (c.writeReturns i b n ok) :=
  h.returns hi rfl

/-- While Nagle's algorithm is on, `nagleBuf` may hold anything. -/
theorem Sends.nagles (hnagle : c.send.nagleEnabled = true) (held : Bytes) :
    Sends N iss B { c with send := { c.send with nagleBuf := held } } := by
  have hn := h.numbers
  have hno : ¬N := fun hN => by simp [hn.noNagle hN] at hnagle
  exact ⟨h.state, ⟨hn.host, hn.acked, hn.le, hn.off, hn.fins, hn.finsAt, hn.bound, hn.scaled, hn.noNagle,
    fun hN => absurd hN hno⟩, h.fins, h.wire, h.buf, h.tasks⟩

theorem writeSection_sends (hB : B + 1 < 2 ^ 32) (hi : c.tasks[i]? = some (.write b written)) :
    Sends N iss B (c.writeSection i b written ch) := by
  refine writeSection_cases h (fun _ => ?_) ?_ (fun hnagle _ => ?_) (take_sends h hB hi)
  · exact writeReturns_sends h hi _ _ _
  · exact writeReturns_sends h hi _ _ _
  · exact (h.nagles hnagle (c.send.nagleBuf ++ c.chunk b written)).goes (.write b _) hi rfl (Nat.zero_le _)
      (sound_empty rfl rfl nofun)

omit h in
theorem writeAppend_rule {P : TcpConn → Prop} {full : Task} (hfull : P (c.goto i full))
    (hsettles : P
      ({ c with send := { c.send with sendBuf := c.send.sendBuf ++ [seg] } }.goto i (.writeSettle b written seg))) :
    P (c.writeAppend i b written seg full) := by
  unfold writeAppend sendBufAppend
  split
  · exact hfull
  · rename_i segs hsegs
    split at hsegs
    · cases hsegs
    · have hsegs : c.send.sendBuf ++ [seg] = segs := Option.some.inj hsegs
      rw [← hsegs]
      exact hsettles

theorem writeAppend_sends {full : Task} (hi : c.tasks[i]? = some t) (hseg : SegSound iss c.send.stream seg)
    (hfins : full.fins = 0) (hfull : Sound N iss c.send.stream full) :
    Sends N iss B (c.writeAppend i b written seg full) := by
  apply writeAppend_rule
  · refine h.goes full hi rfl ?_ hfull
    rw [hfins]
    exact Nat.zero_le _
  · refine h.keeps hi ⟨rfl, h.state, rfl, id, Nat.zero_le _, fun f hf => .inl hf, ?_, sound_seg hseg rfl rfl nofun⟩
    exact forall_mem_append.2 ⟨h.buf, forall_mem_singleton.2 hseg⟩

/-! ## The timer -/

theorem backoff_sends (hi : c.tasks[i]? = some t) (hseg : SegSound iss c.send.stream seg) :
    Sends N iss B (c.backoff i seg) :=
  h.keeps hi ⟨rfl, h.state, rfl, id, Nat.zero_le _, fun _ hf => .inl hf, h.buf,
    sound_frame (retransmission_sound c hseg) rfl rfl nofun⟩

theorem timeout_sends (hi : c.tasks[i]? = some .timeout) : Sends N iss B (c.timeout i ch) := by
  refine timeout_rule (fun _ => h.returns hi rfl) (fun _ => ?_) fun seg hhead => ⟨?_, fun _ => ?_, ?_, ?_⟩
  · exact h.goes .timeoutClear hi rfl (Nat.zero_le _) (sound_empty rfl rfl nofun)
  · exact h.goes .timeoutArm hi rfl (Nat.zero_le _) (sound_empty rfl rfl nofun)
  · exact h.goes (.actions [.close]) hi rfl (Nat.zero_le _) (sound_actions rfl)
  · have hseg := h.buf seg (mem_of_mem_head? hhead)
    exact h.goes (.timeoutResume seg) hi rfl (Nat.zero_le _) (sound_seg hseg rfl rfl nofun)
  · exact backoff_sends h hi (h.buf seg (mem_of_mem_head? hhead))

/-! ## Runs -/

/-- One call of `Write` is made after the other, segments are `SegmentOrderly` whenever `handleSegment` goes on with
them, and what it flushes fits the window; Nagle's algorithm is not turned on if it stays off. -/
def Numbered (N : Prop) (c : TcpConn) : TcpEvent → Prop
  | .call (.setNoDelay noDelay) => N → noDelay = true
  | .call (.write _) => ∀ t ∈ c.tasks, t.isWrite = false
  | .call _ => True
  | .fire _ => True
  | .run i _ =>
    match c.tasks[i]? with
    | some (.segment hdr) | some (.segmentResume hdr) => SegmentOrderly c hdr
    | some (.segmentTimer hdr left) => SegmentOrderly c hdr ∧ (left = false → FlushFits c)
    | _ => True

/-- Nagle's algorithm is not turned on, one call of `Write` is made after the other, and segments are `SegmentOrderly`
whenever `handleSegment` goes on with them. -/
def Orderly (c : TcpConn) : TcpEvent → Prop
  | .call (.setNoDelay noDelay) => noDelay = true
  | .call (.write _) => ∀ t ∈ c.tasks, t.isWrite = false
  | .call _ => True
  | .fire _ => True
  | .run i _ =>
    match c.tasks[i]? with
    | some (.segment hdr) | some (.segmentTimer hdr _) | some (.segmentResume hdr) => SegmentOrderly c hdr
    | _ => True

instance (c : TcpConn) (e : TcpEvent) : Decidable (Orderly c e) := by
  unfold Orderly
  rcases e with (_ | _) | id | ⟨i, ch⟩
  case run => dsimp only; rcases c.tasks[i]? with _ | (_ | _) <;> infer_instance
  all_goals infer_instance

instance [Decidable N] (c : TcpConn) (e : TcpEvent) : Decidable (Numbered N c e) := by
  unfold Numbered
  rcases e with (_ | _) | id | ⟨i, ch⟩
  case run => dsimp only; rcases c.tasks[i]? with _ | (_ | _) <;> infer_instance
  all_goals infer_instance

omit h in
theorem Numbered.off {e : TcpEvent} (he : N → e ≠ .call (.setNoDelay false)) (ho : Numbered False c e) :
    Numbered N c e := by
  rcases e with (_ | _) | id | ⟨i, ch⟩
  case call.setNoDelay noDelay =>
    intro hN
    cases noDelay with
    | true => rfl
    | false => exact absurd rfl (he hN)
  all_goals exact ho

omit h in
theorem Orderly.numbered (h : Sends True iss B c) {e : TcpEvent} (ho : Orderly c e) : Numbered True c e := by
  rcases e with (_ | _) | id | ⟨i, ch⟩
  case run =>
    cases hi : c.tasks[i]? with
    | none => simp only [Numbered, hi]
    | some t =>
      simp only [Orderly, Numbered, hi] at ho ⊢
      cases t with
      | segmentTimer hdr left => exact ⟨ho, fun _ hne => absurd (h.numbers.nagleBuf trivial) hne⟩
      | _ => exact ho
  case call.setNoDelay => exact fun _ => ho
  all_goals exact ho

theorem Sends.delays {noDelay : Bool} (hoff : N → noDelay ≠ false) :
    Sends N iss B { c with send := { c.send with nagleEnabled := !noDelay } } := by
  have hn := h.numbers
  refine ⟨h.state,
    ⟨hn.host, hn.acked, hn.le, hn.off, hn.fins, hn.finsAt, hn.bound, hn.scaled, fun hN => ?_, hn.nagleBuf⟩,
    h.fins, h.wire, h.buf, h.tasks⟩
  simpa using hoff hN

theorem runTask_sends {ch : Choice} (hB : B + 1 < 2 ^ 32) (hi : c.tasks[i]? = some t) (ho : Numbered N c (.run i ch)) :
    Sends N iss B (c.runTask i t ch) := by
  simp only [Numbered, hi] at ho
  have hsound := h.tasks t (mem_of_getElem? hi)
  have hreader : t.isReader = true → Sends N iss B (c.runTask i t ch) := by
    intro ht
    refine reader_keeps ht h fun r t' ht' => h.goes t' hi rfl ?_ (sound_reader ht')
    rw [Task.fins_reader ht']
    exact Nat.zero_le _
  cases t with
  | segment hdr => exact segment_sends h ch hB hi ho
  | segmentLen hdr | writeTimer b written seg =>
    exact h.goes _ hi rfl (Nat.zero_le _) (sound_empty rfl rfl (by simp))
  | segmentTimer hdr left =>
    exact segmentTimer_rule (fun tm _ _ => segmentRest_sends (h.other tm c.mu) ch hi ho.1)
      fun hleft hne => flush_sends h hB hi (ho.2 hleft) hne hdr _
  | segmentSend hdr f =>
    exact transmit_sends h ch.ok hi mem_cons_self (Nat.zero_le _) (sound_empty rfl rfl (by simp))
  | segmentResume hdr => exact segmentRest_sends h ch hi ho
  | actions as =>
    cases as with
    | nil => exact h.returns hi rfl
    | cons a as => exact act_sends h ch hi
  | write b written => exact writeSection_sends h ch hB hi
  | writeTransmit b written f =>
    have hf : FrameSound iss c.send.stream f := hsound.frames f mem_cons_self
    show Sends N iss B (c.writeTransmit i b written f ch)
    unfold writeTransmit
    split
    · exact transmit_sends h true hi mem_cons_self (Nat.zero_le _) (sound_seg hf.segment rfl rfl (by simp))
    · exact writeReturns_sends h hi _ _ _
  | writeAppend b written seg | writeRetry b written seg =>
    have hseg := hsound.segs seg mem_cons_self
    exact writeAppend_sends h hi hseg rfl (sound_seg hseg rfl rfl (by simp))
  | writeFull b written seg =>
    rw [runTask]
    split
    · exact writeReturns_sends h hi _ _ _
    · exact h.goes (.writeFullAck b written seg _) hi rfl (Nat.zero_le _)
        (sound_seg (hsound.segs seg mem_cons_self) rfl rfl (by simp))
  | writeFullAck b written seg acked | writeAck b written seg acked =>
    exact h.keeps hi ⟨rfl, h.state, rfl, id, Nat.zero_le _, fun f hf => .inl hf, sendBufAck_sound h.buf acked,
      sound_seg (hsound.segs seg mem_cons_self) rfl rfl (by simp)⟩
  | writeSettle b written seg =>
    exact h.goes (.writeAck b written seg _) hi rfl (Nat.zero_le _)
      (sound_seg (hsound.segs seg mem_cons_self) rfl rfl (by simp))
  | writeLen b written seg =>
    rw [runTask]
    split
    · exact h.goes (.write b _) hi rfl (Nat.zero_le _) (sound_empty rfl rfl (by simp))
    · exact h.goes (.writeTimer b written seg) hi rfl (Nat.zero_le _)
        (sound_seg (hsound.segs seg mem_cons_self) rfl rfl (by simp))
  | timeout => exact timeout_sends h ch hi
  | timeoutClear | timeoutArm => exact h.returns hi rfl
  | timeoutResume seg => exact backoff_sends h hi (hsound.segs seg mem_cons_self)
  | timeoutMark f =>
    exact h.keeps hi ⟨rfl, h.state, rfl, id, Nat.zero_le _, fun g hg => .inl hg, markRetransmitted_sound h.buf,
      sound_frame (hsound.frames f mem_cons_self) rfl rfl (by simp)⟩
  | timeoutSend f => exact transmit_sends h ch.ok hi mem_cons_self (Nat.zero_le _) (sound_empty rfl rfl (by simp))
  | closeWrite => exact closeWrite_sends h hi
  | setNoDelay noDelay => exact (h.delays fun hN heq => hsound.noDelay hN (heq ▸ rfl)).returns hi rfl
  | _ => exact hreader rfl

theorem Sends.starts (t : Task) (hfins : t.fins = 0) (hsound : Sound N iss c.send.stream t) :
    Sends N iss B { c with tasks := c.tasks ++ [t] } := by
  refine ⟨h.state, h.numbers, ?_, h.wire, h.buf, ?_⟩
  · show _ + finsToCome (c.tasks ++ [t]) ≤ if c.Closing then 1 else 0
    rw [finsToCome_append, hfins]
    exact h.fins
  · exact forall_mem_starts h.tasks hsound

theorem step_numbered (hB : B + 1 < 2 ^ 32) {e : TcpEvent} (ho : Numbered N c e) : Sends N iss B (c.step e) := by
  refine step_rule h ?_ (fun _ => (h.starts .timeout rfl (sound_empty rfl rfl nofun)).other _ c.mu) ?_
  · rintro k rfl
    apply h.starts
    · cases k <;> rfl
    · refine ⟨?_, ?_, ?_⟩
      · cases k <;> exact nofun
      · cases k <;> exact nofun
      · cases k with
        | setNoDelay noDelay =>
          rintro hN ⟨⟩
          cases ho hN
        | _ => exact fun _ => nofun
  · rintro i ch t rfl hi -
    exact runTask_sends h hB hi ho

end Kept

theorem step_sends (h : Sends True iss B c) (hB : B + 1 < 2 ^ 32) {e : TcpEvent} (ho : Orderly c e) :
    Sends True iss B (c.step e) :=
  step_numbered h hB (ho.numbered h)

theorem step_numbered_lone {e : TcpEvent} (h : Lone c.tasks) (ho : Numbered N c e) : Lone (c.step e).tasks := by
  apply step_lone h
  rintro b rfl
  exact ho

theorem step_orderly_lone {e : TcpEvent} (h : Lone c.tasks) (ho : Orderly c e) : Lone (c.step e).tasks := by
  apply step_lone h
  rintro b rfl
  exact ho

theorem established_sends (iss irs : UInt32) (peerWnd : UInt16) (wndScaleOK : Bool) (peerWndScale : UInt8)
    (hscale : ∀ w, (established iss irs w wndScaleOK peerWndScale).send.window.toNat ≤ B) :
    Sends N iss B (established iss irs peerWnd wndScaleOK peerWndScale) := by
  have hzero : iss = seqAt iss 0 := (seqAt_zero iss).symm
  exact ⟨.inl rfl, ⟨hzero, hzero, le_rfl, rfl, Nat.zero_le _, nofun, Nat.zero_le _, hscale, fun _ => rfl, fun _ => rfl⟩,
    Nat.zero_le _, nofun, nofun, nofun⟩

end TcpConn

end CrumbleCracker.Netstack
