import CrumbleCracker.Netstack.TcpSend

/-!
# What is kept for retransmission

While the connection is open, data that went out and is not acknowledged is in the send buffer, or in the hands of the
`Write` that is about to put it there (`Holding`). Acknowledged segments are found by comparing sequence numbers, which
is right as long as less than `2 ^ 31` bytes are in flight.
-/

namespace CrumbleCracker.Netstack

open List

variable {i : Nat} {t : Task}

/-! ## What a call holds -/

/-- The segment `Write` is about to put into the send buffer. -/
def Task.pending : Task → Option TcpSendSegment
  | .writeAppend _ _ seg | .writeFull _ _ seg | .writeFullAck _ _ seg _ | .writeRetry _ _ seg => some seg
  | _ => none

/-- The data, by place, that a call other than `Write` is about to send. -/
def Task.repeats : Task → List (Nat × Bytes)
  | .segmentSend _ f | .timeoutMark f | .timeoutSend f => [(f.off, f.payload)]
  | .actions as => (as.filterMap Action.frame).map fun f => (f.off, f.payload)
  | .timeoutResume seg => [(seg.off, seg.payload)]
  | _ => []

/-- The acknowledgement `Write` has read and is about to clear the send buffer by. -/
def Task.ackRead : Task → Option UInt32
  | .writeFullAck _ _ _ acked | .writeAck _ _ _ acked => some acked
  | _ => none

def Task.acts : Task → List Action
  | .actions as => as
  | _ => []

theorem mem_or_mem_set {ts : List Task} {u : Task} (hi : ts[i]? = some t) (hu : u ∈ ts) (t' : Task) :
    u = t ∨ u ∈ ts.set i t' := by
  obtain ⟨j, hj⟩ := getElem?_of_mem hu
  by_cases hij : i = j
  · subst hij
    rw [hi] at hj
    exact .inl (Option.some.inj hj).symm
  · apply Or.inr
    apply mem_of_getElem? (i := j)
    rw [getElem?_set_ne hij, hj]

theorem mem_set_self {ts : List Task} (hi : ts[i]? = some t) (t' : Task) : t' ∈ ts.set i t' :=
  mem_set (List.getElem?_eq_some_iff.1 hi).1 t'

namespace TcpConn

/-! ## Data that is safe -/

/-- The send buffer has the bytes, or a `Write` that is about to put them there. -/
def Retained (c : TcpConn) (off : Nat) (payload : Bytes) : Prop :=
  (∃ seg ∈ c.send.sendBuf, seg.off = off ∧ seg.payload = payload) ∨
  ∃ t ∈ c.tasks, ∃ seg, t.pending = some seg ∧ seg.off = off ∧ seg.payload = payload

/-- The bytes are acknowledged or retained. -/
def Safe (c : TcpConn) (off : Nat) (payload : Bytes) : Prop :=
  payload = [] ∨ off + payload.length ≤ c.send.ackOff ∨ Retained c off payload

variable {c c' : TcpConn} {payload : Bytes} {off : Nat}

theorem Safe.mono (hack : c.send.ackOff ≤ c'.send.ackOff)
    (hret : ∀ off payload, payload ≠ [] → c'.send.ackOff < off + payload.length → Retained c off payload →
      Retained c' off payload)
    (h : Safe c off payload) : Safe c' off payload := by
  by_cases hne : payload = []
  · exact .inl hne
  by_cases hacked : off + payload.length ≤ c'.send.ackOff
  · exact .inr (.inl hacked)
  rcases h with h | h | h
  · exact absurd h hne
  · omega
  · exact .inr (.inr (hret off payload hne (by omega) h))

/-- Nothing is lost when the segments not acknowledged stay in the send buffer and the call keeps its own. -/
theorem Retained.move (h : Retained c off payload) (hi : c.tasks[i]? = some t) (t' : Task)
    (htasks : c'.tasks = c.tasks.set i t')
    (hbuf : ∀ seg ∈ c.send.sendBuf, seg.off = off → seg.payload = payload → ∃ s ∈ c'.send.sendBuf,
      s.off = off ∧ s.payload = payload)
    (hpending : ∀ seg, t.pending = some seg → seg.off = off → seg.payload = payload → Retained c' off payload) :
    Retained c' off payload := by
  rcases h with ⟨seg, hseg, hoff, hpay⟩ | ⟨u, hu, seg, hseg, hoff, hpay⟩
  · exact .inl (hbuf seg hseg hoff hpay)
  · rcases mem_or_mem_set hi hu t' with rfl | hu
    · exact hpending seg hseg hoff hpay
    · refine .inr ⟨u, ?_, seg, hseg, hoff, hpay⟩
      rw [htasks]
      exact hu

variable {iss : UInt32} {B : Nat} {seg : TcpSendSegment}

/-- Segments beyond an acknowledgement that is not too old stay in the send buffer. -/
theorem mem_sendBufAck {stream : Bytes} {p ackOff : Nat} {segs : List TcpSendSegment} (hB : B < 2 ^ 31)
    (hseg : seg ∈ segs)
    (hsound : SegSound iss stream seg) (hne : seg.payload ≠ []) (hp : p ≤ ackOff) (hnear : stream.length ≤ p + B)
    (hbeyond : ackOff < seg.off + seg.payload.length) : seg ∈ sendBufAck segs (seqAt iss p) := by
  have hend := hsound.slice.end_le hne
  apply mem_filter.2
  refine ⟨hseg, ?_⟩
  rw [hsound.seqEnd, seqLTE_seqAt_of_lt iss (by omega) (by omega)]
  rfl

/-! ## The invariant -/

/-- The acknowledgement a `Write` has read: a place at or below what is acknowledged, not more than `B` behind the
stream. -/
def ReadAt (iss : UInt32) (B : Nat) (s : SendSide) (acked : UInt32) : Prop :=
  ∃ p, acked = seqAt iss p ∧ p ≤ s.ackOff ∧ s.stream.length ≤ p + B

structure Holding (iss : UInt32) (B : Nat) (c : TcpConn) : Prop where
  wire : c.closed = false → ∀ f ∈ c.wire, Safe c f.off f.payload
  repeats : c.closed = false → ∀ t ∈ c.tasks, ∀ x ∈ t.repeats, Safe c x.1 x.2
  reads : ∀ t ∈ c.tasks, ∀ acked, t.ackRead = some acked → ReadAt iss B c.send acked
  clears : ∀ t ∈ c.tasks, (.clearSend ∈ t.acts ∨ .stopTimer ∈ t.acts) → c.closed = true

/-- A step after which all data that was safe is. -/
structure Moves (iss : UInt32) (B i : Nat) (t t' : Task) (c c' : TcpConn) : Prop where
  tasks : c'.tasks = c.tasks.set i t'
  closed : c.closed = true → c'.closed = true
  safe : c'.closed = false → ∀ off payload, Safe c off payload → Safe c' off payload
  wire : ∀ f ∈ c'.wire, f ∈ c.wire ∨ (f.off, f.payload) ∈ t.repeats ∨ Safe c' f.off f.payload
  repeats : ∀ x ∈ t'.repeats, x ∈ t.repeats ∨ Safe c' x.1 x.2
  reads : (∀ acked, ReadAt iss B c.send acked → ReadAt iss B c'.send acked) ∨ ∀ u ∈ c.tasks, u.ackRead = none
  read : ∀ acked, t'.ackRead = some acked → ReadAt iss B c'.send acked
  clears : (.clearSend ∈ t'.acts ∨ .stopTimer ∈ t'.acts) → c'.closed = true

theorem open_of_open (h : c.closed = true → c'.closed = true) (hopen : c'.closed = false) : c.closed = false := by
  cases hc : c.closed with
  | false => rfl
  | true => rw [h hc] at hopen; cases hopen

section Kept

variable (h : Holding iss B c)

include h

variable {t' : Task}

theorem Holding.moves (hi : c.tasks[i]? = some t) (hm : Moves iss B i t t' c c') : Holding iss B c' := by
  have hmem : t ∈ c.tasks := mem_of_getElem? hi
  refine ⟨?_, ?_, ?_, ?_⟩
  · intro hopen f hf
    have hold := open_of_open hm.closed hopen
    rcases hm.wire f hf with hf | hf | hf
    · exact hm.safe hopen _ _ (h.wire hold f hf)
    · exact hm.safe hopen _ _ (h.repeats hold t hmem _ hf)
    · exact hf
  · intro hopen u hu x hx
    have hold := open_of_open hm.closed hopen
    rw [hm.tasks] at hu
    rcases mem_or_eq_of_mem_set hu with hu | rfl
    · exact hm.safe hopen _ _ (h.repeats hold u hu x hx)
    · rcases hm.repeats x hx with hx | hx
      · exact hm.safe hopen _ _ (h.repeats hold t hmem x hx)
      · exact hx
  · intro u hu acked hacked
    rw [hm.tasks] at hu
    rcases mem_or_eq_of_mem_set hu with hu | rfl
    · rcases hm.reads with hr | hr
      · exact hr acked (h.reads u hu acked hacked)
      · rw [hr u hu] at hacked
        cases hacked
    · exact hm.read acked hacked
  · intro u hu hclear
    rw [hm.tasks] at hu
    rcases mem_or_eq_of_mem_set hu with hu | rfl
    · exact hm.closed (h.clears u hu hclear)
    · exact hm.clears hclear

/-- What `Safe` reads of a connection. -/
def keeping (c : TcpConn) : List Task × Nat × List TcpSendSegment := (c.tasks, c.send.ackOff, c.send.sendBuf)

/-- What `Holding` reads of a connection. -/
def holding (c : TcpConn) : (List Task × Nat × List TcpSendSegment) × Bytes × Bool × List Frame :=
  (c.keeping, c.send.stream, c.closed, c.wire)

omit h in
theorem safe_same (hi : c.tasks[i]? = some t) (hsame : c'.keeping = (c.goto i t').keeping)
    (hpending : t'.pending = t.pending) (off : Nat) (payload : Bytes) (h : Safe c off payload) :
    Safe c' off payload := by
  simp only [keeping, goto, Prod.mk.injEq] at hsame
  obtain ⟨htasks, hack, hbuf⟩ := hsame
  refine h.mono hack.ge fun off payload _ _ hret => ?_
  apply hret.move hi t' htasks
  · intro seg hseg hoff hpay
    rw [hbuf]
    exact ⟨seg, hseg, hoff, hpay⟩
  · intro seg hseg hoff hpay
    refine .inr ⟨t', ?_, seg, hpending.trans hseg, hoff, hpay⟩
    rw [htasks]
    exact mem_set_self hi t'

omit h in
theorem not_clears (h : t.acts = []) : ¬ (.clearSend ∈ t.acts ∨ .stopTimer ∈ t.acts) := by
  rw [h]
  simp

theorem Holding.stops (t' : Task) (hi : c.tasks[i]? = some t) (hsame : c'.holding = (c.goto i t').holding)
    (hpending : t'.pending = t.pending) (hrepeats : ∀ x ∈ t'.repeats, x ∈ t.repeats ∨ Safe c x.1 x.2)
    (hread : t'.ackRead = none) (hclears : (.clearSend ∈ t'.acts ∨ .stopTimer ∈ t'.acts) → c.closed = true) :
    Holding iss B c' := by
  simp only [holding, Prod.mk.injEq] at hsame
  obtain ⟨hkeeping, hstream, hclosed, hwire⟩ := hsame
  have hmono := safe_same hi hkeeping hpending
  simp only [keeping, goto, Prod.mk.injEq] at hkeeping
  obtain ⟨htasks, hack, -⟩ := hkeeping
  refine h.moves hi ⟨htasks, fun hc => hclosed.trans hc, fun _ => hmono, ?_, ?_, ?_, ?_,
    fun hc => hclosed.trans (hclears hc)⟩
  · rw [hwire]
    exact fun f hf => .inl hf
  · exact fun x hx => (hrepeats x hx).imp id (hmono x.1 x.2)
  · refine .inl fun acked => ?_
    rintro ⟨p, hp, hle, hnear⟩
    exact ⟨p, hp, by rw [hack]; exact hle, by rw [hstream]; exact hnear⟩
  · rw [hread]
    simp

theorem Holding.goes (t' : Task) (hi : c.tasks[i]? = some t) (hsame : c'.holding = (c.goto i t').holding)
    (hpending : t'.pending = t.pending) (hrepeats : ∀ x ∈ t'.repeats, x ∈ t.repeats) (hread : t'.ackRead = none)
    (hacts : t'.acts = []) : Holding iss B c' :=
  h.stops t' hi hsame hpending (fun x hx => .inl (hrepeats x hx)) hread fun hc => absurd hc (not_clears hacts)

/-- A call goes on with actions it had, or sends frames without data. -/
theorem Holding.acts {a : Action} {as as' : List Action} (hi : c.tasks[i]? = some (.actions (a :: as)))
    (hsame : c'.holding = (c.goto i (.actions as')).holding)
    (has : ∀ b ∈ as', b ∈ a :: as ∨ ∃ f, b = .transmit f ∧ f.payload = []) : Holding iss B c' := by
  refine h.stops (.actions as') hi hsame rfl ?_ rfl fun hclear => ?_
  · intro x hx
    obtain ⟨f, hf, rfl⟩ := mem_map.1 hx
    obtain ⟨b, hb, hbf⟩ := mem_filterMap.1 hf
    rcases has b hb with hb | ⟨g, rfl, hg⟩
    · exact .inl (mem_map.2 ⟨f, mem_filterMap.2 ⟨b, hb, hbf⟩, rfl⟩)
    · obtain rfl := Option.some.inj hbf
      exact .inr (.inl hg)
  · have hold : ∀ b, (∀ f, b ≠ .transmit f) → b ∈ as' → b ∈ a :: as := by
      intro b hne hb
      rcases has b hb with hb | ⟨f, heq, -⟩
      · exact hb
      · exact absurd heq (hne f)
    exact h.clears _ (mem_of_getElem? hi) (hclear.imp (hold _ nofun) (hold _ nofun))

theorem Holding.other (tm : TimerSide) (m : Option Nat) :
    Holding iss B { c with timer := tm, mu := m } := ⟨h.wire, h.repeats, h.reads, h.clears⟩

/-! ## Segments -/

variable {hdr : TcpHeader}

omit h in
theorem SwitchTo.acts {s : TcpState} (h : SwitchTo c hdr s t) : ¬ (.clearSend ∈ t.acts ∨ .stopTimer ∈ t.acts) := by
  have hquiet : ∀ {as : List Action}, Quiet as → ¬ (.clearSend ∈ as ∨ .stopTimer ∈ as) := by
    rintro as hq (hmem | hmem)
    · rcases hq _ hmem with heq | ⟨data, heq⟩
      · cases heq
      · cases heq
    · rcases hq _ hmem with heq | ⟨data, heq⟩
      · cases heq
      · cases heq
  cases h with
  | done | reset | discard _ _ => exact by simp [Task.acts]
  | stay hq => exact hquiet hq
  | fin hq hf =>
    rename_i as
    have hfin : ¬ (.clearSend ∈ finActions c.writeClosed ∨ .stopTimer ∈ finActions c.writeClosed) := by
      cases c.writeClosed <;> simp [finActions]
    rintro (hmem | hmem)
    · rcases mem_append.1 hmem with hmem | hmem
      · exact hquiet hq (.inl hmem)
      · exact hfin (.inl hmem)
    · rcases mem_append.1 hmem with hmem | hmem
      · exact hquiet hq (.inr hmem)
      · exact hfin (.inr hmem)

variable (ch : Choice)

theorem segmentSwitch_holding (hc : Connected c.state) (hi : c.tasks[i]? = some t) (ht : t.pending = none) :
    Holding iss B (c.segmentSwitch i hdr ch) := by
  obtain ⟨r, s, t', heq, hto⟩ := segmentSwitch_cases hc i hdr ch
  have hacts := hto.acts
  obtain ⟨hshape, hframes⟩ := hto.shape
  have hpending : t'.pending = t.pending := by
    rw [ht]
    rcases hshape with rfl | ⟨as, rfl⟩
    · rfl
    · rfl
  have hrepeats : t'.repeats = [] := by
    rcases hshape with rfl | ⟨as, rfl⟩
    · rfl
    · show ((Task.actions as).frames).map _ = []
      rw [hframes]
      rfl
  have hread : t'.ackRead = none := by
    rcases hshape with rfl | ⟨as, rfl⟩
    · rfl
    · rfl
  rw [heq]
  refine h.moves hi ⟨rfl, id, fun _ => safe_same hi rfl hpending, fun f hf => .inl hf, ?_, .inl fun _ => id, ?_, ?_⟩
  · rw [hrepeats]
    exact nofun
  · rw [hread]
    exact nofun
  · exact fun hclear => absurd hclear hacts

theorem segmentRest_holding (hc : Connected c.state) (hi : c.tasks[i]? = some t) (ht : t.pending = none)
    (ho : SegmentOrderly c hdr) : Holding iss B (c.segmentRest i hdr ch) := by
  rw [segmentRest_eq ho.1]
  exact segmentSwitch_holding h ch hc hi ht

theorem Holding.resends (wnd : UInt16) (dup : Nat) :
    Holding iss B { c with send := { c.send with peerWnd := wnd, dupAcks := dup } } :=
  ⟨h.wire, h.repeats, h.reads, h.clears⟩

omit h in
theorem Retained.of_mem (h : seg ∈ c.send.sendBuf) : Retained c seg.off seg.payload :=
  .inl ⟨seg, h, rfl, rfl⟩

omit h in
theorem safe_singleton {xs : List (Nat × Bytes)} (h : Safe c off payload) :
    ∀ x ∈ [(off, payload)], x ∈ xs ∨ Safe c x.1 x.2 := by
  rintro x (_ | ⟨_, ⟨⟩⟩)
  exact .inr h

theorem acknowledge_holding (hB : B < 2 ^ 31) (hs : Sends True iss B c) (hi : c.tasks[i]? = some t)
    (ht : t.pending = none) (hlt : c.send.sendAcked < hdr.ack) (hle : hdr.ack ≤ c.send.hostSeq) (m : Option Nat) :
    Holding iss B ({ c with send := c.send.acknowledge hdr.ack, mu := m }.goto i (.segmentLen hdr)) := by
  have hacked := hs.numbers.acknowledge (by omega) hlt hle
  have hmono : c.send.ackOff ≤ (c.send.acknowledge hdr.ack).ackOff := Nat.le_add_right _ _
  refine h.moves hi ⟨rfl, id, fun _ => ?_, fun f hf => .inl hf, nofun, ?_, nofun, ?_⟩
  · intro off payload hsafe
    refine hsafe.mono hmono fun off payload hne hbeyond hret => ?_
    apply hret.move hi (.segmentLen hdr) rfl
    · rintro seg hseg rfl rfl
      refine ⟨seg, ?_, rfl, rfl⟩
      show seg ∈ sendBufAck c.send.sendBuf hdr.ack
      have hack : hdr.ack = seqAt iss (c.send.acknowledge hdr.ack).ackOff := hacked.acked
      rw [hack]
      exact mem_sendBufAck hB hseg (hs.buf seg hseg) hne le_rfl hacked.bound hbeyond
    · rw [ht]
      exact nofun
  · refine .inl fun acked => ?_
    rintro ⟨p, hp, hle, hnear⟩
    exact ⟨p, hp, hle.trans hmono, hnear⟩
  · rintro (hclear | hclear)
    · cases hclear
    · cases hclear

theorem segment_holding (hB : B < 2 ^ 31) (hs : Sends True iss B c) (hi : c.tasks[i]? = some t) (ht : t.pending = none)
    (ho : SegmentOrderly c hdr) : Holding iss B (c.segment i hdr ch) := by
  refine segment_rule ?_ (fun wnd dup _ => segmentRest_holding (h.resends wnd dup) ch hs.state hi ht ho) ?_ ?_
  · exact h.goes .done hi rfl ht.symm nofun rfl rfl
  · intro wnd dup _ seg hseg
    refine (h.resends wnd dup).stops (.segmentSend hdr _) hi rfl ht.symm ?_ rfl nofun
    exact safe_singleton (.inr (.inr (.of_mem hseg)))
  · intro _ hhas hlt
    have hlooks : Sends True iss B (c.looks hdr.window c.send.dupAcks) := hs.resends _ rfl hs.buf
    exact acknowledge_holding (h.resends _ _) hB hlooks hi ht hlt (UInt32.not_lt.1 (ho.1 hhas)) _

/-! ## The rest of a call -/

variable {f : Frame}

theorem Holding.transmits (t' : Task) (ok : Bool) (hi : c.tasks[i]? = some t) (hf : (f.off, f.payload) ∈ t.repeats)
    (hpending : t'.pending = t.pending) (hmoved : Holding iss B (c.goto i t')) :
    Holding iss B ((c.transmit f ok).goto i t') := by
  cases ok with
  | false => exact hmoved
  | true =>
    refine ⟨fun hopen => forall_mem_append.2 ⟨hmoved.wire hopen, forall_mem_singleton.2 ?_⟩, hmoved.repeats,
      hmoved.reads, hmoved.clears⟩
    exact safe_same hi rfl hpending _ _ (h.repeats hopen t (mem_of_getElem? hi) _ hf)

variable {as : List Action}

theorem act_holding {a : Action} (hi : c.tasks[i]? = some (.actions (a :: as))) : Holding iss B (c.act i a as ch) := by
  have hrest : ∀ {c' : TcpConn}, c'.holding = (c.goto i (.actions as)).holding → Holding iss B c' :=
    fun hsame => h.acts hi hsame fun b hb => .inl (mem_cons_of_mem a hb)
  have hsends : ∀ {c' : TcpConn} (f : Frame), c'.holding = (c.goto i (.actions (.transmit f :: as))).holding →
      f.payload = [] → Holding iss B c' := by
    intro c' f hsame hf
    refine h.acts hi hsame fun b hb => ?_
    rcases mem_cons.1 hb with rfl | hb
    · exact .inr ⟨f, rfl, hf⟩
    · exact .inl (mem_cons_of_mem a hb)
  cases a with
  | enqueue data =>
    rw [act]
    split <;> exact hrest rfl
  | sendAck => exact hsends c.frame rfl rfl
  | sendFin => exact hsends { c.frame with fin := true } rfl rfl
  | transmit f => exact h.transmits (.actions as) ch.ok hi mem_cons_self rfl (hrest rfl)
  | close =>
    rw [act, closeSection]
    split
    · exact hrest rfl
    · refine h.moves hi ⟨rfl, fun _ => rfl, by rintro ⟨⟩, fun f hf => .inl hf, fun x hx => .inl ?_, .inl fun _ => id,
        by rintro _ ⟨⟩, fun _ => rfl⟩
      split at hx <;> exact hx
  | stopTimer | clearRecv => exact hrest rfl
  | clearSend =>
    -- the send buffer is cleared after the connection was closed
    have hclosed : c.closed = true := h.clears _ (mem_of_getElem? hi) (.inl mem_cons_self)
    have hmoved : Holding iss B (c.goto i (.actions as)) := hrest rfl
    have hnot : c.closed = false → False := fun hopen => by rw [hclosed] at hopen; cases hopen
    exact ⟨fun hopen => (hnot hopen).elim, fun hopen => (hnot hopen).elim, hmoved.reads, hmoved.clears⟩

theorem closeWrite_holding (hi : c.tasks[i]? = some .closeWrite) : Holding iss B (c.closeWrite i) := by
  refine closeWrite_rule (h.goes .done hi rfl rfl nofun rfl rfl) fun _ _ => ?_
  refine h.moves hi ⟨rfl, id, fun _ => safe_same hi rfl rfl, fun f hf => .inl hf, nofun, .inl fun _ => id, nofun, ?_⟩
  simp [Task.acts]

/-! ## `Write` -/

omit h in
theorem ackRead_of_not_write (h : t.isWrite = false) : t.ackRead = none := by cases t <;> first | rfl | cases h

variable {written : Nat} {b : Bytes}

theorem take_holding (hl : Lone c.tasks) (hi : c.tasks[i]? = some (.write b written)) :
    Holding iss B ({ c with send := { c.send.take (c.chunk b written) with nagleBuf := [] } }.goto i
      (.writeTransmit b written (c.chunkFrame b written))) := by
  refine h.moves hi ⟨rfl, id, fun _ => safe_same hi rfl rfl, fun f hf => .inl hf, nofun, .inr ?_, nofun, ?_⟩
  · -- no other `Write` has read an acknowledgement
    intro u hu
    obtain ⟨j, hj⟩ := getElem?_of_mem hu
    by_cases hij : j = i
    · subst hij
      rw [hi] at hj
      rw [← Option.some.inj hj]
      rfl
    · exact ackRead_of_not_write (hl.others hi rfl j u hij hj)
  · simp [Task.acts]

theorem writeSection_holding (hs : Sends True iss B c) (hl : Lone c.tasks)
    (hi : c.tasks[i]? = some (.write b written)) :
    Holding iss B (c.writeSection i b written ch) := by
  refine writeSection_rule hs.numbers h (fun _ => ?_) ?_ fun _ _ => take_holding h hl hi
  · exact h.goes .done hi rfl rfl nofun rfl rfl
  · exact h.goes .done hi rfl rfl nofun rfl rfl

theorem writeTransmit_holding (hi : c.tasks[i]? = some (.writeTransmit b written f)) :
    Holding iss B ((c.transmit f true).goto i (.writeAppend b written f.segment)) := by
  have hret : Retained ((c.transmit f true).goto i (.writeAppend b written f.segment)) f.off f.payload :=
    .inr ⟨.writeAppend b written f.segment, mem_set_self hi _, f.segment, rfl, rfl, rfl⟩
  refine h.moves hi ⟨rfl, id, fun _ off payload hsafe => ?_, ?_, nofun, .inl fun _ => id, nofun, ?_⟩
  · refine hsafe.mono ?_ fun off payload _ _ hold => ?_
    · exact le_rfl
    apply hold.move hi (.writeAppend b written f.segment) rfl
    · exact fun seg hseg hoff hpay => ⟨seg, hseg, hoff, hpay⟩
    · exact nofun
  · intro g hg
    rcases mem_append.1 (show g ∈ c.wire ++ [f] from hg) with hg | hg
    · exact .inl hg
    · rw [mem_singleton.1 hg]
      exact .inr (.inr (.inr (.inr hret)))
  · simp [Task.acts]

theorem writeAppend_holding {full : Task} (hi : c.tasks[i]? = some t) (ht : t.pending = some seg)
    (hfull : full.pending = some seg) (hrepeats : full.repeats = []) (hread : full.ackRead = none)
    (hacts : full.acts = []) :
    Holding iss B (c.writeAppend i b written seg full) := by
  apply writeAppend_rule
  · refine h.goes full hi rfl (hfull.trans ht.symm) ?_ hread hacts
    rw [hrepeats]
    exact nofun
  · refine h.moves hi ⟨rfl, id, fun _ off payload hsafe => ?_, fun f hf => .inl hf, nofun, .inl fun _ => id, nofun, ?_⟩
    · refine hsafe.mono ?_ fun off payload _ _ hold => ?_
      · exact le_rfl
      apply hold.move hi (.writeSettle b written seg) rfl
      · exact fun s hs hoff hpay => ⟨s, mem_append_left _ hs, hoff, hpay⟩
      · intro s hs hoff hpay
        rw [ht] at hs
        cases hs
        exact .inl ⟨seg, mem_append_right _ mem_cons_self, hoff, hpay⟩
    · simp [Task.acts]

theorem clear_holding {acked : UInt32} (hB : B < 2 ^ 31) (hs : Sends True iss B c) (hi : c.tasks[i]? = some t)
    (hread : t.ackRead = some acked) (hpending : t'.pending = t.pending) (hrepeats : t'.repeats = [])
    (hread' : t'.ackRead = none) (hacts : t'.acts = []) :
    Holding iss B ({ c with send := { c.send with sendBuf := sendBufAck c.send.sendBuf acked } }.goto i t') := by
  obtain ⟨p, rfl, hle, hnear⟩ := h.reads t (mem_of_getElem? hi) acked hread
  refine h.moves hi ⟨rfl, id, fun _ off payload hsafe => ?_, fun f hf => .inl hf, ?_, .inl fun _ => id, ?_, ?_⟩
  · refine hsafe.mono ?_ fun off payload hne hbeyond hold => ?_
    · exact le_rfl
    apply hold.move hi t' rfl
    · rintro seg hseg rfl rfl
      exact ⟨seg, mem_sendBufAck hB hseg (hs.buf seg hseg) hne hle hnear hbeyond, rfl, rfl⟩
    · intro seg hseg hoff hpay
      exact .inr ⟨t', mem_set_self hi t', seg, hpending.trans hseg, hoff, hpay⟩
  · rw [hrepeats]
    exact nofun
  · rw [hread']
    exact nofun
  · exact fun hclear => absurd hclear (not_clears hacts)

theorem read_holding (hs : Sends True iss B c) (hi : c.tasks[i]? = some t) (hpending : t'.pending = t.pending)
    (hrepeats : t'.repeats = []) (hread : t'.ackRead = some c.send.sendAcked) (hacts : t'.acts = []) :
    Holding iss B (c.goto i t') := by
  refine h.moves hi ⟨rfl, id, fun _ => safe_same hi rfl hpending, fun f hf => .inl hf, ?_, .inl fun _ => id, ?_, ?_⟩
  · rw [hrepeats]
    exact nofun
  · intro acked hacked
    rw [hread] at hacked
    cases hacked
    exact ⟨c.send.ackOff, hs.numbers.acked, le_rfl, hs.numbers.bound⟩
  · exact fun hclear => absurd hclear (not_clears hacts)

/-! ## The timer -/

theorem timeout_holding (hi : c.tasks[i]? = some .timeout) : Holding iss B (c.timeout i ch) := by
  refine timeout_rule (fun _ => ?_) (fun _ => ?_) fun seg hhead => ?_
  · exact h.goes .done hi rfl rfl nofun rfl rfl
  · exact h.goes .timeoutClear hi rfl rfl nofun rfl rfl
  have hseg : Safe c seg.off seg.payload := .inr (.inr (.of_mem (mem_of_mem_head? hhead)))
  refine ⟨?_, fun _ => ?_, ?_, h.stops (.timeoutMark _) hi rfl rfl (safe_singleton hseg) rfl nofun⟩
  · exact h.goes .timeoutArm hi rfl rfl nofun rfl rfl
  · refine h.moves hi ⟨rfl, id, fun _ => safe_same hi rfl rfl, fun f hf => .inl hf, nofun, .inl fun _ => id, nofun, ?_⟩
    simp [Task.acts]
  · exact h.stops (.timeoutResume seg) hi rfl rfl (safe_singleton hseg) rfl nofun

theorem mark_holding (hi : c.tasks[i]? = some (.timeoutMark f)) :
    Holding iss B
      ({ c with send := { c.send with sendBuf := markRetransmitted c.send.sendBuf } }.goto i (.timeoutSend f)) := by
  refine h.moves hi ⟨rfl, id, fun _ off payload hsafe => ?_, fun f hf => .inl hf, fun x hx => .inl hx, .inl fun _ => id,
    nofun, ?_⟩
  · refine hsafe.mono ?_ fun off payload _ _ hold => ?_
    · exact le_rfl
    apply hold.move hi (.timeoutSend f) rfl
    · intro seg hseg hoff hpay
      show ∃ s ∈ markRetransmitted c.send.sendBuf, _
      cases hbuf : c.send.sendBuf with
      | nil =>
        rw [hbuf] at hseg
        cases hseg
      | cons x xs =>
        rw [hbuf] at hseg
        rcases mem_cons.1 hseg with rfl | hseg
        · exact ⟨_, mem_cons_self, hoff, hpay⟩
        · exact ⟨seg, mem_cons_of_mem _ hseg, hoff, hpay⟩
    · exact nofun
  · simp [Task.acts]

/-! ## Runs -/

theorem runTask_holding {ch : Choice} (hB : B < 2 ^ 31) (hs : Sends True iss B c) (hl : Lone c.tasks)
    (hi : c.tasks[i]? = some t) (ho : Orderly c (.run i ch)) : Holding iss B (c.runTask i t ch) := by
  simp only [Orderly, hi] at ho
  have hsound := hs.tasks t (mem_of_getElem? hi)
  have hreader : t.isReader = true → Holding iss B (c.runTask i t ch) := by
    intro ht
    have hnone : ∀ {u : Task}, u.isReader = true → u.pending = none ∧ u.repeats = [] ∧ u.ackRead = none ∧
        u.acts = [] := by
      intro u hu
      cases u <;> first | exact ⟨rfl, rfl, rfl, rfl⟩ | cases hu
    refine reader_keeps ht h fun r t' ht' => ?_
    obtain ⟨hpending, hrepeats, hread, hacts⟩ := hnone ht'
    refine h.goes t' hi rfl (hpending.trans (hnone ht).1.symm) ?_ hread hacts
    rw [hrepeats]
    simp
  cases t with
  | segment hdr => exact segment_holding h ch hB hs hi rfl ho
  | segmentTimer hdr left =>
    exact segmentTimer_rule (fun tm _ _ => segmentRest_holding (h.other tm c.mu) ch hs.state hi rfl ho)
      fun _ hne => absurd (hs.numbers.nagleBuf trivial) hne
  | segmentSend hdr f =>
    exact h.transmits (.segmentResume hdr) ch.ok hi mem_cons_self rfl (h.goes _ hi rfl rfl (forall_mem_nil _) rfl rfl)
  | segmentResume hdr => exact segmentRest_holding h ch hs.state hi rfl ho
  | actions as =>
    cases as with
    | nil => exact h.goes .done hi rfl rfl (forall_mem_nil _) rfl rfl
    | cons a as => exact act_holding h ch hi
  | write b written => exact writeSection_holding h ch hs hl hi
  | writeTransmit b written f =>
    show Holding iss B (c.writeTransmit i b written f ch)
    unfold writeTransmit
    split
    · exact writeTransmit_holding h hi
    · exact h.goes .done hi rfl rfl (forall_mem_nil _) rfl rfl
  | writeAppend b written seg | writeRetry b written seg => exact writeAppend_holding h hi rfl rfl rfl rfl rfl
  | writeFull b written seg =>
    rw [runTask]
    split
    · rename_i hclosed
      -- the connection was closed while `Write` waited for the send buffer
      refine h.moves hi ⟨rfl, id, fun hopen => ?_, fun f hf => .inl hf, forall_mem_nil _,
        .inl fun _ => id, by rintro _ ⟨⟩, ?_⟩
      · have hopen : c.closed = false := hopen
        rw [hclosed] at hopen
        cases hopen
      · exact fun _ => hclosed
    · exact read_holding h hs hi rfl rfl rfl rfl
  | writeFullAck b written seg acked | writeAck b written seg acked =>
    exact clear_holding h hB hs hi rfl rfl rfl rfl rfl
  | writeSettle b written seg => exact read_holding h hs hi rfl rfl rfl rfl
  | writeLen b written seg =>
    rw [runTask]
    split
    · exact h.goes (.write b _) hi rfl rfl (forall_mem_nil _) rfl rfl
    · exact h.goes (.writeTimer b written seg) hi rfl rfl (forall_mem_nil _) rfl rfl
  | timeout => exact timeout_holding h ch hi
  | timeoutResume seg =>
    exact h.goes (.timeoutMark _) hi rfl rfl (fun x hx => hx) rfl rfl
  | timeoutMark f => exact mark_holding h hi
  | timeoutSend f =>
    exact h.transmits .timeoutArm ch.ok hi mem_cons_self rfl (h.goes _ hi rfl rfl (forall_mem_nil _) rfl rfl)
  | closeWrite => exact closeWrite_holding h hi
  | read _ | readTake _ | readStore _ _ | writeTo _ | writeToTake _ | done => exact hreader rfl
  | _ => exact h.goes _ hi rfl rfl (forall_mem_nil _) rfl rfl

theorem Holding.starts (t : Task) (hrepeats : t.repeats = []) (hread : t.ackRead = none)
    (hacts : ¬ (.clearSend ∈ t.acts ∨ .stopTimer ∈ t.acts)) : Holding iss B { c with tasks := c.tasks ++ [t] } := by
  have hsafe : ∀ {off payload}, Safe c off payload → Safe { c with tasks := c.tasks ++ [t] } off payload := by
    rintro off payload (hs | hs | hs | ⟨u, hu, hseg⟩)
    · exact .inl hs
    · exact .inr (.inl hs)
    · exact .inr (.inr (.inl hs))
    · exact .inr (.inr (.inr ⟨u, mem_append_left _ hu, hseg⟩))
  refine ⟨fun hopen f hf => hsafe (h.wire hopen f hf), fun hopen => ?_, ?_, ?_⟩
  · apply forall_mem_starts fun u hu x hx => hsafe (h.repeats hopen u hu x hx)
    rw [hrepeats]
    exact nofun
  · apply forall_mem_starts h.reads
    rw [hread]
    exact nofun
  · exact forall_mem_starts h.clears fun hclear => absurd hclear hacts

theorem step_holding (hB : B < 2 ^ 31) {e : TcpEvent} (hs : Sends True iss B c) (hl : Lone c.tasks) (ho : Orderly c e) :
    Holding iss B (c.step e) := by
  refine step_rule h (fun k _ => ?_) (fun _ => (h.starts .timeout rfl rfl (by simp [Task.acts])).other _ c.mu) ?_
  · apply h.starts
    · cases k <;> rfl
    · cases k <;> rfl
    · cases k <;> simp [TcpCall.task, Task.acts]
  · rintro i ch t rfl hi -
    exact runTask_holding h hB hs hl hi ho

end Kept

end TcpConn

end CrumbleCracker.Netstack
