import CrumbleCracker.Netstack.TcpHeld

/-!
# Closing the two directions

In every run in which a FIN of the guest is accepted only after `CloseWrite`, with everything the host sent
acknowledged, the host's FIN is sent at most once and only after `CloseWrite` or `Close`, no data lies at or behind it,
unacknowledged data is kept for retransmission, and no acknowledgement ends the connection before all data is
acknowledged (`closes_in_turn`). A FIN that comes earlier makes the host send its own at once, data follows behind it,
and the next acknowledgement discards the connection with that data (`guest_fin_closes_both`).
-/

namespace CrumbleCracker.Netstack

open List

variable {i : Nat} {t : Task}

def finCount (fs : List Frame) : Nat := (fs.filter Frame.fin).length

theorem finCount_append (fs gs : List Frame) : finCount (fs ++ gs) = finCount fs + finCount gs := by
  simp [finCount]

/-- The FINs that calls are about to send. -/
def finsInHand (ts : List Task) : Nat := (ts.map fun t => finCount t.frames).sum

theorem finsInHand_set {ts : List Task} (hi : ts[i]? = some t) (t' : Task) :
    finsInHand (ts.set i t') + finCount t.frames = finsInHand ts + finCount t'.frames :=
  sum_set (fun t => finCount t.frames) hi t'

namespace TcpConn

/-! ## The invariant -/

/-- The guest's FIN was accepted: the host has closed its direction, and all its data is acknowledged. -/
def AllAcked (c : TcpConn) : Prop := c.writeClosed = true ∧ c.send.stream.length ≤ c.send.ackOff

structure Closes (c : TcpConn) : Prop where
  finWait : c.state = .finWait → AllAcked c
  places : ∀ f ∈ c.wire, f.fin = true → f.off ∈ c.send.finOffs
  frames : ∀ t ∈ c.tasks, ∀ f ∈ t.frames, f.fin = true → f.off ∈ c.send.finOffs
  count : finCount c.wire + finsInHand c.tasks ≤ c.send.finOffs.length

/-- A step without a new FIN. -/
structure Passes (i : Nat) (t t' : Task) (c c' : TcpConn) : Prop where
  tasks : c'.tasks = c.tasks.set i t'
  finOffs : c'.send.finOffs = c.send.finOffs
  finWait : c'.state = .finWait → AllAcked c'
  places : ∀ f, f ∈ c'.wire ∨ f ∈ t'.frames → (f ∈ c.wire ∨ f ∈ t.frames) ∨ f.fin = false
  count : finCount c'.wire + finCount t'.frames ≤ finCount c.wire + finCount t.frames

variable {c : TcpConn}

section Kept

variable (h : Closes c)

include h

variable {c' : TcpConn}

theorem Closes.passes {t' : Task} (hi : c.tasks[i]? = some t) (hp : Passes i t t' c c') : Closes c' := by
  have hold : ∀ f, f ∈ c'.wire ∨ f ∈ t'.frames → f.fin = true → f.off ∈ c.send.finOffs := by
    intro f hf hfin
    rcases hp.places f hf with (hf | hf) | hnot
    · exact h.places f hf hfin
    · exact h.frames t (mem_of_getElem? hi) f hf hfin
    · rw [hnot] at hfin
      cases hfin
  refine ⟨hp.finWait, ?_, ?_, ?_⟩
  · rw [hp.finOffs]
    exact fun f hf => hold f (.inl hf)
  · rw [hp.finOffs, hp.tasks]
    exact forall_mem_set h.frames fun f hf => hold f (.inr hf)
  · have hset := finsInHand_set hi t'
    have hcount := h.count
    have hle := hp.count
    rw [hp.finOffs, hp.tasks]
    omega

/-- What `Closes` reads of a connection. -/
def ending (c : TcpConn) : List Task × List Nat × TcpState × Bool × Bytes × Nat × List Frame :=
  (c.tasks, c.send.finOffs, c.state, c.writeClosed, c.send.stream, c.send.ackOff, c.wire)

theorem Closes.goes (t' : Task) (hi : c.tasks[i]? = some t) (hsame : c'.ending = (c.goto i t').ending)
    (hframes : ∀ f ∈ t'.frames, f ∈ t.frames ∨ f.fin = false) (hcount : finCount t'.frames ≤ finCount t.frames) :
    Closes c' := by
  simp only [ending, goto, Prod.mk.injEq] at hsame
  obtain ⟨htasks, hfins, hstate, hwriteClosed, hstream, hack, hwire⟩ := hsame
  refine h.passes hi ⟨htasks, hfins, ?_, ?_, ?_⟩
  · unfold AllAcked
    rw [hstate, hwriteClosed, hstream, hack]
    exact h.finWait
  · rw [hwire]
    rintro f (hf | hf)
    · exact .inl (.inl hf)
    · rcases hframes f hf with hf | hf
      · exact .inl (.inr hf)
      · exact .inr hf
  · rw [hwire]
    omega

theorem Closes.idles (t' : Task) (hi : c.tasks[i]? = some t) (hsame : c'.ending = (c.goto i t').ending)
    (hframes : t'.frames = []) : Closes c' := by
  apply h.goes t' hi hsame
  · rw [hframes]
    exact nofun
  · rw [hframes]
    exact Nat.zero_le _

theorem Closes.other (s : SendSide) (hs : SameNumbers c.send s) (tm : TimerSide) (m : Option Nat) :
    Closes { c with send := s, timer := tm, mu := m } := by
  have hfins := hs.finOffs
  refine ⟨fun hst => ⟨(h.finWait hst).1, ?_⟩, ?_, ?_, ?_⟩
  · show s.stream.length ≤ s.ackOff
    rw [hs]
    exact (h.finWait hst).2
  · show ∀ f ∈ c.wire, f.fin = true → f.off ∈ s.finOffs
    rw [hfins]
    exact h.places
  · show ∀ t ∈ c.tasks, ∀ f ∈ t.frames, f.fin = true → f.off ∈ s.finOffs
    rw [hfins]
    exact h.frames
  · show _ ≤ s.finOffs.length
    rw [hfins]
    exact h.count

/-! ## Segments -/

variable {iss : UInt32} {B : Nat}

omit h in
theorem allAcked_of_eq {s : SendSide} (hB : B + 1 < 2 ^ 32) (h : Numbers True iss B s) (heq : s.sendAcked = s.hostSeq) :
    s.stream.length ≤ s.ackOff := by
  have hflight := h.toNat_inFlight hB
  have hzero : s.inFlight.toNat = 0 := by
    rw [SendSide.inFlight, heq, UInt32.sub_self]
    rfl
  have hoff := h.off
  omega

variable {hdr : TcpHeader}

variable (ch : Choice)

theorem segmentSwitch_closes (hB : B + 1 < 2 ^ 32) (hs : Sends True iss B c) (hi : c.tasks[i]? = some t)
    (hfin : AcceptsFin c hdr → c.writeClosed = true ∧ c.send.sendAcked = c.send.hostSeq) :
    Closes (c.segmentSwitch i hdr ch) := by
  obtain ⟨r, s, t', heq, hto⟩ := segmentSwitch_cases hs.state i hdr ch
  rw [heq]
  obtain ⟨-, hframes⟩ := hto.shape
  refine h.passes hi ⟨rfl, rfl, ?_, ?_, ?_⟩
  · intro hst
    have hst : s = .finWait := hst
    cases hto with
    | done | stay _ | reset => exact h.finWait hst
    | discard _ _ => cases hst
    | fin _ hf => exact ⟨(hfin hf).1, allAcked_of_eq hB hs.numbers (hfin hf).2⟩
  · rw [hframes]
    rintro f (hf | hf)
    · exact .inl (.inl hf)
    · cases hf
  · rw [hframes]
    exact Nat.le_add_right _ _

/-- The segment is `SegmentOrderly`, and an accepted FIN finds everything acknowledged. -/
def FinOrderly (c : TcpConn) (hdr : TcpHeader) : Prop :=
  SegmentOrderly c hdr ∧ (AcceptsFin c hdr → c.send.sendAcked = c.send.hostSeq)
deriving Decidable

theorem segmentRest_closes (hB : B + 1 < 2 ^ 32) (hs : Sends True iss B c) (hi : c.tasks[i]? = some t)
    (ho : FinOrderly c hdr) :
    Closes (c.segmentRest i hdr ch) := by
  rw [segmentRest_eq ho.1.1]
  exact segmentSwitch_closes h ch hB hs hi fun hf => ⟨ho.1.2 hf, ho.2 hf⟩

omit h in
theorem retransmission_not_fin (c : TcpConn) (seg : TcpSendSegment) {f : Frame} (hf : f ∈ [c.retransmission seg]) :
    f.fin = false := by
  rw [mem_singleton.1 hf]
  rfl

/-- The acknowledgement of the segment is taken first, so its FIN is judged later. -/
def AckFirst (c : TcpConn) (hdr : TcpHeader) : Prop := c.closed = false ∧ hdr.hasAck = true ∧ c.send.sendAcked < hdr.ack
deriving Decidable

theorem segment_closes (hB : B + 1 < 2 ^ 32) (hs : Sends True iss B c) (hi : c.tasks[i]? = some t)
    (hf : AckFirst c hdr ∨ FinOrderly c hdr) : Closes (c.segment i hdr ch) := by
  have hlooks : ∀ wnd dup, Closes (c.looks wnd dup) := fun wnd dup => h.other (c.looks wnd dup).send rfl c.timer c.mu
  refine segment_rule (h.idles .done hi rfl rfl) ?_ ?_ fun _ _ _ => ?_
  · intro wnd dup hlooked
    have hf : FinOrderly c hdr := hf.resolve_left fun hfirst => hlooked.noAck hfirst.2
    exact segmentRest_closes (hlooks wnd dup) ch hB (hs.resends _ rfl hs.buf) hi hf
  · intro wnd dup _ seg _
    refine (hlooks wnd dup).goes (.segmentSend hdr _) hi rfl ?_ (Nat.zero_le _)
    exact fun f hf => .inr (retransmission_not_fin _ seg hf)
  · refine h.passes hi ⟨rfl, rfl, fun hst => ?_, ?_, Nat.le_add_right _ _⟩
    · exact ⟨(h.finWait hst).1, (h.finWait hst).2.trans (Nat.le_add_right _ _)⟩
    · rintro f (hf | hf)
      · exact .inl (.inl hf)
      · cases hf

/-! ## The rest of a call -/

theorem Closes.transmits (t' : Task) {f : Frame} (ok : Bool) (hi : c.tasks[i]? = some t)
    (hframes : t.frames = f :: t'.frames) : Closes ((c.transmit f ok).goto i t') := by
  have hcount : finCount t.frames = finCount [f] + finCount t'.frames := by
    rw [hframes, ← finCount_append]
    rfl
  have hsub : ∀ g ∈ t'.frames, g ∈ t.frames := by
    rw [hframes]
    exact fun g hg => mem_cons_of_mem f hg
  cases ok with
  | false => exact h.goes t' hi rfl (fun g hg => .inl (hsub g hg)) (by omega)
  | true =>
    refine h.passes hi ⟨rfl, rfl, h.finWait, ?_, ?_⟩
    · rintro g (hg | hg)
      · rcases mem_append.1 (show g ∈ c.wire ++ [f] from hg) with hg | hg
        · exact .inl (.inl hg)
        · rw [mem_singleton.1 hg, hframes]
          exact .inl (.inr mem_cons_self)
      · exact .inl (.inr (hsub g hg))
    · show finCount (c.wire ++ [f]) + _ ≤ _
      rw [finCount_append]
      omega

theorem sendFin_closes {as : List Action} (hi : c.tasks[i]? = some (.actions (.sendFin :: as))) :
    Closes ({ c with send := c.send.takeFin }.goto i (.actions (.transmit { c.frame with fin := true } :: as))) := by
  have hmem : ∀ {q : Nat}, q ∈ c.send.finOffs → q ∈ c.send.takeFin.finOffs := fun hq => mem_append_left _ hq
  refine ⟨h.finWait, fun f hf hfin => hmem (h.places f hf hfin), ?_, ?_⟩
  · intro u hu f hf hfin
    rcases mem_or_eq_of_mem_set hu with hu | rfl
    · exact hmem (h.frames u hu f hf hfin)
    · rcases mem_cons.1 (show f ∈ { c.frame with fin := true } :: as.filterMap Action.frame from hf) with rfl | hf
      · exact mem_append_right _ mem_cons_self
      · exact hmem (h.frames _ (mem_of_getElem? hi) f hf hfin)
  · have hset := finsInHand_set hi (.actions (.transmit { c.frame with fin := true } :: as))
    have hcount := h.count
    have hnew : finCount (Task.actions (.transmit { c.frame with fin := true } :: as)).frames =
        1 + finCount (Task.actions (.sendFin :: as)).frames :=
      finCount_append [{ c.frame with fin := true }] (as.filterMap Action.frame)
    show finCount c.wire + finsInHand (c.tasks.set i _) ≤ (c.send.finOffs ++ [c.send.hostOff]).length
    rw [length_append, length_singleton]
    omega

theorem act_closes {a : Action} {as : List Action} (hi : c.tasks[i]? = some (.actions (a :: as))) :
    Closes (c.act i a as ch) := by
  have hrest : ∀ {c' : TcpConn}, a.frame = none → c'.ending = (c.goto i (.actions as)).ending → Closes c' := by
    intro c' ha hsame
    have hframes : (Task.actions (a :: as)).frames = (Task.actions as).frames := by
      show (a :: as).filterMap Action.frame = _
      rw [filterMap_cons_none ha]
      rfl
    refine h.goes (.actions as) hi hsame ?_ ?_
    · rw [hframes]
      exact fun f hf => .inl hf
    · rw [hframes]
  cases a with
  | enqueue data =>
    rw [act]
    split <;> exact hrest rfl rfl
  | sendAck =>
    refine h.goes (.actions (.transmit c.frame :: as)) hi rfl ?_ ?_
    · intro f hf
      rcases mem_cons.1 (show f ∈ c.frame :: as.filterMap Action.frame from hf) with rfl | hf
      · exact .inr rfl
      · exact .inl hf
    · exact le_of_eq ((finCount_append [c.frame] (as.filterMap Action.frame)).trans (Nat.zero_add _))
  | sendFin => exact sendFin_closes h hi
  | transmit f => exact h.transmits (.actions as) ch.ok hi rfl
  | close =>
    rw [act, closeSection]
    split
    · exact hrest rfl rfl
    · refine h.passes hi ⟨rfl, rfl, by rintro ⟨⟩, ?_, ?_⟩
      · rintro f (hf | hf)
        · exact .inl (.inl hf)
        · split at hf <;> exact .inl (.inr hf)
      · split <;> exact le_rfl
  | stopTimer | clearSend | clearRecv => exact hrest rfl rfl

/-! ## `Write` and the timer -/

theorem writeSection_closes {b : Bytes} {written : Nat} (hs : Sends True iss B c)
    (hi : c.tasks[i]? = some (.write b written)) :
    Closes (c.writeSection i b written ch) := by
  refine writeSection_rule hs.numbers h (fun _ => ?_) ?_ fun hopen _ => ?_
  · exact h.idles .done hi rfl rfl
  · exact h.idles .done hi rfl rfl
  · refine h.passes hi ⟨rfl, rfl, fun hst => absurd (.inl (h.finWait hst).1) hopen, ?_, le_rfl⟩
    rintro f (hf | hf)
    · exact .inl (.inl hf)
    · rw [mem_singleton.1 (show f ∈ [c.chunkFrame b written] from hf)]
      exact .inr rfl

theorem backoff_closes (seg : TcpSendSegment) (hi : c.tasks[i]? = some t) : Closes (c.backoff i seg) :=
  h.goes (.timeoutMark _) hi rfl (fun _ hf => .inr (retransmission_not_fin c seg hf)) (Nat.zero_le _)

/-! ## Runs -/

/-- The run is `Orderly`, and a FIN of the guest is accepted only when everything the host sent is acknowledged. -/
def HalfClosing (c : TcpConn) (e : TcpEvent) : Prop :=
  Orderly c e ∧
  match e with
  | .run i _ =>
    match c.tasks[i]? with
    | some (.segment hdr) => AckFirst c hdr ∨ FinOrderly c hdr
    | some (.segmentTimer hdr _) | some (.segmentResume hdr) => FinOrderly c hdr
    | _ => True
  | _ => True

instance (c : TcpConn) (e : TcpEvent) : Decidable (HalfClosing c e) := by
  unfold HalfClosing
  apply @instDecidableAnd _ _ _ ?_
  rcases e with k | id | ⟨i, ch⟩
  · infer_instance
  · infer_instance
  · dsimp only
    rcases c.tasks[i]? with _ | (_ | _) <;> infer_instance

theorem runTask_closes {ch : Choice} (hB : B + 1 < 2 ^ 32) (hs : Sends True iss B c) (hi : c.tasks[i]? = some t)
    (ho : HalfClosing c (.run i ch)) : Closes (c.runTask i t ch) := by
  simp only [HalfClosing, hi] at ho
  have happend : ∀ b written seg (full : Task), full.frames = [] → Closes (c.writeAppend i b written seg full) := by
    intro b written seg full hfull
    exact writeAppend_rule (h.idles full hi rfl hfull) (h.idles (.writeSettle b written seg) hi rfl rfl)
  cases t with
  | segment hdr => exact segment_closes h ch hB hs hi ho.2
  | segmentTimer hdr left =>
    exact segmentTimer_rule
      (fun tm _ _ => segmentRest_closes (h.other c.send rfl tm c.mu) ch hB (hs.other tm c.mu) hi ho.2)
      fun _ hne => absurd (hs.numbers.nagleBuf trivial) hne
  | segmentSend hdr f => exact h.transmits (.segmentResume hdr) ch.ok hi rfl
  | segmentResume hdr => exact segmentRest_closes h ch hB hs hi ho.2
  | actions as =>
    cases as with
    | nil => exact h.idles .done hi rfl rfl
    | cons a as => exact act_closes h ch hi
  | write b written => exact writeSection_closes h ch hs hi
  | writeTransmit b written f =>
    show Closes (c.writeTransmit i b written f ch)
    unfold writeTransmit
    split
    · exact h.transmits (.writeAppend b written f.segment) true hi rfl
    · exact h.idles .done hi rfl rfl
  | writeAppend b written seg | writeRetry b written seg => exact happend b written seg _ rfl
  | writeFull b written seg =>
    rw [runTask]
    split
    · exact h.idles .done hi rfl rfl
    · exact h.idles (.writeFullAck b written seg _) hi rfl rfl
  | writeLen b written seg =>
    rw [runTask]
    split
    · exact h.idles (.write b _) hi rfl rfl
    · exact h.idles (.writeTimer b written seg) hi rfl rfl
  | timeout =>
    refine timeout_rule (fun _ => h.idles .done hi rfl rfl) (fun _ => h.idles .timeoutClear hi rfl rfl) fun seg _ => ?_
    exact ⟨h.idles .timeoutArm hi rfl rfl, fun _ => h.idles (.actions [.close]) hi rfl rfl,
      h.idles (.timeoutResume seg) hi rfl rfl, backoff_closes h seg hi⟩
  | timeoutResume seg => exact backoff_closes h seg hi
  | timeoutMark f => exact h.goes (.timeoutSend f) hi rfl (fun _ hg => .inl hg) le_rfl
  | timeoutSend f => exact h.transmits .timeoutArm ch.ok hi rfl
  | closeWrite =>
    refine closeWrite_rule (h.idles .done hi rfl rfl) fun _ _ => ?_
    refine h.passes hi ⟨rfl, rfl, fun hs => ⟨rfl, (h.finWait hs).2⟩, ?_, le_rfl⟩
    rintro f (hf | hf)
    · exact .inl (.inl hf)
    · cases hf
  | read _ | readTake _ | readStore _ _ | writeTo _ | writeToTake _ | done =>
    exact reader_keeps rfl h fun r t' ht' => h.idles t' hi rfl (Task.frames_reader ht')
  | _ => exact h.idles _ hi rfl rfl

theorem Closes.starts (t : Task) (hframes : t.frames = []) : Closes { c with tasks := c.tasks ++ [t] } := by
  refine ⟨h.finWait, h.places, ?_, ?_⟩
  · apply forall_mem_starts h.frames
    rw [hframes]
    exact nofun
  · have hsame : finsInHand (c.tasks ++ [t]) = finsInHand c.tasks := by
      simp [finsInHand, hframes, finCount]
    show _ + finsInHand (c.tasks ++ [t]) ≤ _
    rw [hsame]
    exact h.count

theorem step_closes (hB : B + 1 < 2 ^ 32) {e : TcpEvent} (hs : Sends True iss B c) (ho : HalfClosing c e) :
    Closes (c.step e) := by
  refine step_rule h (fun k _ => h.starts k.task (by cases k <;> rfl)) (fun _ => ?_) ?_
  · exact (h.starts .timeout rfl).other c.send rfl _ c.mu
  · rintro i ch t rfl hi -
    exact runTask_closes h hB hs hi ho

end Kept

/-- What holds of a connection in every `HalfClosing` run. -/
structure Tended (iss : UInt32) (c : TcpConn) : Prop where
  sends : Sends True iss (2 ^ 30) c
  lone : Lone c.tasks
  holding : Holding iss (2 ^ 30) c
  closes : Closes c

theorem Tended.step {e : TcpEvent} (h : Tended iss c) (ho : HalfClosing c e) : Tended iss (c.step e) :=
  ⟨step_sends h.sends (by decide) ho.1, step_orderly_lone h.lone ho.1,
    step_holding h.holding (by decide) h.sends h.lone ho.1, step_closes h.closes (by decide) h.sends ho⟩

theorem established_tended (iss irs : UInt32) (peerWnd : UInt16) (wndScaleOK : Bool) {peerWndScale : UInt8}
    (hscale : peerWndScale ≤ 14) : Tended iss (established iss irs peerWnd wndScaleOK peerWndScale) :=
  ⟨established_sends iss irs _ _ _ fun _ => SendSide.window_le_of_scale hscale, lone_nil,
    ⟨fun _ => nofun, fun _ => nofun, nofun, nofun⟩,
    ⟨nofun, nofun, nofun, le_rfl⟩⟩

theorem closes_in_turn (iss irs : UInt32) (peerWnd : UInt16) (wndScaleOK : Bool) (peerWndScale : UInt8)
    (es : List TcpEvent) (hscale : peerWndScale ≤ 14)
    (hrun : RunAll HalfClosing (established iss irs peerWnd wndScaleOK peerWndScale) es) :
    let c := (established iss irs peerWnd wndScaleOK peerWndScale).run es
    (c.send.finOffs.length ≤ 1 ∧ (c.send.finOffs ≠ [] → c.writeClosed = true ∨ c.closed = true)) ∧
    ((c.wire.filter Frame.fin).length ≤ 1 ∧ ∀ f ∈ c.wire, f.fin = true → f.off ∈ c.send.finOffs) ∧
    (∀ f ∈ c.wire, f.payload ≠ [] → ∀ q ∈ c.send.finOffs, f.off + f.payload.length ≤ q) ∧
    (c.closed = false → ∀ f ∈ c.wire, f.payload ≠ [] → c.send.ackOff < f.off + f.payload.length →
      Retained c f.off f.payload) ∧
    ∀ i hdr ch, c.state ≠ .closed → (c.segmentSwitch i hdr ch).state = .closed →
      c.send.stream.length ≤ c.send.ackOff := by
  intro c
  obtain ⟨hs, -, hh, h⟩ : Tended iss c := run_rule (fun _ _ h ho => h.step ho) (established_tended _ _ _ _ hscale) hrun
  have hfins := hs.fins
  have hone := hs.numbers.fins
  refine ⟨⟨hone, fun hne => ?_⟩, ⟨?_, h.places⟩, ?_, ?_, ?_⟩
  · by_contra hopen
    exact hne (hs.finOffs_nil hopen)
  · have hcount := h.count
    have : finCount c.wire ≤ 1 := by omega
    exact this
  · intro f hf hne q hq
    rw [hs.numbers.finsAt q hq]
    exact (hs.wire f hf).end_le hne
  · intro hopen f hf hne hbeyond
    rcases hh.wire hopen f hf with hnil | hle | hret
    · exact absurd hnil hne
    · omega
    · exact hret
  · intro i hdr ch hopen hclosed
    obtain ⟨r, s, t', heq, hto⟩ := segmentSwitch_cases hs.state i hdr ch
    rw [heq] at hclosed
    have hclosed : s = .closed := hclosed
    cases hto with
    | done | stay _ | reset => exact absurd hclosed hopen
    | discard hwait _ => exact (h.finWait hwait).2
    | fin _ _ => cases hclosed

/-- A `Write`, its acknowledgement, `CloseWrite`, and the guest's FIN with the acknowledgement of the host's. -/
def closeRun : List TcpEvent :=
  writeOnce 0 [1] ++ [.call (.segment { ack := 1, hasAck := true, window := 10 }), .run 1 {}, .run 1 {}, .run 1 {},
    .call .closeWrite, .run 2 {}, .run 2 {}, .run 2 {}, .run 2 {},
    .call (.segment { ack := 2, hasAck := true, fin := true, window := 10 }), .run 3 {}, .run 3 {},
    .run 3 {}, .run 3 {}, .run 3 {}, .run 3 {}, .run 3 {}]

theorem closes_in_turn_closeRun : RunAll HalfClosing (established 0 0 10 false 0) closeRun ∧
    ((established 0 0 10 false 0).run closeRun).state = .finWait ∧
    ((established 0 0 10 false 0).run closeRun).send.finOffs = [1] ∧
    (∀ f ∈ ((established 0 0 10 false 0).run closeRun).wire, f.payload ≠ [] → f.off + f.payload.length ≤ 1) := by
  have hrun : RunAll HalfClosing (established 0 0 10 false 0) closeRun := by decide +kernel
  have hfin : ((established 0 0 10 false 0).run closeRun).send.finOffs = [1] := by decide +kernel
  obtain ⟨-, -, hdata, -, -⟩ := closes_in_turn 0 0 10 false 0 closeRun (by decide) hrun
  refine ⟨hrun, by decide +kernel, hfin, fun f hf hne => hdata f hf hne 1 ?_⟩
  rw [hfin]
  exact mem_cons_self

/-! ## A FIN of the guest that comes first -/

/-- The guest's FIN, a `Write`, and an acknowledgement of neither the host's FIN nor the byte. -/
def guestFinRun : List TcpEvent :=
  [.call (.segment { fin := true }), .run 0 {}, .run 0 {}, .run 0 {}, .run 0 {}, .run 0 {}, .run 0 {}, .run 0 {}] ++
    writeOnce 1 [1] ++ [.call (.segment { hasAck := true, window := 10 }), .run 2 {}, .run 2 {}]

theorem guest_fin_closes_both : ((established 0 0 10 false 0).run (guestFinRun.take 8)).closed = false ∧
    ((established 0 0 10 false 0).run guestFinRun).writeClosed = false ∧
    ((established 0 0 10 false 0).run guestFinRun).wire.map (fun f => (f.fin, f.off, f.payload)) =
      [(false, 0, []), (true, 0, []), (false, 1, [1])] ∧
    ((established 0 0 10 false 0).run guestFinRun).writes = [([1], 1, true)] ∧
    ((established 0 0 10 false 0).run guestFinRun).closed = true ∧
    ((established 0 0 10 false 0).run guestFinRun).send.ackOff = 0 := by
  decide +kernel

end TcpConn

end CrumbleCracker.Netstack
