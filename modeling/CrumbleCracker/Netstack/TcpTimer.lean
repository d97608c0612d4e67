import CrumbleCracker.Netstack.TcpClose

/-!
# The retransmission timer

In every run without `CloseWrite`, Nagle's algorithm or a FIN of the guest, in which no segment was sent again so often
that the connection is given up: while the connection is open, data that went out and is not acknowledged is in the send
buffer, and a timer is armed or a call in progress will arm one; or a `Write` in progress is about to put it there
(`unacked_has_timer`). A FIN, and the bytes that an acknowledgement flushes from `nagleBuf`, are sent with neither
(`no_timer_for_fin_or_nagle`).

* `Timed` : the invariant. While a call is about to stop the timer or to clear `retxTimer`, what comes into the send
  buffer belongs to a `Write` that waits for `c.mu` and then starts the timer;
* `Timed.steps` : what a step must do to keep it.
-/

namespace CrumbleCracker.Netstack

open List

variable {t : Task}

/-- A call of `onRetxTimeout` that will arm the next timer, if the send buffer is not empty. -/
def Task.handles : Task → Bool
  | .timeout | .timeoutResume _ | .timeoutMark _ | .timeoutSend _ | .timeoutArm => true
  | _ => false

/-- A call that will arm a timer, if none is and the send buffer is not empty. -/
def Task.willArm : Task → Bool
  | .timeout | .timeoutResume _ | .timeoutMark _ | .timeoutSend _ | .timeoutArm => true
  | .writeSettle _ _ _ | .writeAck _ _ _ _ | .writeLen _ _ _ | .writeTimer _ _ _ => true
  | .segmentLen _ | .segmentTimer _ true => true
  | _ => false

def Task.holdsMu : Task → Bool
  | .segmentLen _ | .segmentTimer _ _ | .timeoutClear => true
  | _ => false

/-- The send buffer was empty, and the timer is about to be stopped or forgotten. -/
def Task.forgets : Task → Bool
  | .segmentTimer _ false | .timeoutClear => true
  | _ => false

/-- `Write` has put a segment into the send buffer and waits for `c.mu`. -/
def Task.settles : Task → Bool
  | .writeSettle _ _ _ => true
  | _ => false

theorem Task.holdsMu_of_forgets (h : t.forgets = true) : t.holdsMu = true := by
  cases t <;> first | rfl | cases h

theorem Task.willArm_of_settles (h : t.settles = true) : t.willArm = true := by
  cases t <;> first | rfl | cases h

theorem Task.willArm_of_handles (h : t.handles = true) : t.willArm = true := by
  cases t <;> first | rfl | cases h

namespace TcpConn

/-! ## The invariant -/

structure Timed (c : TcpConn) : Prop where
  lock : ∀ (j : Nat) (u : Task), c.tasks[j]? = some u → u.holdsMu = true → c.mu = some j
  buf : c.closed = false → c.send.sendBuf ≠ [] → c.timer.armed ≠ [] ∨ ∃ u ∈ c.tasks, u.willArm = true
  timer : c.closed = false → c.timer.retxTimer.isSome = true →
    c.timer.armed ≠ [] ∨ (∃ u ∈ c.tasks, u.handles = true) ∨ .timeoutClear ∈ c.tasks
  forgets : c.closed = false → (∃ u ∈ c.tasks, u.forgets = true) →
    c.send.sendBuf = [] ∨ ∃ u ∈ c.tasks, u.settles = true
  writeOpen : c.writeClosed = false
  noCloseWrite : ∀ u ∈ c.tasks, u ≠ .closeWrite

variable {c : TcpConn} {i : Nat}

section Kept

variable (h : Timed c)

include h

/-- No one else holds `c.mu` when it is free, or held by task `i`. -/
theorem Timed.alone (hmu : c.mu = none ∨ c.mu = some i) {j : Nat} {u : Task} (hj : c.tasks[j]? = some u)
    (hu : u.holdsMu = true) : j = i := by
  have hlock := h.lock j u hj hu
  rcases hmu with hmu | hmu
  · rw [hmu] at hlock
    cases hlock
  · rw [hmu] at hlock
    exact (Option.some.inj hlock).symm

variable {c' : TcpConn}

variable (t' : Task)

/-- A step of task `i` keeps the invariant: what it must say of the lock, the send buffer and the timer. -/
theorem Timed.steps (hi : c.tasks[i]? = some t) (htasks : c'.tasks = c.tasks.set i t')
    (hclosed : c.closed = true → c'.closed = true) (hmu : c'.mu = c.mu ∨ c.mu = none ∨ c.mu = some i)
    (hown : t'.holdsMu = true → c'.mu = some i) (hsettles : t.settles = true → c.mu = none)
    (hbuf : c'.closed = false → c'.send.sendBuf ≠ [] → t'.willArm = true ∨ c'.timer.armed ≠ [] ∨
      (∃ u ∈ c.tasks, u.willArm = true ∧ u ≠ t) ∨
      (c.send.sendBuf ≠ [] ∧ c'.timer.armed = c.timer.armed ∧ t.willArm = false))
    (htimer : c'.closed = false → c'.timer.retxTimer.isSome = true → t'.handles = true ∨ t' = .timeoutClear ∨
      c'.timer.armed ≠ [] ∨ (c'.timer = c.timer ∧ t.handles = false ∧ t ≠ .timeoutClear))
    (hgrows : c'.closed = false → c.send.sendBuf = [] → c'.send.sendBuf = [] ∨ t'.settles = true)
    (hforgets : t'.forgets = true → c'.send.sendBuf = [] ∨ (t.settles = false ∧ ∃ u ∈ c.tasks, u.settles = true))
    (hwrite : c'.writeClosed = c.writeClosed) (hne : t' ≠ .closeWrite) : Timed c' := by
  -- what another call does it still does
  have hkeep : ∀ {p : Task → Prop}, (¬ p t) → (∃ u ∈ c.tasks, p u) → ∃ u ∈ c'.tasks, p u := by
    rintro p hpt ⟨u, hu, hp⟩
    rw [htasks]
    rcases mem_or_mem_set hi hu t' with rfl | hu
    · exact absurd hp hpt
    · exact ⟨u, hu, hp⟩
  have hself : t' ∈ c'.tasks := by
    rw [htasks]
    exact mem_set_self hi t'
  have hsettling : t.settles = false → (∃ u ∈ c.tasks, u.settles = true) → ∃ u ∈ c'.tasks, u.settles = true := by
    intro hts
    apply hkeep
    rw [hts]
    exact nofun
  refine ⟨?_, ?_, ?_, ?_, ?_, ?_⟩
  · intro j u hj hu
    rw [htasks] at hj
    by_cases hij : i = j
    · subst hij
      rw [getElem?_set_self (List.getElem?_eq_some_iff.1 hi).1] at hj
      cases hj
      exact hown hu
    · rw [getElem?_set_ne hij] at hj
      rcases hmu with hmu | hmu
      · rw [hmu]
        exact h.lock j u hj hu
      · exact absurd (h.alone hmu hj hu).symm hij
  · intro hopen hne
    rcases hbuf hopen hne with ht' | harmed | ⟨u, hu, hwill, hut⟩ | ⟨hold, harmed, ht⟩
    · exact .inr ⟨t', hself, ht'⟩
    · exact .inl harmed
    · apply Or.inr
      rw [htasks]
      rcases mem_or_mem_set hi hu t' with heq | hu
      · exact absurd heq hut
      · exact ⟨u, hu, hwill⟩
    · rcases h.buf (open_of_open hclosed hopen) hold with ha | hu
      · rw [harmed]
        exact .inl ha
      · apply Or.inr
        apply hkeep _ hu
        rw [ht]
        exact nofun
  · intro hopen hsome
    rcases htimer hopen hsome with ht' | ht' | harmed | ⟨hsame, ht, htc⟩
    · exact .inr (.inl ⟨t', hself, ht'⟩)
    · rw [← ht']
      exact .inr (.inr hself)
    · exact .inl harmed
    · rw [hsame] at hsome
      rcases h.timer (open_of_open hclosed hopen) hsome with ha | hu | hu
      · rw [hsame]
        exact .inl ha
      · apply Or.inr
        apply Or.inl
        apply hkeep _ hu
        rw [ht]
        exact nofun
      · apply Or.inr
        apply Or.inr
        rw [htasks]
        rcases mem_or_mem_set hi hu t' with heq | hu
        · exact absurd heq.symm htc
        · exact hu
  · rintro hopen ⟨u, hu, hfu⟩
    obtain ⟨j, hj⟩ := getElem?_of_mem hu
    rw [htasks] at hj
    by_cases hij : i = j
    · subst hij
      rw [getElem?_set_self (List.getElem?_eq_some_iff.1 hi).1] at hj
      cases hj
      rcases hforgets hfu with hnil | ⟨hts, hu⟩
      · exact .inl hnil
      · exact .inr (hsettling hts hu)
    · -- another call is about to forget the timer: it holds `c.mu`, so this step is none of a `Write` that waits for it
      rw [getElem?_set_ne hij] at hj
      have hts : t.settles = false := by
        cases hts : t.settles with
        | false => rfl
        | true => exact absurd (h.alone (i := i) (.inl (hsettles hts)) hj (Task.holdsMu_of_forgets hfu)).symm hij
      rcases h.forgets (open_of_open hclosed hopen) ⟨u, mem_of_getElem? hj, hfu⟩ with hnil | hu
      · rcases hgrows hopen hnil with hnil | ht'
        · exact .inl hnil
        · exact .inr ⟨t', hself, ht'⟩
      · exact .inr (hsettling hts hu)
  · rw [hwrite]
    exact h.writeOpen
  · rw [htasks]
    exact forall_mem_set h.noCloseWrite hne

omit h in
theorem not_handles (h : t.willArm = false) : t.handles = false := by
  cases hh : t.handles with
  | false => rfl
  | true => rw [Task.willArm_of_handles hh] at h; cases h

omit h in
theorem not_settles (h : t.willArm = false) : t.settles = false := by
  cases hh : t.settles with
  | false => rfl
  | true => rw [Task.willArm_of_settles hh] at h; cases h

omit h in
theorem not_forgets (h : t.holdsMu = false) : t.forgets = false := by
  cases hh : t.forgets with
  | false => rfl
  | true => rw [Task.holdsMu_of_forgets hh] at h; cases h

/-- What `Timed` reads of a connection besides the send buffer and the lock. -/
def timing (c : TcpConn) : List Task × TimerSide × Bool × Bool := (c.tasks, c.timer, c.closed, c.writeClosed)

/-- A call that has nothing to do with the timer moves on; the send buffer may lose segments. -/
theorem Timed.goes (hi : c.tasks[i]? = some t) (hsame : c'.timing = (c.goto i t').timing)
    (hbuf : c.send.sendBuf = [] → c'.send.sendBuf = []) (hmu : c'.mu = c.mu ∨ c.mu = none ∨ c.mu = some i)
    (ht : t.willArm = false) (hclear : t ≠ .timeoutClear) (ht' : t'.holdsMu = false) (hne : t' ≠ .closeWrite) :
    Timed c' := by
  simp only [timing, goto, Prod.mk.injEq] at hsame
  obtain ⟨htasks, htimer, hclosed, hwrite⟩ := hsame
  apply h.steps t' hi htasks (fun hc => hclosed.trans hc) hmu
  · rw [ht']
    simp
  · rw [not_settles ht]
    simp
  · intro _ hmore
    refine .inr (.inr (.inr ⟨fun hnil => hmore (hbuf hnil), by rw [htimer], ht⟩))
  · exact fun _ _ => .inr (.inr (.inr ⟨htimer, not_handles ht, hclear⟩))
  · exact fun _ hnil => .inl (hbuf hnil)
  · rw [not_forgets ht']
    simp
  · exact hwrite
  · exact hne

theorem Timed.arms (hi : c.tasks[i]? = some t) (hsame : c'.timing = (c.goto i t').timing)
    (hbuf : c.send.sendBuf = [] → c'.send.sendBuf = []) (hmu : c'.mu = c.mu) (hsettles : t.settles = true → c.mu = none)
    (ht' : t'.willArm = true) (hhandles : t.handles = true → t'.handles = true) (hclear : t ≠ .timeoutClear)
    (hlock : t'.holdsMu = false) : Timed c' := by
  simp only [timing, goto, Prod.mk.injEq] at hsame
  obtain ⟨htasks, htimer, hclosed, hwrite⟩ := hsame
  apply h.steps t' hi htasks (fun hc => hclosed.trans hc) (.inl hmu)
  · rw [hlock]
    simp
  · exact hsettles
  · exact fun _ _ => .inl ht'
  · intro _ _
    cases hh : t.handles with
    | true => exact .inl (hhandles hh)
    | false => exact .inr (.inr (.inr ⟨htimer, rfl, hclear⟩))
  · exact fun _ hnil => .inl (hbuf hnil)
  · rw [not_forgets hlock]
    simp
  · exact hwrite
  · rintro rfl
    cases ht'

/-- While a call is about to forget the timer, what the send buffer holds is another `Write`'s to arm it for. -/
theorem Timed.other_arms (hopen : c.closed = false) (hne : c.send.sendBuf ≠ []) (hf : ∃ u ∈ c.tasks, u.forgets = true)
    (ht : t.settles = false) : ∃ u ∈ c.tasks, u.willArm = true ∧ u ≠ t := by
  rcases h.forgets hopen hf with hnil | ⟨u, hu, hsu⟩
  · exact absurd hnil hne
  · refine ⟨u, hu, Task.willArm_of_settles hsu, ?_⟩
    rintro rfl
    rw [ht] at hsu
    cases hsu

/-! ## Segments -/

variable {hdr : TcpHeader}

variable (ch : Choice)

theorem segmentSwitch_timed (hc : Connected c.state) (hi : c.tasks[i]? = some t) (hmu : c.mu = none ∨ c.mu = some i)
    (ht : t.willArm = false) (hclear : t ≠ .timeoutClear) : Timed (c.segmentSwitch i hdr ch) := by
  obtain ⟨r, s, t', heq, hto⟩ := segmentSwitch_cases hc i hdr ch
  rw [heq]
  obtain ⟨rfl | ⟨as, rfl⟩, -⟩ := hto.shape
  · exact h.goes .done hi rfl id (.inr hmu) ht hclear rfl nofun
  · exact h.goes (.actions as) hi rfl id (.inr hmu) ht hclear rfl nofun

theorem segmentRest_timed (hc : Connected c.state) (hi : c.tasks[i]? = some t) (hmu : c.mu = none)
    (ht : t.willArm = false)
    (hclear : t ≠ .timeoutClear) (ho : SegmentOrderly c hdr) : Timed (c.segmentRest i hdr ch) := by
  rw [segmentRest_eq ho.1]
  exact segmentSwitch_timed h ch hc hi (.inl hmu) ht hclear

theorem Timed.resends (wnd : UInt16) (dup : Nat) :
    Timed { c with send := { c.send with peerWnd := wnd, dupAcks := dup } } :=
  ⟨h.lock, h.buf, h.timer, h.forgets, h.writeOpen, h.noCloseWrite⟩

theorem segment_timed (hc : Connected c.state) (hi : c.tasks[i]? = some (.segment hdr)) (hmu : c.mu = none)
    (ho : SegmentOrderly c hdr) : Timed (c.segment i hdr ch) := by
  refine segment_rule ?_ (fun wnd dup _ => segmentRest_timed (h.resends wnd dup) ch hc hi hmu rfl nofun ho) ?_
    fun _ _ _ => ?_
  · exact h.goes .done hi rfl id (.inl rfl) rfl nofun rfl nofun
  · exact fun wnd dup _ seg _ =>
      (h.resends wnd dup).goes (.segmentSend hdr _) hi rfl id (.inl rfl) rfl nofun rfl nofun
  · -- the call keeps `c.mu` until it has restarted or stopped the timer
    refine h.steps (.segmentLen hdr) hi rfl ?_ (.inr (.inl hmu)) ?_ ?_ ?_ ?_ ?_ ?_ rfl nofun
    · exact id
    · exact fun _ => rfl
    · exact nofun
    · exact fun _ _ => .inl rfl
    · exact fun _ _ => .inr (.inr (.inr ⟨rfl, rfl, nofun⟩))
    · intro _ hnil
      apply Or.inl
      show sendBufAck c.send.sendBuf hdr.ack = []
      rw [hnil]
      rfl
    · exact nofun

theorem segmentLen_timed (hi : c.tasks[i]? = some (.segmentLen hdr)) :
    Timed (c.goto i (.segmentTimer hdr (c.send.sendBuf ≠ []))) := by
  refine h.steps (.segmentTimer hdr (c.send.sendBuf ≠ [])) hi rfl ?_ ?_ ?_ ?_ ?_ ?_ ?_ ?_ rfl nofun
  · exact id
  · exact .inl rfl
  · exact fun _ => h.lock i _ hi rfl
  · exact nofun
  · intro _ hne
    apply Or.inl
    show Task.willArm (.segmentTimer hdr (c.send.sendBuf ≠ [])) = true
    rw [decide_eq_true (show c.send.sendBuf ≠ [] from hne)]
    rfl
  · exact fun _ _ => .inr (.inr (.inr ⟨rfl, rfl, nofun⟩))
  · exact fun _ hnil => .inl hnil
  · intro hf
    apply Or.inl
    by_contra hne
    rw [decide_eq_true (show c.send.sendBuf ≠ [] from hne)] at hf
    cases hf

theorem segmentTimer_timed {left : Bool} (hc : Connected c.state) (hnagle : c.send.nagleBuf = [])
    (hi : c.tasks[i]? = some (.segmentTimer hdr left)) (ho : SegmentOrderly c hdr) :
    Timed (c.segmentTimer i hdr left ch) := by
  have hmu : c.mu = some i := h.lock i _ hi rfl
  have hswitch : ∀ (tm : TimerSide), (left = true → tm.armed ≠ []) → (left = false → tm.retxTimer = none) →
      Timed (segmentRest i hdr ch { c with timer := tm }) := by
    intro tm hleft hstop
    rw [segmentRest_eq (c := { c with timer := tm }) ho.1]
    obtain ⟨r, s, t', heq, hto⟩ := segmentSwitch_cases (c := { c with timer := tm }) hc i hdr ch
    rw [heq]
    have hshape : t'.holdsMu = false ∧ t' ≠ .closeWrite := by
      obtain ⟨rfl | ⟨as, rfl⟩, -⟩ := hto.shape
      · exact ⟨rfl, nofun⟩
      · exact ⟨rfl, nofun⟩
    refine h.steps t' hi rfl ?_ (.inr (.inr hmu)) ?_ ?_ ?_ ?_ ?_ ?_ rfl hshape.2
    · exact id
    · rw [hshape.1]
      exact nofun
    · exact nofun
    · intro hopen hne
      cases left with
      | true => exact .inr (.inl (hleft rfl))
      | false =>
        exact .inr (.inr (.inl (h.other_arms hopen hne ⟨_, mem_of_getElem? hi, rfl⟩ rfl)))
    · intro _ hsome
      cases left with
      | true => exact .inr (.inr (.inl (hleft rfl)))
      | false =>
        have hsome : tm.retxTimer.isSome = true := hsome
        rw [hstop rfl] at hsome
        cases hsome
    · exact fun _ hnil => .inl hnil
    · rw [not_forgets hshape.1]
      exact nofun
  refine segmentTimer_rule (fun tm hrestart hstop => hswitch tm (fun hl => ?_) fun hl => ?_) fun _ hne =>
    absurd hnagle hne
  · rw [hrestart hl]
    exact append_ne_nil_of_right_ne_nil _ nofun
  · rw [hstop hl]
    rfl

/-! ## The rest of a call -/

/-- The connection is closed: nothing more is to be kept of it but the lock. -/
theorem Timed.closed (hi : c.tasks[i]? = some t) (htasks : c'.tasks = c.tasks.set i t') (hclosed : c'.closed = true)
    (hmu : c'.mu = c.mu) (hwrite : c'.writeClosed = c.writeClosed) (ht : t.settles = false) (ht' : t'.holdsMu = false)
    (hne : t' ≠ .closeWrite) : Timed c' := by
  have hnot : ∀ {p : Prop}, c'.closed = false → p := by
    intro p hopen
    rw [hclosed] at hopen
    cases hopen
  refine h.steps t' hi htasks (fun _ => hclosed) (.inl hmu) ?_ ?_ (fun hopen => hnot hopen) (fun hopen => hnot hopen)
    (fun hopen => hnot hopen) ?_ hwrite hne
  · rw [ht']
    exact nofun
  · rw [ht]
    exact nofun
  · rw [not_forgets ht']
    exact nofun

variable {iss : UInt32}

theorem act_timed {B : Nat} {a : Action} {as : List Action} (hh : Holding iss B c)
    (hi : c.tasks[i]? = some (.actions (a :: as))) : Timed (c.act i a as ch) := by
  have hgoes : ∀ {c' : TcpConn} (as' : List Action), c'.timing = (c.goto i (.actions as')).timing →
      c'.send.sendBuf = c.send.sendBuf → c'.mu = c.mu → Timed c' := by
    intro c' as' hsame hbuf hmu
    exact h.goes (.actions as') hi hsame (fun hnil => hbuf.trans hnil) (.inl hmu) rfl (by simp) rfl (by simp)
  cases a with
  | enqueue data =>
    rw [act]
    split <;> exact hgoes as rfl rfl rfl
  | transmit f =>
    rw [act, transmit]
    split <;> exact hgoes as rfl rfl rfl
  | close =>
    rw [act, closeSection]
    split
    · exact hgoes as rfl rfl rfl
    · exact h.closed (.actions _) hi rfl rfl rfl rfl rfl rfl (by simp)
  | stopTimer =>
    have hclosed : c.closed = true := hh.clears _ (mem_of_getElem? hi) (.inr mem_cons_self)
    exact h.closed (.actions as) hi rfl hclosed rfl rfl rfl rfl (by simp)
  | clearSend =>
    have hclosed : c.closed = true := hh.clears _ (mem_of_getElem? hi) (.inl mem_cons_self)
    exact h.closed (.actions as) hi rfl hclosed rfl rfl rfl rfl (by simp)
  | sendAck | sendFin | clearRecv => exact hgoes _ rfl rfl rfl

/-! ## `Write` -/

omit h in
theorem sendBufAck_nil {segs : List TcpSendSegment} (h : segs = []) (ack : UInt32) : sendBufAck segs ack = [] := by
  rw [h]
  rfl

theorem writeAppend_timed {b : Bytes} {written : Nat} {seg : TcpSendSegment} {full : Task} (hi : c.tasks[i]? = some t)
    (ht : t.willArm = false) (hclear : t ≠ .timeoutClear) (hfull : full.holdsMu = false) (hne : full ≠ .closeWrite) :
    Timed (c.writeAppend i b written seg full) := by
  apply writeAppend_rule
  · exact h.goes full hi rfl id (.inl rfl) ht hclear hfull hne
  · refine h.steps (.writeSettle b written seg) hi rfl ?_ ?_ nofun ?_ ?_ ?_ ?_ nofun rfl nofun
    · exact id
    · exact .inl rfl
    · rw [not_settles ht]
      exact nofun
    · exact fun _ _ => .inl rfl
    · exact fun _ _ => .inr (.inr (.inr ⟨rfl, not_handles ht, hclear⟩))
    · exact fun _ _ => .inr rfl

theorem arm_timed (hi : c.tasks[i]? = some t) (ht : t.settles = false) (hlock : t'.holdsMu = false)
    (hne : t' ≠ .closeWrite) :
    Timed ({ c with timer := c.timer.arm }.goto i t') := by
  have harmed : c.timer.arm.armed ≠ [] := append_ne_nil_of_right_ne_nil _ nofun
  refine h.steps t' hi rfl ?_ ?_ ?_ ?_ ?_ ?_ ?_ ?_ rfl hne
  · exact id
  · exact .inl rfl
  · rw [hlock]
    exact nofun
  · rw [ht]
    exact nofun
  · exact fun _ _ => .inr (.inl harmed)
  · exact fun _ _ => .inr (.inr (.inl harmed))
  · exact fun _ hnil => .inl hnil
  · rw [not_forgets hlock]
    exact nofun

/-- `Write` starts the timer, unless one is set: then that one is armed, or its call is in progress. -/
theorem writeTimer_timed {b : Bytes} {written : Nat} {seg : TcpSendSegment}
    (hi : c.tasks[i]? = some (.writeTimer b written seg)) :
    Timed ({ c with timer := c.timer.start }.goto i (.write b (written + seg.payload.length))) := by
  by_cases hset : c.timer.retxTimer.isSome = true
  · have hstart : c.timer.start = c.timer := if_pos hset
    rw [hstart]
    refine h.steps (.write b _) hi rfl ?_ ?_ nofun nofun ?_ ?_ ?_ nofun rfl nofun
    · exact id
    · exact .inl rfl
    · intro hopen hne
      rcases h.timer hopen hset with harmed | ⟨u, hu, hhu⟩ | hclear
      · exact .inr (.inl harmed)
      · refine .inr (.inr (.inl ⟨u, hu, Task.willArm_of_handles hhu, ?_⟩))
        rintro rfl
        cases hhu
      · -- `retxTimer` is about to be cleared, so the send buffer is empty or another `Write` will start the timer
        exact .inr (.inr (.inl (h.other_arms hopen hne ⟨_, hclear, rfl⟩ rfl)))
    · exact fun _ _ => .inr (.inr (.inr ⟨rfl, rfl, nofun⟩))
    · exact fun _ hnil => .inl hnil
  · have hstart : c.timer.start = c.timer.arm := if_neg hset
    rw [hstart]
    exact arm_timed h (.write b _) hi rfl rfl nofun

/-! ## `onRetxTimeout` -/

/-- The call finds the oldest segment sent again less often than it takes to give up. -/
def NotGivenUp (c : TcpConn) : Prop := ∀ seg ∈ c.send.sendBuf.head?, seg.retxCount < maxRetries

instance (c : TcpConn) : Decidable (NotGivenUp c) := Option.decidableForallMem _

theorem timeout_timed (hi : c.tasks[i]? = some .timeout) (hmu : c.mu = none) (hgive : NotGivenUp c) :
    Timed (c.timeout i ch) := by
  refine timeout_rule (fun hclosed => ?_) (fun hnil => ?_) fun seg hhead => ⟨?_, fun hmany => ?_, ?_, ?_⟩
  · exact h.closed .done hi rfl hclosed rfl rfl rfl rfl nofun
  · refine h.steps .timeoutClear hi rfl ?_ (.inr (.inl hmu)) ?_ nofun ?_ ?_ ?_ ?_ rfl nofun
    · exact id
    · exact fun _ => rfl
    · exact fun _ hne => absurd hnil hne
    · exact fun _ _ => .inr (.inl rfl)
    · exact fun _ hnil => .inl hnil
    · exact fun _ => .inl hnil
  · exact h.arms .timeoutArm hi rfl id rfl nofun rfl (fun _ => rfl) nofun rfl
  · exact absurd (hgive seg hhead) (Nat.not_lt.2 hmany)
  · exact h.arms (.timeoutResume seg) hi rfl id rfl nofun rfl (fun _ => rfl) nofun rfl
  · exact h.arms (.timeoutMark _) hi rfl id rfl nofun rfl (fun _ => rfl) nofun rfl

theorem timeoutClear_timed (hi : c.tasks[i]? = some .timeoutClear) :
    Timed ({ c with timer := { c.timer with retxTimer := none } }.release i .done) := by
  refine h.steps .done hi rfl ?_ (.inr (.inr (h.lock i _ hi rfl))) nofun nofun ?_ nofun ?_ nofun rfl nofun
  · exact id
  · intro hopen hne
    exact .inr (.inr (.inl (h.other_arms hopen hne ⟨_, mem_of_getElem? hi, rfl⟩ rfl)))
  · exact fun _ hnil => .inl hnil

/-! ## Runs -/

/-- The run is `Orderly` and without `CloseWrite`, and `onRetxTimeout` does not give up. -/
def Watched (c : TcpConn) (e : TcpEvent) : Prop :=
  Orderly c e ∧
  match e with
  | .call k => k ≠ .closeWrite
  | .run i _ =>
    match c.tasks[i]? with
    | some .timeout => NotGivenUp c
    | _ => True
  | _ => True

instance (c : TcpConn) (e : TcpEvent) : Decidable (Watched c e) := by
  unfold Watched
  apply @instDecidableAnd _ _ _ ?_
  rcases e with k | id | ⟨i, ch⟩
  · infer_instance
  · infer_instance
  · dsimp only
    rcases c.tasks[i]? with _ | (_ | _) <;> infer_instance

theorem runTask_timed {B : Nat} {ch : Choice} (hs : Sends True iss B c) (hh : Holding iss B c)
    (hi : c.tasks[i]? = some t)
    (hmu : needsMu t = true → c.mu = none) (ho : Watched c (.run i ch)) : Timed (c.runTask i t ch) := by
  simp only [Watched, Orderly, hi] at ho
  have hreader : t.isReader = true → Timed (c.runTask i t ch) := by
    intro ht
    have hidle : ∀ {u : Task}, u.isReader = true →
        u.willArm = false ∧ u.holdsMu = false ∧ u ≠ .closeWrite ∧ u ≠ .timeoutClear := by
      intro u hu
      cases u <;> first | (cases hu; done) | exact ⟨rfl, rfl, by simp, by simp⟩
    refine reader_keeps ht h fun r t' ht' => ?_
    exact h.goes t' hi rfl id (.inl rfl) (hidle ht).1 (hidle ht).2.2.2 (hidle ht').2.1 (hidle ht').2.2.1
  cases t with
  | segment hdr => exact segment_timed h ch hs.state hi (hmu rfl) ho.1
  | segmentLen hdr => exact segmentLen_timed h hi
  | segmentTimer hdr left => exact segmentTimer_timed h ch hs.state (hs.numbers.nagleBuf trivial) hi ho.1
  | segmentSend hdr f =>
    rw [runTask, transmit]
    split <;> exact h.goes (.segmentResume hdr) hi rfl id (.inl rfl) rfl (by simp) rfl (by simp)
  | segmentResume hdr => exact segmentRest_timed h ch hs.state hi (hmu rfl) rfl (by simp) ho.1
  | actions as =>
    cases as with
    | nil => exact h.goes .done hi rfl id (.inl rfl) rfl (by simp) rfl (by simp)
    | cons a as => exact act_timed h ch hh hi
  | write b written =>
    refine writeSection_rule hs.numbers h (fun _ => ?_) ?_ fun _ _ => ?_
    · exact h.goes .done hi rfl id (.inl rfl) rfl (by simp) rfl (by simp)
    · exact h.goes .done hi rfl id (.inl rfl) rfl (by simp) rfl (by simp)
    · exact h.goes (.writeTransmit b written _) hi rfl id (.inl rfl) rfl (by simp) rfl (by simp)
  | writeTransmit b written f =>
    show Timed (c.writeTransmit i b written f ch)
    unfold writeTransmit
    split
    · exact h.goes (.writeAppend b written f.segment) hi rfl id (.inl rfl) rfl (by simp) rfl (by simp)
    · exact h.goes .done hi rfl id (.inl rfl) rfl (by simp) rfl (by simp)
  | writeAppend b written seg | writeRetry b written seg => exact writeAppend_timed h hi rfl (by simp) rfl (by simp)
  | writeFull b written seg =>
    rw [runTask]
    split
    · exact h.goes .done hi rfl id (.inl rfl) rfl (by simp) rfl (by simp)
    · exact h.goes (.writeFullAck b written seg _) hi rfl id (.inl rfl) rfl (by simp) rfl (by simp)
  | writeFullAck b written seg acked =>
    exact h.goes (.writeRetry b written seg) hi rfl (fun hnil => sendBufAck_nil hnil acked) (.inl rfl) rfl
      (by simp) rfl (by simp)
  | writeSettle b written seg =>
    exact h.arms (.writeAck b written seg _) hi rfl id rfl (fun _ => hmu rfl) rfl (by rintro ⟨⟩) (by simp) rfl
  | writeAck b written seg acked =>
    exact h.arms (.writeLen b written seg) hi rfl (fun hnil => sendBufAck_nil hnil acked) rfl (by rintro ⟨⟩) rfl
      (by rintro ⟨⟩) (by simp) rfl
  | writeLen b written seg =>
    rw [runTask]
    split
    · rename_i hnil
      refine h.steps (.write b _) hi rfl ?_ ?_ (by rintro ⟨⟩) (by rintro ⟨⟩) ?_ ?_ ?_ (by rintro ⟨⟩) rfl (by simp)
      · exact id
      · exact .inl rfl
      · exact fun _ hne => absurd hnil hne
      · exact fun _ _ => .inr (.inr (.inr ⟨rfl, rfl, by simp⟩))
      · exact fun _ hnil => .inl hnil
    · exact h.arms (.writeTimer b written seg) hi rfl id rfl (by rintro ⟨⟩) rfl (by rintro ⟨⟩) (by simp) rfl
  | writeTimer b written seg => exact writeTimer_timed h hi
  | timeout => exact timeout_timed h ch hi (hmu rfl) ho.2
  | timeoutClear => exact timeoutClear_timed h hi
  | timeoutResume seg => exact h.arms (.timeoutMark _) hi rfl id rfl (by rintro ⟨⟩) rfl (fun _ => rfl) (by simp) rfl
  | timeoutMark f =>
    refine h.arms (.timeoutSend f) hi rfl (fun hnil => ?_) rfl (by rintro ⟨⟩) rfl (fun _ => rfl) (by simp) rfl
    show markRetransmitted c.send.sendBuf = []
    rw [hnil]
    rfl
  | timeoutSend f =>
    rw [runTask, transmit]
    split <;> exact h.arms .timeoutArm hi rfl id rfl (by rintro ⟨⟩) rfl (fun _ => rfl) (by simp) rfl
  | timeoutArm => exact arm_timed h .done hi rfl rfl (by simp)
  | closeWrite => exact absurd rfl (h.noCloseWrite _ (mem_of_getElem? hi))
  | setNoDelay noDelay => exact h.goes .done hi rfl id (.inl rfl) rfl (by simp) rfl (by simp)
  | _ => exact hreader rfl

theorem Timed.starts (t : Task) (ht : t.holdsMu = false) (hne : t ≠ .closeWrite) :
    Timed { c with tasks := c.tasks ++ [t] } := by
  have hmem : ∀ {p : Task → Prop}, (∃ u ∈ c.tasks, p u) → ∃ u ∈ c.tasks ++ [t], p u :=
    fun ⟨u, hu, hp⟩ => ⟨u, mem_append_left _ hu, hp⟩
  refine ⟨?_, fun hopen hbuf => (h.buf hopen hbuf).imp id hmem, ?_, ?_, h.writeOpen, ?_⟩
  · intro j u hj hu
    by_cases hlt : j < c.tasks.length
    · rw [show (c.tasks ++ [t])[j]? = c.tasks[j]? from getElem?_append_left hlt] at hj
      exact h.lock j u hj hu
    · rw [show (c.tasks ++ [t])[j]? = [t][j - c.tasks.length]? from getElem?_append_right (by omega),
        getElem?_singleton] at hj
      split at hj
      · cases hj
        rw [ht] at hu
        cases hu
      · cases hj
  · exact fun hopen hsome => (h.timer hopen hsome).imp id fun hu => hu.imp hmem (mem_append_left _)
  · rintro hopen ⟨u, hu, hfu⟩
    rcases mem_append.1 hu with hu | hu
    · exact (h.forgets hopen ⟨u, hu, hfu⟩).imp id hmem
    · rw [mem_singleton.1 hu, not_forgets ht] at hfu
      cases hfu
  · exact forall_mem_starts h.noCloseWrite hne

theorem fire_timed (id : Nat) : Timed { c with
      timer := { c.timer with armed := c.timer.armed.filter (· ≠ id) }, tasks := c.tasks ++ [.timeout] } := by
  have hstarts := h.starts .timeout rfl nofun
  have hself : Task.timeout ∈ c.tasks ++ [.timeout] := mem_append_right _ mem_cons_self
  exact ⟨hstarts.lock, fun _ _ => .inr ⟨.timeout, hself, rfl⟩, fun _ _ => .inr (.inl ⟨.timeout, hself, rfl⟩),
    hstarts.forgets, hstarts.writeOpen, hstarts.noCloseWrite⟩

theorem step_timed {B : Nat} {e : TcpEvent} (hs : Sends True iss B c) (hh : Holding iss B c) (ho : Watched c e) :
    Timed (c.step e) := by
  refine step_rule h ?_ (fire_timed h) ?_
  · rintro k rfl
    have hk : k ≠ .closeWrite := ho.2
    apply h.starts
    · cases k <;> rfl
    · cases k with
      | closeWrite => exact absurd rfl hk
      | _ => exact nofun
  · rintro i ch t rfl hi hmu
    exact runTask_timed h hs hh hi hmu ho

end Kept

/-- Without `CloseWrite` no FIN of the guest is accepted, so the run is `HalfClosing`. -/
theorem Watched.halfClosing {e : TcpEvent} (h : Timed c) (ho : Watched c e) : HalfClosing c e := by
  have hfin : ∀ {hdr : TcpHeader}, SegmentOrderly c hdr → FinOrderly c hdr := by
    intro hdr hseg
    refine ⟨hseg, fun hf => ?_⟩
    have hclosed := hseg.2 hf
    rw [h.writeOpen] at hclosed
    cases hclosed
  refine ⟨ho.1, ?_⟩
  cases e with
  | call k => trivial
  | fire id => trivial
  | run i ch =>
    have horderly := ho.1
    dsimp only
    rcases hi : c.tasks[i]? with - | t
    · trivial
    simp only [Orderly, hi] at horderly
    cases t with
    | segment hdr => exact .inr (hfin horderly)
    | segmentTimer hdr left | segmentResume hdr => exact hfin horderly
    | _ => trivial

theorem established_timed (iss irs : UInt32) (peerWnd : UInt16) (wndScaleOK : Bool) (peerWndScale : UInt8) :
    Timed (established iss irs peerWnd wndScaleOK peerWndScale) := by
  refine ⟨?_, fun _ hne => absurd rfl hne, nofun, ?_, rfl, nofun⟩
  · intro j u hj
    cases mem_of_getElem? hj
  · rintro - ⟨u, hu, -⟩
    cases hu

theorem unacked_has_timer (iss irs : UInt32) (peerWnd : UInt16) (wndScaleOK : Bool) (peerWndScale : UInt8)
    (es : List TcpEvent) (hscale : peerWndScale ≤ 14)
    (hrun : RunAll Watched (established iss irs peerWnd wndScaleOK peerWndScale) es) :
    let c := (established iss irs peerWnd wndScaleOK peerWndScale).run es
    c.closed = false →
      (∀ f ∈ c.wire, f.fin = false) ∧
      ∀ f ∈ c.wire, f.payload ≠ [] → c.send.ackOff < f.off + f.payload.length →
        ((∃ seg ∈ c.send.sendBuf, seg.off = f.off ∧ seg.payload = f.payload) ∧
          (c.timer.armed ≠ [] ∨ ∃ t ∈ c.tasks, t.willArm = true)) ∨
        ∃ t ∈ c.tasks, ∃ seg, t.pending = some seg ∧ seg.off = f.off ∧ seg.payload = f.payload := by
  intro c hopen
  obtain ⟨⟨hs, -, hh, hc⟩, h⟩ : Tended iss c ∧ Timed c := by
    refine run_rule (I := fun c => Tended iss c ∧ Timed c) ?_ ⟨established_tended _ _ _ _ hscale,
      established_timed ..⟩ hrun
    exact fun c e ⟨hd, h⟩ hQ => ⟨hd.step (hQ.halfClosing h), step_timed h hd.sends hd.holding hQ⟩
  constructor
  · intro f hf
    have hnil : c.send.finOffs = [] := by
      apply hs.finOffs_nil
      rintro (hw | hcl)
      · rw [h.writeOpen] at hw
        cases hw
      · rw [hopen] at hcl
        cases hcl
    cases hfin : f.fin with
    | false => rfl
    | true =>
      have hmem := hc.places f hf hfin
      rw [hnil] at hmem
      cases hmem
  · intro f hf hne hbeyond
    rcases hh.wire hopen f hf with hnil | hle | ⟨seg, hseg, hoff, hpay⟩ | hpending
    · exact absurd hnil hne
    · omega
    · exact .inl ⟨⟨seg, hseg, hoff, hpay⟩, h.buf hopen (ne_nil_of_mem hseg)⟩
    · exact .inr hpending

/-- The timer of a `Write` has fired, and `onRetxTimeout` is about to send the byte again. -/
def timerRun : List TcpEvent := writeOnce 0 [1] ++ [.fire 0, .run 1 {}]

theorem unacked_has_timer_timerRun : RunAll Watched (established 0 0 10 false 0) timerRun ∧
    ((established 0 0 10 false 0).run timerRun).timer.armed = [] ∧
    ∃ t ∈ ((established 0 0 10 false 0).run timerRun).tasks, t.willArm = true := by
  have hrun : RunAll Watched (established 0 0 10 false 0) timerRun := by decide +kernel
  have harmed : ((established 0 0 10 false 0).run timerRun).timer.armed = [] := by decide +kernel
  have hwire : ∃ f ∈ ((established 0 0 10 false 0).run timerRun).wire, f.payload = [1] ∧ f.off = 0 := by decide +kernel
  have hacked : ((established 0 0 10 false 0).run timerRun).send.ackOff = 0 := by decide +kernel
  have hpending : ∀ t ∈ ((established 0 0 10 false 0).run timerRun).tasks, t.pending = none := by decide +kernel
  refine ⟨hrun, harmed, ?_⟩
  obtain ⟨f, hf, hpay, hoff⟩ := hwire
  obtain ⟨-, hdata⟩ := unacked_has_timer 0 0 10 false 0 timerRun (by decide) hrun (by decide +kernel)
  rcases hdata f hf (by rw [hpay]; exact (by simp)) (by rw [hacked, hoff, hpay]; decide) with ⟨-, hne | hu⟩ | ⟨t, ht,
    seg, hseg, -⟩
  · exact absurd harmed hne
  · exact hu
  · rw [hpending t ht] at hseg
    cases hseg

/-! ## What is sent without a timer -/

/-- `CloseWrite` on a connection with nothing to send. -/
def finRun : List TcpEvent := [.call .closeWrite, .run 0 {}, .run 0 {}, .run 0 {}, .run 0 {}]

/-- Nagle's algorithm holds the second byte back, and the acknowledgement of the first sends it. -/
def flushRun : List TcpEvent :=
  [.call (.setNoDelay false), .run 0 {}] ++ writeOnce 1 [1] ++ [.call (.write [2]), .run 2 {}, .run 2 {},
    .call (.segment { ack := 1, hasAck := true, window := 10 }), .run 3 {}, .run 3 {}, .run 3 {}, .run 3 {}, .run 3 {}]

/-- The connection is open, all calls have returned, and the frame is not acknowledged, with nothing in the send buffer
and no timer armed. -/
def Stranded (c : TcpConn) (f : Frame) : Prop :=
  c.closed = false ∧ (∀ t ∈ c.tasks, t = .done) ∧ c.send.ackOff ≤ f.off ∧ c.send.sendBuf = [] ∧ c.timer.armed = []
deriving Decidable

theorem no_timer_for_fin_or_nagle : (∃ f ∈ ((established 0 0 10 false 0).run finRun).wire,
      f.fin = true ∧ Stranded ((established 0 0 10 false 0).run finRun) f) ∧
    ∃ f ∈ ((established 0 0 10 false 0).run flushRun).wire,
      f.payload = [2] ∧ Stranded ((established 0 0 10 false 0).run flushRun) f := by
  decide +kernel

end TcpConn

end CrumbleCracker.Netstack
