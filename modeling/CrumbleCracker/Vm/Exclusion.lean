import CrumbleCracker.Vm.Machines

/-!
# Who works on an instance

An instance is closed by its start, if that does not register it, or by a stop of its machine; the operations on the
machine work on it as well. `Locks` says who holds a machine's `lifecycleMu`: whoever works on a registered instance
does, so that no two work on it at a time (`Works.alone`). A stop that has closed the instance and ends without an error
leaves the machine stopping for good, and nobody works on the instance again (`Settled`). A stop whose `Close` succeeds
but that fails for its VNC server or its shared memory does not: the machine stays, open to operations and to another
`Close`.
-/

namespace CrumbleCracker.Vm.Lifecycle

open Function

variable {req : Nat → Request} {lim : Limits} {s s' : State} {l : Label} {k : Nat} {v : Life}

inductive Worker
  | start (k : Nat)
  | stop (j : Nat)
  | op (o : Nat)
  deriving DecidableEq

/-- A `Close` or an operation of theirs is running on the instance `k`. -/
def State.Works (s : State) (k : Nat) : Worker → Prop
  | .start i => i = k ∧ ((∃ e, (s.vm k).phase = .failing e) ∨ (s.vm k).phase = .late)
  | .stop j => j < s.nextStop ∧ (s.stops j).machine = k ∧ (s.stops j).phase = .closing
  | .op o => s.ops o = .operating k

section Locks

structure Locks (s : State) : Prop where
  stop : ∀ j < s.nextStop, (s.stops j).phase = .closing → (s.vm (s.stops j).machine).lock = some (.stop j)
  op : ∀ o k, s.ops o = .locked k ∨ s.ops o = .operating k → (s.vm k).lock = some (.op o)
  machine : ∀ o k, s.ops o = .looked k ∨ s.ops o = .locked k ∨ s.ops o = .operating k → s.stage k = .machine

theorem locks_init : Locks .init where
  stop _ h := absurd h (Nat.not_lt_zero _)
  op _ _ h := by rcases h with h | h <;> cases h
  machine _ _ h := by rcases h with h | h | h <;> cases h

theorem Locks.same (h : Locks s)
    (hs : ∀ j < s'.nextStop, (s'.stops j).phase = .closing → j < s.nextStop ∧ s'.stops j = s.stops j)
    (hl : ∀ i, (s'.vm i).lock = (s.vm i).lock) (ho : s'.ops = s.ops)
    (hstage : ∀ i, s.stage i = .machine → s'.stage i = .machine) : Locks s' := by
  constructor
  · intro j hj hc
    obtain ⟨hj', he⟩ := hs j hj hc
    rw [hl, he]
    exact h.stop j hj' (he ▸ hc)
  · rw [ho]
    intro o i hoi
    rw [hl]
    exact h.op o i hoi
  · rw [ho]
    exact fun o i hoi => hstage i (h.machine o i hoi)

theorem Locks.vm (h : Locks s) (ev : s'.vm = update s.vm k v) (es : s'.stops = s.stops)
    (en : s'.nextStop = s.nextStop) (ho : s'.ops = s.ops) (hl : v.lock = (s.vm k).lock)
    (hp : s.stage k = .machine → v.phase.stage = .machine) : Locks s' := by
  refine h.same (fun j hj _ => ⟨en ▸ hj, by rw [es]⟩) (fun i => ?_) ho fun i hi => ?_
  · rw [ev, update_apply]
    split
    · next hik => rw [hik, hl]
    · rfl
  · rw [stage_of_vm s k i v ev]
    split
    · next hik => exact hp (hik ▸ hi)
    · exact hi

theorem Locks.newStop (h : Locks s) (k : Nat) : Locks (s.newStop k) := by
  refine h.same (fun j hj hc => ?_) (fun i => ?_) rfl fun i hi => (stage_newStop s k i).trans hi
  · grind
  · grind

/-- A stop or an operation takes the lock only when it is free, and gives back its own. -/
theorem Locks.step (h : Locks s) (hi : Inv req lim s) (st : Step req lim s l s') : Locks s' := by
  have hne : ∀ {k : Nat} {p q : StartPhase}, (s.vm k).phase = p → p.stage ≠ .machine → s.stage k = .machine →
      q.stage = .machine :=
    fun hp hne hk => absurd (hp ▸ hk) hne
  have hstop := h.stop
  have hlocked := fun o k ho => h.op o k (.inl ho)
  have hoperating := fun o k ho => h.op o k (.inr ho)
  have hmachine := h.machine
  cases st
  case refused hp | admitted hp _ | hostFailed hp | hostStarted hp | startFails hp _ | startCloses hp _
    _ | finished hp |
      registered hp _ | tooLate hp _ | lateCloses hp _ _ =>
    exact h.vm rfl rfl rfl rfl rfl (hne hp (by simp [StartPhase.stage]))
  case exited | watchKeeps | watchRemoves => exact h.vm rfl rfl rfl rfl rfl id
  case looks id hp ho =>
    have hk := (hi.ledger.machine id _ ho.1).2
    constructor <;> simp [State.stage] <;> grind [State.stage]
  case stopLocks | stopCloses | stopSucceeds | stopFails | looksInVain | operates | opLocks | opRefused | opEnds =>
    constructor <;> simp [State.stage] <;> grind [State.stage]
  case shutdown c k _ _ _ =>
    have hbegun : Locks (s.beginMachineStop k).1 := beginMachineStop_rule (fun _ => h.newStop k) h
    exact ⟨hbegun.stop, hbegun.op, hbegun.machine⟩
  case shutdownAll =>
    have hc : Locks { s with closing := true } := ⟨h.stop, h.op, h.machine⟩
    have hall : Locks s.closeAll.1 := beginAll_rule (fun {t k} _ ht _ => ht.newStop k) hc
    exact ⟨hall.stop, hall.op, hall.machine⟩
  case stopped | stoppedAll | cancelled => exact ⟨h.stop, h.op, h.machine⟩

/-- Whoever works on an instance that is not its start's any more holds the machine's lock. -/
theorem Works.alone (h : Locks s) (hi : Inv req lim s) {a b : Worker} (ha : s.Works k a)
    (hb : s.Works k b) : a = b := by
  have hstop : ∀ {j : Nat}, s.Works k (.stop j) → s.stage k = .machine ∧ (s.vm k).lock = some (.stop j) := by
    rintro j ⟨hj, rfl, hc⟩
    exact ⟨(hi.machines.stop _ _ (hi.machines.owned j hj (congrArg StopPhase.finished hc))).2.2, h.stop j hj hc⟩
  have hop : ∀ {o : Nat}, s.Works k (.op o) → s.stage k = .machine ∧ (s.vm k).lock = some (.op o) := fun ho =>
    ⟨h.machine _ _ (.inr (.inr ho)), h.op _ _ (.inr ho)⟩
  have hstart : ∀ {i : Nat}, s.Works k (.start i) → s.stage k ≠ .machine := by
    rintro i ⟨-, ⟨e, hp⟩ | hp⟩ <;> rw [State.stage, hp] <;> simp [StartPhase.stage]
  cases a <;> cases b
  case start.start => rw [ha.1, hb.1]
  case start.stop => exact absurd (hstop hb).1 (hstart ha)
  case start.op => exact absurd (hop hb).1 (hstart ha)
  case stop.start => exact absurd (hstop ha).1 (hstart hb)
  case op.start => exact absurd (hop ha).1 (hstart hb)
  all_goals grind

end Locks

section Settled

/-- A stop whose `Close` succeeds has no error from the VNC server or from the shared memory either. -/
def CleanStops (s s' : State) : Prop :=
  ∀ j, (s.stops j).phase = .closing → (s'.stops j).closed = some true → (s'.stops j).phase = .closed false

/-- A stop that has closed the instance ends well, and the machine keeps it. -/
structure Settled (s : State) : Prop where
  ended : ∀ j, (s.stops j).closed = some true →
    j < s.nextStop ∧ ((s.stops j).phase = .closed false ∨ (s.stops j).phase = .done false)
  kept : ∀ j, (s.stops j).closed = some true → (s.vm (s.stops j).machine).stop = some j
  quiet : ∀ j o, (s.stops j).closed = some true → s.ops o ≠ .operating (s.stops j).machine

section

variable (h : Settled s)

include h

theorem Settled.same (hn : s'.nextStop = s.nextStop) (hs : s'.stops = s.stops)
    (hv : ∀ i, (s'.vm i).stop = (s.vm i).stop) (ho : ∀ o i, s'.ops o = .operating i → s.ops o = .operating i) :
    Settled s' := by
  constructor
  · rw [hs, hn]
    exact h.ended
  · rw [hs]
    intro j hj
    rw [hv]
    exact h.kept j hj
  · rw [hs]
    exact fun j o hj hc => h.quiet j o hj (ho _ _ hc)

theorem Settled.vm (ev : s'.vm = update s.vm k v) (es : s'.stops = s.stops)
    (en : s'.nextStop = s.nextStop) (ho : s'.ops = s.ops) (hl : v.stop = (s.vm k).stop) : Settled s' := by
  refine h.same en es (fun i => ?_) fun o i hoi => ho ▸ hoi
  rw [ev, update_apply]
  split
  · next hik => rw [hik, hl]
  · rfl

theorem Settled.newStop (hnone : s.sharedStop k = none) : Settled (s.newStop k) := by
  have hfree : ∀ j, (s.stops j).closed = some true → (s.stops j).machine ≠ k := by
    rintro j hj rfl
    simp only [State.sharedStop, h.kept j hj] at hnone
    split at hnone
    · next hd => rcases (h.ended j hj).2 with hp | hp <;> rw [hp] at hd <;> cases hd
    · cases hnone
  have eo : ∀ o, (s.newStop k).ops o = s.ops o := fun _ => rfl
  obtain ⟨h₁, h₂, h₃⟩ := h
  constructor <;> grind

theorem Settled.op {o : Nat} {x : OpPhase} (hx : ∀ i, x ≠ .operating i) : Settled (s.setOp o x) := by
  refine h.same rfl rfl (fun _ => rfl) fun o' i hoi => ?_
  rw [ops_setOp] at hoi
  split at hoi
  · exact absurd hoi (hx i)
  · exact hoi

theorem Settled.lock (x : Option Holder) : Settled (s.setVm k { s.vm k with lock := x }) :=
  h.vm (v := { s.vm k with lock := x }) rfl rfl rfl rfl rfl

theorem Settled.operates (hi : Inv req lim s) {o : Nat} (hk : (s.vm k).stopping = false) :
    Settled (s.setOp o (.operating k)) := by
  have hother : ∀ j, (s.stops j).closed = some true → k ≠ (s.stops j).machine := by
    rintro j hj rfl
    have hne : (s.stops j).phase ≠ .done true := by rcases (h.ended j hj).2 with hp | hp <;> rw [hp] <;> simp
    have := (hi.machines.stopping _).mpr ⟨j, h.kept j hj, hne⟩
    rw [hk] at this
    cases this
  refine ⟨h.ended, h.kept, fun j o' hj => ?_⟩
  rw [ops_setOp]
  split
  · intro he
    injection he with he
    exact hother j hj he
  · exact h.quiet j o' hj

theorem Settled.step (hl : Locks s) (hi : Inv req lim s) (st : Step req lim s l s')
    (hc : CleanStops s s') : Settled s' := by
  have hended := h.ended
  have hkept := h.kept
  have hquiet := h.quiet
  cases st
  case refused | admitted | hostFailed | hostStarted | startFails | startCloses | finished | registered | tooLate |
      lateCloses | exited | watchKeeps | watchRemoves => exact h.vm rfl rfl rfl rfl rfl
  case stopLocks | stopSucceeds | stopFails => constructor <;> simp <;> grind
  case stopCloses j hj hp closed others =>
    have hown := hi.machines.owned j hj (congrArg StopPhase.finished hp)
    have hlock := hl.stop j hj hp
    have hop := fun o hoi => hl.op o (s.stops j).machine (.inr hoi)
    have hclean := hc j hp
    simp only [stops_setStop, setVm_frame, if_pos] at hclean
    constructor <;> simp <;> grind
  case looks | looksInVain => exact h.op (by simp)
  case opLocks | opRefused | opEnds => exact (h.lock _).op (by simp)
  case operates _ _ _ ho => exact h.operates hi ho.2
  case shutdown c k _ _ _ =>
    have hbegun : Settled (s.beginMachineStop k).1 := beginMachineStop_rule (fun hnone => h.newStop hnone) h
    exact ⟨hbegun.ended, hbegun.kept, hbegun.quiet⟩
  case shutdownAll =>
    have hc : Settled { s with closing := true } := ⟨h.ended, h.kept, h.quiet⟩
    have hall : Settled s.closeAll.1 := beginAll_rule (fun _ ht hnone => ht.newStop hnone) hc
    exact ⟨hall.ended, hall.kept, hall.quiet⟩
  case stopped | stoppedAll | cancelled => exact ⟨h.ended, h.kept, h.quiet⟩

theorem Settled.idle (hi : Inv req lim s) {j : Nat} (hj : (s.stops j).closed = some true) (a : Worker) :
    ¬s.Works (s.stops j).machine a := by
  have hkept := h.kept j hj
  have hmachine := (hi.machines.stop _ _ hkept).2.2
  intro ha
  cases a with
  | start i => obtain ⟨-, ⟨e, hp⟩ | hp⟩ := ha <;> rw [State.stage, hp] at hmachine <;> cases hmachine
  | stop i =>
    obtain ⟨hi', hm, hp⟩ := ha
    have hown := hi.machines.owned i hi' (congrArg StopPhase.finished hp)
    rw [hm, hkept] at hown
    cases hown
    rcases (h.ended j hj).2 with hc | hc <;> rw [hp] at hc <;> cases hc
  | op o => exact h.quiet j o hj ha

end

end Settled

section Tables

/-- The machine whose watch or stop takes the step. -/
def Label.machine (s : State) : Label → Option Nat
  | .watch k => some k
  | .stop j => some (s.stops j).machine
  | _ => none

def State.data (s : State) (id : Text) : Option Nat × Option Nat × Option (Nat × Nat) × Option Unit :=
  (s.running.lookup id, s.starting.lookup id, s.reservations.lookup id, s.networkLeases.lookup id)

theorem data_removeMachine (hin : s.running.lookup (req k).id = some k) {id : Text}
    (hid : s.running.lookup id ≠ some k) :
    (s.removeMachine req k).data id = s.data id := by
  have hne : id ≠ (req k).id := by
    rintro rfl
    exact hid hin
  have er : (s.removeMachine req k).running = s.running.erase (req k).id := if_pos hin
  have el : (s.removeMachine req k).networkLeases = s.networkLeases.erase (req k).id := rfl
  rw [State.data, er, el, Table.lookup_erase, if_neg hne, Table.lookup_erase, if_neg hne]
  rfl

/-- The watch and the stops of a machine leave what the tables hold of others as it is. -/
theorem Inv.data (h : Inv req lim s) (st : Step req lim s l s') (hl : l.machine s = some k) {id : Text}
    (hid : s.running.lookup id ≠ some k) : s'.data id = s.data id := by
  cases st with
  | exited _ _ | watchKeeps _ _ | stopLocks _ _ _ | stopCloses _ _ _ _ | stopFails _ _ => rfl
  | watchRemoves hw hk =>
    cases hl
    exact data_removeMachine (h.machines.removed hw hk).1 hid
  | stopSucceeds hj hp =>
    cases hl
    exact data_removeMachine (h.machines.present _ hj (congrArg StopPhase.finished hp)) hid
  | _ => cases hl

end Tables

section Safety

variable {may : State → State → Prop}

theorem Locks.reaches (hr : Reaches req lim may .init s) : Locks s := by
  induction hr with
  | refl => exact locks_init
  | tail hr hn ih =>
    obtain ⟨⟨l, st⟩, -⟩ := hn
    exact ih.step (inv_init.reaches hr) st

theorem Settled.reaches (hm : ∀ s s', may s s' → CleanStops s s') (hr : Reaches req lim may .init s) : Settled s := by
  induction hr with
  | refl => exact ⟨fun _ => nofun, fun _ => nofun, fun _ _ => nofun⟩
  | tail hr hn ih =>
    obtain ⟨⟨l, st⟩, hmay⟩ := hn
    exact ih.step (Locks.reaches hr) (inv_init.reaches hr) st (hm _ _ hmay)

theorem sum_machines (f : Nat → Nat) : (s.machines.map f).sum = s.running.sum f := by
  rw [State.machines, List.map_map]
  rfl

theorem sum_inProgress (f : Nat → Nat) : (s.inProgress.map f).sum = s.starting.sum f := by
  rw [State.inProgress, List.map_map]
  rfl

theorem sum_reservations (h : Ledger req s) (w : Nat × Nat → Nat) :
    s.reservations.sum w = (s.inProgress.map fun k => w ((req k).memoryMB, (req k).cpus)).sum := by
  rw [sum_inProgress]
  exact Table.sum_of_lookup h.reserved w

/-- In every state that a run of any interleaving reaches, an id is in at most one table, reservations and leases are in
order, the budgets hold, no two work on an instance at a time, and a watch or a stop changes only what the tables hold
of its own machine. If a stop whose `Close` succeeds has no other error, nobody works on an instance that a stop has
closed. -/
theorem lifecycle_safe (h : Reaches req lim may .init s) :
    (∀ id, s.running.lookup id = none ∨ s.starting.lookup id = none) ∧
    (∀ id, s.reservations.lookup id ≠ none ↔ s.starting.lookup id ≠ none) ∧
    (∀ id, s.networkLeases.lookup id ≠ none → s.running.lookup id ≠ none ∨ s.starting.lookup id ≠ none) ∧
    (0 < lim.maxVMs → (s.machines ++ s.inProgress).length ≤ lim.maxVMs) ∧
    (0 < lim.maxMemoryMB → ((s.machines ++ s.inProgress).map fun k => (req k).memoryMB).sum ≤ lim.maxMemoryMB) ∧
    (0 < lim.maxCPUs → ((s.machines ++ s.inProgress).map fun k => (req k).cpus).sum ≤ lim.maxCPUs) ∧
    (∀ k a b, s.Works k a → s.Works k b → a = b) ∧
    (∀ l s' k id, Step req lim s l s' → l.machine s = some k → s.running.lookup id ≠ some k → s'.data id = s.data id) ∧
    ((∀ s s', may s s' → CleanStops s s') → ∀ j a, (s.stops j).closed = some true →
      ¬s.Works (s.stops j).machine a) := by
  have hi : Inv req lim s := inv_init.reaches h
  have hl : Locks s := .reaches h
  refine ⟨fun id => ?_, fun id => ?_, hi.ledger.leased, fun hmax => ?_, fun hmax => ?_, fun hmax => ?_,
    fun k a b => Works.alone hl hi, fun l s' k id st hk hid => hi.data st hk hid, fun hm j a hj => ?_⟩
  · cases hr : s.running.lookup id with
    | none => exact .inl rfl
    | some k => exact .inr (hi.ledger.apart id k hr)
  · rw [hi.ledger.reserved]
    cases s.starting.lookup id <;> simp
  · have := hi.budgets.vms hmax
    rw [← sum_machines, ← sum_inProgress] at this
    simpa using this
  · have := hi.budgets.memory hmax
    rw [← sum_machines, sum_reservations hi.ledger] at this
    simpa using this
  · have := hi.budgets.cpus hmax
    rw [← sum_machines, sum_reservations hi.ledger] at this
    simpa using this
  · exact (Settled.reaches hm h).idle hi hj a

def sample (_ : Nat) : Request := ⟨['v'], false, 512, 1, true⟩

def few : Limits := ⟨1, 1024, 2⟩

def startHolding : State :=
  (State.init.admitted sample 0).setVm 0
    { (State.init.admitted sample 0).vm 0 with phase := .holding, obtained := true }

theorem reaches_startHolding (h : may .init (State.init.admitted sample 0))
    (h' : may (State.init.admitted sample 0) startHolding) :
    Reaches sample few may .init startHolding := by
  have h₀ : Reaches sample few may .init .init := .refl
  have h₁ := h₀.step (.admitted (k := 0) rfl ⟨rfl, rfl, rfl, by unfold State.Capacity; decide⟩) h
  exact h₁.step (.hostStarted (k := 0) rfl) h'

/-- A machine whose stop is about to close it. -/
def beingStopped : State :=
  let s := ((startHolding.register sample 0).newStop 0).setCall 0 (.waits 0)
  (s.setVm 0 { s.vm 0 with lock := some (.stop 0) }).setStop 0 ⟨0, .closing, none⟩

theorem reaches_beingStopped : Reaches sample few CleanStops .init beingStopped := by
  have h₀ : Reaches sample few CleanStops .init startHolding := reaches_startHolding nofun nofun
  have h₁ := h₀.step (.registered (k := 0) rfl ⟨rfl, rfl⟩) nofun
  have h₂ := h₁.step (.shutdown (c := 0) (k := 0) ['v'] rfl rfl) nofun
  exact h₂.step (.stopLocks (j := 0) (by decide) rfl rfl) (fun j h => by cases j <;> cases h)

/-- The stop closes the instance and fails for its VNC server; then an operation begins. -/
theorem operation_after_close : ∃ s s' :
    State, Reaches sample few (fun _ _ => True) .init s ∧ (s.stops 0).closed = some true ∧
    Step sample few s (.op 0) s' ∧ ¬s.Works (s.stops 0).machine (.op 0) ∧ s'.Works (s'.stops 0).machine (.op 0) := by
  have h₀ : Reaches sample few (fun _ _ => True) .init beingStopped :=
    reaches_beingStopped.mono fun _ _ _ => trivial
  have h₁ := h₀.step (.stopCloses (j := 0) (by decide) rfl true false) trivial
  have h₂ := h₁.step (.stopFails (j := 0) (by decide) rfl) trivial
  have h₃ := h₂.step (.looks (o := 0) (k := 0) ['v'] rfl ⟨rfl, rfl⟩) trivial
  have h₄ := h₃.step (.opLocks (o := 0) (k := 0) rfl rfl) trivial
  exact ⟨_, _, h₄, rfl, .operates (k := 0) rfl ⟨rfl, rfl⟩, by rintro ⟨⟩, rfl⟩

/-- The stop closes the instance without any error. -/
theorem closed_instance_idle : ∃ s, Reaches sample few CleanStops .init s ∧ (s.stops 0).closed = some true ∧
    ∀ a, ¬s.Works (s.stops 0).machine a := by
  have h := reaches_beingStopped.step (.stopCloses (j := 0) (by decide) rfl true true) (fun j h _ => by
    cases j with
    | zero => rfl
    | succ j => cases h)
  exact ⟨_, h, rfl, fun a => (lifecycle_safe h).2.2.2.2.2.2.2.2 (fun _ _ => id) 0 a rfl⟩

end Safety

end CrumbleCracker.Vm.Lifecycle
