import CrumbleCracker.Vm.Exclusion

/-!
# Shutting down

What is closed, by whom, and who is told. `Closings` counts: a start that gives up its instance closes it once, and the
machine of a start is closed once by each of its stops, of which at most one is not finished. `Onward` is what no step
takes back: `closing`, the end of a start and the end of a stop. From the two follows what `ShutdownAll` may conclude
from the stops and the starts it has waited for.

It does not hear of everything. The exits of a start for unclaimed shared memory and for VNC drop the error of `Close`
instead of recording it, and a start that has found the manager closing is no longer in the table until it has returned,
so that another `ShutdownAll` does not wait for it. `Told` and `Heeds` exclude the two.
-/

namespace CrumbleCracker.Vm.Lifecycle

open Function List

variable {req : Nat → Request} {lim : Limits} {s s' : State} {l : Label} {k j : Nat} {v : Life}

section Closings

/-- How often the instance has been closed, by where its start is. -/
def Life.Proper (v : Life) : Prop :=
  match v.phase with
  | .called | .starting => v.obtained = false ∧ v.closes = []
  | .holding | .failing _ | .late => v.obtained = true ∧ v.closes = []
  | .finishing | .returned => v.closes.length = if v.obtained then 1 else 0
  | .registered => v.obtained = true

/-- The result of `Close` and the error of the stop, by where it is. -/
def Stop.Proper (x : Stop) : Prop :=
  match x.phase with
  | .waiting | .closing => x.closed = none
  | .closed err | .done err => ∃ r, x.closed = some r ∧ (err = false → r = true)

/-- The stops of the machine that have closed its instance. -/
def State.closers (s : State) (k : Nat) : Finset Nat :=
  (Finset.range s.nextStop).filter fun j => (s.stops j).machine = k ∧ (s.stops j).closed.isSome

structure Closings (s : State) : Prop where
  life : ∀ k, (s.vm k).Proper
  stop : ∀ j, (s.stops j).Proper
  fresh : ∀ j, s.nextStop ≤ j → (s.stops j).phase = .waiting
  owner : ∀ j < s.nextStop, s.stage (s.stops j).machine = .machine
  count : ∀ k, s.stage k = .machine → (s.vm k).closes.length = (s.closers k).card
  known : ∀ j r, (s.stops j).closed = some r → r ∈ (s.vm (s.stops j).machine).closes

theorem closings_init : Closings .init where
  life _ := ⟨rfl, rfl⟩
  stop _ := rfl
  fresh _ _ := rfl
  owner _ h := absurd h (Nat.not_lt_zero _)
  count _ h := by cases h
  known _ _ h := by cases h

theorem registered_of_stage (h : s.stage k = .machine) : (s.vm k).phase = .registered := by
  revert h
  rw [State.stage]
  cases (s.vm k).phase <;> simp [StartPhase.stage]

section

variable (h : Closings s)

include h

theorem Closings.begun {r : Bool} (hr : (s.stops j).closed = some r) : j < s.nextStop := by
  by_contra hj
  have hp := h.fresh j (Nat.le_of_not_lt hj)
  have hn := h.stop j
  rw [Stop.Proper, hp] at hn
  rw [hr] at hn
  cases hn

theorem Closings.same (hs : s'.stops = s.stops) (hn : s'.nextStop = s.nextStop)
    (hv : ∀ i, (s'.vm i).Proper) (hc : ∀ i, s.stage i = .machine → (s'.vm i).closes = (s.vm i).closes)
    (hstage : ∀ i, s'.stage i = .machine ↔ s.stage i = .machine) : Closings s' := by
  have hcl : ∀ i, s'.closers i = s.closers i := fun i => by rw [State.closers, State.closers, hs, hn]
  refine ⟨hv, hs ▸ h.stop, ?_, ?_, ?_, ?_⟩
  · rw [hs, hn]
    exact h.fresh
  · rw [hs, hn]
    exact fun j hj => (hstage _).mpr (h.owner j hj)
  · intro i hi
    have hi' := (hstage i).mp hi
    rw [hc i hi', hcl]
    exact h.count i hi'
  · rw [hs]
    intro j r hr
    rw [hc _ (h.owner j (h.begun hr))]
    exact h.known j r hr

theorem Closings.vm (ev : s'.vm = update s.vm k v) (hs : s'.stops = s.stops)
    (hn : s'.nextStop = s.nextStop) (hv : v.Proper) (hc : s.stage k = .machine → v.closes = (s.vm k).closes)
    (hstage : v.phase.stage = .machine ↔ s.stage k = .machine) : Closings s' := by
  refine h.same hs hn (fun i => ?_) (fun i hi => ?_) fun i => ?_
  · rw [ev, update_apply]
    split
    · exact hv
    · exact h.life i
  · rw [ev, update_apply]
    split
    · next hik => rw [hik, hc (hik ▸ hi)]
    · rfl
  · rw [stage_of_vm s k i v ev]
    split
    · next hik => rw [hstage, hik]
    · rfl

theorem Closings.register (hp : (s.vm k).phase = .holding) : Closings (s.register req k) := by
  have hlife := h.life k
  rw [Life.Proper, hp] at hlife
  have hout : s.stage k ≠ .machine := by
    rw [State.stage, hp]
    simp [StartPhase.stage]
  have ev : ∀ i, (s.register req k).vm i = if i = k then { s.vm k with phase := .registered } else s.vm i :=
    fun i => vm_setVm s k i _
  have hstage := fun i => stage_register s k i req
  have hclosers : ∀ i, (s.register req k).closers i = s.closers i := fun _ => rfl
  have hnone : s.closers k = ∅ := by
    refine Finset.filter_eq_empty_iff.mpr fun j hj hjk => hout ?_
    rw [← hjk.1]
    exact h.owner j (Finset.mem_range.mp hj)
  refine ⟨fun i => ?_, h.stop, h.fresh, fun j hj => ?_, fun i hi => ?_, fun j r hr => ?_⟩
  · rw [ev]
    split
    · exact hlife.1
    · exact h.life i
  · change (s.register req k).stage (s.stops j).machine = .machine
    rw [hstage]
    split
    · rfl
    · exact h.owner j hj
  · rw [hclosers, ev]
    split
    · next hik => rw [hik, hnone, hlife.2]; rfl
    · next hik =>
      rw [hstage, if_neg hik] at hi
      exact h.count i hi
  · change r ∈ ((s.register req k).vm (s.stops j).machine).closes
    have := h.known j r hr
    grind

theorem Closings.newStop (hk : s.stage k = .machine) : Closings (s.newStop k) := by
  have ev := vm_newStop s k
  have est := stops_newStop s k
  have en := nextStop_newStop s k
  have hstage := stage_newStop s k
  have hc : ∀ i, ((s.newStop k).vm i).closes = (s.vm i).closes := by grind
  have hclosers : ∀ i, (s.newStop k).closers i = s.closers i := by
    intro i
    ext j
    simp only [State.closers, Finset.mem_filter, Finset.mem_range, est, en]
    grind
  refine ⟨fun i => ?_, fun j => ?_, fun j hj => ?_, fun j hj => ?_, fun i hi => ?_, fun j r hr => ?_⟩
  · rw [ev]
    split
    · next hik => exact h.life k
    · exact h.life i
  · rw [est]
    split
    · rfl
    · exact h.stop j
  · rw [est]
    have := h.fresh j
    grind
  · rw [est, hstage]
    have := h.owner j
    grind
  · rw [hc, hclosers]
    exact h.count i (hstage i ▸ hi)
  · rw [est] at hr ⊢
    have := h.known j r
    grind

theorem Closings.turn {x : Stop} (hj : j < s.nextStop) (hx : x.machine = (s.stops j).machine) (hp : x.Proper)
    (hc : x.closed = (s.stops j).closed) : Closings (s.setStop j x) := by
  have hst : ∀ i, ((s.setStop j x).stops i).machine = (s.stops i).machine ∧ ((s.setStop j x).stops i).closed =
      (s.stops i).closed := by
    intro i
    rw [stops_setStop]
    split
    · next hi => rw [hi, hx, hc]; exact ⟨rfl, rfl⟩
    · exact ⟨rfl, rfl⟩
  have hclosers : ∀ i, (s.setStop j x).closers i = s.closers i := by
    intro i
    ext m
    simp only [State.closers, Finset.mem_filter, hst, setStop_frame]
  refine ⟨h.life, fun i => ?_, fun i hi => ?_, fun i hi => ?_, fun i hi => ?_, fun i r hr => ?_⟩
  · rw [stops_setStop]
    split
    · exact hp
    · exact h.stop i
  · rw [stops_setStop, if_neg (by rintro rfl; exact absurd hj (Nat.not_lt.mpr hi))]
    exact h.fresh i hi
  · rw [(hst i).1]
    exact h.owner i hi
  · rw [hclosers]
    exact h.count i hi
  · rw [(hst i).2] at hr
    rw [(hst i).1]
    exact h.known i r hr

theorem Closings.close {closed others : Bool} (hj : j < s.nextStop) (hp : (s.stops j).phase = .closing)
    (ev : ∀ i, s'.vm i = if i = (s.stops j).machine then
      { s.vm (s.stops j).machine with lock := none, closes := (s.vm (s.stops j).machine).closes ++ [closed] }
      else s.vm i)
    (est : ∀ i, s'.stops i = if i = j then
      { s.stops j with phase := .closed (!(closed && others)), closed := some closed } else s.stops i)
    (en : s'.nextStop = s.nextStop) : Closings s' := by
  have hnone : (s.stops j).closed = none := by
    have := h.stop j
    rwa [Stop.Proper, hp] at this
  have hmach := h.owner j hj
  have hphase : ∀ i, (s'.vm i).phase = (s.vm i).phase := by grind
  have hstage : ∀ i, s'.stage i = s.stage i := fun i => congrArg StartPhase.stage (hphase i)
  have hreg := registered_of_stage hmach
  have hnot : j ∉ s.closers (s.stops j).machine := by simp [State.closers, hnone]
  have hclosers : ∀ i, s'.closers i = if i = (s.stops j).machine then insert j (s.closers i) else s.closers i := by
    intro i
    ext m
    split <;> simp only [State.closers, Finset.mem_insert, Finset.mem_filter, Finset.mem_range, est, en] <;> grind
  refine ⟨fun i => ?_, fun i => ?_, fun i hi => ?_, fun i hi => ?_, fun i hi => ?_, fun i r hr => ?_⟩
  · rw [ev]
    split
    · have := h.life (s.stops j).machine
      rw [Life.Proper, hreg] at this
      rw [Life.Proper, hreg]
      exact this
    · exact h.life i
  · rw [est]
    split
    · exact ⟨closed, rfl, by cases closed <;> simp⟩
    · exact h.stop i
  · have := h.fresh i
    grind
  · have := h.owner i
    grind
  · rw [hstage] at hi
    rw [hclosers, ev]
    split
    · next hik => rw [hik, Finset.card_insert_of_notMem hnot, ← h.count _ hmach, length_append]; rfl
    · exact h.count i hi
  · have := h.known i r
    grind

theorem Closings.start {p : StartPhase} (hp : (s.vm k).phase = p) (hm : p.stage ≠ .machine)
    (ev : s'.vm = update s.vm k v) (hs : s'.stops = s.stops) (hn : s'.nextStop = s.nextStop)
    (hv : { s.vm k with phase := p }.Proper → v.Proper) (hq : v.phase.stage ≠ .machine) : Closings s' := by
  subst hp
  exact h.vm ev hs hn (hv (h.life k)) (fun hk => absurd hk hm) ⟨fun hk => absurd hk hq, fun hk => absurd hk hm⟩

theorem Closings.aside (ops : Nat → OpPhase) (calls : Nat → CallPhase) (closing : Bool) :
    Closings { s with ops, calls, closing } := ⟨h.life, h.stop, h.fresh, h.owner, h.count, h.known⟩

theorem Closings.step (hi : Inv req lim s) (st : Step req lim s l s') : Closings s' := by
  cases st
  case refused hp | hostFailed hp | startCloses hp _ _ | lateCloses hp _ _ =>
    exact h.start hp nofun rfl rfl rfl (fun hv => by simp_all [Life.Proper]) nofun
  case admitted hp _ | startFails hp _ | finished hp | tooLate hp _ => exact h.start hp nofun rfl rfl rfl id nofun
  case hostStarted hp => exact h.start hp nofun rfl rfl rfl (fun hv => ⟨rfl, hv.2⟩) nofun
  case registered hp _ => exact h.register hp
  case exited k _ _ | watchKeeps k _ _ | watchRemoves k _ _ | opLocks o k _ _ | opRefused o k _ _ | opEnds o k _ =>
    exact h.vm rfl rfl rfl (h.life k) (fun _ => rfl) Iff.rfl
  case stopLocks j hj hp _ | stopFails j hj hp =>
    have hx := h.stop j
    rw [Stop.Proper, hp] at hx
    refine .turn ?_ hj (by rfl) (by exact hx) (by rfl)
    exact h.vm rfl rfl rfl (h.life (s.stops j).machine) (fun _ => rfl) Iff.rfl
  case stopCloses j hj hp closed others =>
    exact h.close hj hp (vm_setVm s _ · _) (stops_setStop (s.setVm _ _) j · _) rfl
  case stopSucceeds j hj hp =>
    have hx := h.stop j
    rw [Stop.Proper, hp] at hx
    refine .turn ?_ hj (by rfl) (by exact hx) (by rfl)
    exact ⟨h.life, h.stop, h.fresh, h.owner, h.count, h.known⟩
  case looks | looksInVain | operates | stopped | stoppedAll | cancelled => exact h.aside _ _ _
  case shutdown k id _ hin =>
    exact .aside (beginMachineStop_rule (fun _ => h.newStop (hi.ledger.machine id k hin).2) h) _ _ _
  case shutdownAll =>
    have hc : Closings { s with closing := true } := h.aside _ _ _
    refine .aside (beginAll_rule (P := fun t => Closings t ∧ ∀ i, t.stage i = s.stage i) ?_ ⟨hc, fun _ => rfl⟩).1 _ _ _
    rintro t k hk ⟨ht, hstage⟩ -
    obtain ⟨id, hin⟩ := lookup_of_mem_machines hk
    exact ⟨ht.newStop (hstage k ▸ (hi.ledger.machine id k hin).2), fun i => (stage_newStop t k i).trans (hstage i)⟩

end

end Closings

section Onward

structure Onward (s s' : State) : Prop where
  closing : s.closing = true → s'.closing = true
  unregistered : s.closing = true → ∀ k, (s'.vm k).phase = .registered → (s.vm k).phase = .registered
  uncalled : s.closing = true → ∀ k, (s.vm k).phase = .called →
    ((s'.vm k).phase = .called ∨ (s'.vm k).phase = .returned) ∧ (s'.vm k).obtained = (s.vm k).obtained
  ended : ∀ k, (s.vm k).phase = .returned ∨ (s.vm k).phase = .registered → (s'.vm k).phase = (s.vm k).phase ∧
    (s'.vm k).cleanupErr = (s.vm k).cleanupErr ∧ (s'.vm k).obtained = (s.vm k).obtained
  stops : ∀ j < s.nextStop, (s'.stops j).machine = (s.stops j).machine ∧
    ∀ err, (s.stops j).phase = .done err → (s'.stops j).phase = .done err
  next : s.nextStop ≤ s'.nextStop

theorem Onward.refl (s : State) : Onward s s :=
  ⟨id, fun _ _ => id, fun _ _ h => ⟨.inl h, rfl⟩, fun _ _ => ⟨rfl, rfl, rfl⟩, fun _ _ => ⟨rfl, fun _ => id⟩, le_rfl⟩

theorem Onward.trans {t : State} (h : Onward s s') (h' : Onward s' t) : Onward s t where
  closing hc := h'.closing (h.closing hc)
  unregistered hc k hk := h.unregistered hc k (h'.unregistered (h.closing hc) k hk)
  uncalled hc k hk := by
    obtain ⟨hp | hp, ho⟩ := h.uncalled hc k hk
    · exact ho ▸ h'.uncalled (h.closing hc) k hp
    · obtain ⟨he, -, ho'⟩ := h'.ended k (.inl hp)
      exact ⟨.inr (he.trans hp), ho'.trans ho⟩
  ended k hk := by
    obtain ⟨hp, hc, ho⟩ := h.ended k hk
    obtain ⟨hp', hc', ho'⟩ := h'.ended k (hp ▸ hk)
    exact ⟨hp'.trans hp, hc'.trans hc, ho'.trans ho⟩
  stops j hj := by
    obtain ⟨hm, hd⟩ := h.stops j hj
    obtain ⟨hm', hd'⟩ := h'.stops j (hj.trans_le h.next)
    exact ⟨hm'.trans hm, fun err he => hd' err (hd err he)⟩
  next := h.next.trans h'.next

theorem Onward.start {p : StartPhase} (hp : (s.vm k).phase = p) (hend : p ≠ .returned ∧ p ≠ .registered)
    (ev : s'.vm = update s.vm k v) (hc : s'.closing = s.closing) (hs : s'.stops = s.stops)
    (hn : s'.nextStop = s.nextStop) (hr : s.closing = true → v.phase ≠ .registered)
    (hcalled : s.closing = true → p = .called → v.phase = .returned ∧ v.obtained = (s.vm k).obtained) :
    Onward s s' := by
  have ev' : ∀ i, s'.vm i = if i = k then v else s.vm i := fun i => by rw [ev, update_apply]
  constructor <;> grind

theorem Onward.same (hc : s'.closing = s.closing)
    (hv : ∀ i, (s'.vm i).phase = (s.vm i).phase ∧ (s'.vm i).cleanupErr = (s.vm i).cleanupErr ∧ (s'.vm i).obtained =
      (s.vm i).obtained)
    (hs : ∀ j < s.nextStop, (s'.stops j).machine = (s.stops j).machine ∧
      ∀ err, (s.stops j).phase = .done err → (s'.stops j).phase = .done err) (hn :
      s.nextStop ≤ s'.nextStop) : Onward s s' := by
  constructor <;> grind

theorem Onward.vm (ev : s'.vm = update s.vm k v) (hc : s'.closing = s.closing)
    (hv : v.phase = (s.vm k).phase ∧ v.cleanupErr = (s.vm k).cleanupErr ∧ v.obtained = (s.vm k).obtained)
    (hs : ∀ j < s.nextStop, (s'.stops j).machine = (s.stops j).machine ∧
      ∀ err, (s.stops j).phase = .done err → (s'.stops j).phase = .done err) (hn :
      s.nextStop ≤ s'.nextStop) : Onward s s' := by
  refine .same hc (fun i => ?_) hs hn
  rw [ev, update_apply]
  split
  · next hik => rw [hik]; exact hv
  · exact ⟨rfl, rfl, rfl⟩

theorem Onward.newStop (s : State) (k : Nat) : Onward s (s.newStop k) := by
  refine .vm rfl rfl ⟨rfl, rfl, rfl⟩ (fun j hj => ?_) (Nat.le_succ _)
  rw [stops_newStop, if_neg (by omega)]
  exact ⟨rfl, fun _ => id⟩

theorem Onward.aside (s : State) (ops : Nat → OpPhase) (calls : Nat → CallPhase) : Onward s { s with ops, calls } :=
  .same rfl (fun _ => ⟨rfl, rfl, rfl⟩) (fun _ _ => ⟨rfl, fun _ => id⟩) le_rfl

theorem stops_turn {x : Stop} (est : s'.stops = update s.stops j x) (hm : x.machine = (s.stops j).machine)
    (hp : ∀ err, (s.stops j).phase ≠ .done err) (i : Nat) : (s'.stops i).machine = (s.stops i).machine ∧
      ∀ err, (s.stops i).phase = .done err → (s'.stops i).phase = .done err := by
  rw [est, update_apply]
  split
  · next hi => rw [hi]; exact ⟨hm, fun err he => absurd he (hp err)⟩
  · exact ⟨rfl, fun _ => id⟩

theorem Step.onward (st : Step req lim s l s') : Onward s s' := by
  cases st
  case refused hp => exact .start hp ⟨nofun, nofun⟩ rfl rfl rfl rfl (fun _ => nofun) fun _ _ => ⟨rfl, rfl⟩
  case admitted hp ha =>
    have hopen : s.closing ≠ true := by
      rw [ha.1]
      simp
    exact .start hp ⟨nofun, nofun⟩ rfl rfl rfl rfl (fun _ => nofun) fun hc => absurd hc hopen
  case hostFailed hp | hostStarted hp | startFails hp _ | startCloses hp _ _ | finished hp | tooLate hp
    _ | lateCloses hp _ _ =>
    exact .start hp ⟨nofun, nofun⟩ rfl rfl rfl rfl (fun _ => nofun) fun _ => nofun
  case registered hp hr =>
    have hopen : s.closing ≠ true := by
      rw [hr.1]
      simp
    exact .start hp ⟨nofun, nofun⟩ rfl rfl rfl rfl (fun hc => absurd hc hopen) fun _ => nofun
  case exited | watchKeeps | watchRemoves | opLocks | opRefused | opEnds =>
    exact .vm rfl rfl ⟨rfl, rfl, rfl⟩ (fun _ _ => ⟨rfl, fun _ => id⟩) le_rfl
  case stopLocks j _ hp _ | stopCloses j _ hp _ _ | stopFails j _ hp =>
    exact .vm rfl rfl ⟨rfl, rfl, rfl⟩ (fun i _ => stops_turn (j := j) rfl (by rfl) (by simp [hp]) i) le_rfl
  case stopSucceeds j _ hp =>
    exact .same rfl (fun _ => ⟨rfl, rfl, rfl⟩) (fun i _ => stops_turn (j := j) rfl (by rfl) (by simp [hp]) i) le_rfl
  case looks | looksInVain | operates | stopped | stoppedAll | cancelled => exact .aside _ _ _
  case shutdown c k _ _ _ =>
    exact .trans (beginMachineStop_rule (fun _ => .newStop s k) (.refl s)) (.aside _ _ _)
  case shutdownAll =>
    have hclose : Onward s { s with closing := true } := by constructor <;> grind
    exact .trans (beginAll_rule (P := Onward s) (fun _ ht _ => ht.trans (.newStop _ _)) hclose) (.aside _ _ _)

theorem Reaches.onward {may : State → State → Prop} (h : Reaches req lim may s s') : Onward s s' := by
  induction h with
  | refl => exact .refl s
  | tail _ hn ih =>
    obtain ⟨⟨l, st⟩, -⟩ := hn
    exact ih.trans st.onward

end Onward

section Callers

@[simp] theorem calls_setCall (s : State) (c i : Nat) (x : CallPhase) :
    (s.setCall c x).calls i = if i = c then x else s.calls i := update_apply ..

/-- What a step can do to a caller of `ShutdownInstance` or `ShutdownAll`. -/
inductive Called (s s' : State) (c : Nat) : Prop
  | same (h : s'.calls c = s.calls c)
  | waits (k : Nat) (hp : s.calls c = .idle) (h : s'.calls c = .waits (s.beginMachineStop k).2)
      (hs : s' = (s.beginMachineStop k).1.setCall c (.waits (s.beginMachineStop k).2))
  | waitsAll (hp : s.calls c = .idle) (h : s'.calls c = .waitsAll s.closeAll.2 s.inProgress)
      (hs : s' = s.closeAll.1.setCall c (.waitsAll s.closeAll.2 s.inProgress))
  | returned (j : Nat) (err : Bool) (hp : s.calls c = .waits j) (hj : (s.stops j).phase = .done err)
      (h : s'.calls c = .returned j err)
  | returnedAll (js ks : List Nat) (hp : s.calls c = .waitsAll js ks)
    (hj : ∀ j ∈ js, ∃ err, (s.stops j).phase = .done err)
      (hk : ∀ k ∈ ks, (s.vm k).phase = .returned ∨ (s.vm k).phase = .registered)
      (h : s'.calls c = .returnedAll js ks
        (js.any (fun j => (s.stops j).phase = .done true) || ks.any fun k => (s.vm k).cleanupErr))
  | cancelled (hp : (∃ j, s.calls c = .waits j) ∨ ∃ js ks, s.calls c = .waitsAll js ks) (h : s'.calls c = .cancelled)

theorem Step.called (st : Step req lim s l s') (c : Nat) : Called s s' c := by
  have hother : ∀ {t : State} {i : Nat} {x : CallPhase}, t.calls = s.calls → c ≠ i →
      (t.setCall i x).calls c = s.calls c := by
    intro t i x ht hi
    rw [calls_setCall, if_neg hi, ht]
  have hself : ∀ {t : State} {i : Nat} {x : CallPhase}, c = i → (t.setCall i x).calls c = x := by
    intro t i x hi
    rw [calls_setCall, if_pos hi]
  cases st
  case shutdown i k id hp hin =>
    by_cases hi : c = i
    · exact .waits k (hi ▸ hp) (hself hi) (hi ▸ rfl)
    · exact .same (hother (beginMachineStop_rule (P := fun t => t.calls = s.calls) (fun _ => rfl) rfl) hi)
  case shutdownAll i hp =>
    by_cases hi : c = i
    · exact .waitsAll (hi ▸ hp) (hself hi) (hi ▸ rfl)
    · exact .same (hother (beginAll_rule (P := fun t => t.calls = s.calls) (fun _ ht _ => ht) rfl) hi)
  case stopped i j err hp hj =>
    by_cases hi : c = i
    · exact .returned j err (hi ▸ hp) hj (hself hi)
    · exact .same (hother rfl hi)
  case stoppedAll i js ks hp hj hk =>
    by_cases hi : c = i
    · exact .returnedAll js ks (hi ▸ hp) hj hk (hself hi)
    · exact .same (hother rfl hi)
  case cancelled i hp =>
    by_cases hi : c = i
    · exact .cancelled (hi ▸ hp) (hself hi)
    · exact .same (hother rfl hi)
  all_goals exact .same rfl

/-- The stop of a machine is one of its own. -/
def Linked (s : State) : Prop := ∀ k j, (s.vm k).stop = some j → j < s.nextStop ∧ (s.stops j).machine = k

theorem Linked.newStop (h : Linked s) (k : Nat) : Linked (s.newStop k) := by
  intro i j hj
  have := h i j
  grind

theorem Linked.begun (h : Linked s) (k : Nat) :
    Linked (s.beginMachineStop k).1 ∧ (s.beginMachineStop k).2 < (s.beginMachineStop k).1.nextStop ∧
      ((s.beginMachineStop k).1.stops (s.beginMachineStop k).2).machine = k := by
  unfold State.beginMachineStop
  split
  · next j hj =>
    have hstop : (s.vm k).stop = some j := by
      unfold State.sharedStop at hj
      grind
    exact ⟨h, h k j hstop⟩
  · refine ⟨h.newStop k, Nat.lt_succ_self _, ?_⟩
    change (((s.setVm k _).setStop s.nextStop _).stops s.nextStop).machine = k
    rw [stops_setStop, if_pos rfl]

theorem Linked.begunAll (h : Linked s) (ks : List Nat) : (∀ j ∈ (s.beginAll ks).2, j < (s.beginAll ks).1.nextStop) ∧
    ∀ k ∈ ks, ∃ j ∈ (s.beginAll ks).2, ((s.beginAll ks).1.stops j).machine = k := by
  induction ks generalizing s with
  | nil => exact ⟨nofun, nofun⟩
  | cons k ks ih =>
    obtain ⟨hl, hlt, hm⟩ := h.begun k
    obtain ⟨ihlt, ihm⟩ := ih hl
    have hon : Onward (s.beginMachineStop k).1 ((s.beginMachineStop k).1.beginAll ks).1 :=
      beginAll_rule (fun _ ht _ => ht.trans (.newStop _ _)) (.refl _)
    refine ⟨forall_mem_cons.2 ⟨hlt.trans_le hon.next, ihlt⟩, forall_mem_cons.2 ⟨?_, fun i hi => ?_⟩⟩
    · exact ⟨_, mem_cons_self, ((hon.stops _ hlt).1).trans hm⟩
    · obtain ⟨j, hj, hjm⟩ := ihm i hi
      exact ⟨j, mem_cons_of_mem _ hj, hjm⟩

/-- A caller that has returned has the result of the stop it waited for. -/
structure Callers (s : State) : Prop where
  waits : ∀ c j, s.calls c = .waits j → j < s.nextStop
  returned : ∀ c j err, s.calls c = .returned j err → j < s.nextStop ∧ (s.stops j).phase = .done err

theorem Callers.step (h : Callers s) (hi : Inv req lim s) (st : Step req lim s l s') : Callers s' := by
  have hl : Linked s := fun k j hj => (hi.machines.stop k j hj).imp_right And.left
  have hon := st.onward
  constructor
  · intro c j hj
    cases st.called c with
    | same he => exact (h.waits c j (he ▸ hj)).trans_le hon.next
    | waits k hp he hs =>
      rw [he] at hj
      cases hj
      rw [hs]
      exact (hl.begun k).2.1
    | _ => simp_all
  · intro c j err hj
    cases st.called c with
    | same he =>
      obtain ⟨hlt, hd⟩ := h.returned c j err (he ▸ hj)
      exact ⟨hlt.trans_le hon.next, (hon.stops j hlt).2 err hd⟩
    | returned i e hp hd he =>
      rw [he] at hj
      cases hj
      have hlt := h.waits c j hp
      exact ⟨hlt.trans_le hon.next, (hon.stops j hlt).2 err hd⟩
    | _ => simp_all

/-- What a caller of `ShutdownAll` that waits for the stops and starts hears of them. -/
def Heard (s : State) (c : Nat) (js ks : List Nat) : Prop :=
  s.calls c = .waitsAll js ks ∨ s.calls c = .cancelled ∨ ∃ err, s.calls c = .returnedAll js ks err ∧ (err = false →
    (∀ j ∈ js, (s.stops j).phase = .done false) ∧
    ∀ k ∈ ks, ((s.vm k).phase = .returned ∨ (s.vm k).phase = .registered) ∧ (s.vm k).cleanupErr = false)

theorem Heard.step {c : Nat} {js ks : List Nat} (h : Heard s c js ks) (hjs : ∀ j ∈ js, j < s.nextStop)
    (st : Step req lim s l s') : Heard s' c js ks := by
  have hon := st.onward
  have hkeep : ((∀ j ∈ js, (s.stops j).phase = .done false) ∧
      ∀ k ∈ ks, ((s.vm k).phase = .returned ∨ (s.vm k).phase = .registered) ∧ (s.vm k).cleanupErr = false) →
      (∀ j ∈ js, (s'.stops j).phase = .done false) ∧
      ∀ k ∈ ks, ((s'.vm k).phase = .returned ∨ (s'.vm k).phase = .registered) ∧ (s'.vm k).cleanupErr = false := by
    rintro ⟨hj, hk⟩
    refine ⟨fun j hm => (hon.stops j (hjs j hm)).2 false (hj j hm), fun k hm => ?_⟩
    obtain ⟨he, hc⟩ := hk k hm
    obtain ⟨hp, hc', -⟩ := hon.ended k he
    exact ⟨hp ▸ he, hc'.trans hc⟩
  rcases h with hw | hc | ⟨err, hr, hall⟩
  · cases st.called c with
    | same he => exact .inl (he.trans hw)
    | cancelled hp he => exact .inr (.inl he)
    | returnedAll js' ks' hp hj hk he =>
      rw [hw] at hp
      cases hp
      refine .inr (.inr ⟨_, he, fun herr => hkeep ?_⟩)
      rw [Bool.or_eq_false_iff, any_eq_false, any_eq_false] at herr
      refine ⟨fun j hm => ?_, fun k hm => ⟨hk k hm, by simpa using herr.2 k hm⟩⟩
      obtain ⟨e, he⟩ := hj j hm
      have := herr.1 j hm
      cases e with
      | false => exact he
      | true => simp [he] at this
    | _ => simp_all
  · cases st.called c with
    | same he => exact .inr (.inl (he.trans hc))
    | _ => simp_all
  · cases st.called c with
    | same he => exact .inr (.inr ⟨err, he.trans hr, fun herr => hkeep (hall herr)⟩)
    | _ => simp_all

end Callers

section Told

/-- A start that ends without recording an error has not seen `Close` fail. -/
def Life.Told (v : Life) : Prop := v.phase ≠ .registered → v.cleanupErr = false → false ∉ v.closes

/-- `Close` does not fail at the exits that drop its error, and nobody calls `ShutdownAll` while a start that came too
late has not returned. -/
def Heeds (s s' : State) : Prop :=
  (∀ k e, (s.vm k).phase = .failing e → e ≠ .shares → false ∉ (s'.vm k).closes) ∧
  ∀ c js ks, s.calls c = .idle → s'.calls c = .waitsAll js ks → ∀ k, (s.vm k).phase ≠ .late

theorem told_vm (h : ∀ i, (s.vm i).Told) (ev : s'.vm = update s.vm k v) (hv : v.Told) (i : Nat) : (s'.vm i).Told := by
  rw [ev, update_apply]
  split
  · exact hv
  · exact h i

theorem told_step (h : ∀ i, (s.vm i).Told) (hc : Closings s) (st : Step req lim s l s')
    (hm : ∀ k e, (s.vm k).phase = .failing e → e ≠ .shares → false ∉ (s'.vm k).closes) : ∀ i, (s'.vm i).Told := by
  have hkeep : ∀ {k : Nat} {p : StartPhase}, (s.vm k).phase = p → p ≠ .registered →
      ∀ q, { s.vm k with phase := q }.Told := by
    rintro k _ rfl hp q -
    exact h k hp
  cases st
  case refused hp | admitted hp _ | hostFailed hp | startFails hp _ | finished hp | tooLate hp _ =>
    exact told_vm h rfl (hkeep hp nofun _)
  case hostStarted hp => exact told_vm h rfl (hkeep hp nofun .holding)
  case registered => exact told_vm h rfl fun hne => absurd rfl hne
  case exited k _ _ | watchKeeps k _ _ | watchRemoves k _ _ | opLocks k _ _ | opRefused k _ _ | opEnds k _ =>
    exact told_vm h rfl (h k)
  case startCloses k e hp closed released =>
    have hnone := hc.life k
    rw [Life.Proper, hp] at hnone
    refine told_vm h rfl fun _ herr => ?_
    by_cases he : e = .shares
    · simp_all
    · simpa using hm k e hp he
  case lateCloses k hp closed released =>
    have hnone := hc.life k
    rw [Life.Proper, hp] at hnone
    refine told_vm h rfl fun _ herr => ?_
    simp_all
  case stopLocks j _ _ _ | stopFails j _ _ => exact told_vm h rfl (h (s.stops j).machine)
  case stopCloses j hj _ _ _ => exact told_vm h rfl fun hne => absurd (registered_of_stage (hc.owner j hj)) hne
  case stopSucceeds | looks | looksInVain | operates | stopped | stoppedAll | cancelled => exact h
  case shutdown k _ _ _ =>
    exact beginMachineStop_rule (P := fun t => ∀ i, (t.vm i).Told) (fun _ => told_vm h rfl (h k)) h
  case shutdownAll =>
    exact beginAll_rule (P := fun t => ∀ i, (t.vm i).Told) (fun {t k} _ ht _ => told_vm ht rfl (ht k)) h

end Told

section Complete

variable {may : State → State → Prop}

theorem Closings.reaches (hr : Reaches req lim may .init s) : Closings s ∧ Callers s := by
  induction hr with
  | refl => exact ⟨closings_init, nofun, nofun⟩
  | tail hr hn ih =>
    obtain ⟨⟨l, st⟩, -⟩ := hn
    exact ⟨ih.1.step (inv_init.reaches hr) st, ih.2.step (inv_init.reaches hr) st⟩

theorem told_reaches (hm : ∀ s s', may s s' → Heeds s s') (hr : Reaches req lim may .init s) : ∀ k, (s.vm k).Told := by
  induction hr with
  | refl => exact fun _ _ _ => nofun
  | tail hr hn ih =>
    obtain ⟨⟨l, st⟩, hmay⟩ := hn
    exact told_step ih (Closings.reaches hr).1 st (hm _ _ hmay).1

theorem Heard.reaches {c : Nat} {js ks : List Nat} (h : Heard s c js ks) (hjs : ∀ j ∈ js, j < s.nextStop)
    (hr : Reaches req lim may s s') : Heard s' c js ks := by
  induction hr with
  | refl => exact h
  | tail hr hn ih =>
    obtain ⟨⟨l, st⟩, -⟩ := hn
    exact ih.step (fun j hj => (hjs j hj).trans_le (Reaches.onward hr).next) st

theorem phase_closeAll (s : State) (k : Nat) :
    (s.closeAll.1.vm k).phase = (s.vm k).phase ∧ (s.closeAll.1.vm k).obtained = (s.vm k).obtained := by
  refine beginAll_rule (P := fun t => (t.vm k).phase = (s.vm k).phase ∧ (t.vm k).obtained = (s.vm k).obtained)
    ?_ ⟨rfl, rfl⟩
  rintro t i - ⟨hp, ho⟩ -
  have ev := vm_newStop t i k
  grind

theorem closing_closeAll (s : State) : s.closeAll.1.closing = true :=
  beginAll_rule (P := fun t => t.closing = true) (fun _ ht _ => ht) rfl

theorem Inv.closeAll (h : Inv req lim s) : (∀ j ∈ s.closeAll.2, j < s.closeAll.1.nextStop) ∧
    ∀ id k, s.running.lookup id = some k → ∃ j ∈ s.closeAll.2, (s.closeAll.1.stops j).machine = k := by
  have hlinked : Linked { s with closing := true } := fun k j hj => (h.machines.stop k j hj).imp_right And.left
  obtain ⟨hlt, hall⟩ := hlinked.begunAll s.machines
  exact ⟨hlt, fun id k hk => hall k (mem_map.mpr ⟨⟨id, k⟩, AList.mem_lookup_iff.mp hk, rfl⟩)⟩

theorem Closings.closed (h : Closings s) (hd : (s.stops j).phase = .done false) :
    true ∈ (s.vm (s.stops j).machine).closes := by
  have hproper := h.stop j
  rw [Stop.Proper, hd] at hproper
  obtain ⟨r, hr, hok⟩ := hproper
  have := h.known j r hr
  rwa [hok rfl] at this

theorem Closings.returned (h : Closings s) (ht : (s.vm k).Told) (hp : (s.vm k).phase = .returned)
    (hc : (s.vm k).cleanupErr = false) (ho : (s.vm k).obtained = true) : (s.vm k).closes = [true] := by
  have hlen := h.life k
  rw [Life.Proper, hp] at hlen
  simp only [ho, if_true] at hlen
  obtain ⟨b, hb⟩ := length_eq_one_iff.mp hlen
  have := ht (by rw [hp]; nofun) hc
  rw [hb] at this ⊢
  cases b with
  | true => rfl
  | false => exact absurd mem_cons_self this

/-- What `ShutdownAll` has made sure of when it returns without an error. -/
theorem shutdownAll_closed (hm : ∀ s s', may s s' → Heeds s s') (h : Reaches req lim may .init s) {c : Nat}
    {s₁ s₂ : State}
    {js ks : List Nat} (st : Step req lim s (.call c) s₁) (hmay : may s s₁) (hidle : s.calls c = .idle)
    (hcall : s₁.calls c = .waitsAll js ks) (hr : Reaches req lim may s₁ s₂)
    (hret : s₂.calls c = .returnedAll js ks false) :
    (∀ id k, s.running.lookup id = some k → true ∈ (s₂.vm k).closes) ∧
    ∀ k, (s.vm k).phase ≠ .returned → (s.vm k).phase ≠ .registered → (s₂.vm k).obtained = true →
    (s₂.vm k).closes = [true] := by
  have hi : Inv req lim s := inv_init.reaches h
  have hclosings : Closings s₂ := (Closings.reaches ((h.step st hmay).trans hr)).1
  have htold := told_reaches hm ((h.step st hmay).trans hr)
  have hon := hr.onward
  cases st.called c with
  | waitsAll hp he hs =>
    rw [hcall] at he
    injection he with hjs hks
    subst hs hjs hks
    obtain ⟨hlt, hstops⟩ := hi.closeAll
    obtain ⟨hdone, hended⟩ : (∀ j ∈ s.closeAll.2, (s₂.stops j).phase = .done false) ∧ ∀ k ∈ s.inProgress,
        ((s₂.vm k).phase = .returned ∨ (s₂.vm k).phase = .registered) ∧ (s₂.vm k).cleanupErr = false := by
      rcases Heard.reaches (.inl hcall) hlt hr with hw | hw | ⟨err, hw, hall⟩ <;> rw [hw] at hret <;> cases hret
      exact hall rfl
    refine ⟨fun id k hk => ?_, fun k hne hnr hobt => ?_⟩
    · obtain ⟨j, hj, hjk⟩ := hstops id k hk
      have := hclosings.closed (hdone j hj)
      rwa [(hon.stops j (hlt j hj)).1.trans hjk] at this
    · obtain ⟨hphase, hobtained⟩ := phase_closeAll s k
      by_cases hcalled : (s.vm k).phase = .called
      · -- a start that had not been admitted by then is refused
        have hnone := (Closings.reaches h).1.life k
        rw [Life.Proper, hcalled] at hnone
        obtain ⟨-, ho⟩ := hon.uncalled (closing_closeAll s) k (hphase.trans hcalled)
        exact absurd (hobt.symm.trans (ho.trans (hobtained.trans hnone.1))) nofun
      · have hactive : s.stage k = .active := by
          have hlate := (hm _ _ hmay).2 c _ _ hidle hcall k
          rw [State.stage]
          cases hp : (s.vm k).phase <;> simp_all [StartPhase.stage]
        have hin := (hi.ledger.starting (req k).id k).mpr ⟨rfl, hactive⟩
        obtain ⟨hend, hclean⟩ := hended k (mem_map.mpr ⟨⟨(req k).id, k⟩, AList.mem_lookup_iff.mp hin, rfl⟩)
        have hunreg : (s₂.vm k).phase ≠ .registered := fun hreg =>
          hnr (hphase.symm.trans (hon.unregistered (closing_closeAll s) k hreg))
        exact hclosings.returned (htold k) (hend.resolve_right hunreg) hclean hobt
  | _ => simp_all

/-- In every state that a run of any interleaving reaches: a start that has returned without registering has closed its
instance once; nothing is registered once the manager is closing; a stop of a machine joins the one that is not
finished, each stop closes the instance once, and whoever waited has its result. If no error of `Close` is dropped and
no start is overlooked, a `ShutdownAll` called there that returns without an error has seen everything closed. -/
theorem shutdown_complete (h : Reaches req lim may .init s) :
    (∀ k, (s.vm k).phase = .returned → (s.vm k).obtained = true → (s.vm k).closes.length = 1) ∧
    (∀ l s', Step req lim s l s' → s.closing = true →
      s'.closing = true ∧ ∀ k, (s'.vm k).phase = .registered → (s.vm k).phase = .registered) ∧
    (∀ j < s.nextStop, (s.stops j).phase.finished = false → s.beginMachineStop (s.stops j).machine = (s, j)) ∧
    (∀ k, (s.vm k).phase = .registered → (s.vm k).closes.length = (s.closers k).card) ∧
    (∀ c j err, s.calls c = .returned j err → (s.stops j).phase = .done err ∧
      ∃ closed, (s.stops j).closed = some closed ∧ (err = false → closed = true)) ∧
    (∀ c j l s', s.calls c = .waits j → Step req lim s l s' → s'.calls c = .waits j ∨ s'.calls c = .cancelled ∨
      ∃ err, (s.stops j).phase = .done err ∧ s'.calls c = .returned j err) ∧
    ((∀ s s', may s s' → Heeds s s') → ∀ c s₁ s₂ js ks, Step req lim s (.call c) s₁ → may s s₁ → s.calls c = .idle →
      s₁.calls c = .waitsAll js ks → Reaches req lim may s₁ s₂ → s₂.calls c = .returnedAll js ks false →
      (∀ id k, s.running.lookup id = some k → true ∈ (s₂.vm k).closes) ∧
      ∀ k, (s.vm k).phase ≠ .returned → (s.vm k).phase ≠ .registered → (s₂.vm k).obtained = true →
        (s₂.vm k).closes = [true]) := by
  have hi : Inv req lim s := inv_init.reaches h
  obtain ⟨hclosings, hcallers⟩ := Closings.reaches h
  refine ⟨fun k hp ho => ?_, fun l s' st hc => ⟨st.onward.closing hc, st.onward.unregistered hc⟩, fun j hj hp => ?_,
    fun k hp => hclosings.count k (by rw [State.stage, hp]; rfl), fun c j err hr => ?_, fun c j l s' hw st => ?_,
    fun hm c s₁ s₂ js ks st hmay hidle hcall hr hret => shutdownAll_closed hm h st hmay hidle hcall hr hret⟩
  · have := hclosings.life k
    rw [Life.Proper, hp] at this
    simpa [ho] using this
  · have hown := hi.machines.owned j hj hp
    have hshared : s.sharedStop (s.stops j).machine = some j := by
      simp only [State.sharedStop, hown]
      rw [if_neg (by rintro hd; rw [hd] at hp; cases hp)]
    rw [State.beginMachineStop, hshared]
  · obtain ⟨-, hd⟩ := hcallers.returned c j err hr
    have := hclosings.stop j
    rw [Stop.Proper, hd] at this
    exact ⟨hd, this⟩
  · cases st.called c with
    | same he => exact .inl (he.trans hw)
    | cancelled hp he => exact .inr (.inl he)
    | returned i err hp hd he =>
      rw [hw] at hp
      cases hp
      exact .inr (.inr ⟨err, hd, he⟩)
    | _ => simp_all

/-- `ShutdownAll` has been called while a start holds its instance. -/
def shuttingDown : State := startHolding.closeAll.1.setCall 0 (.waitsAll [] [0])

def lateStart : State := (shuttingDown.dropStart sample 0).setVm 0 { shuttingDown.vm 0 with phase := .late }

/-- In some run `ShutdownAll` reports success to caller `c` although the one `Close` of a start's instance failed. -/
def Overlooks (c : Nat) : Prop := ∃ s s₁ s₂ : State, ∃ js ks : List Nat, Reaches sample few (fun _ _ => True) .init s ∧
  Step sample few s (.call c) s₁ ∧ s.calls c = .idle ∧ s₁.calls c = .waitsAll js ks ∧
  Reaches sample few (fun _ _ => True) s₁ s₂ ∧ s₂.calls c = .returnedAll js ks false ∧ (s.vm 0).phase ≠ .returned ∧
  (s.vm 0).phase ≠ .registered ∧ (s₂.vm 0).obtained = true ∧ (s₂.vm 0).closes = [false]

/-- A start holds its instance when `ShutdownAll` is called. In the first run its shared memory is not claimed and
`Close` fails; in the second it finds the manager closing, and `ShutdownAll` is called again before it closes the
instance. -/
theorem failed_close_overlooked : Overlooks 0 ∧ Overlooks 1 := by
  have h₀ : Reaches sample few (fun _ _ => True) .init startHolding := reaches_startHolding trivial trivial
  have hself : ∀ t, Reaches sample few (fun _ _ => True) t t := fun _ => .refl
  constructor
  · have r₁ := (hself shuttingDown).step (.startFails (k := 0) .unclaimed rfl nofun) trivial
    have r₂ := r₁.step (.startCloses (k := 0) rfl false true) trivial
    have r₃ := r₂.step (.finished (k := 0) rfl) trivial
    have r₄ := r₃.step (.stoppedAll (c := 0) rfl nofun (by decide)) trivial
    exact ⟨_, _, _, _, _, h₀, .shutdownAll (c := 0) rfl, rfl, rfl, r₄, rfl, nofun, nofun, rfl, rfl⟩
  · have h₁ := h₀.step (.shutdownAll (c := 0) rfl) trivial
    have h₂ := h₁.step (.tooLate (k := 0) rfl (fun h => by cases h.1)) trivial
    have r₁ :=
      (hself (lateStart.closeAll.1.setCall 1 (.waitsAll [] []))).step (.stoppedAll (c := 1) rfl nofun nofun) trivial
    have r₂ := r₁.step (.lateCloses (k := 0) rfl false true) trivial
    exact ⟨_, _, _, _, _, h₂, .shutdownAll (c := 1) rfl, rfl, rfl, r₂, rfl, nofun, nofun, rfl, rfl⟩

/-- The start finds the manager closing and closes its instance; then `ShutdownAll` returns. -/
theorem late_start_closed : ∃ s₂, Reaches sample few Heeds shuttingDown s₂ ∧ s₂.calls 0 = .returnedAll [] [0] false ∧
    (s₂.vm 0).closes = [true] := by
  have h₀ : Reaches sample few Heeds .init startHolding :=
    reaches_startHolding ⟨nofun, nofun⟩ ⟨fun k e h => (by cases k <;> cases h), nofun⟩
  have hmay : Heeds startHolding shuttingDown :=
    ⟨fun k e h => (by cases k <;> cases h), fun c _ _ _ _ k h => (by cases k <;> cases h)⟩
  have r₀ : Reaches sample few Heeds shuttingDown shuttingDown := .refl
  have r₁ := r₀.step (.tooLate (k := 0) rfl (fun h => by cases h.1))
    ⟨fun k e h => (by cases k <;> cases h), fun c _ _ hi h => (by cases c; cases hi; cases h)⟩
  have r₂ := r₁.step (.lateCloses (k := 0) rfl true true)
    ⟨fun k e h => (by cases k <;> cases h), fun c _ _ hi h => (by cases c; cases hi; cases h)⟩
  have r₃ := r₂.step (.stoppedAll (c := 0) rfl nofun (by decide))
    ⟨fun k e h => (by cases k <;> cases h), fun c _ _ hi h => (by cases c; cases hi; cases h)⟩
  obtain ⟨-, -, -, -, -, -, hall⟩ := shutdown_complete h₀
  exact ⟨_, r₃, rfl, (hall (fun _ _ => id) 0 _ _ _ _ (.shutdownAll rfl) hmay rfl rfl r₃ rfl).2 0 nofun nofun rfl⟩

end Complete

end CrumbleCracker.Vm.Lifecycle
