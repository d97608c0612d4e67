import CrumbleCracker.Vm.Lifecycle

/-!
# What the lifecycle of VMs keeps

`Ledger` is the order of the manager's tables: an id is in at most one of `running` and `starting`, the reservations are
those of the starting ids, and the leases belong to ids of the two. `Budgets` bounds what they take together. `Machines`
says how a machine and its stop operations hang together, so that a watch or a stop that removes a machine finds it in
`running`. The three are kept by every step (`Inv.step`), whoever takes it.
-/

namespace CrumbleCracker.Vm.Lifecycle

open Function

variable {req : Nat → Request} {lim : Limits} {s s' : State} {l : Label}

/-- `s'` comes after `s` by steps that `may` allows. -/
def Reaches (req : Nat → Request) (lim : Limits) (may : State → State → Prop) : State → State → Prop :=
  Relation.ReflTransGen fun s s' => (∃ l, Step req lim s l s') ∧ may s s'

variable {may : State → State → Prop}

theorem Reaches.step {t : State} (h : Reaches req lim may t s) (st : Step req lim s l s') (hm : may s s') :
    Reaches req lim may t s' := h.tail ⟨⟨l, st⟩, hm⟩

theorem Reaches.mono {may' : State → State → Prop} (hm : ∀ s s', may s s' → may' s s') (h : Reaches req lim may s s') :
    Reaches req lim may' s s' := by
  induction h with
  | refl => exact .refl
  | tail _ hn ih => exact ih.tail ⟨hn.1, hm _ _ hn.2⟩

section Updates

variable (s) (k i : Nat) (v : Life)

@[simp] theorem vm_setVm : (s.setVm k v).vm i = if i = k then v else s.vm i :=
  update_apply ..

@[simp] theorem stops_setStop (x : Stop) : (s.setStop k x).stops i = if i = k then x else s.stops i :=
  update_apply ..

variable (x : OpPhase)

@[simp] theorem ops_setOp : (s.setOp k x).ops i = if i = k then x else s.ops i :=
  update_apply ..

@[simp] theorem setVm_frame : (s.setVm k v).stops = s.stops ∧ (s.setVm k v).nextStop = s.nextStop ∧
    (s.setVm k v).ops = s.ops := ⟨rfl, rfl, rfl⟩

@[simp] theorem setStop_frame (x : Stop) : (s.setStop k x).vm = s.vm ∧ (s.setStop k x).nextStop = s.nextStop ∧
    (s.setStop k x).ops = s.ops := ⟨rfl, rfl, rfl⟩

@[simp] theorem setOp_frame : (s.setOp k x).vm = s.vm ∧ (s.setOp k x).stops = s.stops ∧
    (s.setOp k x).nextStop = s.nextStop := ⟨rfl, rfl, rfl⟩

@[simp] theorem removeMachine_frame : (s.removeMachine req k).vm = s.vm ∧ (s.removeMachine req k).stops = s.stops ∧
    (s.removeMachine req k).nextStop = s.nextStop ∧ (s.removeMachine req k).ops = s.ops := ⟨rfl, rfl, rfl, rfl⟩

theorem stage_of_vm {s' : State} (h : s'.vm = update s.vm k v) :
    s'.stage i = if i = k then v.phase.stage else s.stage i := by
  rw [State.stage, h, update_apply]
  split <;> rfl

theorem stage_register (req : Nat → Request) : (s.register req k).stage i = if i = k then .machine else s.stage i :=
  stage_of_vm s k i { s.vm k with phase := .registered } rfl

@[grind =] theorem vm_newStop :
    (s.newStop k).vm i = if i = k then { s.vm k with stopping := true, stop := some s.nextStop } else s.vm i :=
  vm_setVm s k i _

@[grind =] theorem stops_newStop : (s.newStop k).stops i = if i = s.nextStop then ⟨k, .waiting, none⟩ else s.stops i :=
  stops_setStop (s.setVm k _) s.nextStop i _

@[grind =] theorem nextStop_newStop : (s.newStop k).nextStop = s.nextStop + 1 := rfl

theorem stage_newStop : (s.newStop k).stage i = s.stage i := by
  rw [State.stage, vm_newStop]
  split
  · next hi => rw [hi]; rfl
  · rfl

end Updates

section Books

structure Ledger (req : Nat → Request) (s : State) : Prop where
  machine : ∀ id k, s.running.lookup id = some k → (req k).id = id ∧ s.stage k = .machine
  starting : ∀ id k, s.starting.lookup id = some k ↔ (req k).id = id ∧ s.stage k = .active
  reserved : ∀ id, s.reservations.lookup id = (s.starting.lookup id).map fun k => ((req k).memoryMB, (req k).cpus)
  leased : ∀ id, s.networkLeases.lookup id ≠ none → s.running.lookup id ≠ none ∨ s.starting.lookup id ≠ none
  apart : ∀ id k, s.running.lookup id = some k → s.starting.lookup id = none

structure Budgets (req : Nat → Request) (lim : Limits) (s : State) : Prop where
  vms : Within s.running s.starting (fun _ => 1) (fun _ => 1) lim.maxVMs
  memory : Within s.running s.reservations (fun k => (req k).memoryMB) (fun x => x.1) lim.maxMemoryMB
  cpus : Within s.running s.reservations (fun k => (req k).cpus) (fun x => x.2) lim.maxCPUs

theorem ledger_init : Ledger req .init where
  machine _ _ h := by cases h
  starting id k := ⟨fun h => (by cases h), fun h => (by cases h.2)⟩
  reserved _ := rfl
  leased _ h := absurd rfl h
  apart _ _ h := by cases h

structure SameBooks (s s' : State) : Prop where
  running : s'.running = s.running
  starting : s'.starting = s.starting
  reservations : s'.reservations = s.reservations
  networkLeases : s'.networkLeases = s.networkLeases
  stage : ∀ k, s'.stage k = s.stage k

theorem Ledger.same (h : Ledger req s) (e : SameBooks s s') : Ledger req s' := by
  obtain ⟨hr, hs, hres, hl, hst⟩ := e
  constructor <;> simp only [hr, hs, hres, hl, hst]
  exacts [h.machine, h.starting, h.reserved, h.leased, h.apart]

theorem Budgets.same (h : Budgets req lim s) (e : SameBooks s s') : Budgets req lim s' := by
  obtain ⟨hr, hs, hres, -, -⟩ := e
  constructor <;> simp only [hr, hs, hres]
  exacts [h.vms, h.memory, h.cpus]

variable {k : Nat}

theorem Ledger.admitted (h : Ledger req s) (hp : (s.vm k).phase = .called) (ha : s.Admits req lim k) :
    Ledger req (s.admitted req k) := by
  obtain ⟨-, hrun, hstart, -⟩ := ha
  have hout : s.stage k = .outside := by rw [State.stage, hp]; rfl
  have hstage : ∀ i, (s.admitted req k).stage i = if i = k then .active else s.stage i := fun i =>
    stage_of_vm s k i { s.vm k with phase := .starting } rfl
  have er : (s.admitted req k).running = s.running := rfl
  have es : (s.admitted req k).starting = s.starting.insert (req k).id k := rfl
  have eres : (s.admitted req k).reservations = s.reservations.insert (req k).id ((req k).memoryMB, (req k).cpus) := rfl
  have el : ∀ id, (s.admitted req k).networkLeases.lookup id ≠ none →
      id = (req k).id ∨ s.networkLeases.lookup id ≠ none := by
    intro id
    change (if _ then _ else _ : Table Text Unit).lookup id ≠ none → _
    split <;> grind
  obtain ⟨hm, hs, hr, hl, ha⟩ := h
  constructor <;> grind

theorem Budgets.admitted (h : Ledger req s) (ha : s.Admits req lim k) : Budgets req lim (s.admitted req k) := by
  obtain ⟨-, -, hstart, hvms, hmem, hcpus⟩ := ha
  have hres : s.reservations.lookup (req k).id = none := by rw [h.reserved, hstart]; rfl
  have hv : Within s.running (s.starting.insert (req k).id k) (fun _ => 1) (fun _ => 1) lim.maxVMs :=
    .admitted hstart fun _ => by omega
  have hm : Within s.running (s.reservations.insert (req k).id ((req k).memoryMB, (req k).cpus))
      (fun k => (req k).memoryMB) (fun x => x.1) lim.maxMemoryMB := .admitted hres fun _ => by omega
  have hc : Within s.running (s.reservations.insert (req k).id ((req k).memoryMB, (req k).cpus))
      (fun k => (req k).cpus) (fun x => x.2) lim.maxCPUs := .admitted hres fun _ => by omega
  exact ⟨hv, hm, hc⟩

theorem Ledger.drop (h : Ledger req s) (hk : s.stage k = .active) {v : Life} (hv : v.phase.stage = .outside) :
    Ledger req ((s.dropStart req k).setVm k v) := by
  have hin : s.starting.lookup (req k).id = some k := (h.starting _ _).mpr ⟨rfl, hk⟩
  have hstage : ∀ i, ((s.dropStart req k).setVm k v).stage i = if i = k then .outside else s.stage i := fun i =>
    hv ▸ stage_of_vm s k i v rfl
  have er : ((s.dropStart req k).setVm k v).running = s.running := rfl
  have es : ((s.dropStart req k).setVm k v).starting = s.starting.erase (req k).id := if_pos hin
  have eres : ((s.dropStart req k).setVm k v).reservations = s.reservations.erase (req k).id := rfl
  have el : ((s.dropStart req k).setVm k v).networkLeases = s.networkLeases.erase (req k).id := rfl
  obtain ⟨hm, hs, hr, hl, ha⟩ := h
  constructor <;> grind

theorem Budgets.drop (h : Budgets req lim s) (v : Life) : Budgets req lim ((s.dropStart req k).setVm k v) := by
  refine ⟨?_, h.memory.eraseRight _, h.cpus.eraseRight _⟩
  change Within s.running (if _ then _ else _) _ _ _
  split
  · exact h.vms.eraseRight _
  · exact h.vms

theorem Ledger.absent (h : Ledger req s) {id : Text} (hin : s.starting.lookup id = some k) :
    s.running.lookup id = none := by
  cases hl : s.running.lookup id with
  | none => rfl
  | some i => exact absurd (h.apart _ _ hl) (by rw [hin]; simp)

theorem Ledger.register (h : Ledger req s) (hr : s.Registers req k) : Ledger req (s.register req k) := by
  have hin := hr.2
  have hnew := h.absent hin
  have hstage := fun i => stage_register s k i req
  have er : (s.register req k).running = s.running.insert (req k).id k := rfl
  have es : (s.register req k).starting = s.starting.erase (req k).id := rfl
  have eres : (s.register req k).reservations = s.reservations.erase (req k).id := rfl
  have el : (s.register req k).networkLeases = s.networkLeases := rfl
  obtain ⟨hm, hs, hr, hl, ha⟩ := h
  constructor <;> grind

theorem Budgets.register (hb : Budgets req lim s) (h : Ledger req s) (hr : s.Registers req k) :
    Budgets req lim (s.register req k) := by
  have hnew := h.absent hr.2
  have hres : s.reservations.lookup (req k).id = some ((req k).memoryMB, (req k).cpus) := by rw [h.reserved, hr.2]; rfl
  exact ⟨hb.vms.move hnew hr.2 rfl, hb.memory.move hnew hres rfl, hb.cpus.move hnew hres rfl⟩

theorem Ledger.remove (h : Ledger req s) (hin : s.running.lookup (req k).id = some k)
    (e : SameBooks (s.removeMachine req k) s') :
    Ledger req s' := by
  refine Ledger.same ?_ e
  have er : (s.removeMachine req k).running = s.running.erase (req k).id := if_pos hin
  have es : (s.removeMachine req k).starting = s.starting := rfl
  have eres : (s.removeMachine req k).reservations = s.reservations := rfl
  have el : (s.removeMachine req k).networkLeases = s.networkLeases.erase (req k).id := rfl
  have hstage : ∀ i, (s.removeMachine req k).stage i = s.stage i := fun _ => rfl
  obtain ⟨hm, hs, hr, hl, ha⟩ := h
  constructor <;> grind

theorem Budgets.remove (h : Budgets req lim s) (hin : s.running.lookup (req k).id = some k)
    (e : SameBooks (s.removeMachine req k) s') : Budgets req lim s' := by
  have er : (s.removeMachine req k).running = s.running.erase (req k).id := if_pos hin
  exact Budgets.same ⟨er ▸ h.vms.eraseLeft _, er ▸ h.memory.eraseLeft _, er ▸ h.cpus.eraseLeft _⟩ e

end Books

section Machines

def StopPhase.finished : StopPhase → Bool
  | .done _ => true
  | _ => false

/-- How the machines and their stop operations hang together. -/
structure Machines (req : Nat → Request) (s : State) : Prop where
  owned : ∀ j < s.nextStop, (s.stops j).phase.finished = false → (s.vm (s.stops j).machine).stop = some j
  present : ∀ j < s.nextStop, (s.stops j).phase.finished = false →
    s.running.lookup (req (s.stops j).machine).id = some (s.stops j).machine
  stop : ∀ k j, (s.vm k).stop = some j → j < s.nextStop ∧ (s.stops j).machine = k ∧ s.stage k = .machine
  stopping : ∀ k, (s.vm k).stopping = true ↔ ∃ j, (s.vm k).stop = some j ∧ (s.stops j).phase ≠ .done true
  watched : ∀ k, (s.vm k).watch ≠ .waiting → s.stage k = .machine
  kept : ∀ k, s.stage k = .machine → s.running.lookup (req k).id = some k ∨ (s.vm k).watch = .done ∨
    ∃ j, (s.vm k).stop = some j ∧ (s.stops j).phase = .done false

theorem machines_init : Machines req .init where
  owned _ h := absurd h (Nat.not_lt_zero _)
  present _ h := absurd h (Nat.not_lt_zero _)
  stop _ _ h := by cases h
  stopping _ := ⟨fun h => (by cases h), fun ⟨_, h, _⟩ => (by cases h)⟩
  watched _ h := absurd rfl h
  kept _ h := by cases h

/-- Nothing of it has changed: a stop operation that is not finished may have gone on. -/
structure SameMachines (s s' : State) : Prop where
  running : s'.running = s.running
  nextStop : s'.nextStop = s.nextStop
  stops : ∀ j, (s'.stops j).machine = (s.stops j).machine ∧ ((s'.stops j).phase = (s.stops j).phase ∨
    (s'.stops j).phase.finished = false ∧ (s.stops j).phase.finished = false)
  vm : ∀ k, (s'.vm k).stop = (s.vm k).stop ∧ (s'.vm k).stopping = (s.vm k).stopping ∧ (s'.vm k).watch = (s.vm k).watch
  stage : ∀ k, s'.stage k = .machine ↔ s.stage k = .machine

theorem Machines.same (h : Machines req s) (e : SameMachines s s') : Machines req s' := by
  obtain ⟨hr, hn, hstops, hvm, hstage⟩ := e
  have hdone : ∀ j err, (s'.stops j).phase = .done err ↔ (s.stops j).phase = .done err := by
    intro j err
    rcases (hstops j).2 with heq | ⟨h₁, h₂⟩
    · rw [heq]
    · constructor
      · intro h
        rw [h] at h₁
        cases h₁
      · intro h
        rw [h] at h₂
        cases h₂
  have hfin : ∀ j, (s'.stops j).phase.finished = (s.stops j).phase.finished := by
    intro j
    rcases (hstops j).2 with heq | ⟨h₁, h₂⟩
    · rw [heq]
    · rw [h₁, h₂]
  obtain ⟨ho, hp, hs, hst, hw, hk⟩ := h
  constructor <;> grind

theorem Machines.register (h : Machines req s) (hl : Ledger req s) {k : Nat} (hr : s.Registers req k) :
    Machines req (s.register req k) := by
  have hnew := hl.absent hr.2
  have hactive : s.stage k = .active := ((hl.starting _ _).mp hr.2).2
  have hstage := fun i => stage_register s k i req
  have er : (s.register req k).running = s.running.insert (req k).id k := rfl
  have est : (s.register req k).stops = s.stops := rfl
  have en : (s.register req k).nextStop = s.nextStop := rfl
  have ev : ∀ i, ((s.register req k).vm i).stop = (s.vm i).stop ∧ ((s.register req k).vm i).stopping =
      (s.vm i).stopping ∧ ((s.register req k).vm i).watch = (s.vm i).watch := by
    intro i
    change ((s.setVm k _).vm i).stop = _ ∧ ((s.setVm k _).vm i).stopping = _ ∧ ((s.setVm k _).vm i).watch = _
    simp only [vm_setVm]
    split
    · next hi => rw [hi]; exact ⟨rfl, rfl, rfl⟩
    · exact ⟨rfl, rfl, rfl⟩
  obtain ⟨ho, hp, hs, hst, hw, hk⟩ := h
  constructor <;> grind

variable {k : Nat}

theorem Machines.watch (h : Machines req s) (hk : s.stage k = .machine) {w : WatchPhase} (hd : (s.vm k).watch ≠ .done)
    (er : s'.running = s.running ∨ w = .done ∧ s'.running = s.running.erase (req k).id ∧ (s.vm k).stopping = false ∧
      s.running.lookup (req k).id = some k)
    (ev : ∀ i, s'.vm i = if i = k then { s.vm k with watch := w } else s.vm i) (est : s'.stops = s.stops)
    (en : s'.nextStop = s.nextStop) : Machines req s' := by
  have hstage : ∀ i, s'.stage i = s.stage i := by
    intro i
    rw [State.stage, ev]
    split
    · next hi => rw [hi]; rfl
    · rfl
  have hunfinished : ∀ p : StopPhase, p.finished = false → p ≠ .done true := by
    rintro p hp rfl
    cases hp
  obtain ⟨ho, hp, hs, hstp, hwt, hkp⟩ := h
  constructor <;> grind

theorem Machines.newStop (h : Machines req s) (hk : s.stage k = .machine) (hin : s.running.lookup (req k).id = some k)
    (hnone : s.sharedStop k = none) : Machines req (s.newStop k) := by
  have hfree : ∀ j, (s.vm k).stop = some j → (s.stops j).phase = .done true := by
    intro j hj
    simp only [State.sharedStop, hj] at hnone
    split at hnone
    · assumption
    · cases hnone
  have er : (s.newStop k).running = s.running := rfl
  have hstage := stage_newStop s k
  obtain ⟨ho, hp, hs, hstp, hwt, hkp⟩ := h
  constructor <;> grind [StopPhase.finished]

theorem Machines.finish (h : Machines req s) {j : Nat} {err : Bool} (hj : j < s.nextStop)
    (hp : (s.stops j).phase = .closed err)
    (er : s'.running = if err then s.running else s.running.erase (req (s.stops j).machine).id)
    (ev : ∀ i, (s'.vm i).stop = (s.vm i).stop ∧ (s'.vm i).watch = (s.vm i).watch ∧
      (s'.vm i).stopping = if err = true ∧ i = (s.stops j).machine then false else (s.vm i).stopping)
    (est : ∀ i, s'.stops i = if i = j then { s.stops j with phase := .done err } else s.stops i)
    (en : s'.nextStop = s.nextStop) (hstage : ∀ i, s'.stage i = s.stage i) : Machines req s' := by
  have hfin : (s.stops j).phase.finished = false := by rw [hp]; rfl
  have hin := h.present j hj hfin
  have hown := h.owned j hj hfin
  obtain ⟨ho, hpr, hs, hstp, hwt, hkp⟩ := h
  constructor
  · clear hpr hs hstp hwt hkp
    grind [StopPhase.finished]
  · clear hs hstp hwt hkp
    grind [StopPhase.finished]
  · clear ho hpr hstp hwt hkp
    grind
  · clear ho hpr hwt hkp
    grind
  · clear ho hpr hs hstp hkp
    grind
  · clear ho hpr hs hstp hwt
    grind

end Machines

section Inv

structure Inv (req : Nat → Request) (lim : Limits) (s : State) : Prop where
  ledger : Ledger req s
  budgets : Budgets req lim s
  machines : Machines req s

theorem Inv.books (h : Inv req lim s) (e : SameBooks s s') (hm : Machines req s') : Inv req lim s' :=
  ⟨h.ledger.same e, h.budgets.same e, hm⟩

theorem Inv.remove (h : Inv req lim s) {k : Nat} (hin : s.running.lookup (req k).id = some k)
    (e : SameBooks (s.removeMachine req k) s') (hm : Machines req s') : Inv req lim s' :=
  ⟨h.ledger.remove hin e, h.budgets.remove hin e, hm⟩

theorem Inv.same (h : Inv req lim s) (e : SameBooks s s') (e' : SameMachines s s') : Inv req lim s' :=
  h.books e (h.machines.same e')

theorem Inv.aside (h : Inv req lim s) (ops : Nat → OpPhase) (calls : Nat → CallPhase) (closing : Bool) :
    Inv req lim { s with ops, calls, closing } :=
  h.same ⟨rfl, rfl, rfl, rfl, fun _ => rfl⟩ ⟨rfl, rfl, fun _ => ⟨rfl, .inl rfl⟩, fun _ => ⟨rfl, rfl, rfl⟩,
    fun _ => Iff.rfl⟩

variable {k : Nat} {v : Life}

theorem stage_setVm (hv : v.phase.stage = s.stage k) (i : Nat) : (s.setVm k v).stage i = s.stage i := by
  rw [State.stage, vm_setVm]
  split
  · next hi => rw [hv, hi]
  · rfl

theorem vm_setVm_same (hv : v.stop = (s.vm k).stop ∧ v.stopping = (s.vm k).stopping ∧ v.watch = (s.vm k).watch)
    (i : Nat) :
    ((s.setVm k v).vm i).stop = (s.vm i).stop ∧ ((s.setVm k v).vm i).stopping = (s.vm i).stopping ∧
      ((s.setVm k v).vm i).watch = (s.vm i).watch := by
  rw [vm_setVm]
  split
  · next hi => rw [hi]; exact hv
  · exact ⟨rfl, rfl, rfl⟩

section

variable (h : Inv req lim s)

include h

theorem Inv.setVm (hp : v.phase.stage = s.stage k)
    (hv : v.stop = (s.vm k).stop ∧ v.stopping = (s.vm k).stopping ∧ v.watch = (s.vm k).watch) :
    Inv req lim (s.setVm k v) :=
  h.same ⟨rfl, rfl, rfl, rfl, stage_setVm hp⟩
    ⟨rfl, rfl, fun _ => ⟨rfl, .inl rfl⟩, vm_setVm_same hv, fun i => by rw [stage_setVm hp]⟩

theorem Inv.lock (k : Nat) (x : Option Holder) (cs : List Bool) :
    Inv req lim (s.setVm k { s.vm k with lock := x, closes := cs }) := h.setVm rfl ⟨rfl, rfl, rfl⟩

theorem Inv.setStop {j : Nat} {x : Stop} (hm : x.machine = (s.stops j).machine)
    (hx : x.phase.finished = false) (hj : (s.stops j).phase.finished = false) : Inv req lim (s.setStop j x) := by
  refine h.same ⟨rfl, rfl, rfl, rfl, fun _ => rfl⟩ ⟨rfl, rfl, fun i => ?_, fun _ => ⟨rfl, rfl, rfl⟩, fun _ => Iff.rfl⟩
  rw [stops_setStop]
  split
  · next hi => rw [hi]; exact ⟨hm, .inr ⟨hx, hj⟩⟩
  · exact ⟨rfl, .inl rfl⟩

theorem Inv.drop (hk : s.stage k = .active) {p : StartPhase} (hp : p.stage = .outside) :
    Inv req lim ((s.dropStart req k).setVm k { s.vm k with phase := p }) := by
  refine ⟨h.ledger.drop hk hp, h.budgets.drop _,
    h.machines.same ⟨rfl, rfl, fun _ => ⟨rfl, .inl rfl⟩, fun i => ?_, fun i => ?_⟩⟩
  · exact vm_setVm_same (s := s) (k := k) (v := { s.vm k with phase := p }) ⟨rfl, rfl, rfl⟩ i
  · rw [show _ = _ from stage_of_vm s k i { s.vm k with phase := p } rfl]
    split
    · next hi => simp [hi, hk, hp]
    · rfl

theorem Inv.watch (hk : s.stage k = .machine) (hd : (s.vm k).watch ≠ .done) (w : WatchPhase) :
    Inv req lim (s.setVm k { s.vm k with watch := w }) :=
  h.books ⟨rfl, rfl, rfl, rfl, stage_setVm rfl⟩ (h.machines.watch hk hd (.inl rfl) (vm_setVm s k · _) rfl rfl)

theorem Inv.newStop {id : Text} (hin : s.running.lookup id = some k) (hnone : s.sharedStop k = none) :
    Inv req lim (s.newStop k) := by
  obtain ⟨hid, hk⟩ := h.ledger.machine id k hin
  exact h.books ⟨rfl, rfl, rfl, rfl, stage_newStop s k⟩ (h.machines.newStop hk (hid ▸ hin) hnone)

end

theorem beginMachineStop_rule {P : State → Prop} (hnew : s.sharedStop k = none → P (s.newStop k)) (h : P s) :
    P (s.beginMachineStop k).1 := by
  unfold State.beginMachineStop
  split
  · exact h
  · next hnone => exact hnew hnone

/-- What holds of a state is kept by `beginAll` if a new stop of one of the machines keeps it. -/
theorem beginAll_rule {P : State → Prop} {ks : List Nat}
    (hnew : ∀ {t : State} {k : Nat}, k ∈ ks → P t → t.sharedStop k = none → P (t.newStop k)) (h : P s) :
    P (s.beginAll ks).1 := by
  induction ks generalizing s with
  | nil => exact h
  | cons k ks ih =>
    exact ih (fun hk => hnew (List.mem_cons_of_mem _ hk)) (beginMachineStop_rule (hnew List.mem_cons_self h) h)

theorem Inv.beginAll (h : Inv req lim s) {ks : List Nat} (hks : ∀ k ∈ ks, ∃ id, s.running.lookup id = some k) :
    Inv req lim (s.beginAll ks).1 := by
  refine (beginAll_rule (P := fun t => Inv req lim t ∧ t.running = s.running) (fun {t k} hk ht hnone => ?_) ⟨h, rfl⟩).1
  obtain ⟨id, hid⟩ := hks k hk
  exact ⟨ht.1.newStop (ht.2 ▸ hid) hnone, ht.2⟩

theorem lookup_of_mem_machines (hk : k ∈ s.machines) : ∃ id, s.running.lookup id = some k := by
  obtain ⟨e, he, rfl⟩ := List.mem_map.mp hk
  exact ⟨e.1, AList.mem_lookup_iff.mpr he⟩

/-- A watch that removes its machine finds it in the table. -/
theorem Machines.removed (h : Machines req s) (hw : (s.vm k).watch = .exited) (hk : ¬s.Kept k) :
    s.running.lookup (req k).id = some k ∧ (s.vm k).stopping = false := by
  have hstop : (s.vm k).stopping = false := by
    cases hs : (s.vm k).stopping with
    | false => rfl
    | true => exact absurd (.inl hs) hk
  rcases h.kept k (h.watched k (by rw [hw]; simp)) with hr | hd | ⟨j, hj, hd⟩
  · exact ⟨hr, hstop⟩
  · rw [hw] at hd
    cases hd
  · have := (h.stopping k).mpr ⟨j, hj, by rw [hd]; simp⟩
    rw [hstop] at this
    cases this

theorem Inv.step (h : Inv req lim s) (st : Step req lim s l s') : Inv req lim s' := by
  have hstage : ∀ {k : Nat} {p : StartPhase}, (s.vm k).phase = p → ∀ q : StartPhase,
      q.stage = p.stage → q.stage = s.stage k := fun hp q hq => by rw [hq, ← hp]; rfl
  cases st with
  | refused hp | hostFailed hp | hostStarted hp | startFails e hp he | startCloses hp closed released
  | lateCloses hp closed released => exact h.setVm (hstage hp _ rfl) ⟨rfl, rfl, rfl⟩
  | finished hp | tooLate hp hr => exact h.drop (hstage hp .holding rfl).symm rfl
  | @admitted k hp ha =>
    refine ⟨h.ledger.admitted hp ha, .admitted h.ledger ha,
      h.machines.same ⟨rfl, rfl, fun _ => ⟨rfl, .inl rfl⟩, fun i => ?_, fun i => ?_⟩⟩
    · exact vm_setVm_same (s := s) (k := k) (v := { s.vm k with phase := .starting }) ⟨rfl, rfl, rfl⟩ i
    · rw [show _ = _ from stage_of_vm s k i { s.vm k with phase := .starting } rfl]
      split
      · next hi => simp [hi, ← hstage hp .called rfl, StartPhase.stage]
      · rfl
  | registered hp hr => exact ⟨h.ledger.register hr, h.budgets.register h.ledger hr, h.machines.register h.ledger hr⟩
  | @exited k hp hw => exact h.watch (hstage hp .registered rfl).symm (by rw [hw]; simp) _
  | @watchKeeps k hw hk => exact h.watch (h.machines.watched k (by rw [hw]; simp)) (by rw [hw]; simp) _
  | @watchRemoves k hw hk =>
    obtain ⟨hin, hstop⟩ := h.machines.removed hw hk
    refine h.remove hin ⟨rfl, rfl, rfl, rfl, stage_setVm rfl⟩ ?_
    exact h.machines.watch (h.machines.watched k (by rw [hw]; simp)) (by rw [hw]; simp)
      (.inr ⟨rfl, if_pos hin, hstop, hin⟩) (vm_setVm (s.removeMachine req k) k · _) rfl rfl
  | @stopLocks j hj hp hl | @stopCloses j hj hp closed others =>
    exact (h.lock _ _ _).setStop rfl rfl (congrArg StopPhase.finished hp)
  | @stopSucceeds j hj hp =>
    have hin := h.machines.present j hj (by rw [hp]; rfl)
    refine h.remove hin ⟨rfl, rfl, rfl, rfl, fun _ => rfl⟩ ?_
    exact h.machines.finish hj hp (if_pos hin) (fun i => ⟨rfl, rfl, by simp⟩)
      (stops_setStop (s.removeMachine req _) j · _) rfl
      fun _ => rfl
  | @stopFails j hj hp =>
    have hown := h.machines.owned j hj (by rw [hp]; rfl)
    refine h.books ⟨rfl, rfl, rfl, rfl, stage_setVm rfl⟩ (h.machines.finish hj hp rfl (fun i => ?_)
      (stops_setStop (s.setVm _ _) j · _) rfl (stage_setVm rfl))
    change ((s.setVm _ _).vm i).stop = _ ∧ ((s.setVm _ _).vm i).watch = _ ∧ ((s.setVm _ _).vm i).stopping = _
    rw [vm_setVm]
    split
    · next hi => simp [hi, hown]
    · next hi => simp [hi]
  | looks id hp ho | looksInVain id hp ho | operates hp ho | stopped hp hj | stoppedAll hp hj hk | cancelled hp =>
    exact h.aside _ _ _
  | opLocks hp hl | opRefused hp ho | opEnds hp => exact (h.lock _ _ _).aside _ _ _
  | shutdown id hp hin => exact .aside (beginMachineStop_rule (h.newStop hin) h) _ _ _
  | shutdownAll hp =>
    have hc : Inv req lim { s with closing := true } := h.aside _ _ _
    exact (hc.beginAll fun k hk => lookup_of_mem_machines hk).aside _ _ _

theorem inv_init : Inv req lim .init :=
  ⟨ledger_init, ⟨fun _ => Nat.zero_le _, fun _ => Nat.zero_le _, fun _ => Nat.zero_le _⟩, machines_init⟩

theorem Inv.reaches (h : Inv req lim s) (hr : Reaches req lim may s s') : Inv req lim s' := by
  induction hr with
  | refl => exact h
  | tail _ hn ih =>
    obtain ⟨⟨l, st⟩, -⟩ := hn
    exact ih.step st

end Inv

end CrumbleCracker.Vm.Lifecycle
