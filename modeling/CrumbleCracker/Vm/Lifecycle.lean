import CrumbleCracker.Lib.Tables

/-!
# The lifecycle of VMs

The `Manager` of `vm.go` as a system of goroutines that meet at its lock: starts, stops, operations on a machine, the
watch of each machine, and the callers of `ShutdownInstance` and `ShutdownAll`. One `Step` is one critical section of
`m.mu`, the taking or giving back of a machine's `lifecycleMu`, or the end of a call into the host. Its label says whose
step it is.

The `k`-th start is for the request `req k` (its id as `instanceID` leaves it); the machine and the instance it makes
are called `k` as well. `StartInstanceStream` and `StartBlankInstanceStream` differ in one exit: only the latter adds
shares. Of a machine's data the tables' and the stop's are kept; the exit tombstones, displays and statuses are left
out.
-/

namespace CrumbleCracker.Vm.Lifecycle

open Function

abbrev Text : Type := List Char

structure Request where
  id : Text
  blank : Bool
  memoryMB : Nat
  cpus : Nat
  leased : Bool

/-- `maxVMs` as the host reports it, `maxMemoryMB` and `maxCPUs`; zero is no limit. -/
structure Limits where
  maxVMs : Nat
  maxMemoryMB : Nat
  maxCPUs : Nat

/-- Why a start gives up an instance it has obtained: shared memory that was not claimed, shares or VNC that failed. -/
inductive StartExit
  | unclaimed
  | shares
  | vnc
  deriving DecidableEq

inductive StartPhase
  | called
  | starting
  | holding
  | failing (e : StartExit)
  | finishing
  | late
  | returned
  | registered
  deriving DecidableEq

/-- Where a start is for the tables: in `starting`, a machine, or neither. -/
inductive Stage
  | outside
  | active
  | machine
  deriving DecidableEq

def StartPhase.stage : StartPhase → Stage
  | called | late | returned => .outside
  | starting | holding | failing _ | finishing => .active
  | registered => .machine

inductive WatchPhase
  | waiting
  | exited
  | done
  deriving DecidableEq

inductive Holder
  | stop (j : Nat)
  | op (o : Nat)
  deriving DecidableEq

/-- A start with what it makes: the results of `Close` on its instance so far, its record's `cleanupErr`, and of its
machine `stopping`, `stop`, the watch and the holder of `lifecycleMu`. -/
structure Life where
  phase : StartPhase := .called
  obtained : Bool := false
  closes : List Bool := []
  cleanupErr : Bool := false
  stopping : Bool := false
  stop : Option Nat := none
  watch : WatchPhase := .waiting
  lock : Option Holder := none

inductive StopPhase
  | waiting
  | closing
  | closed (err : Bool)
  | done (err : Bool)
  deriving DecidableEq

/-- `machineStopOperation` with its goroutine: the machine, and the result of its `Close`. -/
structure Stop where
  machine : Nat
  phase : StopPhase
  closed : Option Bool := none

inductive OpPhase
  | idle
  | looked (k : Nat)
  | locked (k : Nat)
  | operating (k : Nat)
  | returned
  deriving DecidableEq

/-- A caller of `ShutdownInstance` or `ShutdownAll`, and the error it returned, if any; a cancelled one returns the
context's. -/
inductive CallPhase
  | idle
  | waits (j : Nat)
  | waitsAll (stops starts : List Nat)
  | returned (j : Nat) (err : Bool)
  | returnedAll (stops starts : List Nat) (err : Bool)
  | cancelled

structure State where
  running : Table Text Nat
  starting : Table Text Nat
  reservations : Table Text (Nat × Nat)
  networkLeases : Table Text Unit
  closing : Bool
  vm : Nat → Life
  stops : Nat → Stop
  nextStop : Nat
  ops : Nat → OpPhase
  calls : Nat → CallPhase

def State.init : State where
  running := ∅
  starting := ∅
  reservations := ∅
  networkLeases := ∅
  closing := false
  vm _ := {}
  stops _ := ⟨0, .waiting, none⟩
  nextStop := 0
  ops _ := .idle
  calls _ := .idle

namespace State

variable (req : Nat → Request) (s : State)

def setVm (k : Nat) (v : Life) : State := { s with vm := update s.vm k v }

def setStop (j : Nat) (x : Stop) : State := { s with stops := update s.stops j x }

def setOp (o : Nat) (x : OpPhase) : State := { s with ops := update s.ops o x }

def setCall (c : Nat) (x : CallPhase) : State := { s with calls := update s.calls c x }

def stage (k : Nat) : Stage := (s.vm k).phase.stage

/-- `checkCapacityLocked`, with `resourceUsageLocked`. -/
def Capacity (lim : Limits) (r : Request) : Prop :=
  ¬(0 < lim.maxVMs ∧ lim.maxVMs ≤ s.running.sum (fun _ => 1) + s.starting.sum fun _ => 1) ∧
  ¬(0 < lim.maxMemoryMB ∧ (lim.maxMemoryMB < r.memoryMB ∨
    lim.maxMemoryMB - r.memoryMB < s.running.sum (fun k => (req k).memoryMB) + s.reservations.sum fun x => x.1)) ∧
  ¬(0 < lim.maxCPUs ∧ (lim.maxCPUs < r.cpus ∨
    lim.maxCPUs - r.cpus < s.running.sum (fun k => (req k).cpus) + s.reservations.sum fun x => x.2))

/-- A start goes on past its first critical section. -/
def Admits (lim : Limits) (k : Nat) : Prop :=
  s.closing = false ∧ s.running.lookup (req k).id = none ∧ s.starting.lookup (req k).id = none ∧
    s.Capacity req lim (req k)

def admitted (k : Nat) : State :=
  { s.setVm k { s.vm k with phase := .starting } with
    starting := s.starting.insert (req k).id k
    reservations := s.reservations.insert (req k).id ((req k).memoryMB, (req k).cpus)
    networkLeases := if (req k).leased then s.networkLeases.insert (req k).id () else s.networkLeases }

/-- What a start that ends without a machine does to the tables. -/
def dropStart (k : Nat) : State :=
  { s with
    starting := if s.starting.lookup (req k).id = some k then s.starting.erase (req k).id else s.starting
    reservations := s.reservations.erase (req k).id
    networkLeases := s.networkLeases.erase (req k).id }

/-- The start is the one in the table, and the manager is open. -/
def Registers (k : Nat) : Prop := s.closing = false ∧ s.starting.lookup (req k).id = some k

def register (k : Nat) : State :=
  { s.setVm k { s.vm k with phase := .registered } with
    starting := s.starting.erase (req k).id
    reservations := s.reservations.erase (req k).id
    running := s.running.insert (req k).id k }

/-- What the end of a machine does to the tables. -/
def removeMachine (k : Nat) : State :=
  { s with
    running := if s.running.lookup (req k).id = some k then s.running.erase (req k).id else s.running
    networkLeases := s.networkLeases.erase (req k).id }

/-- The watch leaves the machine to its stop. -/
def Kept (k : Nat) : Prop := (s.vm k).stopping = true ∨ ∃ j, (s.vm k).stop = some j ∧ (s.stops j).phase = .done true

/-- The stop operation a new stop of the machine shares. -/
def sharedStop (k : Nat) : Option Nat :=
  match (s.vm k).stop with
  | none => none
  | some j => if (s.stops j).phase = .done true then none else some j

def newStop (k : Nat) : State :=
  { (s.setVm k { s.vm k with stopping := true, stop := some s.nextStop }).setStop s.nextStop ⟨k, .waiting, none⟩ with
    nextStop := s.nextStop + 1 }

/-- `beginMachineStopLocked`, with the stop operation it returns. -/
def beginMachineStop (k : Nat) : State × Nat :=
  match s.sharedStop k with
  | some j => (s, j)
  | none => (s.newStop k, s.nextStop)

def beginAll : State → List Nat → State × List Nat
  | s, [] => (s, [])
  | s, k :: ks =>
    let r := s.beginMachineStop k
    let rest := beginAll r.1 ks
    (rest.1, r.2 :: rest.2)

def machines : List Nat := s.running.entries.map fun e => e.2

def inProgress : List Nat := s.starting.entries.map fun e => e.2

/-- The critical section of `ShutdownAll`, with the stop operations. -/
def closeAll : State × List Nat := beginAll { s with closing := true } s.machines

def Operable (id : Text) (k : Nat) : Prop := s.running.lookup id = some k ∧ (s.vm k).stopping = false

end State

inductive Label
  | start (k : Nat)
  | watch (k : Nat)
  | stop (j : Nat)
  | op (o : Nat)
  | call (c : Nat)

inductive Step (req : Nat → Request) (lim : Limits) : State → Label → State → Prop
  /-- The request is not valid, or the manager does not admit it. -/
  | refused {s : State} {k : Nat} (hp : (s.vm k).phase = .called) :
      Step req lim s (.start k) (s.setVm k { s.vm k with phase := .returned })
  | admitted {s : State} {k : Nat} (hp : (s.vm k).phase = .called) (h : s.Admits req lim k) :
      Step req lim s (.start k) (s.admitted req k)
  /-- Shared memory, host mounts or the host's start failed. -/
  | hostFailed {s : State} {k : Nat} (hp : (s.vm k).phase = .starting) :
      Step req lim s (.start k) (s.setVm k { s.vm k with phase := .finishing })
  | hostStarted {s : State} {k : Nat} (hp : (s.vm k).phase = .starting) :
      Step req lim s (.start k) (s.setVm k { s.vm k with phase := .holding, obtained := true })
  | startFails {s : State} {k : Nat} (e : StartExit) (hp : (s.vm k).phase = .holding)
      (he : e = .shares → (req k).blank = true) :
      Step req lim s (.start k) (s.setVm k { s.vm k with phase := .failing e })
  /-- The instance of a failed start is closed; only the exit for shares records the error. -/
  | startCloses {s : State} {k : Nat} {e : StartExit} (hp : (s.vm k).phase = .failing e) (closed released : Bool) :
      Step req lim s (.start k) (s.setVm k { s.vm k with
        phase := .finishing, closes := (s.vm k).closes ++ [closed]
        cleanupErr := e = .shares && !(closed && released) })
  | finished {s : State} {k : Nat} (hp : (s.vm k).phase = .finishing) :
      Step req lim s (.start k) ((s.dropStart req k).setVm k { s.vm k with phase := .returned })
  | registered {s : State} {k : Nat} (hp : (s.vm k).phase = .holding) (h : s.Registers req k) :
      Step req lim s (.start k) (s.register req k)
  | tooLate {s : State} {k : Nat} (hp : (s.vm k).phase = .holding) (h : ¬s.Registers req k) :
      Step req lim s (.start k) ((s.dropStart req k).setVm k { s.vm k with phase := .late })
  /-- A start that came too late closes its instance and returns. -/
  | lateCloses {s : State} {k : Nat} (hp : (s.vm k).phase = .late) (closed released : Bool) :
      Step req lim s (.start k) (s.setVm k { s.vm k with
        phase := .returned, closes := (s.vm k).closes ++ [closed], cleanupErr := !(closed && released) })
  /-- `Wait` returns, because the backend has exited or was closed. -/
  | exited {s : State} {k : Nat} (hp : (s.vm k).phase = .registered) (hw : (s.vm k).watch = .waiting) :
      Step req lim s (.watch k) (s.setVm k { s.vm k with watch := .exited })
  | watchKeeps {s : State} {k : Nat} (hw : (s.vm k).watch = .exited) (h : s.Kept k) :
      Step req lim s (.watch k) (s.setVm k { s.vm k with watch := .done })
  | watchRemoves {s : State} {k : Nat} (hw : (s.vm k).watch = .exited) (h : ¬s.Kept k) :
      Step req lim s (.watch k) ((s.removeMachine req k).setVm k { s.vm k with watch := .done })
  | stopLocks {s : State} {j : Nat} (hj : j < s.nextStop) (hp : (s.stops j).phase = .waiting)
      (hl : (s.vm (s.stops j).machine).lock = none) :
      Step req lim s (.stop j)
        ((s.setVm (s.stops j).machine { s.vm (s.stops j).machine with lock := some (.stop j) }).setStop j
          { s.stops j with phase := .closing })
  /-- The instance, the VNC server and the shared memory are closed, and `lifecycleMu` is given back. -/
  | stopCloses {s : State} {j : Nat} (hj : j < s.nextStop) (hp : (s.stops j).phase = .closing) (closed others : Bool) :
      Step req lim s (.stop j) ((s.setVm (s.stops j).machine { s.vm (s.stops j).machine with
        lock := none, closes := (s.vm (s.stops j).machine).closes ++ [closed] }).setStop j
        { s.stops j with phase := .closed (!(closed && others)), closed := some closed })
  | stopSucceeds {s : State} {j : Nat} (hj : j < s.nextStop) (hp : (s.stops j).phase = .closed false) :
      Step req lim s (.stop j)
        ((s.removeMachine req (s.stops j).machine).setStop j { s.stops j with phase := .done false })
  | stopFails {s : State} {j : Nat} (hj : j < s.nextStop) (hp : (s.stops j).phase = .closed true) :
      Step req lim s (.stop j) ((s.setVm (s.stops j).machine { s.vm (s.stops j).machine with
        stopping := if (s.vm (s.stops j).machine).stop = some j then false
          else (s.vm (s.stops j).machine).stopping }).setStop j
        { s.stops j with phase := .done true })
  /-- `lockMachineOperation` up to the machine's lock. -/
  | looks {s : State} {o k : Nat} (id : Text) (hp : s.ops o = .idle) (h : s.Operable id k) :
      Step req lim s (.op o) (s.setOp o (.looked k))
  | looksInVain {s : State} {o : Nat} (id : Text) (hp : s.ops o = .idle) (h : ∀ k, ¬s.Operable id k) :
      Step req lim s (.op o) (s.setOp o .returned)
  | opLocks {s : State} {o k : Nat} (hp : s.ops o = .looked k) (hl : (s.vm k).lock = none) :
      Step req lim s (.op o) ((s.setVm k { s.vm k with lock := some (.op o) }).setOp o (.locked k))
  | operates {s : State} {o k : Nat} (hp : s.ops o = .locked k) (h : s.Operable (req k).id k) :
      Step req lim s (.op o) (s.setOp o (.operating k))
  | opRefused {s : State} {o k : Nat} (hp : s.ops o = .locked k) (h : ¬s.Operable (req k).id k) :
      Step req lim s (.op o) ((s.setVm k { s.vm k with lock := none }).setOp o .returned)
  | opEnds {s : State} {o k : Nat} (hp : s.ops o = .operating k) :
      Step req lim s (.op o) ((s.setVm k { s.vm k with lock := none }).setOp o .returned)
  | shutdown {s : State} {c k : Nat} (id : Text) (hp : s.calls c = .idle) (h : s.running.lookup id = some k) :
      Step req lim s (.call c) ((s.beginMachineStop k).1.setCall c (.waits (s.beginMachineStop k).2))
  | shutdownAll {s : State} {c : Nat} (hp : s.calls c = .idle) :
      Step req lim s (.call c) (s.closeAll.1.setCall c (.waitsAll s.closeAll.2 s.inProgress))
  | stopped {s : State} {c j : Nat} {err : Bool} (hp : s.calls c = .waits j) (hj : (s.stops j).phase = .done err) :
      Step req lim s (.call c) (s.setCall c (.returned j err))
  /-- All the stops are done and then all the starts; an error of one is an error of all. -/
  | stoppedAll {s : State} {c : Nat} {js ks : List Nat} (hp : s.calls c = .waitsAll js ks)
      (hj : ∀ j ∈ js, ∃ err, (s.stops j).phase = .done err)
      (hk : ∀ k ∈ ks, (s.vm k).phase = .returned ∨ (s.vm k).phase = .registered) :
      Step req lim s (.call c) (s.setCall c (.returnedAll js ks
        (js.any (fun j => (s.stops j).phase = .done true) || ks.any fun k => (s.vm k).cleanupErr)))
  | cancelled {s : State} {c : Nat} (hp : (∃ j, s.calls c = .waits j) ∨ ∃ js ks, s.calls c = .waitsAll js ks) :
      Step req lim s (.call c) (s.setCall c .cancelled)

end CrumbleCracker.Vm.Lifecycle
