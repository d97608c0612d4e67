import CrumbleCracker.Lib.Turns
import CrumbleCracker.Virtio.Queue

/-!
# The interrupt lines of the MMIO devices

The network, balloon, GPU, input and console devices keep the registers of the virtio MMIO transport and drive one
interrupt line each, which is to be high while the interrupt status register is not zero. A device remembers in
`irqHigh` the level it last passed to `SetIRQ`, and calls it only for another one. A reset and a restored snapshot clear
the status and forget the level without a call, so a line that is high stays high: through a run the line follows the
status exactly when they only happen with no interrupt pending (`line_follows_iff`).

What a walk over a queue finds in guest memory is left to the environment (`Walk`). The controller stays attached.
-/

namespace CrumbleCracker.Virtio.Mmio

section Registers

/-- The registers of a device with `n` queues, and the level last passed to `SetIRQ`. A device without a field has it
zero: `sharedMemorySel` is for the GPU and the file system, `legacy` and `asyncTXErr` for the network and the pages for
the balloon. -/
structure Registers (n : Nat) where
  deviceFeatureSel : UInt32 := 0
  driverFeatureSel : UInt32 := 0
  driverFeatures : UInt64 := 0
  queueSel : UInt32 := 0
  status : UInt32 := 0
  interruptStatus : UInt32 := 0
  irqHigh : Bool := false
  configGeneration : UInt32 := 0
  sharedMemorySel : UInt32 := 0
  legacy : Bool := false
  asyncTXErr : Bool := false
  numPages : UInt32 := 0
  actualPages : UInt32 := 0
  queues : Fin n → Queue := fun _ => {}
  line : Bool := false

inductive Register
  | magicValue | version | deviceID | vendorID | deviceFeatures | deviceFeatSel | driverFeatures | driverFeatSel
  | queueSel | queueNumMax | queueNum | queuePFN | queueReady | queueNotify | interruptStatus | interruptAck | status
  | queueDescLow | queueDescHigh | queueAvailLow | queueAvailHigh | queueUsedLow | queueUsedHigh
  | sharedMemorySel | sharedMemory | configGen | config (offset : Nat) | other

def register : Nat → Register
  | 0x000 => .magicValue
  | 0x004 => .version
  | 0x008 => .deviceID
  | 0x00c => .vendorID
  | 0x010 => .deviceFeatures
  | 0x014 => .deviceFeatSel
  | 0x020 => .driverFeatures
  | 0x024 => .driverFeatSel
  | 0x030 => .queueSel
  | 0x034 => .queueNumMax
  | 0x038 => .queueNum
  | 0x040 => .queuePFN
  | 0x044 => .queueReady
  | 0x050 => .queueNotify
  | 0x060 => .interruptStatus
  | 0x064 => .interruptAck
  | 0x070 => .status
  | 0x080 => .queueDescLow
  | 0x084 => .queueDescHigh
  | 0x090 => .queueAvailLow
  | 0x094 => .queueAvailHigh
  | 0x0a0 => .queueUsedLow
  | 0x0a4 => .queueUsedHigh
  | 0x0ac => .sharedMemorySel
  | 0x0b0 | 0x0b4 | 0x0b8 | 0x0bc => .sharedMemory
  | 0x0fc => .configGen
  | offset => if 0x100 ≤ offset then .config (offset - 0x100) else .other

def intVring : UInt32 := 1

def intConfig : UInt32 := 2

def setLow (x : UInt64) (value : UInt32) : UInt64 := (x &&& ~~~(0xffffffff : UInt64)) ||| value.toUInt64

def setHigh (x : UInt64) (value : UInt32) : UInt64 := (x &&& (0xffffffff : UInt64)) ||| (value.toUInt64 <<< 32)

variable {n : Nat} (t : Registers n)

namespace Registers

def updateIRQ : Registers n :=
  if t.irqHigh = decide (t.interruptStatus ≠ 0) then t
  else { t with irqHigh := decide (t.interruptStatus ≠ 0), line := decide (t.interruptStatus ≠ 0) }

def raise (bits : UInt32) : Registers n := { t with interruptStatus := t.interruptStatus ||| bits }.updateIRQ

def onQueue (i : Nat) (f : Queue → Queue) : Registers n :=
  { t with queues := fun j => if j.val = i then f (t.queues j) else t.queues j }

/-- A change of `selectedQueueLocked`, if there is one. -/
def onSelected (f : Queue → Queue) : Registers n := t.onQueue t.queueSel.toNat f

end Registers

/-- `MMIOState`, with a `QueueState` for each queue. -/
structure MMIOState where
  deviceFeatureSel : UInt32
  driverFeatureSel : UInt32
  driverFeatures : UInt64
  queueSel : UInt32
  status : UInt32
  configGeneration : UInt32
  sharedMemorySel : UInt32
  legacy : Bool
  queues : List Queue
  numPages : UInt32
  actualPages : UInt32

def snapshotState : MMIOState where
  deviceFeatureSel := t.deviceFeatureSel
  driverFeatureSel := t.driverFeatureSel
  driverFeatures := t.driverFeatures
  queueSel := t.queueSel
  status := t.status
  configGeneration := t.configGeneration
  sharedMemorySel := t.sharedMemorySel
  legacy := t.legacy
  queues := List.ofFn t.queues
  numPages := t.numPages
  actualPages := t.actualPages

def restoreQueue (q : Queue) : Queue :=
  if q.ready = false ∨ q.size = 0 then { q with lastAvailIdx := 0, usedIdx := 0 } else q

def restoreQueues (states : List Queue) (i : Fin n) : Queue := match states[i.val]? with
  | none => {}
  | some q => restoreQueue q

def restoreState (s : MMIOState) : Registers n :=
  { t with
    deviceFeatureSel := s.deviceFeatureSel
    driverFeatureSel := s.driverFeatureSel
    driverFeatures := s.driverFeatures
    queueSel := s.queueSel
    status := s.status
    interruptStatus := 0
    irqHigh := false
    configGeneration := s.configGeneration
    sharedMemorySel := s.sharedMemorySel
    legacy := s.legacy
    queues := restoreQueues s.queues
    numPages := s.numPages
    actualPages := s.actualPages }

end Registers

section Devices

inductive Device
  | net
  | balloon
  | gpu
  | input
  | console
  deriving DecidableEq

structure Options where
  device : Device
  legacyMmio : Bool := false
  noTXUsed : Bool := false
  noTXIRQ : Bool := false
  asyncTX : Bool := false

inductive Ending
  | failed
  | idle
  | processed
  deriving DecidableEq

/-- A walk over a queue: the indices it leaves, whether the driver has switched interrupts off, and how it ends. -/
structure Walk where
  lastAvailIdx : UInt16
  usedIdx : UInt16
  suppressed : Bool
  ending : Ending

local instance neZero_two : NeZero 2 := ⟨two_ne_zero⟩

def netQueueRX : Fin 2 := 0

def netQueueTX : Fin 2 := 1

variable (o : Options) (t : Registers 2)

/-- Whether the walk ends with an interrupt: the console's and the network's sending queues also when it took
nothing. -/
def announces (i : Fin 2) (w : Walk) : Bool := match o.device with
  | .console => w.ending ≠ .failed
  | .net =>
    if i = netQueueTX then w.ending ≠ .failed && !o.noTXUsed && !o.noTXIRQ && !w.suppressed
    else w.ending = .processed && !w.suppressed
  | _ => w.ending = .processed

/-- `processTXLocked`, `processRXLocked`, `processQueueLocked`, `flushEventsLocked` and `processStatusLocked`. -/
def processQueue (i : Fin 2) (w : Walk) : Registers 2 :=
  if (t.queues i).ready = false ∨ (t.queues i).size = 0 then t
  else
    let t := t.onQueue i fun q => { q with lastAvailIdx := w.lastAvailIdx, usedIdx := w.usedIdx }
    if announces o i w then t.raise intVring else t

/-- `resetLocked`: `SetIRQ` is not called. -/
def reset : Registers 2 where
  configGeneration := if o.device = .gpu ∨ o.device = .input then t.configGeneration else t.configGeneration + 1
  asyncTXErr := t.asyncTXErr
  numPages := t.numPages
  line := t.line

def balloonDriverOK : UInt32 := 4

def writeStatus (value : UInt32) : Registers 2 :=
  if value = 0 then reset o t
  else if o.device = .balloon ∧ t.status &&& balloonDriverOK = 0 ∧ value &&& balloonDriverOK ≠ 0 ∧
      t.actualPages ≠ t.numPages then { t with status := value }.raise intConfig
  else { t with status := value }

/-- A notification; the console only serves its second queue, and the network may send later. -/
def notify (value : UInt64) (w : Walk) : Registers 2 :=
  if value = 1 then if o.device = .net ∧ o.asyncTX = true then t else processQueue o t 1 w
  else if value = 0 ∧ o.device ≠ .console then processQueue o t 0 w
  else t

/-- The queue that arrives is walked as soon as it is ready. -/
def received (w : Walk) : Registers 2 := if t.queueSel = 0 then processQueue o t netQueueRX w else t

def writeQueueReady (value : UInt64) (w : Walk) : Registers 2 :=
  if o.device = .net ∧ o.legacyMmio = true then t
  else if value = 0 then t.onSelected fun q => { q with ready := false, lastAvailIdx := 0, usedIdx := 0 }
  else if o.device = .net then received o (t.onSelected fun q => { q with ready := true }) w
  else t.onSelected fun q => { q with ready := true }

def alignVirtio (value alignment : UInt64) : UInt64 := (value + alignment - 1) &&& ~~~(alignment - 1)

def configureLegacyQueue (pfn : UInt32) (q : Queue) : Queue :=
  let size := if q.size = 0 then 256 else q.size
  let avail := pfn.toUInt64 * 4096 + 16 * size.toUInt64
  { size, ready := true, descAddr := pfn.toUInt64 * 4096, availAddr := avail,
    usedAddr := alignVirtio (avail + 4 + 2 * size.toUInt64) 4096 }

/-- The legacy way to place a queue. -/
def writeQueuePFN (value : UInt64) (w : Walk) : Registers 2 :=
  if value = 0 then t.onSelected fun q => { q with ready := false, descAddr := 0, availAddr := 0, usedAddr := 0 }
  else received o (t.onSelected (configureLegacyQueue value.toUInt32)) w

def writeActual (offset size : Nat) (value : UInt64) : Registers 2 :=
  let cfg := bytesLE 4 0 ++ bytesLE 4 t.actualPages.toNat
  { t with actualPages := u32At (cfg.take offset ++ bytesLE size value.toNat ++ cfg.drop (offset + size)) 4 }

/-- The registers whose writes only store. -/
def store (value : UInt64) : Register → Registers 2
  | .deviceFeatSel => { t with deviceFeatureSel := value.toUInt32 }
  | .driverFeatSel => { t with driverFeatureSel := value.toUInt32 }
  | .driverFeatures =>
    if t.driverFeatureSel = 0 then { t with driverFeatures := setLow t.driverFeatures value.toUInt32 }
    else if t.driverFeatureSel = 1 then { t with driverFeatures := setHigh t.driverFeatures value.toUInt32 }
    else t
  | .queueSel => { t with queueSel := value.toUInt32 }
  | .sharedMemorySel => if o.device = .gpu then { t with sharedMemorySel := value.toUInt32 } else t
  | .queueNum =>
    t.onSelected fun q =>
      { q with size := if (o.device = .gpu ∧ 256 < value) ∨ (o.device = .input ∧ 64 < value) then 0
        else value.toUInt16 }
  | .queueDescLow => t.onSelected fun q => { q with descAddr := setLow q.descAddr value.toUInt32 }
  | .queueDescHigh => t.onSelected fun q => { q with descAddr := setHigh q.descAddr value.toUInt32 }
  | .queueAvailLow => t.onSelected fun q => { q with availAddr := setLow q.availAddr value.toUInt32 }
  | .queueAvailHigh => t.onSelected fun q => { q with availAddr := setHigh q.availAddr value.toUInt32 }
  | .queueUsedLow => t.onSelected fun q => { q with usedAddr := setLow q.usedAddr value.toUInt32 }
  | .queueUsedHigh => t.onSelected fun q => { q with usedAddr := setHigh q.usedAddr value.toUInt32 }
  | _ => t

/-- `Write`. The network reports an error of a send made later instead. -/
def write (offset size : Nat) (value : UInt64) (w : Walk) : Registers 2 :=
  if t.asyncTXErr then { t with asyncTXErr := false }
  else match register offset with
    | .interruptAck => { t with interruptStatus := t.interruptStatus &&& ~~~value.toUInt32 }.updateIRQ
    | .status => writeStatus o t value.toUInt32
    | .queueNotify => notify o t value w
    | .queueReady => writeQueueReady o t value w
    | .queuePFN => if o.device = .net ∧ o.legacyMmio = true then writeQueuePFN o t value w else t
    | .config off => if o.device = .balloon ∧ 4 ≤ off ∧ off + size ≤ 8 then writeActual t off size value else t
    | r => store o t value r

/-- `ReadLegacy`: reading the interrupt status acknowledges it. -/
def readLegacy (offset : Nat) : Registers 2 :=
  if offset = 19 then { t with legacy := true, interruptStatus := 0 }.updateIRQ else { t with legacy := true }

def writeLegacy (offset : Nat) (value : UInt64) (w : Walk) : Registers 2 :=
  let t := { t with legacy := true }
  if t.asyncTXErr then { t with asyncTXErr := false }
  else match offset with
    | 4 => { t with driverFeatures := value.toUInt32.toUInt64 }
    | 8 => writeQueuePFN o t value w
    | 14 => { t with queueSel := value.toUInt32 }
    | 16 => notify o t value w
    | 18 => { writeStatus o t value.toUInt8.toUInt32 with legacy := true }
    | _ => t

def setTargetPages (pages : UInt32) : Registers 2 :=
  if t.numPages = pages then t
  else
    let t := { t with numPages := pages, configGeneration := t.configGeneration + 1 }
    if t.status &&& balloonDriverOK = 0 then t else t.raise intConfig

/-- An access of the guest or a call of the host. Of a call that changes no register (`State`, `IRQAsserted`,
`SnapshotState`) there is nothing to say. -/
inductive Event
  | read (offset size : Nat)
  | write (offset size : Nat) (value : UInt64) (w : Walk)
  | readLegacy (offset : Nat)
  | writeLegacy (offset : Nat) (value : UInt64) (w : Walk)
  /-- `EnqueueRxPacket`, which tries the packet alone before the packets that wait. -/
  | enqueueRxPacket (first rest : Walk)
  | runAsyncTX (w : Walk)
  /-- The end of `runAsyncTX` when the walk or the delivery of a packet failed. -/
  | asyncTXFailed
  | setTargetPages (pages : UInt32)
  | resize
  /-- `Send` and the events made by `Key`, `PointerEvent`, `RelativePointerEvent` and `ScrollEvent`. -/
  | send (w : Walk)
  | setDimensions
  | restoreState (s : MMIOState)

/-- The devices a call or an access is for. -/
def Event.isFor : Event → Device → Bool
  | .read _ _, _ | .write _ _ _ _, _ => true
  | .readLegacy _, d | .writeLegacy _ _ _, d | .enqueueRxPacket _ _, d | .runAsyncTX _, d | .asyncTXFailed, d =>
    d = .net
  | .setTargetPages _, d => d = .balloon
  | .resize, d => d = .gpu
  | .send _, d | .setDimensions, d => d = .input
  | .restoreState _, d => d = .net ∨ d = .balloon ∨ d = .console

def Event.apply : Event → Registers 2
  | .read _ _ => t
  | .write offset size value w => Mmio.write o t offset size value w
  | .readLegacy offset => Mmio.readLegacy t offset
  | .writeLegacy offset value w => Mmio.writeLegacy o t offset value w
  | .enqueueRxPacket first rest =>
    processQueue o t netQueueRX (if first.ending = .idle then rest else first)
  | .runAsyncTX w => processQueue o t netQueueTX w
  | .asyncTXFailed => { t with asyncTXErr := true }
  | .setTargetPages pages => Mmio.setTargetPages t pages
  | .resize => { t with configGeneration := t.configGeneration + 1 }.raise intConfig
  | .send w => processQueue o t 0 w
  | .setDimensions => { t with configGeneration := t.configGeneration + 1 }
  | .restoreState s => Mmio.restoreState t s

def step (e : Event) : Registers 2 := if e.isFor o.device then e.apply o t else t

/-- A device as made, by `resetLocked`. -/
def newDevice : Registers 2 := reset o {}

end Devices

section Line

variable {n : Nat}

/-- The line is high exactly when an interrupt is pending. -/
def Follows (t : Registers n) : Prop := t.line = decide (t.interruptStatus ≠ 0)

/-- The device clears its interrupt status without an acknowledgement. -/
def Event.clears (o : Options) (t : Registers 2) : Event → Bool
  | .write offset _ value _ => !t.asyncTXErr && offset = 0x070 && value.toUInt32 = 0
  | .writeLegacy offset value _ => o.device = .net && !t.asyncTXErr && offset = 18 && value.toUInt8.toUInt32 = 0
  | .restoreState s => (Event.restoreState s).isFor o.device
  | _ => false

/-- No reset and no restored snapshot with an interrupt pending. -/
def Calm (o : Options) (t : Registers 2) (e : Event) : Prop := e.clears o t = true → t.interruptStatus = 0

/-- The line is as the device remembers it, and follows the status. -/
structure Tracks (t : Registers n) : Prop where
  high : t.irqHigh = t.line
  follows : Follows t

variable {t t' : Registers n} {o : Options}

theorem tracks_updateIRQ (h : t.irqHigh = t.line) : Tracks t.updateIRQ := by
  unfold Registers.updateIRQ
  split
  · next heq => exact ⟨h, h.symm.trans heq⟩
  · exact ⟨rfl, rfl⟩

theorem Tracks.of_eq (h : Tracks t) (hs : t'.interruptStatus = t.interruptStatus) (hi : t'.irqHigh = t.irqHigh)
    (hl : t'.line = t.line) : Tracks t' := ⟨by rw [hi, hl, h.high], by rw [Follows, hl, hs]; exact h.follows⟩

theorem Tracks.cleared (h : Tracks t) (hzero : t.interruptStatus = 0) (hs : t'.interruptStatus = 0)
    (hi : t'.irqHigh = false) (hl : t'.line = t.line) : Tracks t' := by
  have hlow : t.line = false := by rw [h.follows, hzero]; rfl
  exact ⟨by rw [hi, hl, hlow], by rw [Follows, hl, hlow, hs]; rfl⟩

end Line

section Steps

variable {o : Options} {t : Registers 2}

theorem tracks_ite {t' : Registers 2} {c : Prop} [Decidable c] (h : Tracks t) (h' : Tracks t') :
    Tracks (if c then t else t') := by
  split
  · exact h
  · exact h'

variable {e : Event}

section Kept

variable (h : Tracks t)

include h

theorem Tracks.processQueue (i : Fin 2) (w : Walk) : Tracks (processQueue o t i w) :=
  tracks_ite h (tracks_ite (tracks_updateIRQ h.high) (h.of_eq rfl rfl rfl))

theorem Tracks.received (w : Walk) : Tracks (received o t w) := tracks_ite (h.processQueue _ w) h

variable (value : UInt64)

theorem Tracks.notify (w : Walk) : Tracks (notify o t value w) :=
  tracks_ite (tracks_ite h (h.processQueue _ w)) (tracks_ite (h.processQueue _ w) h)

theorem Tracks.onSelected (f : Queue → Queue) : Tracks (t.onSelected f) := h.of_eq rfl rfl rfl

theorem Tracks.writeQueueReady (w : Walk) : Tracks (writeQueueReady o t value w) :=
  tracks_ite h (tracks_ite (h.onSelected _) (tracks_ite ((h.onSelected _).received w) (h.onSelected _)))

theorem Tracks.writeQueuePFN (w : Walk) : Tracks (writeQueuePFN o t value w) :=
  tracks_ite (h.onSelected _) ((h.onSelected _).received w)

theorem Tracks.writeStatus {value : UInt32} (hz : value = 0 → t.interruptStatus = 0) :
    Tracks (writeStatus o t value) := by
  unfold Mmio.writeStatus
  split
  · next hv => exact h.cleared (hz hv) rfl rfl rfl
  · exact tracks_ite (tracks_updateIRQ h.high) (h.of_eq rfl rfl rfl)

variable {offset : Nat}

omit h in
theorem offset_of_status (h : register offset = .status) : offset = 0x070 := by
  unfold register at h
  split at h
  all_goals first | rfl | cases h | (split at h <;> cases h)

theorem Tracks.store (r : Register) : Tracks (store o t value r) := by
  cases r with
  | driverFeatures => exact tracks_ite (h.of_eq rfl rfl rfl) (tracks_ite (h.of_eq rfl rfl rfl) h)
  | sharedMemorySel => exact tracks_ite (h.of_eq rfl rfl rfl) h
  | _ => exact h.of_eq rfl rfl rfl

theorem Tracks.write {size : Nat} {value : UInt64} {w : Walk} (hc : Calm o t (.write offset size value w)) :
    Tracks (write o t offset size value w) := by
  unfold Mmio.write
  split
  · exact h.of_eq rfl rfl rfl
  · next herr =>
    split
    · exact tracks_updateIRQ h.high
    · next hreg =>
      refine h.writeStatus fun hv => hc ?_
      simp [Event.clears, herr, hv, offset_of_status hreg]
    · exact h.notify value w
    · exact h.writeQueueReady value w
    · exact tracks_ite (h.writeQueuePFN value w) h
    · exact tracks_ite (h.of_eq rfl rfl rfl) h
    · exact h.store value _

theorem Tracks.writeLegacy {value : UInt64} {w : Walk} (hnet : o.device = .net)
    (hc : Calm o t (.writeLegacy offset value w)) :
    Tracks (writeLegacy o t offset value w) := by
  have h' : Tracks { t with legacy := true } := h.of_eq rfl rfl rfl
  unfold Mmio.writeLegacy
  dsimp only
  split
  · exact h'.of_eq rfl rfl rfl
  · next herr =>
    split
    · exact h'.of_eq rfl rfl rfl
    · exact h'.writeQueuePFN value w
    · exact h'.of_eq rfl rfl rfl
    · exact h'.notify value w
    · refine (h'.writeStatus fun hv => hc ?_).of_eq rfl rfl rfl
      simp [Event.clears, herr, hv, hnet]
    · exact h'

theorem Tracks.step (hc : Calm o t e) : Tracks (step o t e) := by
  unfold Mmio.step
  split
  · next hfor =>
    cases e with
    | read offset size => exact h
    | write offset size value w => exact h.write hc
    | readLegacy offset => exact tracks_ite (tracks_updateIRQ h.high) (h.of_eq rfl rfl rfl)
    | writeLegacy offset value w => exact h.writeLegacy (of_decide_eq_true hfor) hc
    | enqueueRxPacket first rest => exact h.processQueue _ _
    | runAsyncTX w | send w => exact h.processQueue _ w
    | asyncTXFailed | setDimensions => exact h.of_eq rfl rfl rfl
    | setTargetPages pages => exact tracks_ite h (tracks_ite (h.of_eq rfl rfl rfl) (tracks_updateIRQ h.high))
    | resize => exact tracks_updateIRQ h.high
    | restoreState s => exact h.cleared (hc hfor) rfl rfl rfl
  · exact h

end Kept

/-- What a clearing step leaves: no interrupt pending, and the line as it was. -/
theorem step_of_clears (hc : e.clears o t = true) : (step o t e).interruptStatus = 0 ∧ (step o t e).line = t.line := by
  cases e with
  | write offset size value w =>
    simp only [Event.clears, Bool.and_eq_true, Bool.not_eq_eq_eq_not, Bool.not_true, decide_eq_true_eq] at hc
    obtain ⟨⟨herr, rfl⟩, hv⟩ := hc
    simp [step, Event.isFor, Event.apply, Mmio.write, herr, register, writeStatus, hv, reset]
  | writeLegacy offset value w =>
    simp only [Event.clears, Bool.and_eq_true, Bool.not_eq_eq_eq_not, Bool.not_true, decide_eq_true_eq] at hc
    obtain ⟨⟨⟨hnet, herr⟩, rfl⟩, hv⟩ := hc
    simp [step, Event.isFor, Event.apply, Mmio.writeLegacy, herr, hnet, writeStatus, hv, reset]
  | restoreState s =>
    rw [step, if_pos (show (Event.restoreState s).isFor o.device = true from hc)]
    exact ⟨rfl, rfl⟩
  | _ => cases hc

theorem calm_of_follows (h : Follows t) (h' : Follows (step o t e)) : Calm o t e := by
  intro hc
  obtain ⟨hs, hl⟩ := step_of_clears hc
  have hlow : decide (t.interruptStatus ≠ 0) = false := by rw [← h, ← hl, h', hs]; rfl
  exact not_not.mp (of_decide_eq_false hlow)

theorem follows_iff (h : Tracks t) (es : List Event) :
    (∀ es', es' <+: es → Follows (runFrom (step o) t es')) ↔ Throughout (step o) (Calm o) t es := by
  induction es generalizing t with
  | nil =>
    refine ⟨fun _ => trivial, fun _ es' hes => ?_⟩
    rw [List.prefix_nil.mp hes]
    exact h.follows
  | cons e es ih =>
    constructor
    · intro hall
      have hc : Calm o t e := calm_of_follows h.follows (hall [e] (List.prefix_append _ _))
      exact ⟨hc, (ih (h.step hc)).mp fun es' hes => hall (e :: es') (List.cons_prefix_cons.mpr ⟨rfl, hes⟩)⟩
    · rintro ⟨hc, hrest⟩ es' hes
      cases es' with
      | nil => exact h.follows
      | cons e' es' =>
        obtain ⟨rfl, hes'⟩ := List.cons_prefix_cons.mp hes
        exact (ih (h.step hc)).mpr hrest es' hes'

end Steps

theorem line_follows_iff (o : Options) (es : List Event) :
    (∀ es', es' <+: es → Follows (runFrom (step o) (newDevice o) es')) ↔
      Throughout (step o) (Calm o) (newDevice o) es :=
  follows_iff ⟨rfl, by rw [Follows]; rfl⟩ es

def idleWalk : Walk := ⟨0, 0, false, .idle⟩

/-- The host asks for a page back, the driver gets ready and is told, and resets the device. -/
def resetPending : List Event :=
  [.setTargetPages 1, .write 0x070 4 4 idleWalk, .write 0x070 4 0 idleWalk]

theorem line_high_after_reset :
    (runFrom (step { device := .balloon }) (newDevice { device := .balloon }) resetPending).interruptStatus = 0 ∧
    (runFrom (step { device := .balloon }) (newDevice { device := .balloon }) resetPending).line = true := by decide

end CrumbleCracker.Virtio.Mmio
