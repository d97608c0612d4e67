import CrumbleCracker.Virtio.InterruptLine

/-!
# Registers across a snapshot

`RestoreState` puts what `SnapshotState` saved into a new device on the same guest memory. The guest then reads the same
from every register, and the ready queues go on where they were, exactly when no interrupt was pending and every queue
that was ready without a size stood at its beginning (`restored_same_iff`).
-/

namespace CrumbleCracker.Virtio.Mmio

/-- The devices that are saved, and what they were made with. -/
inductive Saved
  | console
  | rng (legacyMmio : Bool)
  | balloon
  | vsock (guestCID : UInt64)
  | fs (tag : Bytes) (ringEventIdx : Bool)
  | net (legacyMmio disableMergeRX : Bool) (mac : Bytes)

def featureVersion1 : UInt64 := 0x100000000

namespace Saved

def queueCount : Saved → Nat
  | rng _ => 1
  | vsock _ => 3
  | fs _ _ => 5
  | _ => 2

def deviceID : Saved → UInt64
  | console => 3
  | rng _ => 4
  | balloon => 5
  | vsock _ => 19
  | fs _ _ => 26
  | net _ _ _ => 1

def legacyMmio : Saved → Bool
  | rng legacy | net legacy _ _ => legacy
  | _ => false

def queueNumMax : Saved → UInt64
  | vsock _ | fs _ _ => 128
  | _ => 256

/-- `deviceFeaturesLocked`, of the file system and the network. -/
def features : Saved → UInt64
  | fs _ ringEventIdx => if ringEventIdx then featureVersion1 ||| 0x20000000 else featureVersion1
  | net _ disableMergeRX _ => featureVersion1 ||| 0x10021 ||| (if disableMergeRX then 0 else 0x8000)
  | _ => 0

def deviceFeatures (d : Saved) (sel : UInt32) : UInt64 := match d with
  | console => if sel = 0 ∨ sel = 1 then 1 else 0
  | rng legacy => if legacy = false ∧ sel = 1 then 1 else 0
  | balloon | vsock _ => if sel = 1 then 1 else 0
  | fs _ _ => if sel = 0 then d.features else if sel = 1 then d.features >>> 32 else 0
  | net legacy _ _ =>
    let features := if legacy then d.features &&& ~~~featureVersion1 else d.features
    if sel = 0 then features else if sel = 1 then features >>> 32 else 0

/-- `configBytesLocked`; the source of randomness has none. -/
def configBytes (d : Saved) (numPages actualPages : UInt32) : Bytes := match d with
  | console => bytesLE 2 80 ++ bytesLE 2 25 ++ bytesLE 4 1 ++ bytesLE 4 0
  | rng _ => []
  | balloon => bytesLE 4 numPages.toNat ++ bytesLE 4 actualPages.toNat
  | vsock guestCID => bytesLE 8 guestCID.toNat
  | fs tag _ => (tag ++ List.replicate 36 0).take 36 ++ bytesLE 4 4
  | net _ _ mac => (mac ++ List.replicate 6 0).take 6 ++ bytesLE 2 1

end Saved

def truncateValue (value : UInt64) : Nat → UInt64
  | 1 => value &&& 0xff
  | 2 => value &&& 0xffff
  | 4 => value &&& 0xffffffff
  | _ => value

section Read

variable {n : Nat} (d : Saved) (t : Registers n)

/-- A field of the selected queue, or zero without one. -/
def selected (f : Queue → UInt64) : UInt64 := if h : t.queueSel.toNat < n then f (t.queues ⟨t.queueSel.toNat, h⟩) else 0

/-- The page of a queue placed the legacy way. -/
def queuePFN (q : Queue) : UInt64 := if q.ready then q.descAddr / 4096 else 0

/-- `readConfigValue` within the configuration. -/
def configValue (offset size : Nat) : UInt64 :=
  let cfg := d.configBytes t.numPages t.actualPages
  if offset + size ≤ cfg.length then UInt64.ofNat (natLE (field cfg offset size)) else 0

def read (offset size : Nat) : UInt64 :=
  truncateValue (match register offset with
    | .magicValue => 0x74726976
    | .version => if d.legacyMmio then 1 else 2
    | .deviceID => d.deviceID
    | .vendorID => 0x554d4551
    | .deviceFeatures => d.deviceFeatures t.deviceFeatureSel
    | .queueNumMax => selected t fun _ => d.queueNumMax
    | .queueNum => selected t fun q => q.size.toUInt64
    | .queueReady => if d.legacyMmio then 0 else selected t fun q => if q.ready then 1 else 0
    | .queuePFN => if d.legacyMmio then selected t queuePFN else 0
    | .interruptStatus => t.interruptStatus.toUInt64
    | .status => t.status.toUInt64
    | .configGen => t.configGeneration.toUInt64
    | .sharedMemory => if d matches .fs _ _ then ~~~0 else 0
    | .config off => configValue d t off size
    | _ => 0) size

def legacyValue (offset size : Nat) : UInt64 :=
  truncateValue (match offset with
    | 0 => d.features &&& ~~~featureVersion1
    | 8 => selected t queuePFN
    | 12 => selected t fun _ => d.queueNumMax
    | 14 => t.queueSel.toUInt64
    | 18 => t.status.toUInt64
    | 19 => t.interruptStatus.toUInt64
    | _ => if 20 ≤ offset then configValue d t (offset - 20) size else 0) size

/-- What the guest can tell: the registers, where the ready queues are, and the interrupts it has not acknowledged. -/
structure SameView (t' : Registers n) : Prop where
  reads (offset size : Nat) : read d t' offset size = read d t offset size
  legacyReads (offset size : Nat) : legacyValue d t' offset size = legacyValue d t offset size
  queues (i : Fin n) : (t.queues i).ready = true → (t'.queues i).ready = true ∧
    (t'.queues i).lastAvailIdx = (t.queues i).lastAvailIdx ∧ (t'.queues i).usedIdx = (t.queues i).usedIdx
  pending (bit : UInt32) : t.interruptStatus &&& bit ≠ 0 → t'.interruptStatus &&& bit ≠ 0

/-- No interrupt is pending, and a queue that is ready without a size is at its beginning. -/
def Quiescent : Prop := t.interruptStatus = 0 ∧
  ∀ i, (t.queues i).ready = true → (t.queues i).size = 0 → (t.queues i).lastAvailIdx = 0 ∧ (t.queues i).usedIdx = 0
deriving Decidable

end Read

section Restore

variable {n : Nat} {d : Saved} {t base : Registers n}

/-- The snapshot of a device in another one. -/
def restored (base t : Registers n) : Registers n := restoreState base (snapshotState t)

theorem restored_queues (i : Fin n) : (restored base t).queues i = restoreQueue (t.queues i) := by
  have hget : (List.ofFn t.queues)[i.val]? = some (t.queues i) := by simp
  simp only [restored, restoreState, snapshotState, restoreQueues, hget]

theorem selected_restored (f : Queue → UInt64)
    (hf : ∀ q last used, f { q with lastAvailIdx := last, usedIdx := used } = f q) :
    selected (restored base t) f = selected t f := by
  have hrestore : ∀ q, f (restoreQueue q) = f q := by
    intro q
    unfold restoreQueue
    split
    · exact hf q 0 0
    · rfl
  unfold selected
  split
  · rw [dif_pos ‹_›, restored_queues, hrestore]
    rfl
  · rw [dif_neg ‹_›]

theorem read_restored (h : t.interruptStatus = 0) (offset size : Nat) :
    read d (restored base t) offset size = read d t offset size := by
  unfold read
  congr 1
  cases register offset with
  | queueNum => exact selected_restored (fun q => q.size.toUInt64) fun _ _ _ => rfl
  | queueReady => exact congrArg (ite _ 0) (selected_restored (fun q => if q.ready then 1 else 0) fun _ _ _ => rfl)
  | queuePFN => exact congrArg (ite _ · 0) (selected_restored queuePFN fun _ _ _ => rfl)
  | interruptStatus => exact congrArg UInt32.toUInt64 h.symm
  | _ => rfl

theorem legacyValue_restored (h : t.interruptStatus = 0) (offset size : Nat) :
    legacyValue d (restored base t) offset size = legacyValue d t offset size := by
  unfold legacyValue
  congr 1
  split
  · rfl
  · exact selected_restored queuePFN fun _ _ _ => rfl
  · rfl
  · rfl
  · rfl
  · exact congrArg UInt32.toUInt64 h.symm
  · rfl

theorem interruptStatus_of_reads (h : ∀ offset size, read d (restored base t) offset size = read d t offset size) :
    t.interruptStatus = 0 := by
  have h8 : (0 : UInt32).toUInt64 = t.interruptStatus.toUInt64 := h 0x060 8
  exact (UInt32.toUInt64_inj.mp h8).symm

end Restore

theorem restored_same_iff (d : Saved) (base t : Registers d.queueCount) :
    SameView d t (restoreState base (snapshotState t)) ↔ Quiescent t := by
  constructor
  · intro h
    refine ⟨interruptStatus_of_reads h.reads, fun i hready hsize => ?_⟩
    obtain ⟨-, hlast, hused⟩ := h.queues i hready
    have hq : (restoreState base (snapshotState t)).queues i = restoreQueue (t.queues i) := restored_queues i
    rw [hq, restoreQueue, if_pos (.inr hsize)] at hlast hused
    exact ⟨hlast.symm, hused.symm⟩
  · rintro ⟨hzero, hqueues⟩
    refine ⟨read_restored hzero, legacyValue_restored hzero, fun i hready => ?_, fun bit hbit => ?_⟩
    · have hq : (restoreState base (snapshotState t)).queues i = restoreQueue (t.queues i) := restored_queues i
      rw [hq, restoreQueue]
      split
      · next hor =>
        have hsize : (t.queues i).size = 0 := hor.resolve_left (by simp [hready])
        obtain ⟨hlast, hused⟩ := hqueues i hready hsize
        exact ⟨hready, hlast.symm, hused.symm⟩
      · exact ⟨hready, rfl, rfl⟩
    · exact absurd (by rw [hzero]; exact UInt32.zero_and) hbit

/-- The balloon after the host has asked for a page back and the driver is ready: the restored device has forgotten the
configuration interrupt. -/
theorem pending_interrupt_lost :
    read .balloon (runFrom (step { device := .balloon }) (newDevice { device := .balloon }) (resetPending.take 2))
    0x060 4 = 2 ∧ read .balloon (restoreState (newDevice { device := .balloon }) (snapshotState
      (runFrom (step { device := .balloon }) (newDevice { device := .balloon }) (resetPending.take 2)))) 0x060 4 =
      0 := by
  decide

end CrumbleCracker.Virtio.Mmio
