import CrumbleCracker.Lib.Framed
import CrumbleCracker.Virtio.PersistentState

/-!
# The metadata log

`appendDelta` appends one record to `metadata.wal`. Every host call it makes may fail; a fault is an input, and
what a failed call leaves on disk is part of the result. `replayWAL` reads the log back over a snapshot.
-/

namespace CrumbleCracker.Virtio

open Framed

/-- `encoding/json` at the two types that are written to disk. -/
structure Json where
  delta : Codec PersistentImageDelta
  state : Codec PersistentImageState

def persistentImageMaxMetadata : Nat := 2 ^ 30

theorem maxMetadata_lt : persistentImageMaxMetadata < 256 ^ 8 := by decide

def walFormat : Format where
  magic := [0x43, 0x43, 0x48, 0x57, 0x41, 0x4C, 0x30, 0x31]
  version := persistentImageFormatVersion
  maxPayload := persistentImageMaxMetadata
  magic_length := rfl
  maxPayload_lt := maxMetadata_lt

/-- The store directory: the two metadata slots, the log, the `INITIALIZED` marker and the data file of each
inode. -/
structure Disk where
  slot : Fin 2 → Option Bytes := fun _ => none
  wal : Option Bytes := none
  initialized : Bool := false
  data : IdMap Bytes := ∅

def Disk.walBytes (d : Disk) : Bytes := d.wal.getD []

/-- Appends to the log, creating it when it is not there. -/
def Disk.appendWal (d : Disk) (bytes : Bytes) : Disk := { d with wal := some (d.walBytes ++ bytes) }

/-- The durability state of an open store. -/
structure PersistentImageStore where
  sequence : Nat := 0
  metadataSlot : Fin 2 := 0
  durableState : Option PersistentImageState := none
  disk : Disk := {}

inductive StoreError
  | applyDelta (e : ApplyError)
  | faultHook
  | deltaTooLarge (size : Nat)
  | openWAL
  | walHeader
  | walPayload
  | walSync
  | walClose
  | metadataTooLarge (size : Nat)
  | stageMetadata
  | publishMetadata
  | syncDirectory
  | resetWAL
  | syncData
  | reclaimData
  | markClean
  | noValidMetadata
  | initializedWithoutMetadata
  | walWithoutMetadata (size : Nat)
  | dataWithoutMetadata
  deriving DecidableEq

/-! ## Appending -/

/-- The host call of `appendDelta` that fails; a short write says how many bytes reached the file. -/
inductive AppendFault
  | hook
  | openFile
  | header (written : Fin headerSize)
  | payload (written : Nat)
  | sync
  | close
  deriving DecidableEq

def encodeDelta (J : Json) (delta : PersistentImageDelta) : Bytes :=
  walFormat.record delta.sequence (J.delta.marshal delta)

/-- The record `appendDelta` builds from `delta`. -/
def PersistentImageStore.stamp (s : PersistentImageStore) (delta : PersistentImageDelta) (durable : Bool) :
    PersistentImageDelta :=
  { delta with version := persistentImageFormatVersion, sequence := s.sequence + 1, committed := durable }

/-- The durable state a record leads to: the current one, or an empty one before the first record, with the record
replayed. -/
def PersistentImageStore.nextDurable (s : PersistentImageStore) (delta : PersistentImageDelta) :
    Except ApplyError PersistentImageState :=
  applyPersistentImageDelta (s.durableState.getD {}) delta

/-- The host I/O of `appendDelta` for a stamped record; `next` becomes the durable state on success. -/
def PersistentImageStore.writeDelta (J : Json) (fault : Option AppendFault) (delta : PersistentImageDelta)
    (durable : Bool) (next : Option PersistentImageState) (s : PersistentImageStore) :
    Except StoreError Unit × PersistentImageStore :=
  let payload := J.delta.marshal delta
  let header := walFormat.header delta.sequence payload
  let wrote (bytes : Bytes) : PersistentImageStore := { s with disk := s.disk.appendWal bytes }
  if fault = some .hook then (.error .faultHook, s)
  else if persistentImageMaxMetadata < payload.length then (.error (.deltaTooLarge payload.length), s)
  else match fault with
    | some .openFile => (.error .openWAL, s)
    | some (.header written) => (.error .walHeader, wrote (header.take written))
    | some (.payload written) => (.error .walPayload, wrote (header ++ payload.take written))
    | some .close => (.error .walClose, wrote (header ++ payload))
    | _ =>
      if durable ∧ fault = some .sync then (.error .walSync, wrote (header ++ payload))
      else (.ok (), { wrote (header ++ payload) with sequence := delta.sequence, durableState := next })

/-- `appendDelta`: `none` is a barrier, which is a record of its own when it is durable. -/
def PersistentImageStore.appendDelta (J : Json) (fault : Option AppendFault) (delta : Option PersistentImageDelta)
    (durable : Bool) (s : PersistentImageStore) : Except StoreError Unit × PersistentImageStore :=
  if delta.isNone ∧ ¬durable then (.ok (), s)
  else
    let delta := s.stamp (delta.getD {}) durable
    if durable then
      match s.nextDurable delta with
      | .error e => (.error (.applyDelta e), s)
      | .ok next => s.writeDelta J fault delta durable (some next)
    else s.writeDelta J fault delta durable s.durableState

/-! ## Replaying -/

inductive PayloadError
  | invalidPayload
  | invalidRecord
  deriving DecidableEq

/-- Why the tail of the log is discarded. -/
inductive DiscardReason
  | scan (e : ScanError PayloadError)
  | uncommitted
  | sequence
  | invalidDelta
  deriving DecidableEq

def decodeDelta (J : Json) (frame : Frame) : Except PayloadError PersistentImageDelta :=
  match J.delta.unmarshal frame.payload with
  | none => .error .invalidPayload
  | some delta =>
    if delta.version ≠ persistentImageFormatVersion ∨ delta.sequence % 256 ^ 8 ≠ frame.sequence then
      .error .invalidRecord
    else .ok delta

abbrev WalRecord := Nat × PersistentImageDelta

def scanWAL (J : Json) (offset : Nat) (wal : Bytes) : Scan PersistentImageDelta PayloadError :=
  scan walFormat (decodeDelta J) offset wal

/-- Where the log is cut, and why; cutting at its end keeps all of it. -/
structure Discard where
  offset : Nat
  reason : Option DiscardReason

/-- The cut the scan loop leaves for a log of `size` bytes. -/
def Discard.ofScan (size : Nat) : Option (Nat × ScanError PayloadError) → Discard
  | none => ⟨size, none⟩
  | some (offset, e) => ⟨offset, some (.scan e)⟩

def Discard.lower (d : Discard) (offset : Nat) (reason : DiscardReason) : Discard :=
  if offset < d.offset then ⟨offset, some reason⟩ else d

/-- The index of the first record newer than the snapshot. -/
def firstPostSnapshot (sequence : Nat) (records : List WalRecord) : Option Nat :=
  records.findIdx? fun r => sequence < r.2.sequence

def lastIdx? {α : Type} (p : α → Bool) : List α → Option Nat
  | [] => none
  | a :: as => match lastIdx? p as with
    | some i => some (i + 1)
    | none => if p a then some 0 else none

def lastCommitted (sequence : Nat) (records : List WalRecord) : Option Nat :=
  lastIdx? (fun r => sequence < r.2.sequence && r.2.committed) records

def discardUncommitted (records : List WalRecord) (first last : Option Nat) (d : Discard) : Discard :=
  let cutAt (i : Nat) : Discard := match records[i]? with
    | some r => d.lower r.1 .uncommitted
    | none => d
  match first, last with
  | some f, none => cutAt f
  | some f, some l => if l < f then cutAt f else cutAt (l + 1)
  | none, some l => cutAt (l + 1)
  | none, none => cutAt 0

/-- What replaying yields: the state, the store's sequence number and the cut. -/
structure Replay where
  state : PersistentImageState
  sequence : Nat
  discard : Discard

/-- The replay loop over the records from the first one newer than the snapshot to the last committed one.
Records are applied to `candidate`; `state` follows it at each committed record. -/
def replayLoop : List WalRecord → PersistentImageState → Nat → PersistentImageState → Nat → Discard → Replay
  | [], state, sequence, _, _, d => ⟨state, sequence, d⟩
  | r :: rs, state, sequence, candidate, groupOffset, d =>
    if r.2.sequence ≠ candidate.sequence + 1 then ⟨state, sequence, d.lower groupOffset .sequence⟩
    else match applyPersistentImageDelta candidate r.2 with
      | .error _ => ⟨state, sequence, d.lower groupOffset .invalidDelta⟩
      | .ok next =>
        if r.2.committed then
          replayLoop rs next r.2.sequence next ((rs.head?.map Prod.fst).getD groupOffset) d
        else replayLoop rs state sequence next groupOffset d

/-- The part of `replayWAL` behind the scan loop. -/
def replayRecords (records : List WalRecord) (state : PersistentImageState) (sequence : Nat) (d : Discard) : Replay :=
  let first := firstPostSnapshot state.sequence records
  let last := lastCommitted state.sequence records
  let d := discardUncommitted records first last d
  match first, last with
  | some f, some l => if l < f then ⟨state, sequence, d⟩ else
    let group := (records.take (l + 1)).drop f
    replayLoop group state sequence state ((group.head?.map Prod.fst).getD 0) d
  | _, _ => ⟨state, sequence, d⟩

/-- `replayWAL` on the bytes of the log. -/
def replayWAL (J : Json) (wal : Bytes) (state : PersistentImageState) (sequence : Nat) : Replay :=
  let s := scanWAL J 0 wal
  replayRecords s.records state sequence (.ofScan wal.length s.stop)

end CrumbleCracker.Virtio
