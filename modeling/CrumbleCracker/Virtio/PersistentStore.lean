import CrumbleCracker.Virtio.PersistentWal

/-!
# The metadata slots and opening a store

`save` writes a snapshot to the metadata slot that is not current and publishes it with one rename;
`resetWAL` empties the log behind it. `openPersistentImageStore` is the way back: `load` takes the newer valid
slot, `replayWAL` brings it up to date and cuts the log where it stopped being usable.
-/

namespace CrumbleCracker.Virtio

open Framed

def metadataFormat : Format where
  magic := [0x43, 0x43, 0x48, 0x4F, 0x4D, 0x45, 0x30, 0x31]
  version := persistentImageFormatVersion
  maxPayload := persistentImageMaxMetadata
  magic_length := rfl
  maxPayload_lt := maxMetadata_lt

def encodeState (J : Json) (state : PersistentImageState) : Bytes :=
  metadataFormat.record state.sequence (J.state.marshal state)

/-! ## Reading -/

inductive MetadataError
  | readHeader
  | invalidMagic
  | unsupportedVersion (version : Nat)
  | lengthExceedsMaximum (length : Nat)
  | payloadLength (length available : Nat)
  | checksumMismatch (got want : Nat)
  | decodePayload
  | payloadVersion (version : Nat)
  | payloadSequence
  deriving DecidableEq

def readPersistentImageState (J : Json) (file : Bytes) : Except MetadataError PersistentImageState :=
  if file.length < headerSize then .error .readHeader
  else if field file 0 8 ≠ metadataFormat.magic then .error .invalidMagic
  else
    let version := natLE (field file 8 4)
    let length := natLE (field file 24 8)
    let available := file.length - headerSize
    let payload := field file headerSize length
    let want := natLE (field file 32 4)
    if version ≠ persistentImageFormatVersion then .error (.unsupportedVersion version)
    else if persistentImageMaxMetadata < length then .error (.lengthExceedsMaximum length)
    else if length ≠ available then .error (.payloadLength length available)
    else if checksumIEEE payload ≠ want then .error (.checksumMismatch (checksumIEEE payload) want)
    else match J.state.unmarshal payload with
      | none => .error .decodePayload
      | some state =>
        if state.version ≠ persistentImageFormatVersion then .error (.payloadVersion state.version)
        else if state.sequence % 256 ^ 8 ≠ natLE (field file 16 8) then .error .payloadSequence
        else .ok state

/-- One turn of the loop of `load`: a valid slot replaces the best one so far when it is newer. -/
def loadSlot (J : Json) (disk : Disk)
    (acc : Option (PersistentImageState × Fin 2) × List (Fin 2 × MetadataError)) (slot : Fin 2) :
    Option (PersistentImageState × Fin 2) × List (Fin 2 × MetadataError) :=
  match disk.slot slot with
  | none => acc
  | some file => match readPersistentImageState J file with
    | .error e => (acc.1, acc.2 ++ [(slot, e)])
    | .ok state => match acc.1 with
      | none => (some (state, slot), acc.2)
      | some best => if best.1.sequence < state.sequence then (some (state, slot), acc.2) else acc

/-- `load`: the newest valid slot, nothing when there is no slot, an error when slots exist but none is valid. -/
def load (J : Json) (disk : Disk) : Except StoreError (Option (PersistentImageState × Fin 2)) :=
  let (best, invalid) := [0, 1].foldl (loadSlot J disk) (none, [])
  match best with
  | some best => .ok (some best)
  | none => if invalid.isEmpty then .ok none else .error .noValidMetadata

/-- `ensureEmptyUninitialized`: a store without metadata must look like one that was never used. -/
def ensureEmptyUninitialized (disk : Disk) : Except StoreError Unit :=
  if disk.initialized then .error .initializedWithoutMetadata
  else if disk.walBytes.length ≠ 0 then .error (.walWithoutMetadata disk.walBytes.length)
  else if disk.data.isEmpty then .ok ()
  else .error .dataWithoutMetadata

/-- `preserveUnreferencedData`: data files of inodes without extents are moved out of the way. -/
def preserveUnreferencedData (state : PersistentImageState) (data : IdMap Bytes) : IdMap Bytes :=
  data.filter fun id _ => match state.nodes[id]? with
    | some node => !node.data.isEmpty
    | none => false

/-- What `load` and `replayWAL` make of a snapshot and the log behind it. -/
def openLoaded (J : Json) (disk : Disk) (state : PersistentImageState) (slot : Fin 2) :
    PersistentImageStore × PersistentImageState :=
  match disk.wal with
  | none =>
    let data := preserveUnreferencedData state disk.data
    (⟨state.sequence, slot, some state, { disk with data := data }⟩, state)
  | some wal =>
    let r := replayWAL J wal state state.sequence
    let data := preserveUnreferencedData r.state disk.data
    (⟨r.sequence, slot, some r.state, { disk with wal := some (wal.take r.discard.offset), data := data }⟩, r.state)

/-- `openPersistentImageStore`: the open store, and the recovered state unless the store is new. -/
def openPersistentImageStore (J : Json) (disk : Disk) :
    Except StoreError (PersistentImageStore × Option PersistentImageState) :=
  match load J disk with
  | .error e => .error e
  | .ok none => match ensureEmptyUninitialized disk with
    | .error e => .error e
    | .ok () => .ok ({ disk := disk }, none)
  | .ok (some (state, slot)) => .ok ((openLoaded J disk state slot).map id some)

/-! ## Writing -/

/-- The host call of `save` that fails: one of those that prepare the staged file, the hook, the rename, or the
directory sync behind the rename. -/
inductive SaveFault
  | stage
  | hook
  | rename
  | syncDirectory
  deriving DecidableEq

/-- The host call of `resetWAL` that fails: opening the log, or one of the syncs once it is empty. -/
inductive ResetFault
  | openFile
  | sync
  deriving DecidableEq

def Disk.publish (d : Disk) (slot : Fin 2) (file : Bytes) : Disk :=
  { d with slot := Function.update d.slot slot (some file) }

def PersistentImageStore.stampState (s : PersistentImageStore) (state : PersistentImageState) :
    PersistentImageState :=
  { state with version := persistentImageFormatVersion, sequence := s.sequence + 1 }

def PersistentImageStore.save (J : Json) (fault : Option SaveFault) (state : PersistentImageState)
    (s : PersistentImageStore) : Except StoreError Unit × PersistentImageStore :=
  let state := s.stampState state
  let payload := J.state.marshal state
  let file := encodeState J state
  let slot := s.metadataSlot + 1
  let published : PersistentImageStore := { s with disk := s.disk.publish slot file }
  if persistentImageMaxMetadata < payload.length then (.error (.metadataTooLarge payload.length), s)
  else if fault = some .stage then (.error .stageMetadata, s)
  else match readPersistentImageState J file with
    | .error _ => (.error .stageMetadata, s)
    | .ok verified =>
      if verified.sequence ≠ state.sequence ∨ verified.nodes.size ≠ state.nodes.size then (.error .stageMetadata, s)
      else match fault with
        | some .hook => (.error .faultHook, s)
        | some .rename => (.error .publishMetadata, s)
        | some .syncDirectory => (.error .syncDirectory, published)
        | _ => (.ok (), { published with sequence := state.sequence, metadataSlot := slot, durableState := some state })

def PersistentImageStore.resetWAL (fault : Option ResetFault) (s : PersistentImageStore) :
    Except StoreError Unit × PersistentImageStore :=
  let emptied : PersistentImageStore := { s with disk := { s.disk with wal := some [] } }
  match fault with
  | some .openFile => (.error .resetWAL, s)
  | some .sync => (.error .resetWAL, emptied)
  | none => (.ok (), emptied)

end CrumbleCracker.Virtio
