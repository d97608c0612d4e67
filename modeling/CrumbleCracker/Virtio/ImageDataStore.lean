import CrumbleCracker.Lib.ChunkedMap
import CrumbleCracker.Virtio.LowerImage

/-!
# The page store of a volatile image filesystem

`ImageDataStore` keeps pages in one host file behind tokens that never change: the table maps a token to the offset of
its page and to the number of its references. Released offsets go on a stack and into `freeSet`; the stack is cleaned
lazily, so an offset on it is free only while it is in `freeSet`. `flushReclaimLocked` cuts free pages off the end of
the file, punches the others, and rewrites the file once free pages dominate.

Every call takes what the host does as an argument. A map that the source ranges over comes in any order, so the order
is an argument too. Offsets are natural numbers: a write at an offset that no `int64` holds fails, long before a
`uint64` wraps.

Left out: counters kept for telemetry, the background queue that calls `flushReclaimLocked`, and `close`.
-/

namespace CrumbleCracker.Virtio

structure ImagePage where
  offset : Nat
  refs : Nat
  deriving DecidableEq

structure ImageDataStore where
  file : Option Bytes := none
  next : Nat := 0
  nextLocation : Nat := 0
  locationChunks : ChunkedMap ImagePage := ∅
  liveLocations : Nat := 0
  /-- The stack, top first. -/
  free : List Nat := []
  freeSet : IdSet := ∅
  pendingReclaim : IdSet := ∅
  retainedFreeSet : Nat := 0
  current : Nat := 0

/-- What the host does when a page is written: whether the file can be created if there is none, and after how many
bytes a failing write stops. -/
structure PageHost where
  create : Bool := true
  fails : Option Nat := none

inductive PageError
  | tokensExhausted
  | createFile
  | writeFile
  | readFile
  | notExist
  | refsOverflow
  deriving DecidableEq

def pageOf (data : Bytes) : Bytes := truncateTo data imageDataPageSize

/-- A positioned write: the file afterwards, and whether it succeeded. -/
def hostWrite (file : Bytes) (offset : Nat) (data : Bytes) (fails : Option Nat) : Bool × Bytes :=
  if maxInt64 < offset then (false, file)
  else match fails with
    | none => (true, writeAt file offset data)
    | some k => (false, writeAt file offset (data.take k))

/-- The first free offset on the stack, and the stack below it. -/
def popFree (freeSet : IdSet) : List Nat → Option Nat × List Nat
  | [] => (none, [])
  | offset :: free => if offset ∈ freeSet then (some offset, free) else popFree freeSet free

/-- The bytes a host read of a whole page finds, if the file has them all. -/
def readWhole (file : Bytes) (offset : Nat) : Option Bytes :=
  if (field file offset imageDataPageSize).length = imageDataPageSize then some (field file offset imageDataPageSize)
  else none

namespace ImageDataStore

variable (s : ImageDataStore)

/-- `locationEntryLocked` and `locationOffsetLocked`; no page has the token 0. -/
def page? (location : Nat) : Option ImagePage := if location = 0 then none else s.locationChunks.get? location

/-- `noteMetadataLocked`, as far as anything depends on it. -/
def noteMetadata : ImageDataStore := { s with retainedFreeSet := max s.retainedFreeSet s.freeSet.size }

/-- The offset for a new page: the first free one, or the end. -/
def takeOffset : Nat × ImageDataStore :=
  match popFree s.freeSet s.free with
  | (some offset, free) =>
    (offset, { s with
      free := free, freeSet := s.freeSet.erase offset, pendingReclaim := s.pendingReclaim.erase offset })
  | (none, free) => (s.next, { s with free := free, next := s.next + imageDataPageSize })

def allocatePage (data : Bytes) (host : PageHost) : Except PageError Nat × ImageDataStore :=
  if s.nextLocation = 2 ^ 64 - 1 then (.error .tokensExhausted, s)
  else if s.file.isNone ∧ host.create = false then (.error .createFile, s)
  else
    let (offset, s) := s.takeOffset
    match hostWrite (s.file.getD []) offset (pageOf data) host.fails with
    | (false, file) =>
      (.error .writeFile,
        { s with file := some file, free := offset :: s.free, freeSet := s.freeSet.insert offset }.noteMetadata)
    | (true, file) =>
      (.ok (s.nextLocation + 1), { s with
        file := some file
        current := s.current + imageDataPageSize
        nextLocation := s.nextLocation + 1
        locationChunks := s.locationChunks.add (s.nextLocation + 1) ⟨offset, 1⟩
        liveLocations := s.liveLocations + 1 }.noteMetadata)

def retainPage (location : Nat) : Except PageError Unit × ImageDataStore :=
  match s.page? location with
  | none => (.error .notExist, s)
  | some page =>
    if page.refs = 2 ^ 32 - 1 then (.error .refsOverflow, s)
    else (.ok (), { s with
      locationChunks := s.locationChunks.alter location fun page => { page with refs := page.refs + 1 } })

/-- `readPage` of a whole page; `ok` says whether the host can read. -/
def readPage (location : Nat) (ok : Bool) : Except PageError Bytes :=
  match s.file with
  | none => .ok (List.replicate imageDataPageSize 0)
  | some file =>
    match s.page? location with
    | none => .error .notExist
    | some page =>
      match readWhole file page.offset with
      | some bytes => if ok then .ok bytes else .error .readFile
      | none => .error .readFile

end ImageDataStore

/-- A write within one page, as every caller of `writeAtCOW` makes it. -/
structure PageWrite where
  offset : Nat
  data : Bytes
  fits : offset + data.length ≤ imageDataPageSize

namespace ImageDataStore

variable (s : ImageDataStore)

/-- `writeAtCOW`; `ok` says whether the host can read the shared page. -/
def writeAtCOW (location : Nat) (w : PageWrite) (ok : Bool) (host : PageHost) : Except PageError Nat × ImageDataStore :=
  match s.file, s.page? location with
  | some file, some page =>
    if page.refs = 1 then
      let (done, file) := hostWrite file (page.offset + w.offset) w.data host.fails
      (if done then .ok location else .error .writeFile, { s with file := some file })
    else match if ok then readWhole file page.offset else none with
      | none => (.error .readFile, s)
      | some bytes =>
        match s.allocatePage (writeAt bytes w.offset w.data) host with
        | (.error e, s) => (.error e, s)
        | (.ok newLocation, s) =>
          (.ok newLocation, { s with
            locationChunks := s.locationChunks.alter location fun page => { page with refs := page.refs - 1 } })
  | _, _ => (.error .notExist, s)

def releasePage (location : Nat) : ImageDataStore :=
  match s.page? location with
  | none => s
  | some page =>
    if page.refs > 1 then
      { s with locationChunks := s.locationChunks.alter location fun page => { page with refs := page.refs - 1 } }
    else
      let s := { s with
        locationChunks := s.locationChunks.remove location
        liveLocations := s.liveLocations - 1
        free := page.offset :: s.free
        freeSet := s.freeSet.insert page.offset
        pendingReclaim := s.pendingReclaim.insert page.offset }.noteMetadata
      { s with current := if imageDataPageSize ≤ s.current then s.current - imageDataPageSize else s.current }

end ImageDataStore

/-! ## Reclamation -/

/-- The order a map is ranged over in: `order` if it has exactly the keys. -/
def rangeOrder (order keys : List Nat) : List Nat := if order.Perm keys then order else keys

/-- The loop that takes free pages off the end of the file. -/
def cutTail : Nat → Nat × IdSet → Nat × IdSet
  | 0, s => s
  | fuel + 1, (next, freeSet) =>
    let tail := next - imageDataPageSize
    if imageDataPageSize ≤ next ∧ tail ∈ freeSet then cutTail fuel (tail, freeSet.erase tail) else (next, freeSet)

/-- The run of pages that `stop` ends and the sorted offsets go on with. -/
def extendRange (next : Nat) : Nat → List Nat → Nat × List Nat
  | stop, [] => (stop, [])
  | stop, offset :: offsets =>
    if offset = stop ∧ stop < next then extendRange next (stop + imageDataPageSize) offsets
    else (stop, offset :: offsets)

/-- The ranges of free pages to punch: the sorted offsets below the end, in runs. -/
def punchRanges (next : Nat) : Nat → List Nat → List (Nat × Nat)
  | 0, _ => []
  | _ + 1, [] => []
  | fuel + 1, start :: offsets =>
    if next ≤ start then punchRanges next fuel offsets
    else
      let run := extendRange next (start + imageDataPageSize) offsets
      (start, run.1) :: punchRanges next fuel run.2

inductive PunchResult
  | punched
  | failed
  | unsupported
  deriving DecidableEq

/-- The range reads as zeros, and the file keeps its length. -/
def punchHole (file : Bytes) (range : Nat × Nat) : Bytes :=
  (List.range file.length).map fun i => if range.1 ≤ i ∧ i < range.2 then 0 else byteAt file i

/-- Punches one range after the other, until the host turns out not to support it. -/
def punchAll (file : Bytes) : List (Nat × Nat) → List PunchResult → Bytes
  | [], _ => file
  | range :: ranges, results =>
    match results.headD .punched with
    | .punched => punchAll (punchHole file range) ranges results.tail
    | .failed => punchAll file ranges results.tail
    | .unsupported => file

def shouldCompactPortableImageStore (live allocated : Nat) : Bool :=
  if allocated < 4 * 2 ^ 20 ∨ allocated ≤ live then false else (live + 1) / 2 ≤ allocated - live

/-- What the host does during a flush: `fails` is the page at which a rewrite of the file fails. -/
structure FlushHost where
  truncate : Bool := true
  punches : List PunchResult := []
  create : Bool := true
  fails : Option Nat := none
  chunkOrder : List Nat := []
  freeOrder : List Nat := []

namespace ImageDataStore

variable (s : ImageDataStore)

/-- The slots of a chunk that are in use, with their offsets. -/
def chunkPages (id : Nat) : List ((Nat × Nat) × Nat) :=
  match s.locationChunks[id]? with
  | none => []
  | some chunk => (List.range ChunkedMap.chunkSize).filterMap fun slot =>
      chunk.slots[slot]?.map fun page => ((id, slot), page.offset)

def livePages (order : List Nat) : List ((Nat × Nat) × Nat) := order.flatMap s.chunkPages

/-- The pages copied one behind the other; `fails` is the page at which the host fails. -/
def copyPages (file : Bytes) (fails : Option Nat) : List ((Nat × Nat) × Nat) → Nat → Option Bytes
  | [], _ => some []
  | (_, offset) :: pages, i =>
    if fails = some i then none
    else do
      let bytes ← readWhole file offset
      let rest ← copyPages file fails pages (i + 1)
      return bytes ++ rest

/-- The new offsets, in the order the pages were copied in. -/
def relocate : List ((Nat × Nat) × Nat) → Nat → ChunkedMap ImagePage → ChunkedMap ImagePage
  | [], _, chunks => chunks
  | (index, _) :: pages, i, chunks =>
    relocate pages (i + 1) (chunks.alterSlot index fun page => { page with offset := i * imageDataPageSize })

def compactLocked (host : FlushHost) : ImageDataStore :=
  match s.file with
  | none => s
  | some file =>
    if s.liveLocations = 0 ∨ host.create = false then s
    else
      let pages := s.livePages (rangeOrder host.chunkOrder s.locationChunks.keys)
      match copyPages file host.fails pages 0 with
      | none => s
      | some copied => { s with
          file := some copied
          next := pages.length * imageDataPageSize
          locationChunks := relocate pages 0 s.locationChunks
          free := []
          freeSet := ∅
          pendingReclaim := ∅
          retainedFreeSet := 0 }

def compactMetadataLocked (order : List Nat) : ImageDataStore :=
  if s.freeSet.size * 4 < s.retainedFreeSet ∧ (64 ≤ s.retainedFreeSet ∨ s.freeSet.size = 0) then
    { s with free := rangeOrder order s.freeSet.toList, retainedFreeSet := s.freeSet.size }
  else s

def reclaimable : List Nat := s.pendingReclaim.toList.filter fun offset => offset ∈ s.freeSet

/-- The end of the file once its free tail is cut off, and the free pages that are left. -/
def reclaimedTail : Nat × IdSet := cutTail (s.next / imageDataPageSize) (s.next, s.freeSet)

def reclaimedRanges : List (Nat × Nat) :=
  punchRanges s.reclaimedTail.1 s.reclaimable.length (s.reclaimable.insertionSort (· ≤ ·))

def flushReclaimLocked (host : FlushHost) : ImageDataStore :=
  match s.file with
  | none => s
  | some file =>
    if s.pendingReclaim.isEmpty then s
    else
      let cut := if s.reclaimedTail.1 ≠ s.next ∧ host.truncate then truncateTo file s.reclaimedTail.1 else file
      let flushed := { s with
        file := some (punchAll cut s.reclaimedRanges host.punches)
        next := s.reclaimedTail.1
        freeSet := s.reclaimedTail.2
        pendingReclaim := ∅ }
      let compacted := if shouldCompactPortableImageStore flushed.current flushed.next then flushed.compactLocked host
        else flushed
      compacted.compactMetadataLocked host.freeOrder

end ImageDataStore

end CrumbleCracker.Virtio
