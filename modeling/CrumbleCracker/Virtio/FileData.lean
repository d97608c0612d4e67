import CrumbleCracker.Virtio.SparseData

/-!
# The contents of one file of a persistent store

`ImageFile` holds what an inode and the store keep about one regular file: its size and extents, the lower file it
still reads through, the truncation not yet carried out on the host, and the host data file itself. The data file
is written in place; a truncation only cuts the extent list and leaves a `pendingTrim`, which the next `Fsync` or
`SyncFS` turns into a host truncate.

`read`, `write`, `setSize`, `openTruncate` and the barriers are the file halves of `Read`, `WriteForCaller`,
`SetAttrForCaller`, `OpenForCaller`, `Fsync`, `FsyncDir` and `SyncFS`. The lower file is read-only, so a lower read
returns the bytes of its contents.
-/

namespace CrumbleCracker.Virtio

open SparseImageData (HasPage)

inductive Errno
  | EPERM
  | ENOENT
  | EIOError
  | EBADF
  | EEXIST
  | ENOTDIR
  | EISDIR
  | EINVAL
  | EFBIG
  | ENOSPC
  | ENOTEMPTY
  | ENODATA
  | ERANGE
  | EOPNOTSUPP
  | EINTR
  | EAGAIN
  | EBUSY
  | EXDEV
  | EROFS
  | ENOSYS
  deriving DecidableEq

def maxInt64 : Nat := 2 ^ 63 - 1

structure ImageFile where
  size : Nat := 0
  data : SparseImageData := []
  /-- The lower file of an inode that was never written. -/
  abstractFile : Option Bytes := none
  /-- The lower file under a copied-up inode, until its contents are copied too. -/
  lowerFile : Option Bytes := none
  lowerSize : Nat := 0
  independent : Bool := false
  pendingTrim : Option Nat := none
  dirty : Bool := false
  /-- The host data file; `none` when there is none. -/
  dataFile : Option Bytes := none
  deriving DecidableEq

namespace ImageFile

def dataBytes (f : ImageFile) : Bytes := f.dataFile.getD []

/-! ## The store's data functions -/

/-- The page loop of `readData`: pages with an extent come from the data file, the others stay as they are. -/
def readPages (file : Bytes) (data : SparseImageData) : Nat → Bytes → Nat → Except Errno Bytes
  | 0, _, _ => .ok []
  | fuel + 1, dst, off =>
    if dst = [] then .ok []
    else
      let n := min dst.length (imageDataPageSize - off % imageDataPageSize)
      if (data.location (off / imageDataPageSize)).isSome then
        -- A short host read is `io.ErrUnexpectedEOF`.
        if (field file off n).length = n then
          (field file off n ++ ·) <$> readPages file data fuel (dst.drop n) (off + n)
        else .error .EIOError
      else (dst.take n ++ ·) <$> readPages file data fuel (dst.drop n) (off + n)

def readData (f : ImageFile) (dst : Bytes) (off : Nat) : Except Errno Bytes :=
  if f.data = [] ∨ dst = [] then .ok dst
  else
    match f.dataFile with
    | none => .error .EIOError
    | some file => readPages file f.data dst.length dst off

/-- The pages of a write, each inserted unless it has a location already. -/
def insertPages (data : SparseImageData) (pages : List Nat) : SparseImageData :=
  pages.foldl (fun d page => if (d.location page).isSome then d else d.insert page (page + 1)) data

/-- `writeData` when the host takes the first `written` bytes of `src`. -/
def writeData (f : ImageFile) (src : Bytes) (off written : Nat) : ImageFile :=
  if src = [] then f
  else if written = 0 then { f with dataFile := some f.dataBytes }
  else
    let first := off / imageDataPageSize
    let last := (off + written - 1) / imageDataPageSize
    { f with
      dataFile := some (writeAt f.dataBytes off (src.take written))
      dirty := true
      pendingTrim := f.pendingTrim.map (fun trim => max trim (off + written))
      data := insertPages f.data (List.range' first (last + 1 - first)) }

/-- One page of `materializeLowerFile`; a page of zeros stays sparse. -/
def materializePage (lower : Bytes) (size : Nat) (f : ImageFile) (page : Nat) : ImageFile :=
  if (f.data.location page).isSome then f
  else
    let absolute := page * imageDataPageSize
    let pageData := field lower absolute (min imageDataPageSize (size - absolute))
    if pageData.all (· == 0) then f
    else
      { f with
        dataFile := some (writeAt f.dataBytes absolute pageData)
        dirty := true
        data := f.data.insert page (page + 1) }

def pagesOf (size : Nat) : Nat :=
  if size % imageDataPageSize ≠ 0 then size / imageDataPageSize + 1 else size / imageDataPageSize

def materializeLowerFile (f : ImageFile) (lower : Bytes) (size : Nat) : Except Errno ImageFile :=
  if size = 0 then .ok f
  else if size > maxInt64 then .error .EFBIG
  else if lower.length < size then .error .EIOError
  else .ok ((List.range (pagesOf size)).foldl (materializePage lower size) { f with dataFile := some f.dataBytes })

/-- The zeros `truncateData` writes when the file grows over the end of an earlier, still pending shrink. -/
def clearTail (f : ImageFile) (size : Nat) : Except Errno ImageFile :=
  match f.pendingTrim with
  | none => .ok f
  | some previous =>
    let pageEnd := min size ((previous / imageDataPageSize + 1) * imageDataPageSize)
    if previous < size ∧ previous < pageEnd ∧ (f.data.location (previous / imageDataPageSize)).isSome then
      match f.dataFile with
      | none => .error .ENOENT
      | some file =>
        .ok { f with dataFile := some (writeAt file previous (List.replicate (pageEnd - previous) 0)), dirty := true }
    else .ok f

def truncateData (f : ImageFile) (size : Nat) : Except Errno ImageFile :=
  if size > maxInt64 then .error .EFBIG
  else do
    let f ← clearTail f size
    return { f with data := f.data.truncatePages (pagesOf size), pendingTrim := some size, dirty := true }

/-- `reclaimDurableFileData`, and what `reclaimDurableData` does for one inode. -/
def reclaimDurableFileData (f : ImageFile) : ImageFile :=
  match f.pendingTrim with
  | none => f
  | some size => { f with dataFile := f.dataFile.map (truncateTo · size), pendingTrim := none }

/-! ## The filesystem's file operations -/

def copyUpFile (f : ImageFile) : ImageFile :=
  match f.abstractFile with
  | none => f
  | some lower =>
    { f with size := lower.length, lowerFile := some lower, lowerSize := lower.length, abstractFile := none }

def materializePersistentLowerFile (f : ImageFile) : Except Errno ImageFile :=
  match f.lowerFile with
  | none => .ok f
  | some lower => do
    let f ← f.materializeLowerFile lower f.lowerSize
    return { f with lowerFile := none, lowerSize := 0, independent := true }

def prepareImageOverlayWrite (f : ImageFile) (length : Nat) : Except Errno ImageFile :=
  if length = 0 then .ok f else f.materializePersistentLowerFile

/-- What `Read` starts from: zeros, overlaid with the lower file below `lowerSize`. -/
def readBuffer (f : ImageFile) (off stop : Nat) : Except Errno Bytes :=
  let zeros := List.replicate (stop - off) (0 : UInt8)
  match f.lowerFile with
  | none => .ok zeros
  | some lower =>
    if off < f.lowerSize then
      let n := min stop f.lowerSize - off
      if (field lower off n).length = n then .ok (writeAt zeros 0 (field lower off n)) else .error .EIOError
    else .ok zeros

/-- `Read` on a valid handle. -/
def read (f : ImageFile) (off size : Nat) : Except Errno Bytes :=
  match f.abstractFile with
  | some lower => .ok (field lower off size)
  | none =>
    if f.size ≤ off ∨ size = 0 then .ok []
    else do
      let data ← f.readBuffer off (min (off + size) f.size)
      f.readData data off

/-- `WriteForCaller` on a valid handle, when the host takes `written` bytes of the data: the errno, if any, and the
file after the call. -/
def write (f : ImageFile) (off : Nat) (src : Bytes) (written : Nat) : Option Errno × ImageFile :=
  let f := f.copyUpFile
  if off + src.length > maxInt64 then (some .EFBIG, f)
  else
    match f.prepareImageOverlayWrite src.length with
    | .error e => (some e, f)
    | .ok f =>
      let written := min written src.length
      let f := f.writeData src off written
      if written < src.length then
        (some .EIOError, if 0 < written then { f with size := max f.size (off + written) } else f)
      else (none, { f with size := max f.size (off + src.length) })

/-- The size change of `SetAttrForCaller`. -/
def setSize (f : ImageFile) (size : Nat) : Option Errno × ImageFile :=
  let f := f.copyUpFile
  match if size ≠ 0 then f.materializePersistentLowerFile else .ok f with
  | .error e => (some e, f)
  | .ok f =>
    let f := if f.lowerFile.isSome ∧ size = 0 then { f with lowerFile := none, lowerSize := 0, independent := true }
      else f
    match f.truncateData size with
    | .error e => (some e, f)
    | .ok f => (none, { f with lowerSize := min f.lowerSize size, size := size })

/-- `OpenForCaller` for writing, without `O_TRUNC`. -/
def openWrite (f : ImageFile) : Option Errno × ImageFile := (none, f.copyUpFile)

/-- `OpenForCaller` for writing, with `O_TRUNC`. -/
def openTruncate (f : ImageFile) : Option Errno × ImageFile :=
  match f.copyUpFile.truncateData 0 with
  | .error e => (some e, f.copyUpFile)
  | .ok f => (none, { f with data := [], lowerFile := none, lowerSize := 0, independent := true, size := 0 })

/-- How far a barrier gets: its data sync, its metadata record or its reclamation may fail on the host. -/
inductive Barrier
  | syncFailed
  | recordFailed
  | reclaimFailed
  | done
  deriving DecidableEq

/-- `Fsync` of the file, or `SyncFS`: the pending truncation is carried out once the record is durable. -/
def barrier (f : ImageFile) : Barrier → Option Errno × ImageFile
  | .syncFailed => (some .EIOError, f)
  | .recordFailed => (some .EIOError, { f with dirty := false })
  | .reclaimFailed => (some .EIOError, { f with dirty := false })
  | .done => (none, { f with dirty := false }.reclaimDurableFileData)

inductive FileOp
  | write (off : Nat) (src : Bytes) (written : Nat)
  | setSize (size : Nat)
  | openWrite
  | openTruncate
  | fsync (outcome : Barrier)
  | syncFS (outcome : Barrier)
  | fsyncDir

/-- `FsyncDir` writes metadata only and leaves trims to the file's own fsync. -/
def step (f : ImageFile) : FileOp → Option Errno × ImageFile
  | .write off src written => f.write off src written
  | .setSize size => f.setSize size
  | .openWrite => f.openWrite
  | .openTruncate => f.openTruncate
  | .fsync outcome => f.barrier outcome
  | .syncFS outcome => f.barrier outcome
  | .fsyncDir => (none, f)

def run (f : ImageFile) (ops : List FileOp) : ImageFile := ops.foldl (fun f op => (f.step op).2) f

end ImageFile

end CrumbleCracker.Virtio
