import CrumbleCracker.Virtio.FileRestore
import CrumbleCracker.Virtio.LowerImage

/-!
# Inodes of an image filesystem

`ImageNode` is the live inode. A directory, file or symlink of the lower image that the inode still refers to is the
path it has there. `persistentNodeFromImageNode` is the record that is saved of an inode, `restorePersistentNode` the
inode a record is turned back into.

Accounting fields (`retainedEntries`, `accountedMetadata` and so on) are left out: no other field depends on them. So is
whether a map is nil.
-/

namespace CrumbleCracker.Virtio

def imageXattrEntryOverhead : Nat := 64

def imageMaxXattrBytesPerNode : Nat := 256 * 2 ^ 10

structure ImageNode where
  parent : Nat := 0
  name : Name := []
  /-- Go's `fs.FileMode`. -/
  mode : UInt32 := 0
  rawMode : UInt32 := 0
  uid : UInt32 := 0
  gid : UInt32 := 0
  rdev : UInt32 := 0
  size : Nat := 0
  nlink : Nat := 0
  data : SparseImageData := []
  symlinkTarget : Bytes := []
  entries : NameMap Nat := ∅
  whiteouts : NameSet := ∅
  entriesDone : Bool := false
  atime : Time := zeroTime
  modTime : Time := zeroTime
  ctime : Time := zeroTime
  xattrs : NameMap Bytes := ∅
  abstractFile : Option Path := none
  lowerFile : Option Path := none
  lowerSize : Nat := 0
  persistentLowerPath : Option Path := none
  persistentIndependent : Bool := false
  persistentLowerMissing : Bool := false
  abstractDir : Option Path := none
  abstractLink : Option Path := none

def xattrBytes (xattrs : NameMap Bytes) : Nat :=
  xattrs.foldl (fun total name value => total + (name.length + value.length + imageXattrEntryOverhead)) 0

namespace ImageNode

variable (node : ImageNode)

def isDir : Bool := node.abstractDir.isSome || node.mode &&& modeDir != 0

def isSymlink : Bool := node.abstractLink.isSome || node.mode &&& modeSymlink != 0

def kind : Kind := if node.isDir then .dir else if node.isSymlink then .symlink else .file

/-- Whether the inode refers to an object of the lower image. -/
def attached : Bool :=
  node.abstractDir.isSome || node.abstractFile.isSome || node.abstractLink.isSome || node.lowerFile.isSome

end ImageNode

/-! ## Inodes of lower objects -/

/-- `time.Unix(0, 0)` stands for a modification time the image does not have. -/
def lowerModTime (modTime : Time) : Time := if modTime = zeroTime then 0 else modTime

/-- `imageNodeFromEntry`, and the inode `createAbstractNode` adds. -/
def imageNodeFromEntry (parent : Nat) (name : Name) (path : Path) : LowerObject → ImageNode
  | .dir attr _ =>
    { parent := parent, name := name, abstractDir := some path, mode := modeDir ||| attr.mode,
      modTime := lowerModTime attr.modTime, uid := attr.uid, gid := attr.gid, rdev := attr.rdev }
  | .file attr contents =>
    { parent := parent, name := name, abstractFile := some path, size := contents.length, mode := attr.mode,
      modTime := lowerModTime attr.modTime, uid := attr.uid, gid := attr.gid, rdev := attr.rdev, nlink := 1 }
  | .symlink attr target =>
    { parent := parent, name := name, abstractLink := some path, mode := modeSymlink ||| (attr.mode &&& modePerm),
      symlinkTarget := target, size := target.length, modTime := lowerModTime attr.modTime, uid := attr.uid,
      gid := attr.gid, rdev := attr.rdev, nlink := 1 }

/-- The inodes of `newImageFS`: only the root is there. -/
def newImageFSNodes (L : Lower) : IdMap ImageNode := match L.object [] with
  | some root => (∅ : IdMap ImageNode).insert 1 (imageNodeFromEntry 1 [slash] [] root)
  | none => ∅

/-! ## Saved inodes -/

/-- `persistentNodeFromImageNode`; `persistent` says which entries are written. -/
def persistentNodeFromImageNode (node : ImageNode) (nodePath : Path) (persistent : Nat → Bool) :
    PersistentImageNode where
  parent := node.parent
  name := node.name
  kind := node.kind
  mode := node.mode
  rawMode := node.rawMode
  uid := node.uid
  gid := node.gid
  rdev := node.rdev
  size := node.size
  nlink := node.nlink
  symlinkTarget := node.symlinkTarget
  guestPath := nodePath
  lowerPath := if node.attached ∨ node.persistentLowerPath.isSome then some (node.persistentLowerPath.getD nodePath)
    else none
  entries := node.entries.filter fun _ inode => persistent inode
  whiteouts := node.whiteouts
  xattrs := node.xattrs
  data := node.data.map fun e => ⟨e.page, e.count⟩
  entriesDone := node.entriesDone && node.abstractDir.isNone
  copiedUp := node.lowerFile.isSome
  independent := node.persistentIndependent
  lowerSize := node.lowerSize
  atimeUnixNano := timeToUnixNano node.atime
  mtimeUnixNano := timeToUnixNano node.modTime
  ctimeUnixNano := timeToUnixNano node.ctime

/-- The kind switch of `restorePersistentNode`: the restored mode. -/
def restoreMode (saved : PersistentImageNode) : Except RestoreError UInt32 :=
  match saved.kind with
  | .dir => if saved.data ≠ [] then .error .directoryData else .ok (saved.mode ||| modeDir)
  | .symlink =>
    if saved.data ≠ [] ∨ saved.entries ≠ ∅ then .error .symlinkContents else .ok (saved.mode ||| modeSymlink)
  | .file =>
    if saved.entries ≠ ∅ ∨ saved.whiteouts ≠ ∅ then .error .fileDirectory
    else if saved.size < saved.lowerSize then .error (.lowerSizeBeyondSize saved.lowerSize saved.size)
    else .ok saved.mode

/-- `restorePersistentNode` over the inode `base`, which is a new one except for the root. -/
def restorePersistentNode (base : ImageNode) (saved : PersistentImageNode) : Except RestoreError ImageNode := do
  match saved.whiteouts.toList.find? fun name => cleanChildName name ≠ some name with
  | some name => .error (.invalidWhiteout name)
  | none =>
    if imageMaxXattrBytesPerNode < xattrBytes saved.xattrs then .error .xattrsBeyondNode
    else do
      let data ← restoreExtents saved.size none saved.data
      let mode ← restoreMode saved
      return { base with
        parent := saved.parent
        name := saved.name
        mode := mode
        rawMode := saved.rawMode
        uid := saved.uid
        gid := saved.gid
        rdev := saved.rdev
        size := saved.size
        nlink := saved.nlink
        symlinkTarget := saved.symlinkTarget
        entriesDone := saved.entriesDone
        lowerSize := saved.lowerSize
        persistentIndependent := saved.independent
        atime := unixNanoTime saved.atimeUnixNano
        modTime := unixNanoTime saved.mtimeUnixNano
        ctime := unixNanoTime saved.ctimeUnixNano
        entries := saved.entries
        whiteouts := saved.whiteouts
        xattrs := saved.xattrs
        data := data }

end CrumbleCracker.Virtio
