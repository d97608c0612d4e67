import CrumbleCracker.Lib.Turns
import CrumbleCracker.Virtio.ImageNode

/-!
# The inodes of an image filesystem under its requests

A request of a persistent `imageFS` changes one inode after another under the filesystem's lock, and where it fails it
stops between two changes. So the runs of the filesystem are runs of `Change`s: an inode is added or collected, or one
of the `NodeEdit`s is made to it. What a request reads of other inodes (the id a name leads to, link counts, paths), of
the store and of the clock is given with the change.
-/

namespace CrumbleCracker.Virtio

open List

/-! ## Names -/

theorem not_mem_of_mem_splitOn {x : UInt8} {bs part : Bytes} (h : part ∈ bs.splitOn x) : x ∉ part := by
  induction bs generalizing part with
  | nil => simp_all
  | cons b bs ih =>
    rw [splitOn_cons_eq_if_modifyHead] at h
    split at h
    · grind
    · cases hs : bs.splitOn x with
      | nil => simp [hs] at h
      | cons head rest =>
        rw [hs, modifyHead_cons] at h
        grind

theorem cleanPath_plain (path : Bytes) : ∀ name ∈ cleanPath path, Plain name := by
  have hstack : ∀ name ∈ (components path).foldl cleanComponent [], Plain name := by
    refine foldlRecOn (motive := fun stack => ∀ name ∈ stack, Plain name) _ _ (by simp) fun stack ih part hpart => ?_
    have hslash := not_mem_of_mem_splitOn hpart
    unfold cleanComponent
    split
    · exact ih
    split
    · exact fun name hname => ih name (mem_of_mem_tail hname)
    · grind [Plain]
  simpa [cleanPath] using hstack

theorem cleanChildName_idem {raw name : Name} (h : cleanChildName raw = some name) :
    cleanChildName name = some name := by
  unfold cleanChildName at h
  split at h
  · cases h
  split at h
  · next hne hplain =>
    cases h
    simp [cleanChildName, hne, hplain]
  split at h
  · cases h
  next hne =>
  cases h
  have hself := cleanPath_joinPath (cleanPath_plain raw)
  have hnil : joinPath (cleanPath raw) ≠ [] := by
    intro hnil
    exact hne (hself.symm.trans (by rw [hnil]; rfl))
  unfold cleanChildName
  rw [if_neg hnil, hself, if_neg hne, ite_self]

/-! ## Modes -/

def linuxPermMask : UInt32 := 0xfff

def linuxSIFMT : UInt32 := 0xf000

def setIDBits : UInt32 := 0xc00

/-- What Go's mode has for a directory, symlink, pipe, character device, block device and socket. -/
def goTypes : List (UInt32 × UInt32) :=
  [(linuxSIFDIR, modeDir), (0xa000, modeSymlink), (0x1000, 0x02000000), (0x2000, 0x04200000), (0x6000, 0x04000000),
    (0xc000, 0x01000000)]

def linuxModeToGo (mode : UInt32) : UInt32 :=
  (mode &&& linuxPermMask) ||| ((goTypes.lookup (mode &&& linuxSIFMT)).getD 0)

/-! ## Changes of one inode -/

/-- What the store has of an inode's file. -/
structure Backing where
  pendingTrim : Option Nat
  dataFile : Option Bytes

def Lower.contents (L : Lower) (path : Path) : Option Bytes := match L.object path with
  | some (.file _ contents) => some contents
  | _ => none

namespace ImageNode

variable (L : Lower) (node : ImageNode)

def file (d : Backing) : ImageFile where
  size := node.size
  data := node.data
  abstractFile := node.abstractFile.bind L.contents
  lowerFile := node.lowerFile.bind L.contents
  lowerSize := node.lowerSize
  independent := node.persistentIndependent
  pendingTrim := d.pendingTrim
  dataFile := d.dataFile

def setFile (f : ImageFile) : ImageNode :=
  { node with
    size := f.size
    data := f.data
    abstractFile := if f.abstractFile.isSome then node.abstractFile else none
    lowerFile := if f.lowerFile.isSome then node.lowerFile <|> node.abstractFile else none
    lowerSize := f.lowerSize
    persistentIndependent := f.independent }

/-- The lower path after `rememberPersistentLowerPathLocked`. -/
def remembered (path : Path) : Option Path :=
  if node.persistentLowerPath.isSome ∨ node.attached = false then node.persistentLowerPath else some path

def copyUpFile (now : Time) : ImageNode :=
  if node.abstractDir.isSome ∨ node.abstractLink.isSome then node
  else match node.abstractFile.bind L.object with
    | some (.file attr contents) =>
      { node with
        size := contents.length
        mode := attr.mode
        lowerFile := node.abstractFile
        lowerSize := contents.length
        abstractFile := none
        modTime := if node.modTime = zeroTime then now else node.modTime }
    | _ => node

/-- The bytes an extended attribute counts for. -/
def xattrSize (name : Name) (value : Bytes) : Nat := name.length + value.length + imageXattrEntryOverhead

/-- The limit for the whole filesystem is left out. -/
def xattrsFull (name : Name) (value : Bytes) : Prop := imageMaxXattrBytesPerNode <
  xattrBytes node.xattrs - (node.xattrs[name]?.map (xattrSize name)).getD 0 + xattrSize name value
deriving Decidable

end ImageNode

inductive NodeEdit
  | remember (path : Path)
  | setDirent (name : Name) (inode : Nat)
  | deleteDirent (name : Name)
  | setWhiteout (raw : Name)
  | deleteWhiteout (name : Name)
  | complete
  | copyUp (now : Time)
  | call (op : ImageFile.FileOp) (d : Backing)
  | materialize (d : Backing)
  | detach
  | chmod (mode : UInt32)
  | clearSetID
  | chown (uid gid : Option UInt32)
  | links (count : Nat)
  | refreshLinks (path : Path) (count : Nat)
  | move (parent : Nat) (name : Name)
  | times (atime modTime ctime : Option Time)
  | touchDirectory (now : Time)
  | setXattr (name : Name) (value : Bytes)
  | removeXattr (name : Name)

def NodeEdit.apply (L : Lower) (node : ImageNode) : NodeEdit → ImageNode
  | .remember path => { node with persistentLowerPath := node.remembered path }
  | .setDirent name inode => { node with entries := node.entries.insert name inode }
  | .deleteDirent name => { node with entries := node.entries.erase name }
  -- only a directory that still has a lower one gets whiteouts, of names that can be cleaned
  | .setWhiteout raw =>
    if node.abstractDir.isSome then
      (cleanChildName raw).elim node fun name => { node with whiteouts := node.whiteouts.insert name }
    else node
  | .deleteWhiteout name => { node with whiteouts := node.whiteouts.erase name }
  | .complete => { node with entriesDone := true }
  | .copyUp now => node.copyUpFile L now
  | .call op d => node.setFile ((node.file L d).step op).2
  | .materialize d => (node.file L d).materializePersistentLowerFile.toOption.elim node node.setFile
  -- `materializePersistentRenameNodeLocked` lets go of a lower symlink or directory
  | .detach =>
    { node with
      persistentIndependent := node.persistentIndependent || node.abstractDir.isSome || node.abstractLink.isSome
      abstractDir := none, abstractLink := none }
  | .chmod mode =>
    { node with mode := if mode &&& linuxSIFMT ≠ 0 then linuxModeToGo mode
        else (node.mode &&& ~~~linuxPermMask) ||| (mode &&& linuxPermMask) }
  | .clearSetID => { node with mode := node.mode &&& ~~~setIDBits }
  | .chown uid gid => { node with uid := uid.getD node.uid, gid := gid.getD node.gid }
  | .links count => { node with nlink := count }
  | .refreshLinks path count =>
    { node with
      persistentLowerPath := if node.isDir then node.persistentLowerPath else node.remembered path
      nlink := if node.isDir then node.nlink else if count = 0 then 1 else count }
  | .move parent name => { node with parent, name }
  | .times atime modTime ctime =>
    { node with atime := atime.getD node.atime, modTime := modTime.getD node.modTime, ctime := ctime.getD node.ctime }
  | .touchDirectory now =>
    { node with
      modTime := if node.isDir then now else node.modTime, ctime := if node.isDir then now else node.ctime }
  | .setXattr name value =>
    if node.xattrsFull name value then node else { node with xattrs := node.xattrs.insert name value }
  | .removeXattr name => { node with xattrs := node.xattrs.erase name }

/-! ## Requests -/

/-- The inode a request makes. -/
structure NewNode where
  parent : Nat
  name : Name
  mode : UInt32
  rawMode : UInt32 := 0
  uid : UInt32
  gid : UInt32
  rdev : UInt32 := 0
  nlink : Nat := 0
  symlinkTarget : Bytes := []
  now : Time

def NewNode.node (n : NewNode) : ImageNode :=
  { parent := n.parent, name := n.name, mode := n.mode, rawMode := n.rawMode, uid := n.uid, gid := n.gid, rdev := n.rdev
    nlink := n.nlink, size := n.symlinkTarget.length, symlinkTarget := n.symlinkTarget
    atime := n.now, modTime := n.now, ctime := n.now }

inductive Change
  | add (id : Nat) (n : NewNode)
  /-- `createAbstractNode` for the lower object at `path`. -/
  | addLower (id parent : Nat) (name : Name) (path : Path)
  /-- `collectImageNodeLocked` of an inode without names and handles; the root stays. -/
  | collect (id : Nat)
  | edit (id : Nat) (e : NodeEdit)

/-- A new inode has an id that was never used. -/
def Change.apply (L : Lower) (nodes : IdMap ImageNode) : Change → IdMap ImageNode
  | .add id n => nodes.insertIfNew id n.node
  | .addLower id parent name path =>
    (L.object path).elim nodes fun object => nodes.insertIfNew id (imageNodeFromEntry parent name path object)
  | .collect id => if id = 1 then nodes else nodes.erase id
  | .edit id e => nodes.alter id (Option.map (e.apply L))

end CrumbleCracker.Virtio
