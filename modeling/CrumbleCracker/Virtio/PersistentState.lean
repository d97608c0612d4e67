import CrumbleCracker.Lib.Bytes

/-!
# The persistent metadata of an image filesystem

`PersistentImageState` is what a metadata slot holds: every saved inode, keyed by its number, and the
sequence number of the record it was written as. `PersistentImageDelta` is one record of the metadata log;
`applyPersistentImageDelta` replays it onto a state.

Sorted slices with unique keys (nodes, directory entries, whiteouts, extended attributes) are finite maps. Sequence
numbers, `uint64` in the source, are natural numbers: every run stays below `2 ^ 64` records.
-/

namespace CrumbleCracker.Virtio

abbrev Name := Bytes

/-- A slash-separated absolute path as its list of components; the root is `[]`. -/
abbrev Path := List Name

instance : Std.TransOrd Path := inferInstance

abbrev IdMap (β : Type) := Std.ExtTreeMap Nat β compare
abbrev NameMap (β : Type) := Std.ExtTreeMap Name β compare
abbrev NameSet := Std.ExtTreeSet Name compare

def persistentImageFormatVersion : Nat := 1

inductive Kind
  | dir
  | symlink
  | file
  deriving DecidableEq

/-- A run of `count` file pages starting at `page` that the inode's data file holds. -/
structure PersistentImageExtent where
  page : Nat
  count : Nat
  deriving DecidableEq

/-- A saved inode; its number is the key it is stored under. -/
structure PersistentImageNode where
  parent : Nat := 0
  name : Name := []
  kind : Kind
  mode : UInt32 := 0
  rawMode : UInt32 := 0
  uid : UInt32 := 0
  gid : UInt32 := 0
  rdev : UInt32 := 0
  size : Nat := 0
  nlink : Nat := 0
  symlinkTarget : Bytes := []
  guestPath : Path := []
  /-- `none` is the empty string: no lower object. -/
  lowerPath : Option Path := none
  entries : NameMap Nat := ∅
  whiteouts : NameSet := ∅
  xattrs : NameMap Bytes := ∅
  data : List PersistentImageExtent := []
  entriesDone : Bool := false
  copiedUp : Bool := false
  independent : Bool := false
  lowerSize : Nat := 0
  atimeUnixNano : Int := 0
  mtimeUnixNano : Int := 0
  ctimeUnixNano : Int := 0
  /-- Set only in the record of a file fsync: the durable namespace fields of the inode are kept. -/
  preserveNamespace : Bool := false
  deriving DecidableEq

structure PersistentImageState where
  version : Nat := persistentImageFormatVersion
  sequence : Nat := 0
  nextNodeID : Nat := 0
  nodes : IdMap PersistentImageNode := ∅
  deriving DecidableEq

structure PersistentImageDirentOp where
  parent : Nat
  name : Name
  inode : Nat
  present : Bool
  deriving DecidableEq

structure PersistentImageWhiteoutOp where
  parent : Nat
  name : Name
  present : Bool
  deriving DecidableEq

structure PersistentImageDelta where
  version : Nat := persistentImageFormatVersion
  sequence : Nat := 0
  nextNodeID : Nat := 0
  committed : Bool := false
  nodes : List (Nat × PersistentImageNode) := []
  deleted : List Nat := []
  dirents : List PersistentImageDirentOp := []
  whiteouts : List PersistentImageWhiteoutOp := []
  deriving DecidableEq

inductive ApplyError
  | direntParentMissing (parent : Nat)
  | whiteoutParentMissing (parent : Nat)
  deriving DecidableEq

/-! ## Replaying one record -/

/-- One inode update: an inode already there keeps its directory contents, and its place in the namespace when
the record asks for it. -/
def applyNodeUpdate (nodes : IdMap PersistentImageNode) (update : Nat × PersistentImageNode) :
    IdMap PersistentImageNode :=
  match nodes[update.1]? with
  | none => nodes.insert update.1 { update.2 with preserveNamespace := false }
  | some old =>
    let node := if update.2.preserveNamespace then
        { update.2 with parent := old.parent, name := old.name, guestPath := old.guestPath, nlink := old.nlink }
      else update.2
    nodes.insert update.1
      { node with entries := old.entries, whiteouts := old.whiteouts, preserveNamespace := false }

def applyDirentOp (nodes : IdMap PersistentImageNode) (op : PersistentImageDirentOp) :
    Except ApplyError (IdMap PersistentImageNode) :=
  match nodes[op.parent]? with
  | none => .error (.direntParentMissing op.parent)
  | some parent =>
    let entries := if op.present then parent.entries.insert op.name op.inode else parent.entries.erase op.name
    .ok (nodes.insert op.parent { parent with entries := entries })

def applyWhiteoutOp (nodes : IdMap PersistentImageNode) (op : PersistentImageWhiteoutOp) :
    Except ApplyError (IdMap PersistentImageNode) :=
  match nodes[op.parent]? with
  | none => .error (.whiteoutParentMissing op.parent)
  | some parent =>
    let whiteouts := if op.present then parent.whiteouts.insert op.name else parent.whiteouts.erase op.name
    .ok (nodes.insert op.parent { parent with whiteouts := whiteouts })

/-- What a record does to the saved inodes: inode updates, then removals, then directory entries, then
whiteouts. -/
def applyDeltaNodes (nodes : IdMap PersistentImageNode) (delta : PersistentImageDelta) :
    Except ApplyError (IdMap PersistentImageNode) := do
  let updated := delta.nodes.foldl applyNodeUpdate nodes
  let kept := delta.deleted.foldl (fun nodes id => nodes.erase id) updated
  let linked ← delta.dirents.foldlM applyDirentOp kept
  delta.whiteouts.foldlM applyWhiteoutOp linked

def applyPersistentImageDelta (state : PersistentImageState) (delta : PersistentImageDelta) :
    Except ApplyError PersistentImageState := do
  let nodes ← applyDeltaNodes state.nodes delta
  return { state with nodes := nodes, nextNodeID := max state.nextNodeID delta.nextNodeID, sequence := delta.sequence }

theorem applyPersistentImageDelta_ok {state next : PersistentImageState} {delta : PersistentImageDelta} :
    applyPersistentImageDelta state delta = .ok next ↔ ∃ nodes, applyDeltaNodes state.nodes delta = .ok nodes ∧
      next = { state with
        nodes := nodes, nextNodeID := max state.nextNodeID delta.nextNodeID, sequence := delta.sequence } := by
  unfold applyPersistentImageDelta
  cases applyDeltaNodes state.nodes delta with
  | error e => simp [bind, Except.bind]
  | ok nodes => simp [bind, Except.bind, pure, Except.pure, eq_comm]

end CrumbleCracker.Virtio
