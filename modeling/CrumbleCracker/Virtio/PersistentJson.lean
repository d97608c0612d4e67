import CrumbleCracker.Lib.Json
import CrumbleCracker.Virtio.PersistentWal

/-!
# The JSON form of states and records

The fields, names and `omitempty` marks of the structures that are written to disk. `persistentJson` is the codec
they give; that it reads back what it writes is a field of its type. A path is written as the list of its
components.
-/

namespace CrumbleCracker.Virtio

open JsonText List Member

def natOmit : Member Nat := Shape.nat.omitEmpty 0
def natAlways : Member Nat := Shape.nat.always 0
def boolOmit : Member Bool := Shape.bool.omitEmpty false
def boolAlways : Member Bool := Shape.bool.always false
def intOmit : Member Int := Shape.int.omitEmpty 0
def wordOmit : Member UInt32 := Shape.word.omitEmpty 0
def wordAlways : Member UInt32 := Shape.word.always 0
def bytesOmit : Member Bytes := Shape.bytes.omitEmpty []
def bytesAlways : Member Bytes := Shape.bytes.always []
def pathShape : Shape Path := Shape.bytes.list
def pathOmit : Member Path := pathShape.omitEmpty []

def optPathOmit : Member (Option Path) where
  put | some p => some (pathShape.put p) | none => none
  get | some v => (pathShape.get v).map some | none => some none
  get_put p := by cases p <;> simp [pathShape.get_put]
  plain p v h := by
    cases p with
    | none => cases h
    | some p => cases h; exact pathShape.plain p

theorem plain_kinds : PlainString (ascii "dir") ∧ PlainString (ascii "symlink") ∧ PlainString (ascii "file") := by
  decide +kernel

def kindShape : Shape Kind where
  put
    | .dir => .str (ascii "dir")
    | .symlink => .str (ascii "symlink")
    | .file => .str (ascii "file")
  get
    | .str s =>
      if s = ascii "dir" then some .dir else if s = ascii "symlink" then some .symlink
      else if s = ascii "file" then some .file else none
    | _ => none
  get_put k := by cases k <;> rfl
  plain k := by
    cases k
    exacts [plain_kinds.1, plain_kinds.2.1, plain_kinds.2.2]

def pairShape {α β : Type} (k₁ k₂ : Bytes) (m₁ : Member α) (m₂ : Member β) (nodup : [k₁, k₂].Nodup)
    (plain : ∀ k ∈ [k₁, k₂], PlainString k) : Shape (α × β) :=
  Shape.object [k₁, k₂] (fun p => [m₁.put p.1, m₂.put p.2])
    (fun | [v, w] => (m₁.get v).bind fun a => (m₂.get w).map fun b => (a, b)
         | _ => none)
    (fun _ => rfl) nodup plain
    (fun p => by
      simp only [forall_mem_cons, not_mem_nil, false_imp_iff, implies_true, and_true]
      exact ⟨m₁.plain _, m₂.plain _⟩)
    (fun p => by simp [m₁.get_put, m₂.get_put])

def direntShape : Shape (Name × Nat) :=
  pairShape (ascii "name") (ascii "inode") bytesAlways natAlways (by decide) (by simp [PlainString, ascii])

def xattrShape : Shape (Name × Bytes) :=
  pairShape (ascii "name") (ascii "value") bytesAlways bytesAlways (by decide) (by simp [PlainString, ascii])

def extentShape : Shape PersistentImageExtent :=
  (pairShape (ascii "page") (ascii "count") natAlways natAlways (by decide) (by simp [PlainString, ascii])).map
    (fun e => (e.page, e.count)) (fun p => some ⟨p.1, p.2⟩) (fun _ => rfl)

def kindAlways : Member Kind := kindShape.always .file
def direntsOmit : Member (NameMap Nat) := direntShape.entries.omitEmpty ∅
def namesOmit : Member NameSet := Shape.bytes.set.omitEmpty ∅
def xattrsOmit : Member (NameMap Bytes) := xattrShape.entries.omitEmpty ∅
def extentsOmit : Member (List PersistentImageExtent) := extentShape.list.omitEmpty []

/-! ## Inodes -/

def nodeKeys : List Bytes :=
  ["id", "parent", "name", "kind", "mode", "raw_mode", "uid", "gid", "rdev", "size", "nlink", "symlink_target",
   "guest_path", "lower_path", "entries", "whiteouts", "xattrs", "data", "entries_done", "copied_up", "independent",
   "lower_size", "atime_unix_nano", "mtime_unix_nano", "ctime_unix_nano", "preserve_namespace"].map ascii

def nodeValues (p : Nat × PersistentImageNode) : List (Option Value) :=
  let n := p.2
  [natAlways.put p.1, natAlways.put n.parent, bytesOmit.put n.name, kindAlways.put n.kind, wordAlways.put n.mode,
   wordOmit.put n.rawMode, wordAlways.put n.uid, wordAlways.put n.gid, wordOmit.put n.rdev, natOmit.put n.size,
   natOmit.put n.nlink, bytesOmit.put n.symlinkTarget, pathOmit.put n.guestPath, optPathOmit.put n.lowerPath,
   direntsOmit.put n.entries, namesOmit.put n.whiteouts, xattrsOmit.put n.xattrs, extentsOmit.put n.data,
   boolOmit.put n.entriesDone, boolOmit.put n.copiedUp, boolOmit.put n.independent, natOmit.put n.lowerSize,
   intOmit.put n.atimeUnixNano, intOmit.put n.mtimeUnixNano, intOmit.put n.ctimeUnixNano,
   boolOmit.put n.preserveNamespace]

def readNode : List (Option Value) → Option (Nat × PersistentImageNode)
  | [id, parent, name, kind, mode, rawMode, uid, gid, rdev, size, nlink, symlinkTarget, guestPath, lowerPath, entries,
      whiteouts, xattrs, data, entriesDone, copiedUp, independent, lowerSize, atime, mtime, ctime, preserve] => do
    return (← natAlways.get id, {
      parent := ← natAlways.get parent, name := ← bytesOmit.get name, kind := ← kindAlways.get kind
      mode := ← wordAlways.get mode, rawMode := ← wordOmit.get rawMode, uid := ← wordAlways.get uid
      gid := ← wordAlways.get gid, rdev := ← wordOmit.get rdev, size := ← natOmit.get size, nlink := ← natOmit.get nlink
      symlinkTarget := ← bytesOmit.get symlinkTarget, guestPath := ← pathOmit.get guestPath
      lowerPath := ← optPathOmit.get lowerPath, entries := ← direntsOmit.get entries
      whiteouts := ← namesOmit.get whiteouts, xattrs := ← xattrsOmit.get xattrs, data := ← extentsOmit.get data
      entriesDone := ← boolOmit.get entriesDone, copiedUp := ← boolOmit.get copiedUp
      independent := ← boolOmit.get independent, lowerSize := ← natOmit.get lowerSize
      atimeUnixNano := ← intOmit.get atime, mtimeUnixNano := ← intOmit.get mtime, ctimeUnixNano := ← intOmit.get ctime
      preserveNamespace := ← boolOmit.get preserve })
  | _ => none

theorem plain_nodeValues (p : Nat × PersistentImageNode) : ∀ v ∈ nodeValues p, ∀ w, v = some w → w.Plain := by
  simp only [nodeValues, forall_mem_cons, not_mem_nil, false_imp_iff, implies_true, and_true]
  refine ⟨?_, ?_, ?_, ?_, ?_, ?_, ?_, ?_, ?_, ?_, ?_, ?_, ?_, ?_, ?_, ?_, ?_, ?_, ?_, ?_, ?_, ?_, ?_, ?_, ?_, ?_⟩
  all_goals exact plain _ _

theorem readNode_values (p : Nat × PersistentImageNode) : readNode (nodeValues p) = some p := by
  simp only [nodeValues, readNode, get_put, Option.pure_def, Option.bind_eq_bind, Option.bind_some]

def nodeShape : Shape (Nat × PersistentImageNode) :=
  Shape.object nodeKeys nodeValues readNode (fun _ => rfl) (by simp [nodeKeys, ascii])
    (by simp [nodeKeys, PlainString, ascii])
    plain_nodeValues readNode_values

/-! ## Snapshots and records -/

def nodesOmit : Member (IdMap PersistentImageNode) := nodeShape.entries.omitEmpty ∅

def stateShape : Shape PersistentImageState :=
  Shape.object (["version", "sequence", "next_node_id", "nodes"].map ascii)
    (fun s => [natAlways.put s.version, natAlways.put s.sequence, natAlways.put s.nextNodeID, nodesOmit.put s.nodes])
    (fun
      | [version, sequence, nextNodeID, nodes] => do
        return { version := ← natAlways.get version, sequence := ← natAlways.get sequence
                 nextNodeID := ← natAlways.get nextNodeID, nodes := ← nodesOmit.get nodes }
      | _ => none)
    (fun _ => rfl) (by simp [ascii]) (by simp [PlainString, ascii])
    (fun s => by
      simp only [forall_mem_cons, not_mem_nil, false_imp_iff, implies_true, and_true]
      exact ⟨plain _ _, plain _ _, plain _ _, plain _ _⟩)
    (fun s => by simp only [get_put, Option.pure_def, Option.bind_eq_bind, Option.bind_some])

def direntOpShape : Shape PersistentImageDirentOp :=
  Shape.object (["parent", "name", "inode", "present"].map ascii)
    (fun op => [natAlways.put op.parent, bytesAlways.put op.name, natOmit.put op.inode, boolAlways.put op.present])
    (fun
      | [parent, name, inode, present] => do
        return { parent := ← natAlways.get parent, name := ← bytesAlways.get name, inode := ← natOmit.get inode
                 present := ← boolAlways.get present }
      | _ => none)
    (fun _ => rfl) (by simp [ascii]) (by simp [PlainString, ascii])
    (fun op => by
      simp only [forall_mem_cons, not_mem_nil, false_imp_iff, implies_true, and_true]
      exact ⟨plain _ _, plain _ _, plain _ _, plain _ _⟩)
    (fun op => by simp only [get_put, Option.pure_def, Option.bind_eq_bind, Option.bind_some])

def whiteoutOpShape : Shape PersistentImageWhiteoutOp :=
  Shape.object (["parent", "name", "present"].map ascii)
    (fun op => [natAlways.put op.parent, bytesAlways.put op.name, boolAlways.put op.present])
    (fun
      | [parent, name, present] => do
        return { parent := ← natAlways.get parent, name := ← bytesAlways.get name, present := ← boolAlways.get present }
      | _ => none)
    (fun _ => rfl) (by simp [ascii]) (by simp [PlainString, ascii])
    (fun op => by
      simp only [forall_mem_cons, not_mem_nil, false_imp_iff, implies_true, and_true]
      exact ⟨plain _ _, plain _ _, plain _ _⟩)
    (fun op => by simp only [get_put, Option.pure_def, Option.bind_eq_bind, Option.bind_some])

def deltaNodesOmit : Member (List (Nat × PersistentImageNode)) := nodeShape.list.omitEmpty []
def deletedOmit : Member (List Nat) := Shape.nat.list.omitEmpty []
def direntOpsOmit : Member (List PersistentImageDirentOp) := direntOpShape.list.omitEmpty []
def whiteoutOpsOmit : Member (List PersistentImageWhiteoutOp) := whiteoutOpShape.list.omitEmpty []

def deltaShape : Shape PersistentImageDelta :=
  Shape.object
    (["version", "sequence", "next_node_id", "committed", "nodes", "deleted", "dirents", "whiteouts"].map ascii)
    (fun d => [natAlways.put d.version, natAlways.put d.sequence, natAlways.put d.nextNodeID, boolOmit.put d.committed,
      deltaNodesOmit.put d.nodes, deletedOmit.put d.deleted, direntOpsOmit.put d.dirents,
      whiteoutOpsOmit.put d.whiteouts])
    (fun
      | [version, sequence, nextNodeID, committed, nodes, deleted, dirents, whiteouts] => do
        return { version := ← natAlways.get version, sequence := ← natAlways.get sequence
                 nextNodeID := ← natAlways.get nextNodeID, committed := ← boolOmit.get committed
                 nodes := ← deltaNodesOmit.get nodes, deleted := ← deletedOmit.get deleted
                 dirents := ← direntOpsOmit.get dirents, whiteouts := ← whiteoutOpsOmit.get whiteouts }
      | _ => none)
    (fun _ => rfl) (by simp [ascii]) (by simp [PlainString, ascii])
    (fun d => by
      simp only [forall_mem_cons, not_mem_nil, false_imp_iff, implies_true, and_true]
      exact ⟨plain _ _, plain _ _, plain _ _, plain _ _, plain _ _,
        plain _ _, plain _ _, plain _ _⟩)
    (fun d => by simp only [get_put, Option.pure_def, Option.bind_eq_bind, Option.bind_some])

/-- `json.Marshal` and `json.Unmarshal` at a shape. -/
def shapeCodec {α : Type} (s : Shape α) : Framed.Codec α where
  marshal a := (s.put a).render
  unmarshal bs := (parse bs).bind s.get
  unmarshal_marshal a := by rw [parse_render (s.plain a)]; exact s.get_put a

def persistentJson : Json := ⟨shapeCodec deltaShape, shapeCodec stateShape⟩

end CrumbleCracker.Virtio
