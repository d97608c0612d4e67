import CrumbleCracker.Virtio.LowerImage

/-!
# The mount router's tables

`mountedFS` puts a root backend and shares at guest paths behind one set of inode numbers. This is its state and what
its requests do to it under its lock: the paths, the inodes they are bound to, the backend inode each one stands for,
and the open handles.

Go ranges over a map in any order; `Iteration` is the order of one request, for each set of keys.
-/

namespace CrumbleCracker.Virtio

/-! ## State -/

/-- Which backend: one that is mounted twice has one identity. -/
abbrev BackendID := Nat

inductive CacheMode
  | strict
  | normal
  | aggressive
  deriving DecidableEq

structure ShareMount where
  path : Path
  backend : BackendID
  writable : Bool
  cache : CacheMode := .strict
  deriving DecidableEq

/-- `mountedNode`; `backend` is none until the node is resolved. -/
structure MountedNode where
  path : Path
  backend : Option BackendID := none
  backendNodeID : Nat := 0
  backendRoute : Path := []
  deriving DecidableEq

structure DirEntry where
  name : Name
  typ : UInt32
  ino : Nat
  deriving DecidableEq

/-- `mountedHandle`; a synthetic directory has no backend. -/
structure MountedHandle where
  backend : Option BackendID
  route : Path
  nodeID : Nat
  fh : Nat
  dir : Bool
  entries : List DirEntry := []
  started : Bool := false
  deriving DecidableEq

/-- `mountedBackendNode`: a backend's inode as seen through one mount. -/
structure BackendKey where
  backend : BackendID
  route : Path
  nodeID : Nat
  deriving DecidableEq

structure MountedFS where
  root : BackendID
  mounts : List ShareMount
  nextNodeID : Nat := 2
  nextInode : Nat := 2 ^ 32
  nextHandle : Nat := 1
  nodes : IdMap MountedNode := Std.ExtTreeMap.ofList [(1, { path := [] })] compare
  pathToNode : PathMap Nat := Std.ExtTreeMap.ofList [([], 1)] compare
  pathRefs : IdMap Nat := Std.ExtTreeMap.ofList [(1, 1)] compare
  backendNodes : BackendKey → Option Nat := fun _ => none
  /-- The inode number shown for an inode number of a backend. -/
  inodes : BackendID × Nat → Option Nat := fun _ => none
  handles : IdMap MountedHandle := ∅

/-- The order in which one request ranges over a set of paths. -/
abbrev Iteration := List Path → List Path

def Iteration.range (order : Iteration) (paths : List Path) : List Path :=
  if (order paths).isPerm paths then order paths else paths

/-! ## Mounts -/

/-- The length of a path as a string. -/
def pathLength (path : Path) : Nat := (path.map fun name => name.length + 1).sum

def mountOrder (a b : ShareMount) : Bool :=
  pathLength a.path < pathLength b.path ||
    (pathLength a.path == pathLength b.path && (compare (joinPath a.path) (joinPath b.path)).isLE)

def newMountedFS (root : BackendID) (shares : List ShareMount) : MountedFS where
  root := root
  mounts := (shares.filter fun share => share.path ≠ []).mergeSort mountOrder

/-- The longer of the mounts at or above a path. -/
def betterMount (path : Path) (best : Option ShareMount) (mount : ShareMount) : Option ShareMount :=
  if mount.path <+: path then
    match best with
    | none => some mount
    | some best => if pathLength best.path < pathLength mount.path then some mount else some best
  else best

namespace MountedFS

variable (m : MountedFS)

def mountForPath (path : Path) : Option ShareMount := m.mounts.foldl (betterMount path) none

def isMountPath (path : Path) : Bool := m.mounts.any fun mount => mount.path = path

/-- A path above a mount, and not itself a mount. -/
def isSyntheticPath (path : Path) : Bool :=
  path ≠ [] ∧ m.isMountPath path = false ∧ m.mounts.any fun mount => path <+: mount.path ∧ path ≠ mount.path

/-- The next component of each mount below `parent`, in order. -/
def mountChildren (parent : Path) : List Name :=
  ((m.mounts.filterMap fun mount =>
    if parent <+: mount.path then (mount.path.drop parent.length).head? else none).mergeSort
      fun a b => (compare a b).isLE).dedup

/-- `backendRouteForPathLocked`. -/
def backendRoute (path : Path) : Path := ((m.mountForPath path).map ShareMount.path).getD []

def mountBackend (path : Path) : BackendID := ((m.mountForPath path).map ShareMount.backend).getD m.root

/-! ## Nodes -/

def nodeForPath (path : Path) : Option MountedNode := m.pathToNode[path]?.bind fun id => m.nodes[id]?

def refs (id : Nat) : Nat := m.pathRefs[id]?.getD 0

def dropRef (id : Nat) : MountedFS :=
  { m with pathRefs := if m.refs id > 1 then m.pathRefs.insert id (m.refs id - 1) else m.pathRefs.erase id }

def nodeHasHandle : Option MountedNode → Bool
  | none => false
  | some node => node.backend.isSome ∧
      m.handles.toList.any fun h => h.2.route = node.backendRoute ∧ h.2.nodeID = node.backendNodeID

def deleteNodeIfDetached (id : Nat) : MountedFS :=
  if m.refs id ≠ 0 ∨ m.nodeHasHandle m.nodes[id]? then m
  else { m with
    backendNodes := fun key => if m.backendNodes key = some id then none else m.backendNodes key
    nodes := m.nodes.erase id }

/-- The path leads to `id`, and is counted for it. -/
def addPath (path : Path) (id : Nat) : MountedFS :=
  { m with pathToNode := m.pathToNode.insert path id, pathRefs := m.pathRefs.insert id (m.refs id + 1) }

def bindPath (path : Path) (id : Nat) : MountedFS :=
  match m.pathToNode[path]? with
  | none => m.addPath path id
  | some old =>
    if old = id then m
    else if m.refs old > 1 then (m.dropRef old).addPath path id
    else ((m.dropRef old).addPath path id).deleteNodeIfDetached old

/-- The path leads nowhere, and is not counted for `id`. -/
def dropPath (path : Path) (id : Nat) : MountedFS := { m with pathToNode := m.pathToNode.erase path }.dropRef id

def setNodePath (id : Nat) (path : Path) : MountedFS :=
  { m with nodes := m.nodes.modify id fun node => { node with path := path } }

/-- `unbindPathLocked`: an inode that loses the path it shows gets another one of its paths. -/
def unbindPath (order : Iteration) (path : Path) : MountedFS :=
  match m.pathToNode[path]? with
  | none => m
  | some id =>
    let unbound := m.dropPath path id
    if m.refs id > 1 ∧ (m.nodes[id]?.any fun node => node.path = path) then
      match (order.range unbound.pathToNode.keys).find? fun p => unbound.pathToNode[p]? = some id with
      | some remaining => unbound.setNodePath id remaining
      | none => unbound
    else unbound

def backendKey (path : Path) (backend : BackendID) (nodeID : Nat) : BackendKey :=
  ⟨backend, m.backendRoute path, nodeID⟩

def setBackendNode (key : BackendKey) (id : Nat) : MountedFS :=
  { m with backendNodes := fun k => if k = key then some id else m.backendNodes k }

def addNode (path : Path) (backend : Option BackendID) (nodeID : Nat) : MountedFS :=
  { m with
    nextNodeID := m.nextNodeID + 1
    nodes := m.nodes.insert m.nextNodeID
      { path := path, backend := backend, backendNodeID := nodeID, backendRoute := m.backendRoute path } }

/-- `ensureNode`: the node at a path, whatever it stands for. -/
def ensureNode (path : Path) : Nat × MountedFS :=
  match m.pathToNode[path]? with
  | some id => (id, m)
  | none => (m.nextNodeID, (m.addNode path none 0).bindPath path m.nextNodeID)

/-- `ensureResolvedNode`: the node of a backend inode found at a path. -/
def ensureResolvedNode (path : Path) (backend : BackendID) (nodeID : Nat) : Nat × MountedFS :=
  let key := m.backendKey path backend nodeID
  match m.backendNodes key with
  | some id => (id, m.bindPath path id)
  | none =>
    match m.pathToNode[path]? with
    | some id =>
      (id, if m.nodes[id]?.isNone then m else
        { m with nodes := m.nodes.modify id fun node => { node with
            backend := some backend, backendNodeID := nodeID, backendRoute := m.backendRoute path } }.setBackendNode
          key id)
    | none => (m.nextNodeID,
        ((m.addNode path (some backend) nodeID).bindPath path m.nextNodeID).setBackendNode key m.nextNodeID)

def pathsBelow (order : Iteration) (path : Path) : List Path :=
  (order.range m.pathToNode.keys).filter fun p => path <+: p

def unbindPaths (order : Iteration) (paths : List Path) : MountedFS := paths.foldl (fun m p => m.unbindPath order p) m

/-- `removeNode`: forgets the paths at or below `path`, and the inodes that have none left. -/
def removeNode (order : Iteration) (path : Path) : MountedFS :=
  let paths := m.pathsBelow order path
  (paths.filterMap fun p => m.pathToNode[p]?).foldl deleteNodeIfDetached (m.unbindPaths order paths)

/-- `newPath + suffix` for a path `oldPath + suffix`, as strings: the suffix of `/` has no slash in front. -/
def movedPath (oldPath newPath path : Path) : Path :=
  match oldPath, newPath.reverse, path with
  | [], last :: above, first :: rest => above.reverse ++ (last ++ first) :: rest
  | _, _, _ => newPath ++ path.drop oldPath.length

/-- The new paths of the inodes at or below `oldPath`. -/
def pathUpdates (order : Iteration) (oldPath newPath : Path) : PathMap Nat :=
  (m.pathsBelow order oldPath).foldl (fun updates p => match m.pathToNode[p]? with
    | some id => updates.insert (movedPath oldPath newPath p) id
    | none => updates) ∅

def bindPaths (updates : PathMap Nat) (paths : List Path) : MountedFS :=
  paths.foldl (fun m p => match updates[p]? with
    | some id => (m.bindPath p id).setNodePath id p
    | none => m) m

/-- `renameNode`: moves the paths at or below `oldPath`. -/
def renameNode (order : Iteration) (oldPath newPath : Path) : MountedFS :=
  let updates := m.pathUpdates order oldPath newPath
  (m.unbindPaths order (m.pathsBelow order oldPath)).bindPaths updates (order.range updates.keys)

def collectDetachedNode (id : Nat) : MountedFS :=
  if m.nodes[id]?.isNone ∨ m.nodeHasHandle m.nodes[id]? ∨ m.refs id ≠ 0 then m
  else { m with nodes := m.nodes.erase id }

/-! ## Handles and inode numbers -/

def storeHandle (handle : MountedHandle) : Nat × MountedFS :=
  (m.nextHandle, { m with nextHandle := m.nextHandle + 1, handles := m.handles.insert m.nextHandle handle })

def handle (id : Nat) (dir : Bool) : Option MountedHandle := m.handles[id]?.filter fun h => h.dir = dir

def takeHandle (id : Nat) (dir : Bool) : Option MountedHandle × MountedFS :=
  match m.handle id dir with
  | none => (none, m)
  | some h => (some h, { m with handles := m.handles.erase id })

/-- The inode number the guest sees for one of a backend. -/
def shownInode (backend : BackendID) (ino : Nat) : Nat × MountedFS :=
  match m.inodes (backend, ino) with
  | some shown => (shown, m)
  | none => (m.nextInode, { m with
      nextInode := m.nextInode + 1
      inodes := fun k => if k = (backend, ino) then some m.nextInode else m.inodes k })

end MountedFS

end CrumbleCracker.Virtio
