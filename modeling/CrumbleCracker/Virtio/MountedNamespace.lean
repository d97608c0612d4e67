import CrumbleCracker.Virtio.MountedRequests

/-!
# The mount router's directories

Listing directories, and the requests that add, remove and move names. A directory's listing is taken when it is opened
and taken again when it is rewound; mount points are put into it over what the backend has under their names.
-/

namespace CrumbleCracker.Virtio

variable {S : Type}

/-! ## Listing -/

def dirTypeDir : UInt32 := 4

def direntSize (entry : DirEntry) : Nat := (24 + entry.name.length + 7) / 8 * 8

/-- `encodeDirEntries`: the entries from `off` on that fit, with the offsets after them. -/
def encodeDirEntries (entries : List DirEntry) (off maxBytes : Nat) : List (DirEntry × Nat) :=
  let rec fit : List DirEntry → Nat → Nat → List (DirEntry × Nat)
    | [], _, _ => []
    | entry :: rest, i, room =>
      if direntSize entry ≤ room then (entry, i + 1) :: fit rest (i + 1) (room - direntSize entry) else []
  fit (entries.drop off) off maxBytes

/-- The listing without its first two entries, by name. -/
abbrev Listing := NameMap DirEntry

namespace Backends

variable (B : Backends S)

/-- `readBackendDir`, from an offset on. Offsets are 64 bits and grow, so the fuel does not run out. -/
def readBackendDir (backend : BackendID) (nodeID fh : Nat) : (fuel : Nat) → (offset : Nat) → MountM S (List DirEntry)
  | 0, _ => .fail .EIOError
  | fuel + 1, offset => do
    let page ← B.call backend (.readDir nodeID fh offset)
    if page.entries = [] then return []
    else
      Prog.require (offset < page.next ∧ page.next < 2 ^ 64) .EIOError
      let rest ← readBackendDir backend nodeID fh fuel page.next
      return page.entries ++ rest

def addChild (path : Path) (backend : BackendID) (names : Listing) (child : DirEntry) : MountM S Listing :=
  if child.name = dot ∨ child.name = dotDot then pure names
  else do
    let id ← onTables fun m => m.ensureResolvedNode (path ++ [child.name]) backend child.ino
    return names.insert child.name { child with ino := id }

def addMountChild (path : Path) (names : Listing) (name : Name) : MountM S Listing := do
  let id ← onTables fun m => m.ensureNode (path ++ [name])
  return names.insert name { name := name, typ := dirTypeDir, ino := id }

def backendChildren (path : Path) (backend : Option BackendID) (nodeID fh : Nat) : MountM S Listing :=
  match backend with
  | none => pure ∅
  | some backend => do
    let children ← B.readBackendDir backend nodeID fh (2 ^ 64) 0
    children.foldlM (addChild path backend) ∅

def snapshotDirEntries (id : Nat) (path : Path) (backend : Option BackendID) (nodeID fh : Nat) :
    MountM S (List DirEntry) := do
  let parent ← onTables fun m => m.ensureNode path.dropLast
  let names ← B.backendChildren path backend nodeID fh
  let mountChildren ← readTables fun m => m.mountChildren path
  let names ← mountChildren.foldlM (addMountChild path) names
  return { name := dot, typ := dirTypeDir, ino := id } :: { name := dotDot, typ := dirTypeDir, ino := parent } ::
    names.toList.map Prod.snd

def openDir (nodeID : Nat) (flags : UInt32) : MountM S Nat := do
  let node ← node nodeID
  let found ← Prog.attempt (B.resolveBackendNode node.path)
  match found with
  | .ok (backend, backendNodeID, _) =>
    let fh ← B.call backend (.openDir backendNodeID flags)
    let listed ← Prog.attempt (B.snapshotDirEntries nodeID node.path (some backend) backendNodeID fh)
    match listed with
    | .ok entries => storeHandle node.path (some backend) backendNodeID fh true entries
    | .error errno =>
      B.notify backend (.releaseDir backendNodeID fh)
      .fail errno
  | .error errno =>
    let synthetic ← readTables fun m => m.isSyntheticPath node.path
    if errno = .ENOENT ∧ synthetic then
      let entries ← B.snapshotDirEntries nodeID node.path none 0 0
      storeHandle node.path none 0 0 true entries
    else .fail errno

def readDir (nodeID fh off : Nat) (maxBytes : UInt32) : MountM S (List (DirEntry × Nat)) := do
  let node ← node nodeID
  let handle ← readTables fun m => m.handle fh true
  let handle ← Prog.ofOption handle .EBADF
  changeTables fun m => if off = 0 then { m with handles := m.handles.insert fh { handle with started := true } } else m
  if off = 0 ∧ handle.started then
    let entries ← B.snapshotDirEntries nodeID node.path handle.backend handle.nodeID handle.fh
    changeTables fun m => { m with handles := m.handles.insert fh { handle with entries := entries } }
    return encodeDirEntries entries off maxBytes.toNat
  else return encodeDirEntries handle.entries off maxBytes.toNat

def fsyncDir (fh : Nat) (flags : UInt32) : MountM S Unit := do
  let handle ← readTables fun m => m.handle fh true
  let handle ← Prog.ofOption handle .EBADF
  match handle.backend with
  | some backend =>
    if B.has backend .fsyncDir then B.call backend (.fsyncDir handle.nodeID handle.fh flags) else return ()
  | none => return ()

end Backends

/-! ## Adding names -/

def MountedFS.isMountOrSynthetic (m : MountedFS) (path : Path) : Bool := m.isMountPath path || m.isSyntheticPath path

/-- A new name and the path it makes; mount points are taken. -/
def newChild (parent : Path) (name : Name) : MountM S (Name × Path) := do
  let childName ← Prog.ofOption (cleanChildName name) .EINVAL
  let taken ← readTables fun m => m.isMountOrSynthetic (childPath parent childName)
  Prog.require (taken = false) .EEXIST
  return (childName, childPath parent childName)

namespace Backends

variable (B : Backends S)

/-- The backend directory that a name is added to or removed from, with one of the optional interfaces. -/
def writableParent (path : Path) (feature : Feature) : MountM S (BackendID × Nat) := do
  let (backend, parent, mount) ← B.resolveBackendNode path
  Prog.require (isRootOrWritableMount mount) .EROFS
  Prog.require (B.has backend feature) .EROFS
  return (backend, parent)

/-- `Mkdir`, which does not look for mount points. -/
def mkdir (parent : Nat) (name : Name) (mode : UInt32) (caller : Caller) : MountM S (Nat × FuseAttr) := do
  let parentNode ← node parent
  let (backend, backendParent) ← B.writableParent parentNode.path .mkdir
  let reply ← B.call backend (.mkdir backendParent name mode caller)
  shownNode (childPath parentNode.path name) backend reply

def mknod (parent : Nat) (name : Name) (mode rdev : UInt32) (caller : Caller) : MountM S (Nat × FuseAttr) := do
  let parentNode ← node parent
  let (childName, path) ← newChild parentNode.path name
  let (backend, backendParent) ← B.writableParent parentNode.path .mknod
  let reply ← B.call backend (.mknod backendParent childName mode rdev caller)
  shownNode path backend reply

def symlink (parent : Nat) (name : Name) (target : Bytes) (caller : Caller) : MountM S (Nat × FuseAttr) := do
  let parentNode ← node parent
  let (childName, path) ← newChild parentNode.path name
  let (backend, backendParent) ← B.writableParent parentNode.path .symlink
  let reply ← B.call backend (.symlink backendParent childName target caller)
  shownNode path backend reply

def linkForCaller (nodeID newParent : Nat) (newName : Name) (caller : Caller) : MountM S (Nat × FuseAttr) := do
  let oldNode ← node nodeID
  let parentNode ← node newParent
  let (childName, path) ← newChild parentNode.path newName
  let (backend, backendNodeID, mount) ← B.resolveBackendNode oldNode.path
  let (_, newParentID, newMount) ← B.resolveBackendNode parentNode.path
  Prog.require (sameWritableMount mount newMount) .EXDEV
  Prog.require (B.has backend .link) .EROFS
  let reply ← B.call backend (.link backendNodeID newParentID childName caller)
  shownNode path backend reply

def createForCaller (parent : Nat) (name : Name) (flags mode : UInt32) (caller : Caller) :
    MountM S (Nat × Nat × FuseAttr) := do
  let parentNode ← node parent
  let (childName, path) ← newChild parentNode.path name
  let (backend, backendParent) ← B.writableParent parentNode.path .create
  let (backendNodeID, backendFH, reply) ← B.call backend (.create backendParent childName flags mode caller)
  let (id, attr) ← shownNode path backend (backendNodeID, reply)
  let fh ← storeHandle path (some backend) backendNodeID backendFH false []
  return (id, fh, attr)

/-! ## Removing and moving names -/

/-- A name in a directory that is not a mount point. -/
def ordinaryChild (parent : Path) (name : Name) : MountM S Path := do
  let busy ← readTables fun m => m.isMountOrSynthetic (childPath parent name)
  Prog.require (busy = false) .EBUSY
  return childPath parent name

variable (order : Iteration)

def removeChild (feature : Feature) (call : Nat → BackendCall) (parent : Nat) (name : Name) : MountM S Unit := do
  let parentNode ← node parent
  let path ← ordinaryChild parentNode.path name
  let (backend, backendParent) ← B.writableParent parentNode.path feature
  let _ ← B.call backend (call backendParent)
  changeTables fun m => m.removeNode order path

def rmDirForCaller (parent : Nat) (name : Name) (caller : Caller) : MountM S Unit :=
  B.removeChild order .rmDir (.rmDir · name caller) parent name

def unlinkForCaller (parent : Nat) (name : Name) (caller : Caller) : MountM S Unit :=
  B.removeChild order .unlink (.unlink · name caller) parent name

def renameForCaller (parent : Nat) (name : Name) (newParent : Nat) (newName : Name) (flags : UInt32) (caller : Caller) :
    MountM S Unit := do
  let oldParentNode ← node parent
  let newParentNode ← node newParent
  let oldPath ← ordinaryChild oldParentNode.path name
  let newPath ← ordinaryChild newParentNode.path newName
  let (oldBackend, oldParentID, oldMount) ← B.resolveBackendNode oldParentNode.path
  let (_, newParentID, newMount) ← B.resolveBackendNode newParentNode.path
  Prog.require (sameWritableMount oldMount newMount) .EXDEV
  Prog.require (B.has oldBackend .rename) .EROFS
  B.call oldBackend (.rename oldParentID name newParentID newName flags caller)
  changeTables fun m => m.renameNode order oldPath newPath

end Backends

/-! ## Requests -/

inductive MountRequest
  | getAttr (node : Nat)
  | lookup (parent : Nat) (name : Name)
  | open (node : Nat) (flags : UInt32) (caller : Caller)
  | release (node fh : Nat)
  | read (node fh off : Nat) (size : UInt32)
  | getXattr (node : Nat) (name : Name)
  | listXattr (node : Nat)
  | setXattr (node : Nat) (name : Name) (value : Bytes) (flags : UInt32)
  | removeXattr (node : Nat) (name : Name)
  | openDir (node : Nat) (flags : UInt32)
  | readDir (node fh off : Nat) (maxBytes : UInt32)
  | releaseDir (node fh : Nat)
  | readlink (node : Nat)
  | statFS (node : Nat)
  | mkdir (parent : Nat) (name : Name) (mode : UInt32) (caller : Caller)
  | mknod (parent : Nat) (name : Name) (mode rdev : UInt32) (caller : Caller)
  | symlink (parent : Nat) (name : Name) (target : Bytes) (caller : Caller)
  | link (node newParent : Nat) (newName : Name) (caller : Caller)
  | rmDir (parent : Nat) (name : Name) (caller : Caller)
  | create (parent : Nat) (name : Name) (flags mode : UInt32) (caller : Caller)
  | write (node fh off : Nat) (data : Bytes) (flags : UInt32) (caller : Caller)
  | setAttr (node fh : Nat) (change : AttrChange) (caller : Caller)
  | unlink (parent : Nat) (name : Name) (caller : Caller)
  | rename (parent : Nat) (name : Name) (newParent : Nat) (newName : Name) (flags : UInt32) (caller : Caller)
  | flush (node fh lockOwner : Nat)
  | fsync (node fh : Nat) (flags : UInt32)
  | fsyncDir (node fh : Nat) (flags : UInt32)
  | lseek (node fh off : Nat) (whence : UInt32)
  | syncFS
  deriving DecidableEq

inductive MountReply
  | done
  | attr (attr : FuseAttr)
  | entry (node : Nat) (attr : FuseAttr)
  | created (node fh : Nat) (attr : FuseAttr)
  | number (n : Nat)
  | bytes (data : Bytes)
  | listing (entries : List (DirEntry × Nat))
  | statFS (stat : StatFS)
  deriving DecidableEq

def Backends.serve (B : Backends S) (order : Iteration) : MountRequest → MountM S MountReply
  | .getAttr node => .attr <$> B.getAttr node
  | .lookup parent name => (fun r => .entry r.1 r.2) <$> B.lookup parent name
  | .open node flags caller => .number <$> B.openForCaller node flags caller
  | .release node fh => (fun _ => .done) <$> B.release node fh
  | .read _ fh off size => .bytes <$> B.read fh off size
  | .getXattr node name => .bytes <$> B.getXattr node name
  | .listXattr node => .bytes <$> B.listXattr node
  | .setXattr node name value flags => (fun _ => .done) <$> B.setXattr node name value flags
  | .removeXattr node name => (fun _ => .done) <$> B.removeXattr node name
  | .openDir node flags => .number <$> B.openDir node flags
  | .readDir node fh off maxBytes => .listing <$> B.readDir node fh off maxBytes
  | .releaseDir node fh => (fun _ => .done) <$> B.releaseDir node fh
  | .readlink node => .bytes <$> B.readlink node
  | .statFS node => .statFS <$> B.statFS node
  | .mkdir parent name mode caller => (fun r => .entry r.1 r.2) <$> B.mkdir parent name mode caller
  | .mknod parent name mode rdev caller => (fun r => .entry r.1 r.2) <$> B.mknod parent name mode rdev caller
  | .symlink parent name target caller => (fun r => .entry r.1 r.2) <$> B.symlink parent name target caller
  | .link node parent name caller => (fun r => .entry r.1 r.2) <$> B.linkForCaller node parent name caller
  | .rmDir parent name caller => (fun _ => .done) <$> B.rmDirForCaller order parent name caller
  | .create parent name flags mode caller =>
    (fun r => .created r.1 r.2.1 r.2.2) <$> B.createForCaller parent name flags mode caller
  | .write _ fh off data flags caller => .number <$> B.writeForCaller fh off data flags caller
  | .setAttr node fh change caller => .attr <$> B.setAttrForCaller node fh change caller
  | .unlink parent name caller => (fun _ => .done) <$> B.unlinkForCaller order parent name caller
  | .rename parent name newParent newName flags caller =>
    (fun _ => .done) <$> B.renameForCaller order parent name newParent newName flags caller
  | .flush _ fh lockOwner => (fun _ => .done) <$> B.flush fh lockOwner
  | .fsync _ fh flags => (fun _ => .done) <$> B.fsync fh flags
  | .fsyncDir _ fh flags => (fun _ => .done) <$> B.fsyncDir fh flags
  | .lseek _ fh off whence => .number <$> B.lseek fh off whence
  | .syncFS => (fun _ => .done) <$> B.syncFS

end CrumbleCracker.Virtio
