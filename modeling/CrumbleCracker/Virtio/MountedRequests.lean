import CrumbleCracker.Lib.Prog
import CrumbleCracker.Virtio.MountedFS

/-!
# The mount router's requests

What `mountedFS` does with each request. The backends are parameters: `Backends.answer` is what one of them does with a
call, on a state that all of them may share, and `Backends.has` says which of the optional interfaces it implements. A
`MountWorld` also keeps the calls that were made.
-/

namespace CrumbleCracker.Virtio

/-! ## Backends -/

structure FuseAttr where
  ino : Nat := 0
  size : Nat := 0
  blocks : Nat := 0
  atimeSec : Nat := 0
  mtimeSec : Nat := 0
  ctimeSec : Nat := 0
  atimeNsec : UInt32 := 0
  mtimeNsec : UInt32 := 0
  ctimeNsec : UInt32 := 0
  mode : UInt32 := 0
  nlink : UInt32 := 0
  uid : UInt32 := 0
  gid : UInt32 := 0
  rdev : UInt32 := 0
  blkSize : UInt32 := 0
  flags : UInt32 := 0
  deriving DecidableEq

/-- A page of a directory as a backend returns it; `next` is the offset to go on at. -/
structure DirPage where
  entries : List DirEntry
  next : Nat
  deriving DecidableEq

structure StatFS where
  blocks : Nat
  bfree : Nat
  bavail : Nat
  files : Nat
  ffree : Nat
  bsize : Nat
  frsize : Nat
  namelen : Nat
  deriving DecidableEq

structure AttrChange where
  valid : UInt32
  size : Nat
  mode : UInt32
  uid : UInt32
  gid : UInt32
  atime : Time
  mtime : Time
  deriving DecidableEq

structure Caller where
  uid : UInt32 := 0
  gid : UInt32 := 0
  deriving DecidableEq

/-- The calls of `FSBackend` and of its optional interfaces. -/
inductive BackendCall
  | getAttr (node : Nat)
  | lookup (parent : Nat) (name : Name)
  | open (node : Nat) (flags : UInt32) (caller : Caller)
  | release (node fh : Nat)
  | read (node fh off : Nat) (size : UInt32)
  | getXattr (node : Nat) (name : Name)
  | listXattr (node : Nat)
  | setXattr (node : Nat) (name : Name) (value : Bytes) (flags : UInt32)
  | removeXattr (node : Nat) (name : Name)
  | openDir (node : Nat) (flags : UInt32)
  | readDir (node fh off : Nat)
  | releaseDir (node fh : Nat)
  | readlink (node : Nat)
  | statFS (node : Nat)
  | mkdir (parent : Nat) (name : Name) (mode : UInt32) (caller : Caller)
  | mknod (parent : Nat) (name : Name) (mode rdev : UInt32) (caller : Caller)
  | symlink (parent : Nat) (name : Name) (target : Bytes) (caller : Caller)
  | link (node newParent : Nat) (newName : Name) (caller : Caller)
  | rmDir (parent : Nat) (name : Name) (caller : Caller)
  | create (parent : Nat) (name : Name) (flags mode : UInt32) (caller : Caller)
  | write (node fh off : Nat) (data : Bytes) (flags : UInt32) (caller : Caller)
  | setAttr (node fh : Nat) (change : AttrChange) (caller : Caller)
  | unlink (parent : Nat) (name : Name) (caller : Caller)
  | rename (parent : Nat) (name : Name) (newParent : Nat) (newName : Name) (flags : UInt32) (caller : Caller)
  | flush (node fh lockOwner : Nat)
  | fsync (node fh : Nat) (flags : UInt32)
  | fsyncDir (node fh : Nat) (flags : UInt32)
  | lseek (node fh off : Nat) (whence : UInt32)
  | syncFS
  deriving DecidableEq

def BackendCall.Reply : BackendCall → Type
  | .getAttr _ | .setAttr .. => FuseAttr
  | .lookup .. | .mkdir .. | .mknod .. | .symlink .. | .link .. => Nat × FuseAttr
  | .create .. => Nat × Nat × FuseAttr
  | .open .. | .openDir .. | .lseek .. | .write .. => Nat
  | .read .. | .getXattr .. | .listXattr .. | .readlink .. => Bytes
  | .readDir .. => DirPage
  | .statFS .. => StatFS
  | .release .. | .releaseDir .. | .setXattr .. | .removeXattr .. | .rmDir .. | .unlink .. | .rename .. | .flush ..
  | .fsync .. | .fsyncDir .. | .syncFS => Unit

inductive Feature
  | xattr
  | xattrMutation
  | mkdir
  | mknod
  | symlink
  | link
  | rmDir
  | create
  | write
  | setAttr
  | unlink
  | rename
  | flush
  | fsync
  | fsyncDir
  | lseek
  | syncFS
  deriving DecidableEq

structure Backends (S : Type) where
  has : BackendID → Feature → Bool
  answer : BackendID → (call : BackendCall) → S → Except Errno call.Reply × S

structure MountWorld (S : Type) where
  fs : MountedFS
  backends : S
  trace : List (BackendID × BackendCall) := []

abbrev MountM (S α : Type) := Prog (MountWorld S) Errno α

variable {S : Type}

def onTables {α : Type} (f : MountedFS → α × MountedFS) : MountM S α :=
  .update fun w => ((f w.fs).1, { w with fs := (f w.fs).2 })

def changeTables (f : MountedFS → MountedFS) : MountM S Unit := onTables fun m => ((), f m)

def readTables {α : Type} (f : MountedFS → α) : MountM S α := .read fun w => f w.fs

def Backends.call (B : Backends S) (backend : BackendID) (call : BackendCall) : MountM S call.Reply := fun w =>
  ((B.answer backend call w.backends).1, { w with
    backends := (B.answer backend call w.backends).2, trace := w.trace ++ [(backend, call)] })

def fattrFH : UInt32 := 0x40

def linuxOTRUNC : UInt32 := 0x200

def hasBits (flags bits : UInt32) : Bool := flags &&& bits != 0

/-! ## Resolving paths -/

/-- The last component of `path.Clean("/" + name)`; there is none for `/`. -/
def baseName (name : Name) : Option Name := (cleanPath name).getLast?

/-- `path.Join(parent, path.Base(path.Clean("/" + name)))`. -/
def childPath (parent : Path) (name : Name) : Path := parent ++ (baseName name).toList

def node (id : Nat) : MountM S MountedNode := do
  let node ← readTables fun m => m.nodes[id]?
  .ofOption node .ENOENT

def backendAttr (backend : BackendID) (nodeID : Nat) (attr : FuseAttr) : MountM S FuseAttr := do
  let shown ← onTables fun m => m.shownInode backend (if attr.ino = 0 then nodeID else attr.ino)
  return { attr with ino := shown }

/-- The node of a backend's reply at a path, with the attributes shown for it. -/
def shownNode (path : Path) (backend : BackendID) (reply : Nat × FuseAttr) : MountM S (Nat × FuseAttr) := do
  let id ← onTables fun m => m.ensureResolvedNode path backend reply.1
  let attr ← backendAttr backend reply.1 reply.2
  return (id, attr)

def storeHandle (path : Path) (backend : Option BackendID) (nodeID fh : Nat) (dir : Bool) (entries : List DirEntry) :
    MountM S Nat :=
  onTables fun m => m.storeHandle
    { backend := backend, route := m.backendRoute path, nodeID := nodeID, fh := fh, dir := dir, entries := entries }

def fileHandle (fh : Nat) : MountM S (BackendID × MountedHandle) := do
  let handle ← readTables fun m => m.handle fh false
  .ofOption (handle.bind fun handle => handle.backend.map fun backend => (backend, handle)) .EBADF

/-- The backend's handle for a change of attributes. -/
def backendFile (valid : UInt32) (fh : Nat) : MountM S Nat :=
  if hasBits valid fattrFH then do
    let (_, handle) ← fileHandle fh
    return handle.fh
  else pure 0

def syntheticDirAttr : FuseAttr := { mode := linuxSIFDIR ||| 0x1ed, nlink := 2, blkSize := 4096 }

def isRootOrWritableMount (mount : Option ShareMount) : Bool := mount.all fun mount => mount.writable

def sameWritableMount : Option ShareMount → Option ShareMount → Bool
  | none, none => true
  | some a, some b => a.writable && b.writable && a.path == b.path
  | _, _ => false

namespace Backends

variable (B : Backends S)

/-- `backendLookupPath`, from inode `id` on. -/
def lookupPath (backend : BackendID) : Path → Nat → MountM S Nat
  | [], id => pure id
  | name :: path, id => do
    let found ← B.call backend (.lookup id name)
    lookupPath backend path found.1

def resolveBackendNode (path : Path) : MountM S (BackendID × Nat × Option ShareMount) := do
  let m ← readTables id
  if path = [] then return (m.root, 1, none)
  else match m.nodeForPath path with
    | some { backend := some backend, backendNodeID, .. } => return (backend, backendNodeID, m.mountForPath path)
    | _ =>
      let nodeID ← B.lookupPath (m.mountBackend path) (path.drop (m.backendRoute path).length) 1
      return (m.mountBackend path, nodeID, m.mountForPath path)

/-- The backend inode a node stands for. -/
def target (nodeID : Nat) : MountM S (BackendID × Nat × Option ShareMount) := do
  let node ← node nodeID
  B.resolveBackendNode node.path

/-- The backend inode of a node that may not be resolved yet. -/
def attrTarget (node : MountedNode) : MountM S (BackendID × Nat) :=
  match node.backend with
  | some backend => pure (backend, node.backendNodeID)
  | none => do
    let found ← B.resolveBackendNode node.path
    return (found.1, found.2.1)

def getAttr (nodeID : Nat) : MountM S FuseAttr := do
  let node ← node nodeID
  let m ← readTables id
  if node.path = [] then
    let attr ← B.call m.root (.getAttr 1)
    return { attr with ino := 1 }
  else if m.isSyntheticPath node.path then return syntheticDirAttr
  else
    let (backend, backendNodeID) ← B.attrTarget node
    let attr ← B.call backend (.getAttr backendNodeID)
    backendAttr backend backendNodeID attr

def lookup (parent : Nat) (name : Name) : MountM S (Nat × FuseAttr) := do
  let parentNode ← node parent
  match baseName name with
  | none =>
    let attr ← B.getAttr parent
    return (parent, attr)
  | some name =>
    let path := parentNode.path ++ [name]
    let synthetic ← readTables fun m => m.isSyntheticPath path
    if synthetic then
      let id ← onTables fun m => m.ensureNode path
      return (id, { syntheticDirAttr with ino := id })
    else
      let (backend, nodeID, _) ← B.resolveBackendNode path
      let attr ← B.call backend (.getAttr nodeID)
      shownNode path backend (nodeID, attr)

/-! ## Open files and attributes -/

def notify (backend : BackendID) (call : BackendCall) : MountM S Unit := fun w => (.ok (), (B.call backend call w).2)

def openForCaller (nodeID : Nat) (flags : UInt32) (caller : Caller) : MountM S Nat := do
  let node ← node nodeID
  let (backend, backendNodeID, _) ← B.resolveBackendNode node.path
  let fh ← B.call backend (.open backendNodeID flags caller)
  storeHandle node.path (some backend) backendNodeID fh false []

/-- Takes a handle away and tells its backend; `nodeID` is what the request says the handle is of. -/
def releaseHandle (dir : Bool) (call : Nat → Nat → BackendCall) (nodeID fh : Nat) : MountM S Unit := do
  let handle ← onTables fun m => m.takeHandle fh dir
  match handle with
  | some { backend := some backend, nodeID := backendNodeID, fh := backendFH, .. } =>
    B.notify backend (call backendNodeID backendFH)
    changeTables fun m => m.collectDetachedNode nodeID
  | _ => return ()

def release : (nodeID fh : Nat) → MountM S Unit := B.releaseHandle false .release

def releaseDir : (nodeID fh : Nat) → MountM S Unit := B.releaseHandle true .releaseDir

def read (fh off : Nat) (size : UInt32) : MountM S Bytes := do
  let (backend, handle) ← fileHandle fh
  B.call backend (.read handle.nodeID handle.fh off size)

def writeForCaller (fh off : Nat) (data : Bytes) (flags : UInt32) (caller : Caller) : MountM S Nat := do
  let (backend, handle) ← fileHandle fh
  Prog.require (B.has backend .write) .EROFS
  B.call backend (.write handle.nodeID handle.fh off data flags caller)

def flush (fh lockOwner : Nat) : MountM S Unit := do
  let (backend, handle) ← fileHandle fh
  if B.has backend .flush then B.call backend (.flush handle.nodeID handle.fh lockOwner) else return ()

def fsync (fh : Nat) (flags : UInt32) : MountM S Unit := do
  let (backend, handle) ← fileHandle fh
  if B.has backend .fsync then B.call backend (.fsync handle.nodeID handle.fh flags) else return ()

def lseek (fh off : Nat) (whence : UInt32) : MountM S Nat := do
  let (backend, handle) ← fileHandle fh
  Prog.require (B.has backend .lseek) .EINVAL
  B.call backend (.lseek handle.nodeID handle.fh off whence)

def setAttrForCaller (nodeID fh : Nat) (change : AttrChange) (caller : Caller) : MountM S FuseAttr := do
  let (backend, backendNodeID, mount) ← B.target nodeID
  Prog.require (isRootOrWritableMount mount) .EROFS
  Prog.require (B.has backend .setAttr) .EROFS
  let backendFH ← backendFile change.valid fh
  let attr ← B.call backend (.setAttr backendNodeID backendFH change caller)
  backendAttr backend backendNodeID attr

def getXattr (nodeID : Nat) (name : Name) : MountM S Bytes := do
  let (backend, backendNodeID, _) ← B.target nodeID
  Prog.require (B.has backend .xattr) .ENODATA
  B.call backend (.getXattr backendNodeID name)

def listXattr (nodeID : Nat) : MountM S Bytes := do
  let (backend, backendNodeID, _) ← B.target nodeID
  if B.has backend .xattr then B.call backend (.listXattr backendNodeID) else return []

def setXattr (nodeID : Nat) (name : Name) (value : Bytes) (flags : UInt32) : MountM S Unit := do
  let (backend, backendNodeID, _) ← B.target nodeID
  Prog.require (B.has backend .xattrMutation) .ENOSYS
  B.call backend (.setXattr backendNodeID name value flags)

def removeXattr (nodeID : Nat) (name : Name) : MountM S Unit := do
  let (backend, backendNodeID, _) ← B.target nodeID
  Prog.require (B.has backend .xattrMutation) .ENOSYS
  B.call backend (.removeXattr backendNodeID name)

def readlink (nodeID : Nat) : MountM S Bytes := do
  let (backend, backendNodeID, _) ← B.target nodeID
  B.call backend (.readlink backendNodeID)

/-- `StatFS`: a path that does not resolve has the numbers of the root. -/
def statFS (nodeID : Nat) : MountM S StatFS := do
  let node ← node nodeID
  let root ← readTables fun m => m.root
  let found ← Prog.attempt (B.resolveBackendNode node.path)
  match found with
  | .error _ => B.call root (.statFS 1)
  | .ok (backend, backendNodeID, _) => B.call backend (.statFS backendNodeID)

/-- `SyncFS`, over the distinct backends. -/
def syncFS : MountM S Unit := do
  let m ← readTables id
  (m.root :: m.mounts.map ShareMount.backend).reverse.dedup.reverse.forM fun backend =>
    if B.has backend .syncFS then B.call backend .syncFS else return ()

end Backends

end CrumbleCracker.Virtio
