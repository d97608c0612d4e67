import CrumbleCracker.Virtio.FileData
import CrumbleCracker.Virtio.PersistentState

/-!
# Names, modes, times, and the image below a persistent filesystem

A `Lower` is the immutable directory tree a persistent filesystem is laid over: what each path holds. A directory
handle, file handle or symlink handle of the image is the path it was looked up at.
-/

namespace CrumbleCracker.Virtio

abbrev IdSet := Std.ExtTreeSet Nat compare

/-! ## Names -/

def slash : UInt8 := 47

def dot : Name := [46]

def dotDot : Name := [46, 46]

def Plain (name : Name) : Prop := name ≠ [] ∧ slash ∉ name ∧ name ≠ dot ∧ name ≠ dotDot
deriving Decidable

abbrev PathMap (β : Type) := Std.ExtTreeMap Path β compare

/-- The parts of a path between its slashes. -/
def components (path : Bytes) : Path := path.splitOn slash

/-- One step of `path.Clean` over a rooted path; `stack` holds the cleaned components, last first. -/
def cleanComponent (stack : Path) (part : Name) : Path :=
  if part = [] ∨ part = dot then stack else if part = dotDot then stack.tail else part :: stack

/-- `path.Clean("/" + path)`. -/
def cleanPath (path : Bytes) : Path := ((components path).foldl cleanComponent []).reverse

def joinPath (path : Path) : Bytes := (path.intersperse [slash]).flatten

def cleanChildName (name : Name) : Option Name :=
  if name = [] then none
  else if slash ∉ name ∧ name ≠ dot ∧ name ≠ dotDot then some name
  else if cleanPath name = [] then none
  else some (joinPath (cleanPath name))

theorem cleanComponent_plain {name : Name} (h : Plain name) (stack : Path) :
    cleanComponent stack name = name :: stack := by
  unfold cleanComponent
  rw [if_neg (not_or.mpr ⟨h.1, h.2.2.1⟩), if_neg h.2.2.2]

theorem cleanPath_joinPath {path : Path} (h : ∀ name ∈ path, Plain name) : cleanPath (joinPath path) = path := by
  have hfold (stack : Path) : path.foldl cleanComponent stack = path.reverse ++ stack := by
    induction path generalizing stack with
    | nil => rfl
    | cons name path ih =>
      obtain ⟨hname, hpath⟩ := List.forall_mem_cons.mp h
      rw [List.foldl_cons, cleanComponent_plain hname, ih hpath]
      simp
  by_cases hnil : path = []
  · subst hnil
    rfl
  · have hparts : components (joinPath path) = path := List.splitOn_intercalate slash (fun l hl => (h l hl).2.1) hnil
    rw [cleanPath, hparts, hfold, List.append_nil, List.reverse_reverse]

/-! ## Modes -/

def modeDir : UInt32 := 0x80000000

def modeSymlink : UInt32 := 0x08000000

def modePerm : UInt32 := 0x1ff

def linuxSIFDIR : UInt32 := 0x4000

/-! ## Times -/

/-- Nanoseconds since the Unix epoch. -/
abbrev Time := Int

/-- `time.Time{}`, the first instant of year 1. -/
def zeroTime : Time := -62135596800 * 10 ^ 9

/-- `timeToUnixNano`; `UnixNano` wraps outside the range of an `int64`. -/
def timeToUnixNano (value : Time) : Int := if value = zeroTime then 0 else value.bmod (2 ^ 64)

def unixNanoTime (value : Int) : Time := if value = 0 then zeroTime else value

/-! ## The lower image -/

structure LowerAttr where
  mode : UInt32 := 0x1ed
  modTime : Time := zeroTime
  uid : UInt32 := 0
  gid : UInt32 := 0
  rdev : UInt32 := 0
  deriving DecidableEq

inductive LowerObject
  | dir (attr : LowerAttr) (names : List Name)
  | file (attr : LowerAttr) (contents : Bytes)
  | symlink (attr : LowerAttr) (target : Bytes)
  deriving DecidableEq

def LowerObject.kind : LowerObject → Kind
  | .dir _ _ => .dir
  | .file _ _ => .file
  | .symlink _ _ => .symlink

/-- The objects of an image by their paths. -/
structure Lower where
  object : Path → Option LowerObject
  root_dir : (object []).map (·.kind) = some .dir

end CrumbleCracker.Virtio
