import CrumbleCracker.Lib.HostFile
import CrumbleCracker.Lib.Dialog

/-!
# The host under the image store

What the image store asks of the system it runs on: files by their paths, the registry, and the channels between the
workers of one pull. A path is the list of its components from the file-system root, as `filepath.Join` cleans it
(`Place.walk`): a component that is empty or a dot stays, two dots go up. A disk is its regular files; directories are
where files can be. `Does` says what each call may answer and what it does: any call that changes the disk may fail, a
write may be short, and `os.RemoveAll` may stop on the way.

`touched` are the paths a call creates, opens for writing, renames, truncates or removes.
-/

namespace CrumbleCracker.Oci

abbrev Text : Type := List Char

abbrev Place : Type := List Text

def components : Text → List Text
  | [] => [[]]
  | c :: t =>
    if c = '/' then [] :: components t
    else match components t with
      | [] => [[c]]
      | n :: ns => (c :: n) :: ns

namespace Place

def down (p : Place) (n : Text) : Place :=
  if n = [] ∨ n = ['.'] then p else if n = ['.', '.'] then p.dropLast else p ++ [n]

/-- `filepath.Join(p, t)`. -/
def walk (p : Place) (t : Text) : Place := (components t).foldl down p

def dir (p : Place) : Place := p.dropLast

def extend (p : Place) (t : Text) : Place := p.dropLast ++ [(p.getLast?.getD []) ++ t]

def Inside (root p : Place) : Prop := root <+: p
deriving Decidable

def Below (root p : Place) : Prop := root <+: p ∧ root ≠ p
deriving Decidable

end Place

inductive Stat
  | absent
  | failed
  | regular (size : Nat)
  | other
  deriving DecidableEq

inductive Listing
  | absent
  | failed
  | entries (names : List Text)

/-- How `os.OpenFile` opens a file it may create. -/
inductive OpenMode
  | keep
  | trunc
  | excl
  deriving DecidableEq

structure Response where
  status : Nat
  contentLength : Int
  contentRange : Option (Int × Int × Int)
  deriving DecidableEq

/-- A request without a usable response: the status the registry answered with, if it did, and whether the caller's
context is done. -/
structure NetError where
  status : Option Nat
  cancelled : Bool
  deriving DecidableEq

inductive Chunk
  | data (bytes : Bytes)
  | eof
  | failed (cancelled : Bool)

inductive Call
  | stat (p : Place)
  | readFile (p : Place)
  | readDir (p : Place)
  | mkdirAll (p : Place)
  | mkdirTemp (parent : Place) (pattern : Text)
  | create (p : Place) (mode : OpenMode)
  | append (p : Place) (data : Bytes)
  | writeAt (p : Place) (off : Int) (data : Bytes)
  | truncate (p : Place) (size : Int)
  | close (p : Place)
  | rename (p q : Place)
  | remove (p : Place)
  | removeAll (p : Place)
  | link (p q : Place)
  | sameFile (p q : Place)
  | request (digest : Text) (range : Option (Int × Option Int))
  | body (max : Nat)
  | send (layer : Nat)
  | next
  | finish (layer : Nat) (ok : Bool)
  | await (layer : Nat)

/-- What each call answers: for a write, how many bytes were written; for the calls that only succeed or fail, whether
they did. -/
def Call.Answer : Call → Type
  | stat _ => Stat
  | readFile _ => Option Bytes
  | readDir _ => Listing
  | mkdirTemp _ _ => Option Text
  | append _ _ | writeAt _ _ _ => Nat
  | request _ _ => Except NetError Response
  | body _ => Chunk
  | next => Option Nat
  | send _ | finish _ _ => Unit
  | mkdirAll _ | create _ _ | truncate _ _ | close _ | rename _ _ | remove _ | removeAll _ | link _ _ | sameFile _ _
  | await _ => Bool

abbrev Host (α : Type) : Type := Dialog Call Call.Answer α

namespace Os

def stat (p : Place) : Host Stat := .ask (.stat p) .done

def readFile (p : Place) : Host (Option Bytes) := .ask (.readFile p) .done

def readDir (p : Place) : Host Listing := .ask (.readDir p) .done

def mkdirAll (p : Place) : Host Bool := .ask (.mkdirAll p) .done

def mkdirTemp (parent : Place) (pattern : Text) : Host (Option Text) := .ask (.mkdirTemp parent pattern) .done

def create (p : Place) (mode : OpenMode) : Host Bool := .ask (.create p mode) .done

def append (p : Place) (data : Bytes) : Host Nat := .ask (.append p data) .done

def writeAt (p : Place) (off : Int) (data : Bytes) : Host Nat := .ask (.writeAt p off data) .done

def truncate (p : Place) (size : Int) : Host Bool := .ask (.truncate p size) .done

def close (p : Place) : Host Bool := .ask (.close p) .done

def rename (p q : Place) : Host Bool := .ask (.rename p q) .done

def remove (p : Place) : Host Bool := .ask (.remove p) .done

def removeAll (p : Place) : Host Bool := .ask (.removeAll p) .done

def link (p q : Place) : Host Bool := .ask (.link p q) .done

def sameFile (p q : Place) : Host Bool := .ask (.sameFile p q) .done

end Os

namespace Net

def request (digest : Text) (range : Option (Int × Option Int)) : Host (Except NetError Response) :=
  .ask (.request digest range) .done

def body (max : Nat) : Host Chunk := .ask (.body max) .done

end Net

namespace Chan

def send (layer : Nat) : Host Unit := .ask (.send layer) .done

def next : Host (Option Nat) := .ask .next .done

def finish (layer : Nat) (ok : Bool) : Host Unit := .ask (.finish layer ok) .done

def await (layer : Nat) : Host Bool := .ask (.await layer) .done

end Chan

/-- The paths a call creates, opens for writing, renames, truncates or removes. -/
def touched : (c : Call) → c.Answer → List Place
  | .mkdirAll p, _ | .create p _, _ | .append p _, _ | .writeAt p _ _, _ | .truncate p _, _ | .remove p, _
  | .removeAll p, _ => [p]
  | .mkdirTemp parent _, name => match (name : Option Text) with
    | some n => [parent ++ [n]]
    | none => []
  | .rename p q, _ => [p, q]
  | .link _ q, _ => [q]
  | .stat _, _ | .readFile _, _ | .readDir _, _ | .close _, _ | .sameFile _ _, _ | .request _ _, _ | .body _, _
  | .send _, _ | .next, _ | .finish _ _, _ | .await _, _ => []

abbrev Disk : Type := Place → Option Bytes

/-- The disk and, while a pull runs, its channels: the layers no worker has taken and the results of the others. -/
structure World where
  disk : Disk
  jobs : List Nat
  results : Nat → Option Bool

namespace Disk

def put (d : Disk) (p : Place) (b : Option Bytes) : Disk := fun q => if q = p then b else d q

/-- The disk after `os.Rename(p, q)`: what was at or below `p` is at or below `q`. -/
def moved (d : Disk) (p q : Place) : Disk := fun r =>
  if q <+: r then d (p ++ r.drop q.length) else if p <+: r then none else d r

@[simp] theorem put_self (d : Disk) (p : Place) (b : Option Bytes) : d.put p b p = b := by simp [put]

theorem put_of_ne (d : Disk) {p q : Place} (b : Option Bytes) (h : q ≠ p) : d.put p b q = d q := by simp [put, h]

end Disk

def StatSays (d : Disk) (p : Place) : Stat → Prop
  | .absent | .other => d p = none
  | .failed => True
  | .regular n => ∃ b, d p = some b ∧ b.length = n

/-- What a call may do to the files of the disk. -/
def Changes (d : Disk) : (c : Call) → c.Answer → Disk → Prop
  | .stat p, a, d' => d' = d ∧ StatSays d p a
  | .readFile p, a, d' => d' = d ∧ ∀ b, a = some b → d p = some b
  | .mkdirTemp parent pattern, a, d' => d' = d ∧ ∀ n, a = some n → pattern <+: n ∧ ∀ r, d (parent ++ n :: r) = none
  | .create p mode, ok, d' => (ok = false ∧ d' = d) ∨ (ok = true ∧ match mode with
    | .keep => d' = d.put p (some ((d p).getD []))
    | .trunc => d' = d.put p (some [])
    | .excl => d p = none ∧ d' = d.put p (some []))
  | .append p data, (n : Nat), d' => n ≤ data.length ∧ d' = d.put p ((d p).map fun b => b ++ data.take n)
  | .writeAt p off data, (n : Nat), d' =>
    n ≤ data.length ∧ d' = d.put p ((d p).map fun b => CrumbleCracker.writeAt b off.toNat (data.take n))
  | .truncate p size, ok, d' =>
    (ok = false ∧ d' = d) ∨ (ok = true ∧ d' = d.put p ((d p).map fun b => truncateTo b size.toNat))
  | .rename p q, ok, d' => (ok = false ∧ d' = d) ∨
    (ok = true ∧ (∀ n r, d (q ++ n :: r) = none) ∧ ¬p <+: q ∧ d' = d.moved p q)
  | .remove p, ok, d' => (ok = false ∧ d' = d) ∨ (ok = true ∧ d' = d.put p none)
  | .removeAll p, ok, d' => (∀ r, d' r = d r ∨ (p <+: r ∧ d' r = none)) ∧ (ok = true → ∀ r, p <+: r → d' r = none)
  | .link p q, ok, d' => (ok = false ∧ d' = d) ∨ (ok = true ∧ d q = none ∧ d' = d.put q (d p))
  | .readDir _, _, d' | .mkdirAll _, _, d' | .close _, _, d' | .sameFile _ _, _, d' | .request _ _, _, d'
  | .body _, _, d' | .send _, _, d' | .next, _, d' | .finish _ _, _, d' | .await _, _, d' => d' = d

/-- What a call may do to the channels of a pull. -/
def Passes (w w' : World) : (c : Call) → c.Answer → Prop
  | .send i, _ => w'.jobs = w.jobs ++ [i] ∧ w'.results = w.results
  | .next, a => a = w.jobs.head? ∧ w'.jobs = w.jobs.tail ∧ w'.results = w.results
  | .finish i ok, _ => w'.jobs = w.jobs ∧ w'.results = fun j => if j = i then some ok else w.results j
  | .await i, ok => w.results i = some ok ∧ w'.jobs = w.jobs ∧ w'.results = w.results
  | _, _ => w'.jobs = w.jobs ∧ w'.results = w.results

/-- What a call may answer, and the world after it. -/
def Does (w : World) (c : Call) (a : c.Answer) (w' : World) : Prop := Changes w.disk c a w'.disk ∧ Passes w w' c a

end CrumbleCracker.Oci
