import CrumbleCracker.Lib.Coalesce
import CrumbleCracker.Virtio.FileData

/-!
# Advisory file locks

`FuseLockManager` keeps one list of byte ranges for all files and owners. `set` grants or refuses a request;
`replaceOwnerRangeLocked` cuts the requested range out of the owner's ranges, adds the request, sorts, and joins
neighbours of one type.

`LockMap` is what the list stands for: the mode in which an owner holds a byte of a file, if any. `locks_eq_reference` :
after any sequence of requests the list stands for the map those requests build up.
-/

namespace CrumbleCracker.Virtio

open Coalesce List Option

def linuxFRdLck : UInt32 := 0

def linuxFWrLck : UInt32 := 1

def linuxFUnlck : UInt32 := 2

def maxUint64 : UInt64 := 0xffffffffffffffff

/-- The source's `end` is `stop`, the last byte of the range. -/
structure FuseFileLock where
  nodeID : UInt64 := 0
  owner : UInt64 := 0
  start : UInt64 := 0
  stop : UInt64 := 0
  typeID : UInt32 := 0
  pid : UInt32 := 0
  deriving DecidableEq

structure FuseLockManager where
  locks : List FuseFileLock := []
  closed : Bool := false
  deriving DecidableEq

def validFuseLockRange (request : FuseFileLock) : Prop := request.start ≤ request.stop
deriving Decidable

def validFuseSetLock (request : FuseFileLock) : Prop :=
  validFuseLockRange request ∧
    (request.typeID = linuxFRdLck ∨ request.typeID = linuxFWrLck ∨ request.typeID = linuxFUnlck)
deriving Decidable

def lockRangesOverlap (left right : FuseFileLock) : Prop := left.start ≤ right.stop ∧ right.start ≤ left.stop
deriving Decidable

/-- Whether a held lock stands against a request of another owner. -/
def FuseFileLock.Conflicts (held request : FuseFileLock) : Prop :=
  held.nodeID = request.nodeID ∧ held.owner ≠ request.owner ∧ lockRangesOverlap held request ∧
    (held.typeID = linuxFWrLck ∨ request.typeID = linuxFWrLck)
deriving Decidable

/-- What is left of a held lock when `request` takes its range from the same owner. -/
def keepOutside (request held : FuseFileLock) : List FuseFileLock :=
  if held.nodeID ≠ request.nodeID ∨ held.owner ≠ request.owner ∨ ¬lockRangesOverlap held request then [held]
  else
    (if held.start < request.start then [{ held with stop := request.start - 1 }] else []) ++
      if request.stop ≠ maxUint64 ∧ held.stop > request.stop then [{ held with start := request.stop + 1 }] else []

/-- The locks around the requested range, and the request. -/
def rebuilt (locks : List FuseFileLock) (request : FuseFileLock) : List FuseFileLock :=
  locks.flatMap (keepOutside request) ++ if request.typeID ≠ linuxFUnlck then [request] else []

/-- The sort order: by file, then owner, then start. The starts of one owner's ranges differ, so every sort that follows
it gives the same list. -/
def lockBefore (a b : FuseFileLock) : Prop :=
  a.nodeID < b.nodeID ∨ a.nodeID = b.nodeID ∧ (a.owner < b.owner ∨ a.owner = b.owner ∧ a.start ≤ b.start)
deriving Decidable

/-- The lock that `previous` and the one behind it make together, if they meet and have one type. -/
def mergeLocks (previous lock : FuseFileLock) : Option FuseFileLock :=
  if previous.nodeID = lock.nodeID ∧ previous.owner = lock.owner ∧ previous.typeID = lock.typeID ∧
      (previous.stop = maxUint64 ∨ lock.start ≤ previous.stop + 1) then
    some (if lock.stop > previous.stop then { previous with stop := lock.stop } else previous)
  else none

namespace FuseLockManager

variable (m : FuseLockManager)

def conflictLocked (request : FuseFileLock) : Option FuseFileLock := m.locks.find? fun held => held.Conflicts request

def replaceOwnerRangeLocked (request : FuseFileLock) : FuseLockManager :=
  { m with locks := coalesce mergeLocks ((rebuilt m.locks request).insertionSort lockBefore) }

/-- `set`, up to its return or to `cond.Wait`, where it has no result yet: the wait ends with another attempt. -/
def set (request : FuseFileLock) (wait : Bool) : Option (Except Errno Unit) × FuseLockManager :=
  if ¬validFuseSetLock request then (some (.error .EINVAL), m)
  else if request.typeID ≠ linuxFUnlck ∧ (m.conflictLocked request).isSome then
    if wait = false then (some (.error .EAGAIN), m)
    else if m.closed then (some (.error .EINTR), m)
    else (none, m)
  else if m.closed then (some (.error .EINTR), m)
  else (some (.ok ()), m.replaceOwnerRangeLocked request)

def releaseOwner (nodeID owner : UInt64) : FuseLockManager :=
  { m with locks := m.locks.filter fun lock => lock.nodeID ≠ nodeID ∨ lock.owner ≠ owner }

def close : FuseLockManager := { m with closed := true, locks := [] }

end FuseLockManager

/-- A request; a waiting one is attempted again each time it is woken up. -/
inductive LockRequest
  | set (request : FuseFileLock) (wait : Bool)
  | releaseOwner (nodeID owner : UInt64)

def FuseLockManager.step (m : FuseLockManager) : LockRequest → FuseLockManager
  | .set request wait => (m.set request wait).2
  | .releaseOwner nodeID owner => m.releaseOwner nodeID owner

def FuseLockManager.run (requests : List LockRequest) : FuseLockManager := requests.foldl FuseLockManager.step {}

/-! ## The reference -/

inductive LockMode
  | read
  | write
  deriving DecidableEq

/-- The mode of a type; unlocking has none. -/
def FuseFileLock.mode (lock : FuseFileLock) : Option LockMode :=
  if lock.typeID = linuxFRdLck then some .read else if lock.typeID = linuxFWrLck then some .write else none

/-- How each owner holds each byte of each file. -/
abbrev LockMap := UInt64 → UInt64 → UInt64 → Option LockMode

/-- The byte lies in the range of the lock's owner. -/
def FuseFileLock.Within (lock : FuseFileLock) (node byte owner : UInt64) : Prop :=
  lock.nodeID = node ∧ lock.owner = owner ∧ lock.start ≤ byte ∧ byte ≤ lock.stop
deriving Decidable

namespace LockMap

variable (ref : LockMap)

/-- No byte is locked for writing by one owner while another one has it locked. -/
def Exclusive : Prop :=
  ∀ node byte owner other, ref node byte owner = some .write → other ≠ owner → ref node byte other = none

/-- The requested range has the requested type, and every other byte is unchanged. -/
def grant (request : FuseFileLock) : LockMap := fun node byte owner =>
  if request.Within node byte owner then request.mode else ref node byte owner

def release (nodeID owner' : UInt64) : LockMap := fun node byte owner =>
  if node = nodeID ∧ owner = owner' then none else ref node byte owner

open Classical in
/-- A valid request is granted unless locks would stand against each other. -/
noncomputable def step : LockRequest → LockMap
  | .set request _ => if validFuseSetLock request ∧ (ref.grant request).Exclusive then ref.grant request else ref
  | .releaseOwner nodeID owner => ref.release nodeID owner

end LockMap

noncomputable def LockMap.run (requests : List LockRequest) : LockMap := requests.foldl LockMap.step fun _ _ _ => none

/-! ## The ranges of the list -/

/-- The range of the lock holds the byte in the mode. -/
def FuseFileLock.At (lock : FuseFileLock) (mode : LockMode) (node byte owner : UInt64) : Prop :=
  lock.Within node byte owner ∧ lock.mode = some mode

/-- A held range: not empty, and of a type that locks. -/
def FuseFileLock.Held (lock : FuseFileLock) : Prop := validFuseLockRange lock ∧ lock.mode.isSome

/-- Ranges of one owner in one file do not overlap. -/
def RangesDisjoint (a b : FuseFileLock) : Prop :=
  a.nodeID = b.nodeID → a.owner = b.owner → a.stop < b.start ∨ b.stop < a.start

/-- In the order of the list, and not overlapping. -/
def InOrder (a b : FuseFileLock) : Prop := validFuseLockRange b ∧ lockBefore a b ∧
  (a.nodeID = b.nodeID → a.owner = b.owner → a.stop < b.start)

/-- In order, and not next to each other with one type. -/
def Apart (a b : FuseFileLock) : Prop := InOrder a b ∧
  (a.nodeID = b.nodeID → a.owner = b.owner → a.typeID = b.typeID → a.stop + 1 ≠ b.start)

section Cut

variable {request held : FuseFileLock}

theorem keepOutside_eq {piece : FuseFileLock} (h : piece ∈ keepOutside request held) :
    piece.nodeID = held.nodeID ∧ piece.owner = held.owner ∧ piece.mode = held.mode := by
  unfold keepOutside at h
  split at h
  · rw [mem_singleton.mp h]
    exact ⟨rfl, rfl, rfl⟩
  · rcases mem_append.mp h with h | h <;> split at h <;> simp at h <;> subst h <;> exact ⟨rfl, rfl, rfl⟩

theorem keepOutside_valid (hheld : validFuseLockRange held) {piece : FuseFileLock}
    (h : piece ∈ keepOutside request held) : validFuseLockRange piece := by
  unfold keepOutside at h
  unfold validFuseLockRange maxUint64 at *
  grind

theorem keepOutside_within (node byte owner : UInt64) :
    (∃ piece ∈ keepOutside request held, piece.Within node byte owner) ↔
      held.Within node byte owner ∧ ¬request.Within node byte owner := by
  unfold keepOutside
  by_cases hout : held.nodeID ≠ request.nodeID ∨ held.owner ≠ request.owner ∨ ¬lockRangesOverlap held request
  · rw [if_pos hout]
    unfold FuseFileLock.Within lockRangesOverlap at *
    grind
  · rw [if_neg hout]
    have hleft : (∃ piece ∈ if held.start < request.start then [{ held with stop := request.start - 1 }] else [],
        FuseFileLock.Within piece node byte owner) ↔ held.Within node byte owner ∧ byte < request.start := by
      unfold FuseFileLock.Within lockRangesOverlap at *
      split <;> simp <;> grind
    have hright : (∃ piece ∈ if request.stop ≠ maxUint64 ∧ held.stop > request.stop
        then [{ held with start := request.stop + 1 }] else [], FuseFileLock.Within piece node byte owner) ↔
          held.Within node byte owner ∧ request.stop < byte := by
      unfold FuseFileLock.Within lockRangesOverlap maxUint64 at *
      split <;> simp <;> grind
    simp only [mem_append, or_and_right, exists_or]
    rw [hleft, hright]
    unfold FuseFileLock.Within at *
    grind

theorem keepOutside_disjoint (hrequest : validFuseLockRange request) :
    (keepOutside request held).Pairwise RangesDisjoint := by
  unfold keepOutside RangesDisjoint validFuseLockRange maxUint64 at *
  grind

end Cut

/-! ## Replacing a range -/

theorem RangesDisjoint.of_within {a b : FuseFileLock} (ha : validFuseLockRange a) (hb : validFuseLockRange b)
    (h : ∀ node byte owner, a.Within node byte owner → ¬b.Within node byte owner) : RangesDisjoint a b := by
  intro hnode howner
  unfold validFuseLockRange at ha hb
  by_contra hboth
  by_cases hle : a.start ≤ b.start
  · have hin := h a.nodeID b.start a.owner
    unfold FuseFileLock.Within at hin
    grind
  · have hin := h a.nodeID a.start a.owner
    unfold FuseFileLock.Within at hin
    grind

theorem RangesDisjoint.not_within {a b : FuseFileLock} (h : RangesDisjoint a b) {node byte owner : UInt64}
    (ha : a.Within node byte owner) : ¬b.Within node byte owner := by
  unfold RangesDisjoint FuseFileLock.Within at *
  grind

theorem RangesDisjoint.symm {a b : FuseFileLock} (h : RangesDisjoint a b) : RangesDisjoint b a :=
  fun hnode howner => (h hnode.symm howner.symm).symm

section Rebuild

variable {locks : List FuseFileLock} {request : FuseFileLock}

theorem mode_isSome (hrequest : validFuseSetLock request) (hlock : request.typeID ≠ linuxFUnlck) :
    request.mode.isSome := by
  unfold FuseFileLock.mode
  obtain ⟨-, hread | hwrite | hunlock⟩ := hrequest
  · rw [if_pos hread]
    rfl
  · rw [hwrite]
    decide
  · exact absurd hunlock hlock

theorem rebuilt_held (hlocks : ∀ lock ∈ locks, lock.Held) (hrequest : validFuseSetLock request) :
    ∀ lock ∈ rebuilt locks request, lock.Held := by
  intro lock hlock
  rcases mem_append.mp hlock with hlock | hlock
  · obtain ⟨held, hheld, hpiece⟩ := mem_flatMap.mp hlock
    obtain ⟨-, -, hmode⟩ := keepOutside_eq hpiece
    exact ⟨keepOutside_valid (hlocks held hheld).1 hpiece, hmode ▸ (hlocks held hheld).2⟩
  · split at hlock
    · rename_i htype
      rw [mem_singleton.mp hlock]
      exact ⟨hrequest.1, mode_isSome hrequest htype⟩
    · cases hlock

theorem rebuilt_at (mode : LockMode) (node byte owner : UInt64) :
    (∃ lock ∈ rebuilt locks request, lock.At mode node byte owner) ↔
      if request.Within node byte owner then request.mode = some mode else ∃ lock ∈ locks,
        lock.At mode node byte owner := by
  have hpieces : (∃ lock ∈ locks.flatMap (keepOutside request), lock.At mode node byte owner) ↔
      ¬request.Within node byte owner ∧ ∃ lock ∈ locks, lock.At mode node byte owner := by
    constructor
    · rintro ⟨piece, hpiece, hat⟩
      obtain ⟨held, hheld, hpiece⟩ := mem_flatMap.mp hpiece
      obtain ⟨hin, hout⟩ := (keepOutside_within node byte owner).mp ⟨piece, hpiece, hat.1⟩
      exact ⟨hout, held, hheld, hin, (keepOutside_eq hpiece).2.2 ▸ hat.2⟩
    · rintro ⟨hout, held, hheld, hin, hmode⟩
      obtain ⟨piece, hpiece, hwithin⟩ := (keepOutside_within node byte owner).mpr ⟨hin, hout⟩
      exact ⟨piece, mem_flatMap.mpr ⟨held, hheld, hpiece⟩, hwithin, (keepOutside_eq hpiece).2.2 ▸ hmode⟩
  have hnew : (∃ lock ∈ if request.typeID ≠ linuxFUnlck then [request] else [], lock.At mode node byte owner) ↔
      request.Within node byte owner ∧ request.mode = some mode := by
    by_cases htype : request.typeID = linuxFUnlck
    · simp [htype, FuseFileLock.mode, linuxFRdLck, linuxFWrLck, linuxFUnlck]
    · simp [htype, FuseFileLock.At]
  unfold rebuilt
  simp only [mem_append, or_and_right, exists_or]
  rw [hpieces, hnew]
  split <;> simp_all

theorem rebuilt_disjoint (hlocks : ∀ lock ∈ locks, lock.Held) (hapart : locks.Pairwise RangesDisjoint)
    (hrequest : validFuseSetLock request) : (rebuilt locks request).Pairwise RangesDisjoint := by
  have hvalid := fun piece hpiece => (rebuilt_held hlocks hrequest piece hpiece).1
  unfold rebuilt at hvalid ⊢
  refine pairwise_append.mpr ⟨pairwise_flatMap.mpr ⟨?_, ?_⟩, ?_, ?_⟩
  · intro held _
    exact keepOutside_disjoint hrequest.1
  · refine hapart.imp_of_mem fun {a b} ha hb hab x hx y hy => ?_
    refine RangesDisjoint.of_within (keepOutside_valid (hlocks a ha).1 hx) (keepOutside_valid (hlocks b hb).1 hy) ?_
    intro node byte owner hx' hy'
    have hina := (keepOutside_within node byte owner).mp ⟨x, hx, hx'⟩
    have hinb := (keepOutside_within node byte owner).mp ⟨y, hy, hy'⟩
    exact hab.not_within hina.1 hinb.1
  · split
    · exact pairwise_singleton _ _
    · exact List.Pairwise.nil
  · intro piece hpiece lock hlock
    split at hlock
    · obtain ⟨held, hheld, hpiece⟩ := mem_flatMap.mp hpiece
      rw [mem_singleton.mp hlock]
      refine RangesDisjoint.of_within (keepOutside_valid (hlocks held hheld).1 hpiece) hrequest.1 ?_
      intro node byte owner hin
      exact ((keepOutside_within node byte owner).mp ⟨piece, hpiece, hin⟩).2
    · cases hlock

end Rebuild

/-! ## Sorting and merging -/

instance : Std.Total lockBefore where
  total a b := by
    unfold lockBefore
    grind

instance : IsTrans FuseFileLock lockBefore where
  trans a b c hab hbc := by
    unfold lockBefore at *
    grind

theorem sorted_inOrder {locks : List FuseFileLock} (hlocks : ∀ lock ∈ locks, lock.Held)
    (hapart : locks.Pairwise RangesDisjoint) : (locks.insertionSort lockBefore).Pairwise InOrder := by
  have hdisjoint : (locks.insertionSort lockBefore).Pairwise RangesDisjoint :=
    ((perm_insertionSort lockBefore locks).pairwise_iff fun h => h.symm).mpr hapart
  refine (hdisjoint.and (pairwise_insertionSort lockBefore locks)).imp_of_mem ?_
  rintro a b ha hb ⟨hab, hbefore⟩
  have hva : validFuseLockRange a := (hlocks a ((mem_insertionSort _).mp ha)).1
  have hvb : validFuseLockRange b := (hlocks b ((mem_insertionSort _).mp hb)).1
  refine ⟨hvb, hbefore, fun hnode howner => ?_⟩
  unfold RangesDisjoint lockBefore validFuseLockRange at *
  grind

section Merge

variable {a b c : FuseFileLock}

theorem mergeLocks_eq (hab : InOrder a b) (h : mergeLocks a b = some c) :
    a.nodeID = b.nodeID ∧ a.owner = b.owner ∧ a.typeID = b.typeID ∧ a.stop + 1 = b.start ∧
      c = { a with stop := b.stop } := by
  obtain ⟨hvalid, -, hstop⟩ := hab
  unfold mergeLocks maxUint64 at h
  unfold validFuseLockRange at hvalid
  split at h
  · rename_i hmeet
    obtain ⟨hnode, howner, htype, hmeet⟩ := hmeet
    have hlt := hstop hnode howner
    have hlonger : b.stop > a.stop := by grind
    rw [if_pos hlonger] at h
    exact ⟨hnode, howner, htype, by grind, (some.inj h).symm⟩
  · cases h

theorem mergeLocks_at (hab : InOrder a b) (h : mergeLocks a b = some c) (mode : LockMode) (node byte owner : UInt64) :
    c.At mode node byte owner ↔ a.At mode node byte owner ∨ b.At mode node byte owner := by
  obtain ⟨hnode, howner, htype, hmeet, rfl⟩ := mergeLocks_eq hab h
  have hmode : b.mode = a.mode := by
    unfold FuseFileLock.mode
    rw [htype]
  have hlt := hab.2.2 hnode howner
  have hvalid := hab.1
  have hstart : a.start ≤ b.start := by
    have hbefore := hab.2.1
    unfold lockBefore at hbefore
    grind
  unfold FuseFileLock.At FuseFileLock.Within validFuseLockRange at *
  rw [hmode]
  have hsame : FuseFileLock.mode { a with stop := b.stop } = a.mode := rfl
  rw [hsame]
  grind

theorem mergeLocks_inOrder {d : FuseFileLock} (hab : InOrder a b) (h : mergeLocks a b = some c) (had : InOrder a d)
    (hbd : InOrder b d) : InOrder c d := by
  obtain ⟨hnode, howner, -, -, rfl⟩ := mergeLocks_eq hab h
  refine ⟨had.1, had.2.1, fun hnode' howner' => ?_⟩
  exact hbd.2.2 (hnode.symm.trans hnode') (howner.symm.trans howner')

theorem mergeLocks_frame (h : mergeLocks a b = some c) : c = { a with stop := c.stop } ∧ a.stop ≤ c.stop := by
  unfold mergeLocks at h
  split at h
  · split at h
    all_goals
      cases h
      exact ⟨rfl, by grind⟩
  · cases h

theorem mergeLocks_valid (h : mergeLocks a b = some c) (ha : validFuseLockRange a) : validFuseLockRange c := by
  obtain ⟨hc, hle⟩ := mergeLocks_frame h
  have hstart : c.start = a.start := by rw [hc]
  unfold validFuseLockRange at *
  grind

theorem mergeLocks_apart {z : FuseFileLock} (h : mergeLocks a b = some c) (hza : Apart z a) : Apart z c := by
  obtain ⟨⟨hvalid, hbefore, hstop⟩, hnext⟩ := hza
  have hvalid' := mergeLocks_valid h hvalid
  rw [(mergeLocks_frame h).1] at hvalid' ⊢
  exact ⟨⟨hvalid', hbefore, hstop⟩, hnext⟩

theorem apart_of_not_merged (hab : InOrder a b) (h : mergeLocks a b = none) : Apart a b := by
  refine ⟨hab, fun hnode howner htype hnext => ?_⟩
  unfold mergeLocks at h
  rw [if_pos ⟨hnode, howner, htype, .inr (by grind)⟩] at h
  cases h

theorem apart_of_between {d : FuseFileLock} (hab : InOrder a b) (hbd : InOrder b d) : Apart a d := by
  obtain ⟨hvalid, hbefore, hstop⟩ := hab
  obtain ⟨hvalid', hbefore', hstop'⟩ := hbd
  have hlt : a.nodeID = d.nodeID → a.owner = d.owner → a.stop < b.start ∧ b.stop < d.start := by
    unfold lockBefore at *
    grind
  unfold validFuseLockRange at *
  refine ⟨⟨hvalid', IsTrans.trans _ _ _ hbefore hbefore', fun hnode howner => ?_⟩, fun hnode howner _ => ?_⟩
  · have := hlt hnode howner
    grind
  · have := hlt hnode howner
    grind

end Merge

/-! ## One request -/

/-- What the list always is: sorted, with ranges that are not empty and neither overlap nor could be merged. -/
structure FuseLockManager.Normal (m : FuseLockManager) : Prop where
  held : ∀ lock ∈ m.locks, lock.Held
  apart : m.locks.Pairwise Apart
  opened : m.closed = false

/-- The list stands for the map. -/
def FuseLockManager.Represents (m : FuseLockManager) (ref : LockMap) : Prop :=
  ∀ node byte owner mode, (∃ lock ∈ m.locks, lock.At mode node byte owner) ↔ ref node byte owner = some mode

section Request

variable {m : FuseLockManager} {ref : LockMap} {request : FuseFileLock}

theorem FuseLockManager.Normal.sorted (h : m.Normal) (hrequest : validFuseSetLock request) :
    ((rebuilt m.locks request).insertionSort lockBefore).Pairwise InOrder :=
  sorted_inOrder (rebuilt_held h.held hrequest)
    (rebuilt_disjoint h.held (h.apart.imp fun h hn ho => .inl (h.1.2.2 hn ho)) hrequest)

theorem FuseLockManager.Normal.replace (h : m.Normal) (hrequest : validFuseSetLock request) :
    (m.replaceOwnerRangeLocked request).Normal := by
  refine ⟨?_, ?_, h.opened⟩
  · refine forall_coalesce (fun a b c ha _ hc => ⟨mergeLocks_valid hc ha.1, (mergeLocks_frame hc).1 ▸ ha.2⟩)
      fun lock hlock => ?_
    exact rebuilt_held h.held hrequest lock ((mem_insertionSort _).mp hlock)
  · exact pairwise_coalesce (S := InOrder) (T := Apart) (fun _ _ _ _ => mergeLocks_inOrder)
      (fun _ _ _ _ => mergeLocks_apart) (fun _ _ => apart_of_not_merged) (fun _ _ _ => apart_of_between)
      (h.sorted hrequest)

theorem FuseLockManager.Represents.replace (h : m.Normal) (hm : m.Represents ref)
    (hrequest : validFuseSetLock request) : (m.replaceOwnerRangeLocked request).Represents (ref.grant request) := by
  intro node byte owner mode
  have hmerged := exists_coalesce (S := InOrder) (fun _ _ _ _ => mergeLocks_inOrder)
    (C := fun lock (_ : Unit) => lock.At mode node byte owner)
    (fun a b c hab hc _ => mergeLocks_at hab hc mode node byte owner) (h.sorted hrequest) ()
  unfold FuseLockManager.replaceOwnerRangeLocked LockMap.grant
  rw [hmerged]
  simp only [mem_insertionSort]
  rw [rebuilt_at]
  split
  · rfl
  · exact hm node byte owner mode

theorem FuseLockManager.Normal.release (h : m.Normal) (nodeID owner : UInt64) : (m.releaseOwner nodeID owner).Normal :=
  ⟨fun lock hlock => h.held lock (mem_of_mem_filter hlock), h.apart.filter _, h.opened⟩

theorem FuseLockManager.Represents.release (hm : m.Represents ref) (nodeID owner' : UInt64) :
    (m.releaseOwner nodeID owner').Represents (ref.release nodeID owner') := by
  intro node byte owner mode
  have hat := hm node byte owner mode
  unfold FuseLockManager.releaseOwner LockMap.release
  simp only [mem_filter, decide_eq_true_eq]
  split
  · rename_i hsame
    simp only [reduceCtorEq, iff_false]
    rintro ⟨lock, ⟨-, hother⟩, ⟨hnode, howner, -, -⟩, -⟩
    rcases hother with hother | hother
    · exact hother (hnode.trans hsame.1)
    · exact hother (howner.trans hsame.2)
  · rename_i hother
    rw [← hat]
    constructor
    · rintro ⟨lock, ⟨hlock, -⟩, hin⟩
      exact ⟨lock, hlock, hin⟩
    · rintro ⟨lock, hlock, hin⟩
      refine ⟨lock, ⟨hlock, ?_⟩, hin⟩
      rw [hin.1.1, hin.1.2.1]
      exact not_and_or.mp hother

theorem mode_eq_write (lock : FuseFileLock) : lock.mode = some .write ↔ lock.typeID = linuxFWrLck := by
  unfold FuseFileLock.mode linuxFRdLck linuxFWrLck
  grind

theorem overlap_byte {held : FuseFileLock} (hheld : validFuseLockRange held) (hrequest : validFuseLockRange request)
    (h : lockRangesOverlap held request) :
    ∃ byte, (held.start ≤ byte ∧ byte ≤ held.stop) ∧ request.start ≤ byte ∧ byte ≤ request.stop := by
  unfold validFuseLockRange lockRangesOverlap at *
  by_cases hle : held.start ≤ request.start
  · exact ⟨request.start, by grind⟩
  · exact ⟨held.start, by grind⟩

theorem not_exclusive_of_conflict (h : m.Normal) (hm : m.Represents ref) (hrequest : validFuseSetLock request)
    (hlock : request.typeID ≠ linuxFUnlck) {held : FuseFileLock} (hheld : held ∈ m.locks)
    (hconflict : held.Conflicts request) : ¬(ref.grant request).Exclusive := by
  intro hexcl
  obtain ⟨hnode, howner, hoverlap, hwrite⟩ := hconflict
  obtain ⟨byte, hin, hin'⟩ := overlap_byte (h.held held hheld).1 hrequest.1 hoverlap
  obtain ⟨mode, hmode⟩ := isSome_iff_exists.mp (h.held held hheld).2
  obtain ⟨mode', hmode'⟩ := isSome_iff_exists.mp (mode_isSome hrequest hlock)
  have hother : ref.grant request request.nodeID byte held.owner = some mode := by
    unfold LockMap.grant
    rw [if_neg fun hwithin => howner hwithin.2.1.symm]
    exact (hm _ _ _ _).mp ⟨held, hheld, ⟨hnode, rfl, hin⟩, hmode⟩
  have hown : ref.grant request request.nodeID byte request.owner = some mode' := by
    unfold LockMap.grant
    rw [if_pos ⟨rfl, rfl, hin'⟩, hmode']
  rcases hwrite with hwrite | hwrite
  · rw [(mode_eq_write held).mpr hwrite] at hmode
    cases hmode
    rw [hexcl _ _ _ _ hother howner.symm] at hown
    cases hown
  · rw [(mode_eq_write request).mpr hwrite] at hmode'
    cases hmode'
    rw [hexcl _ _ _ _ hown howner] at hother
    cases hother

/-- A request conflicts with the list exactly when granting it would break exclusion in the map. -/
theorem conflict_iff (h : m.Normal) (hm : m.Represents ref) (hexcl : ref.Exclusive)
    (hrequest : validFuseSetLock request) (hlock : request.typeID ≠ linuxFUnlck) :
    (m.conflictLocked request).isSome ↔ ¬(ref.grant request).Exclusive := by
  unfold FuseLockManager.conflictLocked
  rw [find?_isSome]
  constructor
  · rintro ⟨held, hheld, hconflict⟩
    exact not_exclusive_of_conflict h hm hrequest hlock hheld (of_decide_eq_true hconflict)
  · intro hnot
    by_contra hnone
    -- What another owner holds in the requested range has a lock in the list, and no lock there conflicts.
    have hclear : ∀ byte owner mode, request.start ≤ byte → byte ≤ request.stop → owner ≠ request.owner →
        ref request.nodeID byte owner = some mode → mode ≠ .write ∧ request.typeID ≠ linuxFWrLck := by
      intro byte owner mode hstart hstop howner hmode
      obtain ⟨held, hheld, ⟨hnode, rfl, hin⟩, hat⟩ := (hm _ _ _ _).mpr hmode
      have hfree : ¬held.Conflicts request := fun hc => hnone ⟨held, hheld, decide_eq_true hc⟩
      unfold FuseFileLock.Conflicts lockRangesOverlap at hfree
      refine ⟨?_, ?_⟩
      · rintro rfl
        rw [mode_eq_write] at hat
        grind
      · grind
    refine hnot fun node byte owner other hwrite hne => ?_
    unfold LockMap.grant at *
    by_cases hown : request.Within node byte owner
    · obtain ⟨rfl, rfl, hstart, hstop⟩ := hown
      rw [if_pos ⟨rfl, rfl, hstart, hstop⟩, mode_eq_write] at hwrite
      rw [if_neg fun hwithin => hne hwithin.2.1.symm]
      by_contra hsome
      obtain ⟨mode, hmode⟩ := ne_none_iff_exists'.mp hsome
      exact (hclear byte other mode hstart hstop hne hmode).2 hwrite
    · rw [if_neg hown] at hwrite
      split
      · rename_i hother
        obtain ⟨rfl, rfl, hstart, hstop⟩ := hother
        exact absurd rfl (hclear byte owner .write hstart hstop hne.symm hwrite).1
      · exact hexcl node byte owner other hwrite hne

theorem grant_exclusive_of_unlock (hexcl : ref.Exclusive) (hlock : request.typeID = linuxFUnlck) :
    (ref.grant request).Exclusive := by
  have hmode : request.mode = none := by
    unfold FuseFileLock.mode
    rw [hlock]
    decide
  intro node byte owner other hwrite hne
  unfold LockMap.grant at *
  rw [hmode] at hwrite ⊢
  split at hwrite
  · cases hwrite
  · split
    · rfl
    · exact hexcl node byte owner other hwrite hne

theorem release_exclusive (hexcl : ref.Exclusive) (nodeID owner' : UInt64) : (ref.release nodeID owner').Exclusive := by
  intro node byte owner other hwrite hne
  unfold LockMap.release at *
  split at hwrite
  · cases hwrite
  · split
    · rfl
    · exact hexcl node byte owner other hwrite hne

/-- The outcome of a request: it is refused for the conflict alone. -/
theorem set_cases (h : m.Normal) (hm : m.Represents ref) (hexcl : ref.Exclusive) (hrequest : validFuseSetLock request)
    (wait : Bool) :
    ((ref.grant request).Exclusive ∧ m.set request wait = (some (.ok ()), m.replaceOwnerRangeLocked request)) ∨
      ¬(ref.grant request).Exclusive ∧ m.set request wait = (if wait then none else some (.error .EAGAIN), m) := by
  unfold FuseLockManager.set
  rw [if_neg (not_not.mpr hrequest), h.opened]
  by_cases hlock : request.typeID = linuxFUnlck
  · refine .inl ⟨grant_exclusive_of_unlock hexcl hlock, ?_⟩
    rw [if_neg fun hc => hc.1 hlock]
    rfl
  · have hiff := conflict_iff h hm hexcl hrequest hlock
    by_cases hconflict : (m.conflictLocked request).isSome
    · refine .inr ⟨hiff.mp hconflict, ?_⟩
      rw [if_pos ⟨hlock, hconflict⟩]
      cases wait <;> rfl
    · refine .inl ⟨not_not.mp fun hnot => hconflict (hiff.mpr hnot), ?_⟩
      rw [if_neg fun hc => hconflict hc.2]
      rfl

end Request

/-! ## Runs -/

/-- The list is normal, stands for the map, and the map is exclusive. -/
structure LocksTrack (m : FuseLockManager) (ref : LockMap) : Prop where
  normal : m.Normal
  represents : m.Represents ref
  exclusive : ref.Exclusive

theorem LocksTrack.step {m : FuseLockManager} {ref : LockMap} (h : LocksTrack m ref) (request : LockRequest) :
    LocksTrack (m.step request) (ref.step request) := by
  match request with
  | .releaseOwner nodeID owner =>
    exact ⟨h.normal.release nodeID owner, h.represents.release nodeID owner, release_exclusive h.exclusive nodeID owner⟩
  | .set request wait =>
    unfold FuseLockManager.step LockMap.step
    by_cases hrequest : validFuseSetLock request
    · rcases set_cases h.normal h.represents h.exclusive hrequest wait with ⟨hexcl, hset⟩ | ⟨hnot, hset⟩
      · simp only [hset, if_pos (And.intro hrequest hexcl)]
        exact ⟨h.normal.replace hrequest, .replace h.normal h.represents hrequest, hexcl⟩
      · simp only [hset, if_neg fun hc : validFuseSetLock request ∧ _ => hnot hc.2]
        exact h
    · unfold FuseLockManager.set
      simp only [if_pos hrequest, if_neg fun hc : validFuseSetLock request ∧ _ => hrequest hc.1]
      exact h

theorem LocksTrack.run (requests : List LockRequest) : LocksTrack (.run requests) (.run requests) := by
  have hstart : LocksTrack {} fun _ _ _ => none :=
    ⟨⟨by simp, List.Pairwise.nil, rfl⟩, fun _ _ _ _ => by simp, fun _ _ _ _ _ _ => rfl⟩
  unfold FuseLockManager.run LockMap.run
  induction requests using List.reverseRecOn with
  | nil => exact hstart
  | append_singleton requests request ih =>
    rw [foldl_concat, foldl_concat]
    exact ih.step request

/-- After any sequence of requests the list stands for the reference map, which is exclusive; the next request that does
not wait is refused exactly when granting it would break exclusion; and the ranges of one owner in one file do not
overlap, nor lie next to each other with one type. -/
theorem locks_eq_reference (requests : List LockRequest) :
    (∀ node byte owner mode, (∃ lock ∈ (FuseLockManager.run requests).locks, lock.At mode node byte owner) ↔
      LockMap.run requests node byte owner = some mode) ∧ (LockMap.run requests).Exclusive ∧
    (∀ request, (((FuseLockManager.run requests).set request false).1 = some (.error .EAGAIN) ↔
        validFuseSetLock request ∧ ¬((LockMap.run requests).grant request).Exclusive) ∧
      (((FuseLockManager.run requests).set request false).1 = some (.ok ()) ↔
        validFuseSetLock request ∧ ((LockMap.run requests).grant request).Exclusive)) ∧
    (FuseLockManager.run requests).locks.Pairwise fun a b => a.nodeID = b.nodeID → a.owner = b.owner →
      a.stop < b.start ∧ (a.typeID = b.typeID → a.stop + 1 ≠ b.start) := by
  have h := LocksTrack.run requests
  refine ⟨h.represents, h.exclusive, ?_, ?_⟩
  · intro request
    by_cases hrequest : validFuseSetLock request
    · rcases set_cases h.normal h.represents h.exclusive hrequest false with ⟨hexcl, hset⟩ | ⟨hnot, hset⟩
      · simp [hset, hexcl, hrequest]
      · simp [hset, hnot]
        exact hrequest
    · simp [FuseLockManager.set, hrequest]
  · exact h.normal.apart.imp fun hab hnode howner => ⟨hab.1.2.2 hnode howner, hab.2 hnode howner⟩

example : (FuseLockManager.run [.set { nodeID := 3, owner := 4, stop := 99, typeID := linuxFWrLck } false,
    .set { nodeID := 3, owner := 4, start := 25, stop := 74, typeID := linuxFUnlck } false]).locks =
      [{ nodeID := 3, owner := 4, stop := 24, typeID := linuxFWrLck },
        { nodeID := 3, owner := 4, start := 75, stop := 99, typeID := linuxFWrLck }] := by decide

end CrumbleCracker.Virtio
