import Mathlib

/-!
# Maps in chunks

A map from numbers kept as chunks of 256 slots, each with a count of the slots in use; a chunk whose last slot is
cleared is dropped.

* `WellCounted` : every chunk's count is the number of its slots in use;
* `get?_add`, `get?_alter`, `get?_remove` : the chunked map is a map.
-/

namespace CrumbleCracker

open Std.ExtTreeMap Option

structure Chunk (β : Type) where
  slots : Std.ExtTreeMap Nat β compare := ∅
  live : Nat := 0

abbrev ChunkedMap (β : Type) := Std.ExtTreeMap Nat (Chunk β) compare

namespace ChunkedMap

variable {β : Type}

def chunkSize : Nat := 256

def chunkIndex (key : Nat) : Nat × Nat := (key / chunkSize, key % chunkSize)

theorem chunkIndex_injective {a b : Nat} (h : chunkIndex a = chunkIndex b) : a = b := by
  unfold chunkIndex chunkSize at h
  rw [Prod.mk.injEq] at h
  omega

variable (m : ChunkedMap β)

def slot? (index : Nat × Nat) : Option β := m[index.1]?.bind fun chunk => chunk.slots[index.2]?

def get? (key : Nat) : Option β := m.slot? (chunkIndex key)

def add (key : Nat) (value : β) : ChunkedMap β :=
  let index := chunkIndex key
  let chunk := m[index.1]?.getD {}
  m.insert index.1 { slots := chunk.slots.insert index.2 value, live := chunk.live + 1 }

/-- The value of a slot changed in place. -/
def alterSlot (index : Nat × Nat) (f : β → β) : ChunkedMap β :=
  m.modify index.1 fun chunk => { chunk with slots := chunk.slots.modify index.2 f }

def alter (key : Nat) (f : β → β) : ChunkedMap β := m.alterSlot (chunkIndex key) f

def remove (key : Nat) : ChunkedMap β :=
  let index := chunkIndex key
  match m[index.1]? with
  | none => m
  | some chunk =>
    if chunk.live - 1 = 0 then m.erase index.1
    else m.insert index.1 { slots := chunk.slots.erase index.2, live := chunk.live - 1 }

/-- Every chunk counts its slots. -/
def WellCounted : Prop := ∀ (id : Nat) (chunk : Chunk β), m[id]? = some chunk → chunk.live = chunk.slots.size

variable {m}

theorem slot?_alterSlot (index index' : Nat × Nat) (f : β → β) :
    (m.alterSlot index f).slot? index' = if index = index' then (m.slot? index').map f else m.slot? index' := by
  unfold slot? alterSlot
  rw [getElem?_modify]
  by_cases hchunk : index.1 = index'.1
  · rw [hchunk, if_pos Std.ReflCmp.compare_self]
    cases m[index'.1]? with
    | none => simp
    | some chunk =>
      simp only [map_some, bind_some]
      rw [getElem?_modify]
      by_cases hslot : index.2 = index'.2
      · rw [hslot, if_pos Std.ReflCmp.compare_self, if_pos (Prod.ext hchunk hslot)]
      · rw [if_neg (by simpa using hslot), if_neg fun h => hslot (congrArg Prod.snd h)]
  · rw [if_neg (by simpa using hchunk), if_neg fun h => hchunk (congrArg Prod.fst h)]

theorem get?_alter (key key' : Nat) (f : β → β) :
    (m.alter key f).get? key' = if key = key' then (m.get? key').map f else m.get? key' := by
  unfold get? alter
  rw [slot?_alterSlot]
  by_cases hkey : key = key'
  · rw [if_pos hkey, hkey, if_pos rfl]
  · rw [if_neg hkey, if_neg fun h => hkey (chunkIndex_injective h)]

theorem get?_add (key key' : Nat) (value : β) :
    (m.add key value).get? key' = if key = key' then some value else m.get? key' := by
  unfold get? slot? add
  rw [getElem?_insert]
  by_cases hchunk : (chunkIndex key).1 = (chunkIndex key').1
  · rw [hchunk, if_pos Std.ReflCmp.compare_self, bind_some, getElem?_insert]
    by_cases hslot : (chunkIndex key).2 = (chunkIndex key').2
    · rw [hslot, if_pos Std.ReflCmp.compare_self, if_pos (chunkIndex_injective (Prod.ext hchunk hslot))]
    · rw [if_neg (by simpa using hslot), if_neg fun h : key = key' => hslot (h ▸ rfl)]
      cases m[(chunkIndex key').1]? <;> simp
  · rw [if_neg (by simpa using hchunk), if_neg fun h : key = key' => hchunk (h ▸ rfl)]

variable {key : Nat}

theorem get?_eq_some {value : β} (h : m.get? key = some value) :
    ∃ chunk, m[(chunkIndex key).1]? = some chunk ∧ chunk.slots[(chunkIndex key).2]? = some value :=
  bind_eq_some_iff.mp h

theorem get?_remove (hm : m.WellCounted) (hkey : (m.get? key).isSome) (key' : Nat) :
    (m.remove key).get? key' = if key = key' then none else m.get? key' := by
  obtain ⟨value, hvalue⟩ := isSome_iff_exists.mp hkey
  obtain ⟨chunk, hchunk, hslot⟩ := get?_eq_some hvalue
  -- What is left of the chunk, whether it is kept or dropped because nothing is left.
  have hleft : ∀ slot : Nat, ((m.remove key)[(chunkIndex key).1]?.bind fun chunk => chunk.slots[slot]?) =
      (chunk.slots.erase (chunkIndex key).2)[slot]? := by
    intro slot
    have hcount := hm _ _ hchunk
    unfold remove
    simp only [hchunk]
    split
    · rename_i hlast
      have hempty : (chunk.slots.erase (chunkIndex key).2).size = 0 := by
        have hmem : (chunkIndex key).2 ∈ chunk.slots := isSome_getElem?_iff_mem.mp (by rw [hslot]; rfl)
        rw [size_erase, if_pos (contains_iff_mem.mpr hmem)]
        omega
      rw [getElem?_erase_self, bind_none, eq_empty_iff_size_eq_zero.mpr hempty,
        getElem?_empty]
    · rw [getElem?_insert_self, bind_some]
  by_cases hindex : (chunkIndex key).1 = (chunkIndex key').1
  · unfold get? slot?
    rw [← hindex, hleft, getElem?_erase, hchunk, bind_some]
    by_cases hsame : (chunkIndex key).2 = (chunkIndex key').2
    · rw [hsame, if_pos Std.ReflCmp.compare_self, if_pos (chunkIndex_injective (Prod.ext hindex hsame))]
    · rw [if_neg (by simpa using hsame), if_neg fun h : key = key' => hsame (h ▸ rfl)]
  · rw [if_neg fun h : key = key' => hindex (h ▸ rfl)]
    unfold get? slot? remove
    simp only [hchunk]
    split
    · rw [getElem?_erase, if_neg (by simpa using hindex)]
    · rw [getElem?_insert, if_neg (by simpa using hindex)]

theorem WellCounted.add (hm : m.WellCounted) (hkey : m.get? key = none) (value : β) :
    (m.add key value).WellCounted := by
  intro id chunk hchunk
  unfold ChunkedMap.add at hchunk
  rw [getElem?_insert] at hchunk
  split at hchunk
  · cases hchunk
    have hnew : ¬(chunkIndex key).2 ∈ (m[(chunkIndex key).1]?.getD {}).slots := by
      intro hmem
      have hsome := isSome_getElem?_iff_mem.mpr hmem
      unfold get? slot? at hkey
      cases hold : m[(chunkIndex key).1]? with
      | none => simp [hold] at hsome
      | some old => simp_all
    have hcount : (m[(chunkIndex key).1]?.getD {}).live = (m[(chunkIndex key).1]?.getD {}).slots.size := by
      cases hold : m[(chunkIndex key).1]? with
      | none => rfl
      | some old => exact hm _ old hold
    rw [hcount, size_insert, if_neg (by rwa [contains_iff_mem])]
  · exact hm id chunk hchunk

theorem WellCounted.alterSlot (hm : m.WellCounted) (index : Nat × Nat) (f : β → β) :
    (m.alterSlot index f).WellCounted := by
  intro id chunk hchunk
  unfold ChunkedMap.alterSlot at hchunk
  rw [getElem?_modify] at hchunk
  split at hchunk
  · obtain ⟨old, hold, rfl⟩ := map_eq_some_iff.mp hchunk
    rw [hm _ _ hold, size_modify]
  · exact hm id chunk hchunk

theorem WellCounted.remove (hm : m.WellCounted) (hkey : (m.get? key).isSome) : (m.remove key).WellCounted := by
  obtain ⟨value, hvalue⟩ := isSome_iff_exists.mp hkey
  obtain ⟨old, hold, hslot⟩ := get?_eq_some hvalue
  have hmem : (chunkIndex key).2 ∈ old.slots := isSome_getElem?_iff_mem.mp (by rw [hslot]; rfl)
  intro id chunk hchunk
  unfold ChunkedMap.remove at hchunk
  simp only [hold] at hchunk
  split at hchunk
  · rw [getElem?_erase] at hchunk
    split at hchunk
    · cases hchunk
    · exact hm id chunk hchunk
  · rw [getElem?_insert] at hchunk
    split at hchunk
    · cases hchunk
      rw [hm _ _ hold, size_erase, if_pos (contains_iff_mem.mpr hmem)]
    · exact hm id chunk hchunk

end ChunkedMap

end CrumbleCracker
