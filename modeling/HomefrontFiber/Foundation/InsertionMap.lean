import Mathlib.Data.List.Basic
import Mathlib.Data.List.Induction
import Mathlib.Data.List.Nodup

/-!
# Maps that keep the order of insertion

The built-in map of the source walks its entries in the order in which their keys were first set.
`InsertionMap` is that map: a list of entries in which no key comes twice. Setting a key that is
there replaces its value in place, a new key goes to the end, and deleting a key removes its entry.
-/

namespace HomefrontFiber

open List

structure InsertionMap (κ β : Type) where
  entries : List (κ × β)
  nodup : (entries.map Prod.fst).Nodup

namespace InsertionMap

variable {κ β : Type} [DecidableEq κ]

def empty : InsertionMap κ β where
  entries := []
  nodup := nodup_nil

def get? (m : InsertionMap κ β) (key : κ) : Option β :=
  (m.entries.find? (·.1 = key)).map Prod.snd

def size (m : InsertionMap κ β) : Nat := m.entries.length

def delete (m : InsertionMap κ β) (key : κ) : InsertionMap κ β where
  entries := m.entries.filter (·.1 ≠ key)
  nodup := m.nodup.sublist (filter_sublist.map Prod.fst)

def setEntries (entries : List (κ × β)) (key : κ) (value : β) : List (κ × β) :=
  if key ∈ entries.map Prod.fst then
    entries.map fun e => if e.1 = key then (key, value) else e
  else entries ++ [(key, value)]

theorem nodup_setEntries {entries : List (κ × β)} (h : (entries.map Prod.fst).Nodup) (key : κ)
    (value : β) : ((setEntries entries key value).map Prod.fst).Nodup := by
  unfold setEntries
  split
  · have hkeys : (entries.map fun e => if e.1 = key then (key, value) else e).map Prod.fst =
        entries.map Prod.fst := by
      rw [map_map]
      apply map_congr_left
      intro e _
      by_cases he : e.1 = key
      · simp [he]
      · simp [he]
    rw [hkeys]
    exact h
  · rename_i hnew
    rw [map_append, map_singleton]
    apply List.Nodup.append h (nodup_singleton _)
    intro k hk hk'
    rw [mem_singleton.mp hk'] at hk
    exact hnew hk

/-- `map.set(key, value)`. -/
def set (m : InsertionMap κ β) (key : κ) (value : β) : InsertionMap κ β where
  entries := setEntries m.entries key value
  nodup := nodup_setEntries m.nodup key value

variable {m : InsertionMap κ β} {other : κ}

theorem get?_eq_some_iff {key : κ} {value : β} :
    m.get? key = some value ↔ (key, value) ∈ m.entries := by
  unfold get?
  constructor
  · intro h
    obtain ⟨e, hfind, rfl⟩ := Option.map_eq_some_iff.mp h
    have hkey : e.1 = key := by simpa using find?_some hfind
    rw [← hkey]
    exact mem_of_find?_eq_some hfind
  · intro h
    cases hfind : m.entries.find? (·.1 = key) with
    | none =>
      have hnone := find?_eq_none.mp hfind _ h
      simp at hnone
    | some e =>
      have hkey : e.1 = key := by simpa using find?_some hfind
      have heq : e = (key, value) :=
        inj_on_of_nodup_map m.nodup (mem_of_find?_eq_some hfind) h hkey
      rw [heq]
      rfl

theorem get?_eq_none_iff {key : κ} : m.get? key = none ↔ ∀ e ∈ m.entries, e.1 ≠ key := by
  unfold get?
  rw [Option.map_eq_none_iff, find?_eq_none]
  simp

@[simp] theorem get?_empty (key : κ) : (empty : InsertionMap κ β).get? key = none := rfl

theorem get?_delete_self (m : InsertionMap κ β) (key : κ) : (m.delete key).get? key = none := by
  apply get?_eq_none_iff.mpr
  intro e he
  simpa using (mem_filter.mp he).2

theorem get?_delete_of_ne (m : InsertionMap κ β) {key : κ} (h : other ≠ key) :
    (m.delete key).get? other = m.get? other := by
  apply Option.ext
  intro value
  rw [get?_eq_some_iff, get?_eq_some_iff]
  unfold delete
  simp [h]

theorem get?_set_self (m : InsertionMap κ β) (key : κ) (value : β) :
    (m.set key value).get? key = some value := by
  apply get?_eq_some_iff.mpr
  unfold set setEntries
  split
  · rename_i hkey
    obtain ⟨e, he, rfl⟩ := mem_map.mp hkey
    exact mem_map.mpr ⟨e, he, if_pos rfl⟩
  · exact mem_append_right _ mem_cons_self

theorem get?_set_of_ne (m : InsertionMap κ β) {key : κ} (value : β) (h : other ≠ key) :
    (m.set key value).get? other = m.get? other := by
  apply Option.ext
  intro v
  rw [get?_eq_some_iff, get?_eq_some_iff]
  unfold set setEntries
  split
  · rw [mem_map]
    constructor
    · rintro ⟨e, he, heq⟩
      by_cases hkey : e.1 = key
      · rw [if_pos hkey] at heq
        exact absurd (congrArg Prod.fst heq).symm h
      · rw [if_neg hkey] at heq
        exact heq ▸ he
    · intro he
      exact ⟨(other, v), he, if_neg h⟩
  · simp [h]

theorem get?_set (m : InsertionMap κ β) (key other : κ) (value : β) :
    (m.set key value).get? other = if other = key then some value else m.get? other := by
  split
  · rename_i h
    rw [h, get?_set_self]
  · rename_i h
    exact get?_set_of_ne m value h

theorem get?_delete (m : InsertionMap κ β) (key other : κ) :
    (m.delete key).get? other = if other = key then none else m.get? other := by
  split
  · rename_i h
    rw [h, get?_delete_self]
  · rename_i h
    exact get?_delete_of_ne m h

theorem size_pos {key : κ} {value : β} (h : m.get? key = some value) :
    0 < m.size := length_pos_of_mem (get?_eq_some_iff.mp h)

end InsertionMap

end HomefrontFiber
