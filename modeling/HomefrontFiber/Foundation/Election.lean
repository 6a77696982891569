import Mathlib.Data.List.Perm.Basic
import Mathlib.Order.Lattice
import HomefrontFiber.Foundation.InsertionMap

/-!
# Groups that elect their first

Groups are merged two at a time, and the group of the higher ranked first goes in front. However the
groups of a collection are merged, the first of the whole is its highest ranked member, so that the
order of the mergers can be seen in the order of the members alone.
-/

namespace HomefrontFiber

section

variable {α ρ : Type} [LinearOrder ρ] {rank : α → ρ}

/-- The member `s` stands first in the group, and none ranks above it. -/
structure Elected (rank : α → ρ) (s : α) (group : List α) : Prop where
  head : group.head? = some s
  best : ∀ x ∈ group, rank x ≤ rank s

theorem Elected.singleton (x : α) : Elected rank x [x] where
  head := rfl
  best y hy := by rw [List.mem_singleton.mp hy]

theorem Elected.mem {s : α} {group : List α} (h : Elected rank s group) : s ∈ group :=
  List.mem_of_head? h.head

theorem Elected.append {s t : α} {group other : List α} (hs : Elected rank s group)
    (ht : Elected rank t other) (hle : rank t ≤ rank s) : Elected rank s (group ++ other) where
  head := by rw [List.head?_append, hs.head]; rfl
  best x hx := by
    rcases List.mem_append.mp hx with hx | hx
    · exact hs.best x hx
    · exact le_trans (ht.best x hx) hle

theorem Elected.unique {s t : α} {group other : List α} (hs : Elected rank s group)
    (ht : Elected rank t other) (hperm : group.Perm other)
    (hapart : ∀ x ∈ group, ∀ y ∈ group, rank x = rank y → x = y) : s = t := by
  have hmem : t ∈ group := hperm.mem_iff.mpr ht.mem
  exact hapart s hs.mem t hmem
    (le_antisymm (ht.best s (hperm.mem_iff.mp hs.mem)) (hs.best t hmem))

end

namespace InsertionMap

variable {κ β γ : Type} [DecidableEq κ] {m : InsertionMap κ β} {key : κ} {value : β}

theorem entries_set_new (h : m.get? key = none) (value : β) :
    (m.set key value).entries = m.entries ++ [(key, value)] := by
  unfold set setEntries
  dsimp only
  rw [if_neg]
  intro hmem
  obtain ⟨e, he, hkey⟩ := List.mem_map.mp hmem
  exact get?_eq_none_iff.mp h e he hkey

end InsertionMap

end HomefrontFiber
