import Mathlib.Data.List.TakeWhile

/-!
# The first of several optional columns

A record has columns that may be empty, and a reader takes the first of a list of them that has a
value. When an update keeps the old value of a column that the new record leaves empty, the reader
sees the new record alone exactly when the old one does not speak before it, or says the same.
-/

namespace HomefrontFiber

open List Option

variable {ρ α : Type}

def firstOf (columns : List (ρ → Option α)) (r : ρ) : Option α := columns.findSome? fun f => f r

@[simp] theorem firstOf_nil (r : ρ) : firstOf ([] : List (ρ → Option α)) r = none := rfl

theorem firstOf_cons (f : ρ → Option α) (columns : List (ρ → Option α)) (r : ρ) :
    firstOf (f :: columns) r = (f r).or (firstOf columns r) := by
  unfold firstOf
  rw [findSome?_cons]
  cases f r <;> rfl

def leading (columns : List (ρ → Option α)) (r : ρ) : List (ρ → Option α) :=
  columns.takeWhile fun f => (f r).isNone

/-- The first value that an old record has in a column that the new one leaves empty, before its
own first value, is that value. -/
def Agrees (columns : List (ρ → Option α)) (new old : ρ) : Prop :=
  ∀ a ∈ firstOf (leading columns new) old, firstOf columns new = some a

instance [DecidableEq α] (columns : List (ρ → Option α)) (new old : ρ) :
    Decidable (Agrees columns new old) :=
  inferInstanceAs
    (Decidable (∀ a ∈ firstOf (leading columns new) old, firstOf columns new = some a))

def Merges (combine : ρ → ρ → ρ) (columns : List (ρ → Option α)) : Prop :=
  ∀ f ∈ columns, ∀ new old, f (combine new old) = (f new).or (f old)

variable {combine : ρ → ρ → ρ} {columns : List (ρ → Option α)}

theorem Merges.tail {f : ρ → Option α} (h : Merges combine (f :: columns)) : Merges combine columns :=
  fun g hg => h g (mem_cons_of_mem f hg)

theorem Merges.leading (h : Merges combine columns) (r : ρ) : Merges combine (leading columns r) :=
  fun g hg => h g (takeWhile_subset _ hg)

theorem agrees_self (columns : List (ρ → Option α)) (r : ρ) : Agrees columns r r := by
  intro a ha
  obtain ⟨f, hf, hfa⟩ := exists_of_findSome?_eq_some ha
  have hnone := mem_takeWhile_imp hf
  rw [hfa] at hnone
  cases hnone

theorem firstOf_over_iff (h : Merges combine columns) (new old : ρ) :
    firstOf columns (combine new old) = firstOf columns new ↔ Agrees columns new old := by
  induction columns with
  | nil => simp [Agrees, HomefrontFiber.leading]
  | cons f columns ih =>
    have hf := h f mem_cons_self new old
    unfold Agrees HomefrontFiber.leading
    rw [firstOf_cons, firstOf_cons, hf, takeWhile_cons]
    cases hnew : f new with
    | some a => simp
    | none =>
      have htail := ih h.tail
      simp only [isNone_none, if_true, firstOf_cons, none_or]
      cases hold : f old with
      | some a =>
        simp only [some_or, mem_def, Option.some.injEq, forall_eq']
        exact eq_comm
      | none => simpa [Agrees, HomefrontFiber.leading] using htail

theorem firstOf_over_mem (h : Merges combine columns) {new old : ρ} {a : α}
    (ha : firstOf columns (combine new old) = some a) :
    firstOf columns new = some a ∨ firstOf columns old = some a := by
  induction columns with
  | nil => cases ha
  | cons f columns ih =>
    rw [firstOf_cons, h f mem_cons_self] at ha
    rw [firstOf_cons, firstOf_cons]
    cases hnew : f new with
    | some b =>
      rw [hnew] at ha
      exact Or.inl ha
    | none =>
      cases hold : f old with
      | some b =>
        rw [hnew, hold] at ha
        exact Or.inr ha
      | none =>
        rw [hnew, hold] at ha
        exact ih h.tail ha

theorem Agrees.merge (h : Merges combine columns) {r new old : ρ} (hnew : Agrees columns r new)
    (hold : Agrees columns r old) : Agrees columns r (combine new old) := by
  intro a ha
  rcases firstOf_over_mem (h.leading r) ha with ha | ha
  · exact hnew a ha
  · exact hold a ha

end HomefrontFiber
