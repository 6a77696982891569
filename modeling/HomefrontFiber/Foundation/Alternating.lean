import Mathlib.Algebra.BigOperators.Group.List.Basic
import Mathlib.Algebra.Ring.Int.Defs
import Mathlib.Data.List.Nodup

/-!
# Histories that alternate between opening and closing

A history is a list to which openings and closings are appended in turn. `Closed R` says that it
consists of couples, an opening and the closing that answers it, related by `R`; `Opened P R` that
one more opening, with `P`, stands unanswered at its end.
-/

namespace HomefrontFiber.Alternating

open List

variable {α β : Type*} {P P' : α → Prop} {R R' : α → α → Prop} {l : List α}

/-- A list of couples related by `R`. -/
inductive Closed (R : α → α → Prop) : List α → Prop
  | nil : Closed R []
  | couple {h : List α} {e c : α} : Closed R h → R e c → Closed R (h ++ [e, c])

def Opened (P : α → Prop) (R : α → α → Prop) (l : List α) : Prop :=
  ∃ h e, Closed R h ∧ P e ∧ l = h ++ [e]

def Alternates (P : α → Prop) (R : α → α → Prop) (l : List α) : Prop :=
  Closed R l ∨ Opened P R l

theorem Closed.length_even (h : Closed R l) : l.length % 2 = 0 := by
  induction h with
  | nil => rfl
  | couple _ _ ih =>
    rw [length_append]
    simp only [length_cons, length_nil]
    omega

theorem Opened.length_odd (h : Opened P R l) : l.length % 2 = 1 := by
  obtain ⟨h, e, hc, _, rfl⟩ := h
  have := hc.length_even
  rw [length_append, length_singleton]
  omega

theorem Alternates.closed (h : Alternates P R l) (hl : l.length % 2 ≠ 1) : Closed R l :=
  h.resolve_right fun ho => hl ho.length_odd

theorem Alternates.opened (h : Alternates P R l) (hl : l.length % 2 ≠ 0) : Opened P R l :=
  h.resolve_left fun hc => hl hc.length_even

theorem Closed.map {R' : β → β → Prop} {f : α → β} (h : Closed R l)
    (hR : ∀ e ∈ l, ∀ c ∈ l, R e c → R' (f e) (f c)) : Closed R' (l.map f) := by
  induction h with
  | nil => exact Closed.nil
  | @couple h e c _ hec ih =>
    rw [map_append]
    refine Closed.couple (ih fun e' he' c' hc' => ?_) (hR e (by simp) c (by simp) hec)
    exact hR e' (mem_append_left _ he') c' (mem_append_left _ hc')

theorem Opened.map {P' : β → Prop} {R' : β → β → Prop} {f : α → β} (h : Opened P R l)
    (hP : ∀ e ∈ l, P e → P' (f e)) (hR : ∀ e ∈ l, ∀ c ∈ l, R e c → R' (f e) (f c)) :
    Opened P' R' (l.map f) := by
  obtain ⟨h, e, hc, he, rfl⟩ := h
  refine ⟨h.map f, f e, hc.map fun e' he' c' hc' => ?_, hP e (by simp) he, by simp⟩
  exact hR e' (mem_append_left _ he') c' (mem_append_left _ hc')

theorem Alternates.map {P' : β → Prop} {R' : β → β → Prop} {f : α → β} (h : Alternates P R l)
    (hP : ∀ e ∈ l, P e → P' (f e)) (hR : ∀ e ∈ l, ∀ c ∈ l, R e c → R' (f e) (f c)) :
    Alternates P' R' (l.map f) :=
  h.imp (fun hc => hc.map hR) fun ho => ho.map hP hR

theorem Closed.open (h : Closed R l) {e : α} (he : P e) : Alternates P R (l ++ [e]) :=
  Or.inr ⟨l, e, h, he, rfl⟩

theorem Closed.sum_eq_zero (h : Closed R l) {f : α → Int}
    (hf : ∀ e ∈ l, ∀ c ∈ l, R e c → f e + f c = 0) : (l.map f).sum = 0 := by
  induction h with
  | nil => rfl
  | @couple h e c _ hec ih =>
    have hrest : (h.map f).sum = 0 := ih fun e' he' c' hc' =>
      hf e' (mem_append_left _ he') c' (mem_append_left _ hc')
    simp only [map_append, sum_append, hrest, map_cons, map_nil,
      sum_cons, sum_nil, add_zero, zero_add]
    exact hf e (by simp) c (by simp) hec

end HomefrontFiber.Alternating
