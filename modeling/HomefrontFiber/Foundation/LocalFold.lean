import Mathlib.Data.List.Nodup

/-!
# Folding steps that each touch one place

A step for an entry changes only what is seen at the entry's own key. After a fold over entries
with distinct keys, what is seen at a key is what the one step there made of it, whatever the
order of the entries.
-/

namespace HomefrontFiber

variable {σ α κ γ : Type*}

/-- Steps that keep an invariant and leave the views at other keys alone. -/
structure LocalSteps (key : α → κ) (inv : σ → Prop) (view : σ → κ → γ) (step : σ → α → σ) :
    Prop where
  keeps : ∀ {s : σ} (a : α), inv s → inv (step s a)
  apart : ∀ {s : σ} {a : α} {k : κ}, inv s → key a ≠ k → view (step s a) k = view s k

namespace LocalSteps

variable {key : α → κ} {inv : σ → Prop} {view : σ → κ → γ} {step : σ → α → σ}

theorem foldl_keeps (h : LocalSteps key inv view step) {s : σ} (hs : inv s) (l : List α) :
    inv (l.foldl step s) := by
  induction l generalizing s with
  | nil => exact hs
  | cons a l ih => exact ih (h.keeps a hs)

theorem foldl_apart (h : LocalSteps key inv view step) {s : σ} (hs : inv s) {l : List α} {k : κ}
    (hk : ∀ a ∈ l, key a ≠ k) : view (l.foldl step s) k = view s k := by
  induction l generalizing s with
  | nil => rfl
  | cons a l ih =>
    rw [List.foldl_cons, ih (h.keeps a hs) fun b hb => hk b (List.mem_cons_of_mem a hb)]
    exact h.apart hs (hk a List.mem_cons_self)

/-- What the fold leaves at the key of an entry is what its step made there, from a state that
had at this key what the first state had. -/
theorem foldl_at (h : LocalSteps key inv view step) {s : σ} (hs : inv s) {l : List α}
    (hnd : (l.map key).Nodup) {a : α} (ha : a ∈ l) :
    ∃ s', inv s' ∧ view s' (key a) = view s (key a) ∧
      view (l.foldl step s) (key a) = view (step s' a) (key a) := by
  induction l generalizing s with
  | nil => cases ha
  | cons b l ih =>
    obtain ⟨hb, hnd⟩ := List.nodup_cons.mp hnd
    rcases List.mem_cons.mp ha with rfl | ha
    · refine ⟨s, hs, rfl, ?_⟩
      apply h.foldl_apart (h.keeps a hs)
      intro c hc hkey
      exact hb (hkey ▸ List.mem_map_of_mem hc)
    · obtain ⟨s', hs', hbefore, hafter⟩ := ih (h.keeps b hs) hnd ha
      refine ⟨s', hs', hbefore.trans ?_, hafter⟩
      apply h.apart hs
      intro hkey
      exact hb (hkey ▸ List.mem_map_of_mem ha)

end LocalSteps

end HomefrontFiber
