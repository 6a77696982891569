import Mathlib.Data.List.Basic

/-!
# Runs of a state machine

A machine is a function `step` that takes a state and an action to the next state. A run applies
a list of actions. `Along cond` says that every step of a run starts in a state where `cond`
holds of the action, and `run_invariant` turns a preservation lemma for such steps into an
invariant of the run.
-/

namespace HomefrontFiber

open List

section Machine

variable {σ α : Type} (step : σ → α → σ)

def run (s : σ) (as : List α) : σ := as.foldl step s

/-- Every action of the run is taken in a state where `cond` holds of it. -/
def Along (cond : σ → α → Prop) : σ → List α → Prop
  | _, [] => True
  | s, a :: as => cond s a ∧ Along cond (step s a) as

@[simp] theorem run_nil (s : σ) : run step s [] = s := rfl

@[simp] theorem run_cons (s : σ) (a : α) (as : List α) :
    run step s (a :: as) = run step (step s a) as := rfl

theorem run_append (s : σ) (as bs : List α) :
    run step s (as ++ bs) = run step (run step s as) bs := foldl_append

variable {step}

instance decidableAlong (cond : σ → α → Prop) [∀ s a, Decidable (cond s a)] :
    ∀ (s : σ) (as : List α), Decidable (Along step cond s as)
  | _, [] => inferInstanceAs (Decidable True)
  | s, a :: as =>
    have := decidableAlong cond (step s a) as
    inferInstanceAs (Decidable (_ ∧ _))

@[simp] theorem along_nil (cond : σ → α → Prop) (s : σ) : Along step cond s [] := trivial

variable {s : σ} {as : List α} {cond' : σ → α → Prop} {p : α → Prop} {I : σ → Prop}
  {R : σ → σ → Prop}

theorem along_cons {cond : σ → α → Prop} {a : α} :
    Along step cond s (a :: as) ↔ cond s a ∧ Along step cond (step s a) as := Iff.rfl

theorem Along.mono {cond : σ → α → Prop} (h : ∀ s a, cond s a → cond' s a)
    (hs : Along step cond s as) : Along step cond' s as := by
  induction as generalizing s with
  | nil => trivial
  | cons a as ih => exact ⟨h s a hs.1, ih hs.2⟩

theorem Along.and_forall {cond : σ → α → Prop} (h : Along step cond s as) (hp : ∀ a ∈ as, p a) :
    Along step (fun s a => cond s a ∧ p a) s as := by
  induction as generalizing s with
  | nil => trivial
  | cons a as ih =>
    have htail : ∀ b ∈ as, p b := fun b hb => hp b (mem_cons_of_mem a hb)
    exact ⟨⟨h.1, hp a mem_cons_self⟩, ih h.2 htail⟩

theorem along_of_forall (hp : ∀ a ∈ as, p a) : Along step (fun _ a => p a) s as := by
  induction as generalizing s with
  | nil => trivial
  | cons a as ih => exact ⟨hp a mem_cons_self, ih fun b hb => hp b (mem_cons_of_mem a hb)⟩

theorem along_congr {cond : σ → α → Prop}
    (hstep : ∀ s a, I s → I (step s a)) (h : ∀ s a, I s → (cond s a ↔ cond' s a))
    (hs : I s) (as : List α) : Along step cond s as ↔ Along step cond' s as := by
  induction as generalizing s with
  | nil => exact Iff.rfl
  | cons a as ih => exact and_congr (h s a hs) (ih (hstep s a hs))

/-- What an invariant and the condition of a run imply of each step holds along the run. -/
theorem Along.imp_of_invariant {cond : σ → α → Prop}
    (hstep : ∀ s a, I s → cond s a → I (step s a)) (himp : ∀ s a, I s → cond s a → cond' s a)
    (hs : I s) (h : Along step cond s as) : Along step cond' s as := by
  induction as generalizing s with
  | nil => trivial
  | cons a as ih => exact ⟨himp s a hs h.1, ih (hstep s a hs h.1) h.2⟩

theorem along_and {cond : σ → α → Prop} :
    Along step (fun s a => cond s a ∧ cond' s a) s as ↔
      Along step cond s as ∧ Along step cond' s as := by
  induction as generalizing s with
  | nil => exact (and_self_iff).symm
  | cons a as ih =>
    rw [along_cons, along_cons, along_cons, ih]
    exact and_and_and_comm

theorem along_append {cond : σ → α → Prop} {bs : List α} :
    Along step cond s (as ++ bs) ↔ Along step cond s as ∧ Along step cond (run step s as) bs := by
  induction as generalizing s with
  | nil => exact ⟨fun h => ⟨trivial, h⟩, fun h => h.2⟩
  | cons a as ih =>
    rw [cons_append, along_cons, along_cons, ih, run_cons, and_assoc]

/-- A property that every step allowed by `cond` preserves holds at the end of every run whose
steps `cond` allows. -/
theorem run_invariant {I : σ → Prop} {cond : σ → α → Prop}
    (hstep : ∀ s a, I s → cond s a → I (step s a)) {s : σ} {as : List α} (hs : I s)
    (h : Along step cond s as) : I (run step s as) := by
  induction as generalizing s with
  | nil => exact hs
  | cons a as ih => exact ih (hstep s a hs h.1) h.2

theorem run_invariant_all {I : σ → Prop} (hstep : ∀ s a, I s → I (step s a)) {s : σ}
    (as : List α) (hs : I s) : I (run step s as) := by
  induction as generalizing s with
  | nil => exact hs
  | cons a as ih => exact ih (hstep s a hs)

/-- The states that a run passes through, after each of its actions. -/
def trace (step : σ → α → σ) : σ → List α → List σ
  | _, [] => []
  | s, a :: as => step s a :: trace step (step s a) as

/-- A transitive relation between a state and its successor holds between all earlier and later
states of a run. -/
theorem trace_pairwise (hI : ∀ s a, I s → I (step s a))
    (hR : ∀ s a, I s → R s (step s a)) (htrans : ∀ {s t u}, R s t → R t u → R s u)
    (as : List α) (hs : I s) : (trace step s as).Pairwise R := by
  have hreach : ∀ (as : List α) (s : σ), I s → ∀ t ∈ trace step s as, R s t := by
    intro as
    induction as with
    | nil => exact fun s _ t ht => absurd ht not_mem_nil
    | cons a as ih =>
      intro s hs t ht
      rcases mem_cons.mp ht with rfl | ht
      · exact hR s a hs
      · exact htrans (hR s a hs) (ih (step s a) (hI s a hs) t ht)
  induction as generalizing s with
  | nil => exact List.Pairwise.nil
  | cons a as ih =>
    exact List.Pairwise.cons (hreach as (step s a) (hI s a hs)) (ih (hI s a hs))

/-- A transitive relation holds between all earlier and later states of a run, the first included,
exactly when every step keeps it. -/
theorem pairwise_trace_iff (htrans : ∀ {s t u}, R s t → R t u → R s u) (s : σ) (as : List α) :
    (s :: trace step s as).Pairwise R ↔ Along step (fun s a => R s (step s a)) s as := by
  induction as generalizing s with
  | nil => simp [trace]
  | cons a as ih =>
    rw [trace, pairwise_cons, ih, along_cons]
    constructor
    · intro h
      exact ⟨h.1 (step s a) mem_cons_self, h.2⟩
    · intro h
      refine ⟨fun t ht => ?_, h.2⟩
      rcases mem_cons.mp ht with rfl | ht
      · exact h.1
      · have htail := (ih (step s a)).mpr h.2
        exact htrans h.1 (rel_of_pairwise_cons htail ht)

theorem trace_along {cond : σ → α → Prop} (hstep : ∀ s a, I s → cond s a → I (step s a)) (hs : I s)
    (h : Along step cond s as) : ∀ t ∈ trace step s as, I t := by
  induction as generalizing s with
  | nil => exact fun t ht => absurd ht not_mem_nil
  | cons a as ih =>
    have hnext : I (step s a) := hstep s a hs h.1
    intro t ht
    rcases mem_cons.mp ht with rfl | ht
    · exact hnext
    · exact ih hnext h.2 t ht

/-- A property that a step keeps exactly when a condition allows it holds all along a run exactly
when the condition does. -/
theorem forall_trace_iff {J : σ → Prop} {cond : σ → α → Prop} (hI : ∀ s a, I s → I (step s a))
    (hJ : ∀ s a, I s → J s → (J (step s a) ↔ cond s a)) (hs : I s) (hj : J s)
    (as : List α) : (∀ t ∈ trace step s as, J t) ↔ Along step cond s as := by
  induction as generalizing s with
  | nil => simp [trace]
  | cons a as ih =>
    rw [trace, forall_mem_cons, along_cons]
    constructor
    · intro h
      exact ⟨(hJ s a hs hj).mp h.1, (ih (hI s a hs) h.1).mp h.2⟩
    · intro h
      have hnext : J (step s a) := (hJ s a hs hj).mpr h.1
      exact ⟨hnext, (ih (hI s a hs) hnext).mpr h.2⟩

theorem foldl_induction {β : Type} {f : σ → β → σ} {I : List β → σ → Prop}
    (hstep : ∀ b l s, I (b :: l) s → I l (f s b)) {l : List β} (hs : I l s) :
    I [] (l.foldl f s) := by
  induction l generalizing s with
  | nil => exact hs
  | cons b l ih => exact ih (hstep b l s hs)

end Machine

end HomefrontFiber
