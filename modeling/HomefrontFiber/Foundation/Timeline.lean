import Mathlib.Data.List.Sort
import Mathlib.Order.WithBot

/-!
# Timelines that are read from unordered entries

An entry says what holds from its date on, and a newer entry cancels the older ones that are dated
after it. A reader that drops the cancelled entries, newest first, and takes the latest of the rest
that has begun finds the newest entry that has begun.
-/

namespace HomefrontFiber.Timeline

open List

variable {α τ σ : Type} [LinearOrder τ] [LinearOrder σ] (eff : α → τ) (seq : α → σ)

/-- Newest first, the entries that are not dated after a newer one. `earliest` is the least date
passed so far. -/
def sweep : WithTop τ → List α → List α
  | _, [] => []
  | earliest, e :: rest =>
    if earliest < eff e then sweep earliest rest
    else e :: sweep (if eff e < earliest then eff e else earliest) rest

/-- The later of the best entry so far and one that has begun at `t`, the newer one on a tie. -/
def better (t : τ) (best : Option α) (e : α) : Option α :=
  match best with
  | none => if eff e ≤ t then some e else none
  | some b => if eff e ≤ t ∧ (eff b < eff e ∨ eff e = eff b ∧ seq b < seq e) then some e else some b

/-- The entry in force at `t`. -/
def inForce (t : τ) (entries : List α) : Option α :=
  (sweep eff ⊤ (entries.insertionSort fun a b => seq b ≤ seq a)).foldl (better eff seq t) none

variable {eff seq} {t : τ} {entries : List α}

theorem foldl_sweep_some {b : α} {earliest : WithTop τ} (hdate : earliest ≤ eff b)
    (holder : ∀ e ∈ entries, seq e < seq b) :
    (sweep eff earliest entries).foldl (better eff seq t) (some b) = some b := by
  induction entries generalizing earliest with
  | nil => rfl
  | cons e rest ih =>
    have hrest : ∀ e ∈ rest, seq e < seq b := fun e he => holder e (mem_cons_of_mem _ he)
    unfold sweep
    by_cases hlater : earliest < eff e
    · rw [if_pos hlater]
      exact ih hdate hrest
    · rw [if_neg hlater, foldl_cons]
      have hle : (eff e : WithTop τ) ≤ eff b := (not_lt.mp hlater).trans hdate
      have hle' : eff e ≤ eff b := WithTop.coe_le_coe.mp hle
      have hseq := holder e mem_cons_self
      have hkeep : better eff seq t (some b) e = some b := by
        unfold better
        dsimp only
        rw [if_neg]
        rintro ⟨-, hlt | ⟨-, hlt⟩⟩
        · exact absurd hle' (not_le.mpr hlt)
        · exact absurd hseq (not_lt.mpr hlt.le)
      rw [hkeep]
      apply ih _ hrest
      split
      · exact hle
      · exact hdate

theorem foldl_sweep_none {earliest : WithTop τ} (hdate : t < earliest)
    (hsorted : entries.Pairwise fun a b => seq b < seq a) :
    (sweep eff earliest entries).foldl (better eff seq t) none =
      entries.find? (eff · ≤ t) := by
  induction entries generalizing earliest with
  | nil => rfl
  | cons e rest ih =>
    obtain ⟨holder, hrest⟩ := pairwise_cons.mp hsorted
    unfold sweep
    by_cases hbegun : eff e ≤ t
    · have hcoe : (eff e : WithTop τ) < earliest := (WithTop.coe_le_coe.mpr hbegun).trans_lt hdate
      rw [if_neg hcoe.not_gt, if_pos hcoe, foldl_cons, find?_cons_of_pos (by simpa)]
      have hbest : better eff seq t none e = some e := if_pos hbegun
      rw [hbest]
      exact foldl_sweep_some le_rfl holder
    · rw [find?_cons_of_neg (by simpa using hbegun)]
      by_cases hlater : earliest < eff e
      · rw [if_pos hlater]
        exact ih hdate hrest
      · rw [if_neg hlater, foldl_cons]
        have hbest : better eff seq t none e = none := if_neg hbegun
        rw [hbest]
        apply ih _ hrest
        split
        · exact WithTop.coe_lt_coe.mpr (not_le.mp hbegun)
        · exact hdate

theorem orderedInsert_last {r : α → α → Prop} [DecidableRel r] {a : α} {l : List α}
    (h : ∀ b ∈ l, ¬ r a b) : l.orderedInsert r a = l ++ [a] := by
  induction l with
  | nil => rfl
  | cons b l ih =>
    have hrest := ih fun c hc => h c (mem_cons_of_mem _ hc)
    rw [List.orderedInsert, if_neg (h b mem_cons_self), hrest, cons_append]

theorem insertionSort_reverse (h : entries.Pairwise fun a b => seq a < seq b) :
    entries.insertionSort (fun a b => seq b ≤ seq a) = entries.reverse := by
  induction entries with
  | nil => rfl
  | cons e rest ih =>
    obtain ⟨hnewer, hrest⟩ := pairwise_cons.mp h
    rw [insertionSort_cons, ih hrest, reverse_cons]
    exact orderedInsert_last fun b hb => not_le.mpr (hnewer b (mem_reverse.mp hb))

theorem inForce_eq (h : entries.Pairwise fun a b => seq a < seq b) (t : τ) :
    inForce eff seq t entries = entries.reverse.find? (eff · ≤ t) := by
  unfold inForce
  rw [insertionSort_reverse h]
  exact foldl_sweep_none (WithTop.coe_lt_top t) (pairwise_reverse.mpr h)

end HomefrontFiber.Timeline
