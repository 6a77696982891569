import Mathlib.Algebra.BigOperators.Group.List.Basic
import Mathlib.Algebra.Order.BigOperators.Group.List
import Mathlib.Algebra.Ring.Int.Defs
import Mathlib.Data.List.Nodup

/-!
# Tables as lists of rows

A table is a list of rows and a key reads a column. `Numbered` is the state of an autoincrement
column in a table that never loses a row.
-/

namespace HomefrontFiber

open List

variable {α κ : Type*} {l : List α}

/-- The keys count the rows from `start`. -/
def NumberedFrom (key : α → Nat) (start : Nat) (l : List α) : Prop :=
  l.map key = List.range' start l.length

def Numbered (key : α → Nat) (l : List α) : Prop := l.map key = List.range' 1 l.length

variable {a : α} {p : α → Bool}

namespace Numbered

variable {key : α → Nat}

theorem nil : Numbered key [] := rfl

section

variable (h : Numbered key l)
include h

theorem nodup : (l.map key).Nodup := h ▸ nodup_range'

theorem eq_of_key {b : α} (ha : a ∈ l) (hb : b ∈ l)
    (hk : key a = key b) : a = b := inj_on_of_nodup_map h.nodup ha hb hk

theorem le_length (ha : a ∈ l) : key a ≤ l.length := by
  have hmem : key a ∈ l.map key := mem_map_of_mem ha
  rw [h, mem_range'_1] at hmem
  omega

theorem pos (ha : a ∈ l) : 0 < key a := by
  have hmem : key a ∈ l.map key := mem_map_of_mem ha
  rw [h, mem_range'_1] at hmem
  exact hmem.1

theorem exists_key {k : Nat} (hpos : 0 < k) (hle : k ≤ l.length) : ∃ a ∈ l, key a = k := by
  have hmem : k ∈ l.map key := by
    rw [h, mem_range'_1]
    omega
  exact mem_map.mp hmem

theorem map {f : α → α} (hf : ∀ a ∈ l, key (f a) = key a) : Numbered key (l.map f) := by
  unfold Numbered
  rw [map_map, length_map, ← h]
  exact map_congr_left hf

end

theorem snoc (h : Numbered key l) {a : α} (ha : key a = l.length + 1) :
    Numbered key (l ++ [a]) := by
  unfold Numbered
  rw [map_append, h, length_append, length_singleton, range'_concat]
  simp [ha, Nat.add_comm]

end Numbered

namespace NumberedFrom

variable {key : α → Nat} {start : Nat}

theorem nil : NumberedFrom key start [] := rfl

theorem cons_iff :
    NumberedFrom key start (a :: l) ↔ key a = start ∧ NumberedFrom key (start + 1) l := by
  simp [NumberedFrom, range'_succ]

theorem le_of_mem (h : NumberedFrom key start l) (ha : a ∈ l) : start ≤ key a := by
  have hmem : key a ∈ l.map key := mem_map_of_mem ha
  rw [h, mem_range'_1] at hmem
  exact hmem.1

theorem take (h : NumberedFrom key start l) (k : Nat) : NumberedFrom key start (l.take k) := by
  induction l generalizing start k with
  | nil => simp [nil]
  | cons a l ih =>
    obtain ⟨ha, hl⟩ := cons_iff.mp h
    cases k with
    | zero => exact nil
    | succ k => exact cons_iff.mpr ⟨ha, ih hl k⟩

theorem filter_lt (h : NumberedFrom key start l) (after : Nat) :
    NumberedFrom key (max start (after + 1)) (l.filter (after < key ·)) := by
  induction l generalizing start with
  | nil => exact nil
  | cons a l ih =>
    obtain ⟨ha, hl⟩ := cons_iff.mp h
    have htail := ih hl
    by_cases hlt : after < key a
    · rw [filter_cons_of_pos (by simpa using hlt), cons_iff]
      have hstart : max start (after + 1) = start := by omega
      have hnext : max (start + 1) (after + 1) = start + 1 := by omega
      rw [hstart]
      exact ⟨ha, hnext ▸ htail⟩
    · rw [filter_cons_of_neg (by simpa using hlt)]
      have hmax : max start (after + 1) = max (start + 1) (after + 1) := by omega
      rw [hmax]
      exact htail

end NumberedFrom

section Lookup

variable [DecidableEq κ] {key : α → κ}

theorem find?_congr {q : α → Bool} (h : ∀ a ∈ l, p a = q a) : l.find? p = l.find? q := by
  induction l with
  | nil => rfl
  | cons a l ih =>
    rw [find?_cons, find?_cons, h a mem_cons_self,
      ih fun b hb => h b (mem_cons_of_mem a hb)]

theorem mem_of_find?_key {k : κ} {a : α} (h : l.find? (key · = k) = some a) : a ∈ l ∧ key a = k :=
  ⟨mem_of_find?_eq_some h, by simpa using find?_some h⟩

theorem find?_key (hnd : (l.map key).Nodup) (ha : a ∈ l) : l.find? (key · = key a) = some a := by
  cases hf : l.find? (key · = key a) with
  | none =>
    have hne := find?_eq_none.mp hf a ha
    simp at hne
  | some b =>
    obtain ⟨hb, hk⟩ := mem_of_find?_key hf
    exact congrArg some (inj_on_of_nodup_map hnd hb ha hk)

theorem find?_key_map {f : α → α} (hf : ∀ a, key (f a) = key a) (k : κ) :
    (l.map f).find? (key · = k) = (l.find? (key · = k)).map f := by
  rw [find?_map]
  congr 2
  funext a
  simp only [Function.comp_apply, hf a]

theorem find?_key_append {k : κ} (h : l.find? (key · = k) = none) :
    (l ++ [a]).find? (key · = k) = if key a = k then some a else none := by
  rw [find?_append, h, Option.none_or]
  by_cases hk : key a = k <;> simp [hk]

theorem nodup_key_snoc (hnd : (l.map key).Nodup)
    (ha : l.find? (key · = key a) = none) : ((l ++ [a]).map key).Nodup := by
  rw [map_append, nodup_append]
  refine ⟨hnd, by simp, ?_⟩
  intro k hk k' hk'
  obtain ⟨b, hb, rfl⟩ := mem_map.mp hk
  have hne : key b ≠ key a := by simpa using find?_eq_none.mp ha b hb
  simp only [map_cons, map_nil, mem_singleton] at hk'
  exact hk' ▸ hne

omit [DecidableEq κ] in
theorem nodup_key_map (hnd : (l.map key).Nodup) {f : α → α} (hf : ∀ a, key (f a) = key a) :
    ((l.map f).map key).Nodup := by
  rw [map_map]
  exact (map_congr_left fun a _ => hf a : l.map (key ∘ f) = l.map key) ▸ hnd

end Lookup

/-- Two selections of a table have the same keys exactly when they select the same rows. -/
theorem perm_filter_key_iff {key : α → κ} (hnd : (l.map key).Nodup) (p q : α → Bool) :
    ((l.filter p).map key).Perm ((l.filter q).map key) ↔ ∀ a ∈ l, p a = q a := by
  have hmem : ∀ (r : α → Bool), ∀ a ∈ l, key a ∈ (l.filter r).map key ↔ r a = true := by
    intro r a ha
    constructor
    · intro hk
      obtain ⟨b, hb, hkey⟩ := mem_map.mp hk
      obtain ⟨hbl, hr⟩ := mem_filter.mp hb
      exact inj_on_of_nodup_map hnd hbl ha hkey ▸ hr
    · exact fun hr => mem_map_of_mem (mem_filter.mpr ⟨ha, hr⟩)
  constructor
  · intro hperm a ha
    rw [Bool.eq_iff_iff, ← hmem p a ha, ← hmem q a ha]
    exact hperm.mem_iff
  · intro hpq
    rw [filter_congr hpq]

section Counts

theorem countP_le_countP_of_key {β : Type*} {m : List β} (key : α → κ) (key' : β → κ)
    {q : β → Bool} (hnd : (l.map key).Nodup)
    (h : ∀ a ∈ l, p a = true → ∃ b ∈ m, key' b = key a ∧ q b = true) :
    l.countP p ≤ m.countP q := by
  have hsub : (l.filter p).map key ⊆ (m.filter q).map key' := by
    intro k hk
    obtain ⟨a, ha, rfl⟩ := mem_map.mp hk
    obtain ⟨hal, hp⟩ := mem_filter.mp ha
    obtain ⟨b, hb, hkey, hq⟩ := h a hal hp
    exact mem_map.mpr ⟨b, mem_filter.mpr ⟨hb, hq⟩, hkey⟩
  have hnd' : ((l.filter p).map key).Nodup := hnd.sublist (filter_sublist.map key)
  have hle := (subperm_of_subset hnd' hsub).length_le
  rw [length_map, length_map] at hle
  rw [countP_eq_length_filter, countP_eq_length_filter]
  exact hle

theorem countP_or_le (p q : α → Bool) (l : List α) :
    l.countP (fun a => p a || q a) ≤ l.countP p + l.countP q := by
  induction l with
  | nil => exact le_rfl
  | cons a l ih =>
    rw [countP_cons, countP_cons, countP_cons]
    cases p a <;> cases q a <;> simp <;> omega

theorem countP_map_le {f : α → α} (h : ∀ a ∈ l, p (f a) = true → p a = true) :
    (l.map f).countP p ≤ l.countP p := by
  rw [countP_map]
  exact countP_mono_left h

end Counts

section Sums

variable [DecidableEq κ] {key : α → κ} {f : α → Int}

theorem sum_map_filter (p : α → Bool) (l : List α) (f : α → Int) :
    ((l.filter p).map f).sum = (l.map fun a => if p a then f a else 0).sum := by
  induction l with
  | nil => rfl
  | cons a l ih => by_cases h : p a <;> simp [h, ih]

theorem sum_map_group {keys : List κ} (hnd : keys.Nodup) (h : ∀ a ∈ l, key a ∈ keys) :
    (l.map f).sum = (keys.map fun k => ((l.filter (key · = k)).map f).sum).sum := by
  induction l with
  | nil => simp
  | cons a l ih =>
    have hcons : ∀ k, (((a :: l).filter (key · = k)).map f).sum =
        (if k = key a then f a else 0) + ((l.filter (key · = k)).map f).sum := by
      intro k
      by_cases hk : key a = k
      · simp [hk]
      · simp [hk, Ne.symm hk]
    rw [map_cons, sum_cons, ih fun b hb => h b (mem_cons_of_mem a hb)]
    simp only [hcons, sum_map_add]
    rw [sum_map_ite_eq, hnd.count, if_pos (h a mem_cons_self)]
    simp

omit [DecidableEq κ] in
theorem sum_map_find? (hone : l.Pairwise fun a b => p a = true → p b = false) (f : α → Int) :
    (l.map f).sum = (l.map fun a => if p a then 0 else f a).sum + ((l.find? p).map f).getD 0 := by
  induction l with
  | nil => rfl
  | cons a l ih =>
    obtain ⟨hfirst, hrest⟩ := pairwise_cons.mp hone
    cases hp : p a with
    | true =>
      have hothers : l.map (fun b => if p b then 0 else f b) = l.map f := by
        apply map_congr_left
        intro b hb
        simp [hfirst b hb hp]
      simp only [map_cons, sum_cons, hp, if_true, find?_cons_of_pos, hothers,
        Option.map_some, Option.getD_some]
      omega
    | false =>
      simp only [map_cons, sum_cons, hp, Bool.false_eq_true, if_false,
        find?_cons_of_neg, not_false_eq_true, ih hrest]
      omega

omit [DecidableEq κ] in
theorem sum_map_filter_add_not (p : α → Bool) (l : List α) (f : α → Int) :
    ((l.filter p).map f).sum + ((l.filter (!p ·)).map f).sum = (l.map f).sum := by
  induction l with
  | nil => rfl
  | cons a l ih =>
    cases hp : p a <;> simp [hp, ← ih] <;> omega

/-- Rows that each find a row of their own which makes up for them do not bring a sum below zero. -/
theorem sum_add_sum_nonneg_of_matching {R : α → α → Prop} {m : List α}
    (hm : ∀ b ∈ m, 0 ≤ f b) (hmatch : ∀ a ∈ l, ∃ b ∈ m, R a b ∧ 0 ≤ f a + f b)
    (hown : l.Pairwise fun a a' => ∀ b ∈ m, R a b → ¬R a' b) :
    0 ≤ (l.map f).sum + (m.map f).sum := by
  induction l generalizing m with
  | nil => simpa using sum_nonneg (by simpa using hm)
  | cons a l ih =>
    obtain ⟨b, hb, hab, hsum⟩ := hmatch a mem_cons_self
    obtain ⟨m₁, m₂, rfl⟩ := append_of_mem hb
    obtain ⟨hfirst, hrest⟩ := pairwise_cons.mp hown
    have hsub : ∀ c ∈ m₁ ++ m₂, c ∈ m₁ ++ b :: m₂ := by
      intro c hc
      simp only [mem_append, mem_cons] at hc ⊢
      tauto
    have hnext : 0 ≤ (l.map f).sum + ((m₁ ++ m₂).map f).sum := by
      apply ih
      · exact fun c hc => hm c (hsub c hc)
      · intro a' ha'
        obtain ⟨c, hc, hac, hle⟩ := hmatch a' (mem_cons_of_mem a ha')
        refine ⟨c, ?_, hac, hle⟩
        have hne : c ≠ b := by
          rintro rfl
          exact hfirst a' ha' c hb hab hac
        simp only [mem_append, mem_cons] at hc ⊢
        tauto
      · exact hrest.imp fun hpair c hc => hpair c (hsub c hc)
    simp only [map_append, map_cons, sum_append, sum_cons] at hnext ⊢
    omega

end Sums

end HomefrontFiber
