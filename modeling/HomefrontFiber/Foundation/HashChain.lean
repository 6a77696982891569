import Mathlib.Data.List.Nodup
import Mathlib.Data.List.Dedup

/-!
# Chains of linked entries

An entry has a key and may name the key of its predecessor. `Chained` is a list whose entries name
the one before them. A check of the links alone counts roots, orphans, branches and tips; `Shape`
says what a table that passes it looks like.
-/

namespace HomefrontFiber.HashChain

open List

variable {α κ : Type} [DecidableEq κ] (key : α → κ) (prev : α → Option κ)

/-- Each entry names the one before it, and the first names none. -/
inductive Chained : List α → Prop
  | nil : Chained []
  | snoc {l : List α} {e : α} (h : Chained l) (he : prev e = l.getLast?.map key) :
      Chained (l ++ [e])

def roots (l : List α) : List α := l.filter fun e => prev e = none

def orphans (l : List α) : List α :=
  l.filter fun e => (prev e).isSome && !l.any fun p => prev e = some (key p)

def branches (l : List α) : List κ :=
  (l.filterMap prev).dedup.filter fun k => 1 < (l.filterMap prev).count k

def tips (l : List α) : List α := l.filter fun e => !l.any fun c => prev c = some (key e)

/-- One root, no orphan, no branch, and the head as the one tip. -/
structure Shape (isHead : α → Prop) (l : List α) : Prop where
  root : ∃ e ∈ l, prev e = none ∧ ∀ e' ∈ l, prev e' = none → e' = e
  closed : ∀ e ∈ l, ∀ k, prev e = some k → ∃ p ∈ l, key p = k
  single : ∀ e ∈ l, ∀ e' ∈ l, ∀ k, prev e = some k → prev e' = some k → e = e'
  tip : ∃ e ∈ l, isHead e ∧ (∀ c ∈ l, prev c ≠ some (key e)) ∧
    ∀ e' ∈ l, (∀ c ∈ l, prev c ≠ some (key e')) → e' = e

variable {key prev} {l : List α}

theorem filter_eq_singleton_iff (hl : l.Nodup) {p : α → Bool} {a : α} :
    l.filter p = [a] ↔ a ∈ l ∧ p a = true ∧ ∀ b ∈ l, p b = true → b = a := by
  constructor
  · intro h
    have hmem : ∀ b, b ∈ l ∧ p b = true ↔ b = a := by
      intro b
      rw [← mem_filter, h, mem_singleton]
    obtain ⟨ha, hpa⟩ := (hmem a).mpr rfl
    exact ⟨ha, hpa, fun b hb hpb => (hmem b).mp ⟨hb, hpb⟩⟩
  · rintro ⟨ha, hpa, hall⟩
    have hin : a ∈ l.filter p := mem_filter.mpr ⟨ha, hpa⟩
    have honly : ∀ b ∈ l.filter p, b = a := by
      intro b hb
      obtain ⟨hmem, hpb⟩ := mem_filter.mp hb
      exact hall b hmem hpb
    have hnd := hl.filter p
    rw [eq_replicate_of_mem honly] at hnd hin ⊢
    have hlen : (l.filter p).length = 1 := by
      have hle := nodup_replicate.mp hnd
      have hpos : (l.filter p).length ≠ 0 := by
        intro hzero
        rw [hzero] at hin
        cases hin
      omega
    rw [hlen]
    rfl

theorem branches_eq_nil_iff : branches prev l = [] ↔ (l.filterMap prev).Nodup := by
  rw [branches, filter_eq_nil_iff, nodup_iff_count_le_one]
  constructor
  · intro h k
    by_cases hk : k ∈ l.filterMap prev
    · have hle := h k (mem_dedup.mpr hk)
      simpa using hle
    · rw [count_eq_zero_of_not_mem hk]
      exact Nat.zero_le 1
  · intro h k _
    simpa using h k

omit [DecidableEq κ] in
theorem nodup_filterMap_iff (hl : l.Nodup) : (l.filterMap prev).Nodup ↔
    ∀ e ∈ l, ∀ e' ∈ l, ∀ k, prev e = some k → prev e' = some k → e = e' := by
  rw [List.Nodup, pairwise_filterMap]
  constructor
  · intro h e he e' he' k hk hk'
    by_contra hne
    have hpair : l.Pairwise fun a b => a ≠ b → ∀ k, prev a = some k → prev b ≠ some k := by
      apply h.imp
      intro a b hab _ k hk hk'
      exact hab k hk k hk' rfl
    have hflip : l.Pairwise fun b a => a ≠ b → ∀ k, prev a = some k → prev b ≠ some k := by
      apply hpair.imp
      intro a b hab hne k hk hk'
      exact hab hne.symm k hk' hk
    exact hpair.forall_of_forall_of_flip (fun _ _ hself => absurd rfl hself) hflip he he' hne k hk
      hk'
  · intro h
    apply hl.imp_of_mem
    intro a b ha hb hne k hk k' hk' heq
    exact hne (h a ha b hb k hk (heq ▸ hk'))

theorem shape_iff (hl : l.Nodup) {isHead : α → Prop} :
    Shape key prev isHead l ↔ (roots prev l).length = 1 ∧ orphans key prev l = [] ∧
      branches prev l = [] ∧ ∃ e, tips key prev l = [e] ∧ isHead e := by
  have hroot : (roots prev l).length = 1 ↔
      ∃ e ∈ l, prev e = none ∧ ∀ e' ∈ l, prev e' = none → e' = e := by
    rw [length_eq_one_iff]
    apply exists_congr
    intro e
    rw [roots, filter_eq_singleton_iff hl]
    simp
  have horphan : orphans key prev l = [] ↔
      ∀ e ∈ l, ∀ k, prev e = some k → ∃ p ∈ l, key p = k := by
    rw [orphans, filter_eq_nil_iff]
    apply forall₂_congr
    intro e _
    cases hprev : prev e with
    | none => simp
    | some k =>
      constructor
      · intro h k' hk'
        cases hk'
        by_contra hno
        apply h
        simp only [Option.isSome_some, Bool.true_and, Bool.not_eq_true', any_eq_false,
          decide_eq_true_eq, Option.some.injEq]
        intro p hp heq
        exact hno ⟨p, hp, heq.symm⟩
      · intro h hne
        obtain ⟨p, hp, hk⟩ := h k rfl
        simp only [Option.isSome_some, Bool.true_and, Bool.not_eq_true', any_eq_false,
          decide_eq_true_eq, Option.some.injEq] at hne
        exact hne p hp hk.symm
  have htip : ∀ e, tips key prev l = [e] ↔ e ∈ l ∧ (∀ c ∈ l, prev c ≠ some (key e)) ∧
      ∀ e' ∈ l, (∀ c ∈ l, prev c ≠ some (key e')) → e' = e := by
    intro e
    rw [tips, filter_eq_singleton_iff hl]
    simp
  constructor
  · intro h
    refine ⟨hroot.mpr h.root, horphan.mpr h.closed, ?_, ?_⟩
    · exact branches_eq_nil_iff.mpr ((nodup_filterMap_iff hl).mpr h.single)
    · obtain ⟨e, he, hhead, hchild, honly⟩ := h.tip
      exact ⟨e, (htip e).mpr ⟨he, hchild, honly⟩, hhead⟩
  · rintro ⟨hr, ho, hb, e, ht, hhead⟩
    constructor
    · exact hroot.mp hr
    · exact horphan.mp ho
    · exact (nodup_filterMap_iff hl).mp (branches_eq_nil_iff.mp hb)
    · obtain ⟨he, hchild, honly⟩ := (htip e).mp ht
      exact ⟨e, he, hhead, hchild, honly⟩

section Chain

omit [DecidableEq κ]

theorem Chained.mem_of_prev (h : Chained key prev l) {e : α} (he : e ∈ l) {k : κ}
    (hk : prev e = some k) : ∃ p ∈ l, key p = k := by
  induction h with
  | nil => cases he
  | @snoc l e' _ hlast ih =>
    rcases mem_append.mp he with he | he
    · obtain ⟨p, hp, hkey⟩ := ih he
      exact ⟨p, mem_append_left _ hp, hkey⟩
    · rw [mem_singleton.mp he, hlast] at hk
      obtain ⟨p, hp, hkey⟩ := Option.map_eq_some_iff.mp hk
      exact ⟨p, mem_append_left _ (mem_of_getLast? hp), hkey⟩

theorem Chained.exists_child (h : Chained key prev l) {e : α} (he : e ∈ l)
    (hne : l.getLast? ≠ some e) : ∃ c ∈ l, prev c = some (key e) := by
  induction h with
  | nil => cases he
  | @snoc l e' _ hlast ih =>
    rw [getLast?_concat] at hne
    rcases mem_append.mp he with he | he
    · by_cases hend : l.getLast? = some e
      · refine ⟨e', by simp, ?_⟩
        rw [hlast, hend]
        rfl
      · obtain ⟨c, hc, hkey⟩ := ih he hend
        exact ⟨c, mem_append_left _ hc, hkey⟩
    · rw [mem_singleton.mp he] at hne
      exact absurd rfl hne

/-- A property that passes from an entry to the one it names holds of a whole chain if it holds
of the last one. -/
theorem Chained.forall_of_last {p : α → Prop} (h : Chained key prev l)
    (hlast : ∀ e, l.getLast? = some e → p e)
    (hprev : ∀ e ∈ l, p e → ∀ e' ∈ l, prev e = some (key e') → p e') : ∀ e ∈ l, p e := by
  induction h with
  | nil => exact fun e he => absurd he not_mem_nil
  | @snoc l e _ he ih =>
    have hpe : p e := hlast e getLast?_concat
    have hall : ∀ a ∈ l, p a := by
      apply ih
      · intro a ha
        have hmem := mem_of_getLast? ha
        apply hprev e (by simp) hpe a (mem_append_left _ hmem)
        rw [he, ha]
        rfl
      · intro a ha hpa b hb
        exact hprev a (mem_append_left _ ha) hpa b (mem_append_left _ hb)
    intro a ha
    rcases mem_append.mp ha with ha | ha
    · exact hall a ha
    · rw [mem_singleton.mp ha]
      exact hpe

theorem Chained.links (h : Chained key prev l) (hk : (l.map key).Nodup) :
    (l.map prev).Nodup ∧ ∀ e, l.getLast? = some e → ∀ c ∈ l, prev c ≠ some (key e) := by
  induction h with
  | nil => exact ⟨nodup_nil, fun _ h => nomatch h⟩
  | @snoc l e h he ih =>
    rw [map_append, nodup_append] at hk
    obtain ⟨hkl, -, hfresh⟩ := hk
    obtain ⟨hlinks, hlast⟩ := ih hkl
    have hne : ∀ a ∈ l, key a ≠ key e := fun a ha =>
      hfresh (key a) (mem_map_of_mem ha) (key e) (by simp)
    constructor
    · rw [map_append, nodup_append]
      refine ⟨hlinks, nodup_singleton _, ?_⟩
      intro p hp q hq heq
      obtain ⟨a, ha, rfl⟩ := mem_map.mp hp
      rw [map_singleton, mem_singleton] at hq
      rw [hq, he] at heq
      cases hend : l.getLast? with
      | none =>
        rw [getLast?_eq_none_iff.mp hend] at ha
        cases ha
      | some last =>
        rw [hend] at heq
        exact hlast last hend a ha heq
    · intro last hend c hc hprev
      rw [getLast?_concat] at hend
      cases hend
      rcases mem_append.mp hc with hc | hc
      · obtain ⟨p, hp, hkey⟩ := h.mem_of_prev hc hprev
        exact hne p hp hkey
      · rw [mem_singleton.mp hc, he] at hprev
        obtain ⟨p, hp, hkey⟩ := Option.map_eq_some_iff.mp hprev
        exact hne p (mem_of_getLast? hp) hkey

theorem Chained.single (h : Chained key prev l) (hk : (l.map key).Nodup) {a b : α} (ha : a ∈ l)
    (hb : b ∈ l) (hab : prev a = prev b) : a = b :=
  inj_on_of_nodup_map (h.links hk).1 ha hb hab

theorem Chained.exists_root (h : Chained key prev l) (hne : l ≠ []) : ∃ e ∈ l, prev e = none := by
  induction h with
  | nil => exact absurd rfl hne
  | @snoc l e _ he ih =>
    by_cases hnil : l = []
    · refine ⟨e, by simp, ?_⟩
      rw [he, hnil]
      rfl
    · obtain ⟨r, hr, hroot⟩ := ih hnil
      exact ⟨r, mem_append_left _ hr, hroot⟩

theorem Chained.prev_ne (h : Chained key prev l) (hk : (l.map key).Nodup) {e : α} (he : e ∈ l) :
    prev e ≠ some (key e) := by
  induction h with
  | nil => cases he
  | @snoc l e' _ hlast ih =>
    rw [map_append, nodup_append] at hk
    obtain ⟨hkl, -, hfresh⟩ := hk
    rcases mem_append.mp he with he | he
    · exact ih hkl he
    · rw [mem_singleton.mp he, hlast]
      intro hself
      obtain ⟨p, hp, hkey⟩ := Option.map_eq_some_iff.mp hself
      have hmem := mem_map_of_mem (f := key) (mem_of_getLast? hp)
      exact hfresh (key p) hmem (key e') (by simp) hkey

theorem Chained.shape (h : Chained key prev l) (hk : (l.map key).Nodup) {isHead : α → Prop}
    {last : α} (hlast : l.getLast? = some last) (hhead : isHead last) :
    Shape key prev isHead l := by
  have hmem := mem_of_getLast? hlast
  constructor
  · obtain ⟨r, hr, hroot⟩ := h.exists_root (ne_nil_of_mem hmem)
    exact ⟨r, hr, hroot, fun e he hnone => h.single hk he hr (hnone.trans hroot.symm)⟩
  · exact fun e he k hprev => h.mem_of_prev he hprev
  · exact fun e he e' he' k hprev hprev' => h.single hk he he' (hprev.trans hprev'.symm)
  · refine ⟨last, hmem, hhead, (h.links hk).2 last hlast, ?_⟩
    intro e he hchild
    by_contra hne
    have hend : l.getLast? ≠ some e := by
      rw [hlast]
      exact fun heq => hne (Option.some.inj heq).symm
    obtain ⟨c, hc, hprev⟩ := h.exists_child he hend
    exact hchild c hc hprev

variable {isHead : α → Prop} {last : α}

theorem Chained.eq_of_shape_filter (h : Chained key prev l) (hk : (l.map key).Nodup)
    (hlast : l.getLast? = some last) (hhead : ∀ e ∈ l, isHead e → e = last) {keep : α → Bool}
    (hshape : Shape key prev isHead (l.filter keep)) : ∀ e ∈ l, keep e = true := by
  apply h.forall_of_last (p := fun e => keep e = true)
  · intro e he
    obtain ⟨t, ht, hthead, -⟩ := hshape.tip
    obtain ⟨hmem, hkeep⟩ := mem_filter.mp ht
    rw [hlast] at he
    cases he
    rw [← hhead t hmem hthead]
    exact hkeep
  · intro e he hkeep e' he' hprev
    obtain ⟨p, hp, hkey⟩ :=
      hshape.closed e (mem_filter.mpr ⟨he, hkeep⟩) (key e') hprev
    obtain ⟨hmem, hpkeep⟩ := mem_filter.mp hp
    rw [← inj_on_of_nodup_map hk hmem he' hkey]
    exact hpkeep

/-- An entry beside a chain that is not its head goes unseen exactly when it names itself. -/
theorem Chained.shape_snoc_iff (h : Chained key prev l) (hk : (l.map key).Nodup)
    (hlast : l.getLast? = some last) (hhead : ∀ e ∈ l, isHead e ↔ e = last) {x : α}
    (hx : ∀ e ∈ l, key e ≠ key x) (hnot : ¬ isHead x) :
    Shape key prev isHead (l ++ [x]) ↔ prev x = some (key x) := by
  have hlmem := mem_of_getLast? hlast
  have hshape : Shape key prev isHead l := h.shape hk hlast ((hhead last hlmem).mpr rfl)
  have hxl : x ∉ l := fun hmem => hx x hmem rfl
  constructor
  · intro hs
    obtain ⟨r, hr, hroot, honly⟩ := hs.root
    cases hprev : prev x with
    | none =>
      obtain ⟨r', hr', hroot'⟩ := h.exists_root (ne_nil_of_mem hlmem)
      have hxr := honly x (by simp) hprev
      have hrr := honly r' (mem_append_left _ hr') hroot'
      rw [hxr, ← hrr] at hxl
      exact absurd hr' hxl
    | some k =>
      obtain ⟨p, hp, hkey⟩ := hs.closed x (by simp) k hprev
      rcases mem_append.mp hp with hp | hp
      · exfalso
        by_cases hend : l.getLast? = some p
        · -- the head is named by `x`, so the table has no tip
          obtain ⟨t, ht, hthead, hchild, -⟩ := hs.tip
          rcases mem_append.mp ht with ht | ht
          · rw [hlast] at hend
            cases hend
            rw [(hhead t ht).mp hthead] at hchild
            exact hchild x (by simp) (by rw [hprev, hkey])
          · rw [mem_singleton.mp ht] at hthead
            exact hnot hthead
        · obtain ⟨c, hc, hcprev⟩ := h.exists_child hp hend
          rw [hkey] at hcprev
          have heq := hs.single c (mem_append_left _ hc) x (by simp) k hcprev hprev
          rw [heq] at hc
          exact hxl hc
      · rw [← hkey, mem_singleton.mp hp]
  · intro hself
    have hnoname : ∀ e ∈ l, prev e ≠ some (key x) := by
      intro e he hprev
      obtain ⟨p, hp, hkey⟩ := h.mem_of_prev he hprev
      exact hx p hp hkey
    constructor
    · obtain ⟨r, hr, hroot, honly⟩ := hshape.root
      refine ⟨r, mem_append_left _ hr, hroot, ?_⟩
      intro e he hnone
      rcases mem_append.mp he with he | he
      · exact honly e he hnone
      · rw [mem_singleton.mp he, hself] at hnone
        cases hnone
    · intro e he k hprev
      rcases mem_append.mp he with he | he
      · obtain ⟨p, hp, hkey⟩ := hshape.closed e he k hprev
        exact ⟨p, mem_append_left _ hp, hkey⟩
      · rw [mem_singleton.mp he, hself] at hprev
        exact ⟨x, by simp, Option.some.inj hprev⟩
    · intro e he e' he' k hprev hprev'
      rcases mem_append.mp he with he | he <;> rcases mem_append.mp he' with he' | he'
      · exact hshape.single e he e' he' k hprev hprev'
      · rw [mem_singleton.mp he', hself] at hprev'
        rw [← hprev'] at hprev
        exact absurd hprev (hnoname e he)
      · rw [mem_singleton.mp he, hself] at hprev
        rw [← hprev] at hprev'
        exact absurd hprev' (hnoname e' he')
      · rw [mem_singleton.mp he, mem_singleton.mp he']
    · obtain ⟨t, ht, hthead, hchild, honly⟩ := hshape.tip
      refine ⟨t, mem_append_left _ ht, hthead, ?_, ?_⟩
      · intro c hc
        rcases mem_append.mp hc with hc | hc
        · exact hchild c hc
        · rw [mem_singleton.mp hc, hself]
          exact fun heq => hx t ht (Option.some.inj heq).symm
      · intro e he hechild
        rcases mem_append.mp he with he | he
        · exact honly e he fun c hc => hechild c (mem_append_left _ hc)
        · rw [mem_singleton.mp he] at hechild
          exact absurd hself (hechild x (by simp))

theorem Shape.map (h : Shape key prev isHead l) {f : α → α} (hkey : ∀ e ∈ l, key (f e) = key e)
    (hprev : ∀ e ∈ l, prev (f e) = prev e) (hhead : ∀ e ∈ l, isHead e → isHead (f e)) :
    Shape key prev isHead (l.map f) := by
  have hnamed : ∀ e ∈ l, (∀ c ∈ l.map f, prev c ≠ some (key (f e))) →
      ∀ c ∈ l, prev c ≠ some (key e) := by
    intro e he hchild c hc
    rw [← hprev c hc, ← hkey e he]
    exact hchild (f c) (mem_map_of_mem hc)
  constructor
  · obtain ⟨r, hr, hroot, honly⟩ := h.root
    refine ⟨f r, mem_map_of_mem hr, (hprev r hr).trans hroot, ?_⟩
    intro e he hnone
    obtain ⟨e, hmem, rfl⟩ := mem_map.mp he
    rw [honly e hmem ((hprev e hmem).symm.trans hnone)]
  · intro e he k hk
    obtain ⟨e, hmem, rfl⟩ := mem_map.mp he
    obtain ⟨p, hp, hpk⟩ := h.closed e hmem k ((hprev e hmem).symm.trans hk)
    exact ⟨f p, mem_map_of_mem hp, (hkey p hp).trans hpk⟩
  · intro e he e' he' k hk hk'
    obtain ⟨e, hmem, rfl⟩ := mem_map.mp he
    obtain ⟨e', hmem', rfl⟩ := mem_map.mp he'
    rw [hprev e hmem] at hk
    rw [hprev e' hmem'] at hk'
    rw [h.single e hmem e' hmem' k hk hk']
  · obtain ⟨t, ht, hthead, hchild, honly⟩ := h.tip
    refine ⟨f t, mem_map_of_mem ht, hhead t ht hthead, ?_, ?_⟩
    · intro c hc
      obtain ⟨c, hmem, rfl⟩ := mem_map.mp hc
      rw [hprev c hmem, hkey t ht]
      exact hchild c hmem
    · intro e he hechild
      obtain ⟨e, hmem, rfl⟩ := mem_map.mp he
      rw [honly e hmem (hnamed e hmem hechild)]

/-- A changed entry goes unseen exactly when it keeps its key and its link, and stays the head if
it was. -/
theorem Chained.shape_change_iff [DecidableEq α] (h : Chained key prev l)
    (hk : (l.map key).Nodup) (hlast : l.getLast? = some last)
    (hhead : ∀ e ∈ l, isHead e ↔ e = last) (hheadkey : ∀ e, isHead e → key e = key last)
    {e e' : α} (he : e ∈ l) :
    Shape key prev isHead (l.map fun a => if a = e then e' else a) ↔
      key e' = key e ∧ prev e' = prev e ∧ (e = last → isHead e') := by
  have hlmem := mem_of_getLast? hlast
  have hshape : Shape key prev isHead l := h.shape hk hlast ((hhead last hlmem).mpr rfl)
  have hmem : ∀ a, a ∈ l.map (fun a => if a = e then e' else a) ↔ a = e' ∨ a ∈ l ∧ a ≠ e := by
    intro a
    rw [mem_map]
    constructor
    · rintro ⟨b, hb, rfl⟩
      split
      · exact .inl rfl
      · rename_i hne
        exact .inr ⟨hb, hne⟩
    · rintro (rfl | ⟨ha, hne⟩)
      · exact ⟨e, he, if_pos rfl⟩
      · exact ⟨a, ha, if_neg hne⟩
  constructor
  · intro hs
    have hkeep : e = last → isHead e' := by
      rintro rfl
      obtain ⟨t, ht, hthead, -⟩ := hs.tip
      rcases (hmem t).mp ht with rfl | ⟨ht, hne⟩
      · exact hthead
      · exact absurd ((hhead t ht).mp hthead) hne
    have hkey : key e' = key e := by
      by_cases hend : l.getLast? = some e
      · rw [hlast] at hend
        cases hend
        exact hheadkey e' (hkeep rfl)
      · obtain ⟨c, hc, hprev⟩ := h.exists_child he hend
        have hce : c ≠ e := by
          rintro rfl
          exact h.prev_ne hk hc hprev
        obtain ⟨p, hp, hpkey⟩ := hs.closed c ((hmem c).mpr (.inr ⟨hc, hce⟩)) (key e) hprev
        rcases (hmem p).mp hp with rfl | ⟨hp, hne⟩
        · exact hpkey
        · exact absurd (inj_on_of_nodup_map hk hp he hpkey) hne
    refine ⟨hkey, ?_, hkeep⟩
    cases hprev : prev e with
    | none =>
      obtain ⟨r, hr, hroot, -⟩ := hs.root
      rcases (hmem r).mp hr with rfl | ⟨hr, hne⟩
      · exact hroot
      · exact absurd (h.single hk hr he (hroot.trans hprev.symm)) hne
    | some k =>
      -- the predecessor has lost its successor, and only the head may have none
      obtain ⟨p, hp, rfl⟩ := h.mem_of_prev he hprev
      have hpe : p ≠ e := by
        rintro rfl
        exact h.prev_ne hk hp hprev
      have hplast : p ≠ last := by
        rintro rfl
        exact (h.links hk).2 p hlast e he hprev
      by_contra hdiff
      obtain ⟨t, ht, hthead, -, honly⟩ := hs.tip
      have hpt : p = t := by
        apply honly p ((hmem p).mpr (.inr ⟨hp, hpe⟩))
        intro c hc hcprev
        rcases (hmem c).mp hc with rfl | ⟨hc, hne⟩
        · exact hdiff hcprev
        · exact hne (h.single hk hc he (hcprev.trans hprev.symm))
      rw [← hpt] at hthead
      exact hplast ((hhead p hp).mp hthead)
  · rintro ⟨hkey, hprev, hkeep⟩
    apply hshape.map
    · intro a _
      split
      · rename_i heq
        rw [heq]
        exact hkey
      · rfl
    · intro a _
      split
      · rename_i heq
        rw [heq]
        exact hprev
      · rfl
    · intro a ha hahead
      split
      · rename_i heq
        rw [heq] at hahead
        exact hkeep ((hhead e he).mp hahead)
      · exact hahead

end Chain

end HomefrontFiber.HashChain
