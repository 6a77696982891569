import Mathlib.Logic.Relation
import Mathlib.Logic.Function.Basic
import Mathlib.Data.List.Nodup
import Mathlib.Data.List.Perm.Subperm

/-!
# Forests given by a step up

A map `up` sends every node to the node above it, if there is one. `Above` is the transitive closure
of that step and `Acyclic` says that nobody is above themselves. `Lineage` lists the nodes above a
node, nearest first.
-/

namespace HomefrontFiber.Forest

open List

variable {α : Type}

/-- Some steps up lead from `a` to `b`. -/
def Above (up : α → Option α) : α → α → Prop := Relation.TransGen fun a b => up a = some b

def Acyclic (up : α → Option α) : Prop := ∀ a, ¬ Above up a a

section Above

variable {up : α → Option α} {a b c : α}

theorem Above.single (h : up a = some b) : Above up a b := Relation.TransGen.single h

theorem Above.head (h : up a = some b) (hbc : Above up b c) : Above up a c :=
  Relation.TransGen.head h hbc

theorem Above.tail (hab : Above up a b) (h : up b = some c) : Above up a c :=
  Relation.TransGen.tail hab h

theorem Above.trans (hab : Above up a b) (hbc : Above up b c) : Above up a c :=
  Relation.TransGen.trans hab hbc

theorem above_iff : Above up a c ↔ ∃ b, up a = some b ∧ (c = b ∨ Above up b c) := by
  constructor
  · intro h
    obtain ⟨b, hab, hbc⟩ := Relation.TransGen.head'_iff.mp h
    exact ⟨b, hab, Relation.reflTransGen_iff_eq_or_transGen.mp hbc⟩
  · rintro ⟨b, hab, rfl | hbc⟩
    · exact Above.single hab
    · exact Above.head hab hbc

theorem not_above_of_none (h : up a = none) : ¬ Above up a c := by
  rw [above_iff]
  rintro ⟨b, hb, _⟩
  rw [h] at hb
  exact absurd hb (by simp)

/-- A step map that agrees with `up` wherever it leads reaches no more. -/
theorem Above.mono {up' : α → Option α} (h : ∀ a b, up a = some b → up' a = some b)
    (hab : Above up a b) : Above up' a b :=
  Relation.TransGen.mono h a b hab

end Above

section Update

variable [DecidableEq α] {up : α → Option α} {a : α} {p : Option α}

/-- A path after `a` was hung below `p` is an old path, or it passes through `a` and on from
`p`. -/
theorem above_update {x y : α} (h : Above (Function.update up a p) x y) :
    Above up x y ∨ ((x = a ∨ Above up x a) ∧ ∃ b, p = some b ∧ (b = y ∨ Above up b y)) := by
  induction h with
  | @single y hxy =>
    by_cases hxa : x = a
    · rw [hxa, Function.update_self] at hxy
      exact .inr ⟨.inl hxa, y, hxy, .inl rfl⟩
    · rw [Function.update_of_ne hxa] at hxy
      exact .inl (Above.single hxy)
  | @tail y z _ hyz ih =>
    by_cases hya : y = a
    · rw [hya, Function.update_self] at hyz
      refine .inr ⟨?_, z, hyz, .inl rfl⟩
      rcases ih with h | ⟨h, _⟩
      · exact .inr (hya ▸ h)
      · exact h
    · rw [Function.update_of_ne hya] at hyz
      rcases ih with h | ⟨h, b, hb, rfl | hby⟩
      · exact .inl (h.tail hyz)
      · exact .inr ⟨h, b, hb, .inr (Above.single hyz)⟩
      · exact .inr ⟨h, b, hb, .inr (hby.tail hyz)⟩

/-- Hanging a node below one that is neither the node itself nor below it closes no cycle. -/
theorem Acyclic.update (h : Acyclic up) (hp : ∀ b, p = some b → b ≠ a ∧ ¬ Above up b a) :
    Acyclic (Function.update up a p) := by
  intro x hx
  rcases above_update hx with hold | ⟨hxa, b, hb, hbx⟩
  · exact h x hold
  · obtain ⟨hba, hnot⟩ := hp b hb
    rcases hxa with rfl | hxa <;> rcases hbx with rfl | hbx
    · exact hba rfl
    · exact hnot hbx
    · exact hnot hxa
    · exact hnot (hbx.trans hxa)

end Update

/-- The nodes from `p` upwards, up to a top. -/
inductive Lineage (up : α → Option α) : Option α → List α → Prop
  | top : Lineage up none []
  | step {a : α} {l : List α} : Lineage up (up a) l → Lineage up (some a) (a :: l)

section Lineage

variable {up : α → Option α} {p : Option α} {l : List α}

theorem Lineage.mem_iff (h : Lineage up p l) {b : α} :
    b ∈ l ↔ ∃ a, p = some a ∧ (b = a ∨ Above up a b) := by
  induction h with
  | top => simp
  | @step a l _ ih =>
    rw [mem_cons, ih]
    constructor
    · rintro (rfl | ⟨c, hc, hb⟩)
      · exact ⟨b, rfl, .inl rfl⟩
      · exact ⟨a, rfl, .inr (above_iff.mpr ⟨c, hc, hb⟩)⟩
    · rintro ⟨a', ha', rfl | hb⟩
      · rw [Option.some.injEq] at ha'
        exact .inl ha'.symm
      · rw [Option.some.injEq] at ha'
        subst ha'
        exact .inr (above_iff.mp hb)

theorem Lineage.mem_iff_above {a b : α} (h : Lineage up (up a) l) : b ∈ l ↔ Above up a b := by
  rw [h.mem_iff, above_iff]

theorem Lineage.nodup (hac : Acyclic up) (h : Lineage up p l) : l.Nodup := by
  induction h with
  | top => exact nodup_nil
  | @step a l h ih =>
    refine nodup_cons.mpr ⟨fun ha => ?_, ih⟩
    exact hac a (h.mem_iff_above.mp ha)

/-- Where only nodes of a finite list have a parent, every node of an acyclic map has a lineage.
The nodes passed on the way are kept in `passed`; there are at most as many as the list has. -/
theorem exists_lineage_from (hac : Acyclic up) {nodes : List α}
    (hnodes : ∀ a b, up a = some b → a ∈ nodes) (n : Nat) (passed : List α) (p : Option α)
    (hn : nodes.length < n + passed.length) (hnd : passed.Nodup) (hsub : passed ⊆ nodes)
    (hbelow : ∀ a, p = some a → ∀ x ∈ passed, Above up x a) : ∃ l, Lineage up p l := by
  induction n generalizing passed p with
  | zero =>
    have hle := (hnd.subperm hsub).length_le
    omega
  | succ n ih =>
    cases p with
    | none => exact ⟨[], Lineage.top⟩
    | some a =>
      cases hup : up a with
      | none => exact ⟨[a], Lineage.step (hup ▸ Lineage.top)⟩
      | some b =>
        have hfresh : a ∉ passed := fun ha => hac a (hbelow a rfl a ha)
        have hsub' : a :: passed ⊆ nodes := cons_subset.mpr ⟨hnodes a b hup, hsub⟩
        have hbelow' : ∀ c, some b = some c → ∀ x ∈ a :: passed, Above up x c := by
          intro c hc x hx
          rw [Option.some.injEq] at hc
          subst hc
          rcases mem_cons.mp hx with rfl | hx
          · exact Above.single hup
          · exact (hbelow a rfl x hx).tail hup
        obtain ⟨l, hl⟩ := ih (a :: passed) (some b) (by simp only [length_cons]; omega)
          (nodup_cons.mpr ⟨hfresh, hnd⟩) hsub' hbelow'
        exact ⟨a :: l, Lineage.step (hup ▸ hl)⟩

theorem exists_lineage (hac : Acyclic up) {nodes : List α}
    (hnodes : ∀ a b, up a = some b → a ∈ nodes) (p : Option α) : ∃ l, Lineage up p l :=
  exists_lineage_from hac hnodes (nodes.length + 1) [] p (by simp) nodup_nil
    (nil_subset _) fun _ _ _ h => absurd h not_mem_nil

end Lineage

section Search

variable [DecidableEq α]

/-- What a search has collected: the nodes to expand, the nodes found and the nodes seen. -/
structure Walk (α : Type) where
  queue : List α
  out : List α
  visited : List α

/-- Collects the unseen nodes of a list, until `maxNodes` are found. -/
def expand (maxNodes : Nat) : List α → Walk α → Walk α
  | [], w => w
  | c :: cs, w =>
    if c ∈ w.visited then expand maxNodes cs w
    else
      let w' : Walk α :=
        { queue := w.queue ++ [c], out := w.out ++ [c], visited := c :: w.visited }
      if maxNodes ≤ w'.out.length then w' else expand maxNodes cs w'

/-- A breadth-first search. Every round takes one node off the queue. -/
def searchLoop (children : α → List α) (maxNodes : Nat) : Nat → Walk α → List α
  | 0, w => w.out
  | fuel + 1, w =>
    match w.queue with
    | [] => w.out
    | parent :: rest =>
      if w.out.length < maxNodes then
        searchLoop children maxNodes fuel (expand maxNodes (children parent) { w with queue := rest })
      else w.out

/-- The rounds that are left at most: the queue and the nodes still to be found. -/
def Walk.rounds (maxNodes : Nat) (w : Walk α) : Nat := w.queue.length + (maxNodes - w.out.length)

theorem expand_rounds (maxNodes : Nat) (cs : List α) (w : Walk α) (h : w.out.length < maxNodes) :
    (expand maxNodes cs w).rounds maxNodes = w.rounds maxNodes := by
  induction cs generalizing w with
  | nil => rfl
  | cons c cs ih =>
    unfold expand
    dsimp only
    have hlen : (w.out ++ [c]).length = w.out.length + 1 := by simp
    split
    · exact ih w h
    · have hsame : Walk.rounds maxNodes (⟨w.queue ++ [c], w.out ++ [c], c :: w.visited⟩ : Walk α) =
          w.rounds maxNodes := by
        simp only [Walk.rounds, length_append, length_cons, length_nil]
        omega
      split
      · exact hsame
      · rw [ih _ (by dsimp only; omega), hsame]

/-- What a search from `root` keeps: it has found distinct nodes below `root`, and it has seen the
children of every node it has seen and is done with. -/
structure Searched (up : α → Option α) (root : α) (w : Walk α) : Prop where
  nodup : w.out.Nodup
  below : ∀ x ∈ w.out, Above up x root
  seen : ∀ x, x ∈ w.visited ↔ x = root ∨ x ∈ w.out
  queued : ∀ x ∈ w.queue, x ∈ w.visited

/-- Every child of a node that was seen and is not queued has been seen. -/
def Expanded (up : α → Option α) (w : Walk α) : Prop :=
  ∀ p ∈ w.visited, p ∉ w.queue → ∀ c, up c = some p → c ∈ w.visited

section Found

variable {up : α → Option α} {root : α} {maxNodes : Nat}
  (hfew : ∀ l : List α, l.Nodup → (∀ x ∈ l, Above up x root) → l.length < maxNodes)

/-- The state before and after the children of one node were collected. -/
structure Collected (up : α → Option α) (root : α) (cs : List α) (w w' : Walk α) : Prop where
  searched : Searched up root w'
  visited : ∀ x ∈ w.visited, x ∈ w'.visited
  queue : ∀ x ∈ w.queue, x ∈ w'.queue
  fresh : ∀ x ∈ w'.visited, x ∈ w.visited ∨ x ∈ w'.queue
  children : ∀ c ∈ cs, c ∈ w'.visited

omit [DecidableEq α] in
theorem Searched.collect {w : Walk α} (h : Searched up root w) {p c : α} (hp : p ∈ w.visited)
    (hc : up c = some p) (hnew : c ∉ w.visited) :
    Searched up root ⟨w.queue ++ [c], w.out ++ [c], c :: w.visited⟩ where
  nodup := by
    have hout : c ∉ w.out := fun hm => hnew ((h.seen c).mpr (.inr hm))
    rw [nodup_append_comm]
    exact nodup_cons.mpr ⟨hout, h.nodup⟩
  below := by
    intro x hx
    rcases mem_append.mp hx with hx | hx
    · exact h.below x hx
    · rw [mem_singleton.mp hx]
      rcases (h.seen p).mp hp with rfl | hp
      · exact Above.single hc
      · exact Above.head hc (h.below p hp)
  seen := by
    intro x
    simp only [mem_cons, mem_append, not_mem_nil, or_false, h.seen]
    tauto
  queued := by
    intro x hx
    rcases mem_append.mp hx with hx | hx
    · exact mem_cons_of_mem _ (h.queued x hx)
    · exact mem_cons.mpr (.inl (mem_singleton.mp hx))

include hfew in
theorem expand_collected {p : α} (cs : List α) (w : Walk α) (h : Searched up root w)
    (hp : p ∈ w.visited) (hcs : ∀ c ∈ cs, up c = some p) :
    Collected up root cs w (expand maxNodes cs w) := by
  induction cs generalizing w with
  | nil => exact ⟨h, fun _ hx => hx, fun _ hx => hx, fun _ hx => .inl hx, by simp⟩
  | cons c cs ih =>
    have hcs' : ∀ c' ∈ cs, up c' = some p := fun c' hc' => hcs c' (mem_cons_of_mem _ hc')
    unfold expand
    dsimp only
    split
    · rename_i hseen
      have hrest := ih w h hp hcs'
      refine { hrest with children := fun c' hc' => ?_ }
      rcases mem_cons.mp hc' with rfl | hc'
      · exact hrest.visited c' hseen
      · exact hrest.children c' hc'
    · rename_i hnew
      have hone := h.collect hp (hcs c mem_cons_self) hnew
      have hroom := hfew _ hone.nodup hone.below
      rw [if_neg (by dsimp only at hroom; omega)]
      have hrest := ih _ hone (mem_cons_of_mem _ hp) hcs'
      refine
        { searched := hrest.searched
          visited := fun x hx => hrest.visited x (mem_cons_of_mem _ hx)
          queue := fun x hx => hrest.queue x (mem_append_left _ hx)
          fresh := fun x hx => ?_
          children := fun c' hc' => ?_ }
      · rcases hrest.fresh x hx with hx | hx
        · rcases mem_cons.mp hx with rfl | hx
          · exact .inr (hrest.queue x (mem_append_right _ (mem_singleton_self x)))
          · exact .inl hx
        · exact .inr hx
      · rcases mem_cons.mp hc' with rfl | hc'
        · exact hrest.visited c' mem_cons_self
        · exact hrest.children c' hc'

omit [DecidableEq α] in
theorem Searched.complete {w : Walk α} (h : Searched up root w) (he : Expanded up w)
    (hq : w.queue = []) (hac : Acyclic up) (x : α) : x ∈ w.out ↔ Above up x root := by
  refine ⟨h.below x, fun hx => ?_⟩
  have hseen : x ∈ w.visited := by
    induction hx using Relation.TransGen.head_induction_on with
    | single hab => exact he root ((h.seen root).mpr (.inl rfl)) (by simp [hq]) _ hab
    | head hab _ ih => exact he _ ih (by simp [hq]) _ hab
  rcases (h.seen x).mp hseen with rfl | hx'
  · exact absurd hx (hac x)
  · exact hx'

include hfew in
theorem searchLoop_found {children : α → List α} (hch : ∀ p c, c ∈ children p ↔ up c = some p)
    (hac : Acyclic up) (fuel : Nat) (w : Walk α) (hf : w.rounds maxNodes ≤ fuel)
    (h : Searched up root w) (he : Expanded up w) :
    (searchLoop children maxNodes fuel w).Nodup ∧
      ∀ x, x ∈ searchLoop children maxNodes fuel w ↔ Above up x root := by
  induction fuel generalizing w with
  | zero =>
    have hq : w.queue = [] := length_eq_zero_iff.mp (by simp only [Walk.rounds] at hf; omega)
    exact ⟨h.nodup, h.complete he hq hac⟩
  | succ fuel ih =>
    rw [searchLoop]
    cases hq : w.queue with
    | nil => exact ⟨h.nodup, h.complete he hq hac⟩
    | cons parent rest =>
      have hroom := hfew _ h.nodup h.below
      have hparent : parent ∈ w.visited := h.queued parent (hq ▸ mem_cons_self)
      have hrest : Searched up root { w with queue := rest } :=
        { h with queued := fun x hx => h.queued x (hq ▸ mem_cons_of_mem _ hx) }
      have hcol := expand_collected hfew (children parent) { w with queue := rest } hrest hparent
        fun c hc => (hch parent c).mp hc
      dsimp only
      rw [if_pos hroom]
      refine ih _ ?_ hcol.searched ?_
      · rw [expand_rounds maxNodes _ { w with queue := rest } hroom]
        simp only [Walk.rounds, hq, length_cons] at hf ⊢
        omega
      · intro p hp hpq c hc
        rcases hcol.fresh p hp with hp | hp
        · by_cases hpp : p = parent
          · exact hcol.children c ((hch parent c).mpr (hpp ▸ hc))
          · have hnot : p ∉ w.queue := by
              rw [hq, mem_cons]
              rintro (he' | hr)
              · exact hpp he'
              · exact hpq (hcol.queue p hr)
            exact hcol.visited c (he p hp hnot c hc)
        · exact absurd hp hpq

end Found

/-- The search from `root` with a budget of `maxNodes`. -/
def search (children : α → List α) (maxNodes : Nat) (root : α) : List α :=
  searchLoop children maxNodes (maxNodes + 1) { queue := [root], out := [], visited := [root] }

theorem search_found {up : α → Option α} {children : α → List α}
    (hch : ∀ p c, c ∈ children p ↔ up c = some p) (hac : Acyclic up) {maxNodes : Nat} {root : α}
    (hfew : ∀ l : List α, l.Nodup → (∀ x ∈ l, Above up x root) → l.length < maxNodes) :
    (search children maxNodes root).Nodup ∧
      ∀ x, x ∈ search children maxNodes root ↔ Above up x root := by
  have hstart : Searched up root { queue := [root], out := [], visited := [root] } :=
    { nodup := nodup_nil
      below := fun _ h => absurd h not_mem_nil
      seen := fun x => by simp
      queued := fun x hx => hx }
  refine searchLoop_found hfew hch hac _ _ ?_ hstart fun p hp hpq => absurd hp hpq
  simp only [Walk.rounds, length_cons, length_nil]
  omega

end Search

end HomefrontFiber.Forest
