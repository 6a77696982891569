import Mathlib.Data.List.Basic

/-!
# A bounded log and reading it page by page

A ring of capacity `limit` keeps the newest entries of a log: `push` appends an entry and drops the
oldest ones above the capacity. A reader of a log whose keys increase asks for the entries above a
cursor, gets at most `pageSize` of them and moves its cursor to the last one.
-/

namespace HomefrontFiber

open List

namespace Ring

variable {α : Type}

/-- Append an entry and drop the oldest entries above the capacity. -/
def push (limit : Nat) (ring : List α) (a : α) : List α :=
  (ring ++ [a]).drop ((ring ++ [a]).length - limit)

def newest (limit : Nat) (log : List α) : List α := log.drop (log.length - limit)

theorem newest_suffix (limit : Nat) (log : List α) : newest limit log <:+ log :=
  drop_suffix _ _

theorem length_newest_le (limit : Nat) (log : List α) : (newest limit log).length ≤ limit := by
  unfold newest
  rw [length_drop]
  omega

theorem push_newest {limit : Nat} (hlimit : 0 < limit) (log : List α) (a : α) :
    push limit (newest limit log) a = newest limit (log ++ [a]) := by
  have hlen : (newest limit log).length = log.length - (log.length - limit) := length_drop
  have hdrop : newest limit log ++ [a] = (log ++ [a]).drop (log.length - limit) := by
    rw [drop_append_of_le_length (by omega)]
    rfl
  unfold push
  rw [hdrop, drop_drop, length_drop]
  unfold newest
  congr 1
  simp only [length_append, length_singleton]
  omega

end Ring

section Reader

variable {α : Type} (key : α → Nat) (pageSize : Nat)

def above (log : List α) (cursor : Nat) : List α := log.filter (cursor < key ·)

/-- The first entries above a cursor, as many as a page holds. -/
def page (log : List α) (cursor : Nat) : List α := (above key log cursor).take pageSize

/-- The cursor after a page: the key of its last entry, or the old cursor for an empty page. -/
def nextCursor (log : List α) (cursor : Nat) : Nat :=
  ((page key pageSize log cursor).getLast?.map key).getD cursor

/-- What a reader collects from a cursor on until a page comes back empty. -/
inductive Reads (log : List α) : Nat → List α → Prop
  | done {cursor : Nat} (hempty : page key pageSize log cursor = []) : Reads log cursor []
  | more {cursor : Nat} {rest : List α} (hpage : page key pageSize log cursor ≠ [])
      (hrest : Reads log (nextCursor key pageSize log cursor) rest) :
      Reads log cursor (page key pageSize log cursor ++ rest)

variable {key pageSize}

variable {log : List α} {cursor : Nat}

theorem above_above {later : Nat} (h : cursor ≤ later) :
    above key (above key log cursor) later = above key log later := by
  unfold above
  rw [filter_filter]
  apply filter_congr
  intro a _
  by_cases ha : later < key a
  · simp [ha, Nat.lt_of_le_of_lt h ha]
  · simp [ha]

/-- In a log with increasing keys, the entries above the last key of a prefix are the rest. -/
theorem above_last_take (hsorted : log.Pairwise (key · < key ·)) {n : Nat} {a : α}
    (hlast : (log.take n).getLast? = some a) : above key log (key a) = log.drop n := by
  obtain ⟨before, hbefore⟩ := getLast?_eq_some_iff.mp hlast
  have hsplit : log = before ++ [a] ++ log.drop n := by
    rw [← hbefore, take_append_drop]
  rw [hsplit] at hsorted
  obtain ⟨hinit, -, hcross⟩ := pairwise_append.mp hsorted
  have hbelow : ∀ x ∈ before ++ [a], key x ≤ key a := by
    intro x hx
    rcases mem_append.mp hx with hx | hx
    · exact Nat.le_of_lt ((pairwise_append.mp hinit).2.2 x hx a mem_cons_self)
    · exact Nat.le_of_eq (congrArg key (mem_singleton.mp hx))
  have habove : ∀ y ∈ log.drop n, key a < key y := fun y hy =>
    hcross a (mem_append_right _ mem_cons_self) y hy
  unfold above
  calc log.filter (key a < key ·)
      = (before ++ [a]).filter (key a < key ·) ++ (log.drop n).filter (key a < key ·) := by
        rw [← filter_append, ← hsplit]
    _ = log.drop n := by
        rw [filter_eq_nil_iff.mpr fun x hx => by simpa using hbelow x hx,
          filter_eq_self.mpr fun y hy => by simpa using habove y hy, nil_append]

theorem nextCursor_above (hsorted : log.Pairwise (key · < key ·))
    (hpage : page key pageSize log cursor ≠ []) :
    above key log (nextCursor key pageSize log cursor) = (above key log cursor).drop pageSize := by
  cases hlast : (page key pageSize log cursor).getLast? with
  | none => exact absurd (getLast?_eq_none_iff.mp hlast) hpage
  | some a =>
    have hmem : a ∈ above key log cursor :=
      mem_of_mem_take (mem_of_getLast? hlast)
    have hcursor : cursor < key a := by simpa using (mem_filter.mp hmem).2
    have hnext : nextCursor key pageSize log cursor = key a := by
      unfold nextCursor
      rw [hlast]
      rfl
    rw [hnext, ← above_above (Nat.le_of_lt hcursor)]
    exact above_last_take (hsorted.filter _) hlast

/-- A reader of a log with increasing keys collects all entries above its cursor, in order. -/
theorem reads_above (hsorted : log.Pairwise (key · < key ·)) (hpos : 0 < pageSize)
    (cursor : Nat) : Reads key pageSize log cursor (above key log cursor) := by
  -- By induction on what is left above the cursor: a page that is not empty takes some of it.
  induction hn : (above key log cursor).length using Nat.strongRecOn generalizing cursor with
  | ind n ih =>
    by_cases hpage : page key pageSize log cursor = []
    · have hnone : above key log cursor = [] := by
        rcases take_eq_nil_iff.mp hpage with hzero | hnil
        · omega
        · exact hnil
      rw [hnone]
      exact .done hpage
    · have hrest := nextCursor_above hsorted hpage
      have hlen : (above key log (nextCursor key pageSize log cursor)).length < n := by
        rw [hrest, length_drop]
        have hpos' : 0 < (above key log cursor).length := by
          rw [length_pos_iff]
          intro hnil
          exact hpage (by unfold page; rw [hnil, take_nil])
        omega
      have htail := ih _ hlen _ rfl
      have hwhole := Reads.more hpage htail
      rw [hrest] at hwhole
      unfold page at hwhole
      rw [take_append_drop] at hwhole
      exact hwhole

/-- Read pages from a cursor on until one is short, folding the entries. -/
def foldPages {β : Type*} (key : α → Nat) (pageSize : Nat) (log : List α) (f : β → α → β) :
    Nat → Nat → β → β
  | 0, _, b => b
  | fuel + 1, cursor, b =>
    let entries := page key pageSize log cursor
    if entries.length < pageSize then entries.foldl f b
    else foldPages key pageSize log f fuel (nextCursor key pageSize log cursor) (entries.foldl f b)

/-- With fuel for every entry, the pages cover the log above the cursor once and in order. -/
theorem foldPages_eq {β : Type*} (hsorted : log.Pairwise (key · < key ·))
    (hpos : 0 < pageSize) (f : β → α → β) {fuel : Nat}
    (hfuel : (above key log cursor).length < fuel) (b : β) :
    foldPages key pageSize log f fuel cursor b = (above key log cursor).foldl f b := by
  induction fuel generalizing cursor b with
  | zero => exact absurd hfuel (Nat.not_lt_zero _)
  | succ fuel ih =>
    unfold foldPages
    dsimp only
    split
    · rename_i hshort
      have hall : page key pageSize log cursor = above key log cursor := by
        unfold page at hshort ⊢
        rw [length_take] at hshort
        exact take_of_length_le (by omega)
      rw [hall]
    · rename_i hfull
      have hlen : pageSize ≤ (page key pageSize log cursor).length := Nat.le_of_not_lt hfull
      have hpage : page key pageSize log cursor ≠ [] := by
        intro hnil
        rw [hnil, length_nil] at hlen
        omega
      have hrest := nextCursor_above hsorted hpage
      have htotal : pageSize ≤ (above key log cursor).length := by
        unfold page at hlen
        rw [length_take] at hlen
        omega
      have hfuel' : (above key log (nextCursor key pageSize log cursor)).length < fuel := by
        rw [hrest, length_drop]
        omega
      rw [ih hfuel', hrest, ← foldl_append]
      unfold page
      rw [take_append_drop]

end Reader

end HomefrontFiber
