import Mathlib.Data.List.Forall2
import HomefrontFiber.DoorBonus.Doors

/-!
# One more event

A further event may cost doors: it can displace the first visit to a lead, and the later visit that
counts in its place stands in the way of others. Where the leads visited after it are visited once,
the doors counted with it are no later, one by one, than those counted without it.
-/

namespace HomefrontFiber.DoorBonus

open List

variable {config : DoorDayConfig} {e : DoorEvent} {events rest : List DoorEvent} {s s' : Scan}

/-- The leads visited after the event are visited once. -/
def AloneAfter (events : List DoorEvent) (e : DoorEvent) : Prop :=
  (events.filter (e.key < ·.key)).Pairwise (·.leadId ≠ ·.leadId) ∧
    ∀ d ∈ e :: events, d.key ≤ e.key → ∀ d' ∈ events, e.key < d'.key → d.leadId ≠ d'.leadId

theorem sortEvents_split (events : List DoorEvent) (e : DoorEvent) :
    let before := (sortEvents events).filter (·.key ≤ e.key)
    let after := (sortEvents events).filter (e.key < ·.key)
    sortEvents events = before ++ after ∧ sortEvents (e :: events) = before ++ e :: after := by
  intro before after
  have hsorted := sortEvents_sorted events
  have hperm : (before ++ after).Perm (sortEvents events) := by
    have hnot : after = (sortEvents events).filter fun d => !decide (d.key ≤ e.key) := by
      apply filter_congr
      intro d _
      rw [← decide_not]
      exact decide_eq_decide.mpr not_le.symm
    rw [hnot]
    exact filter_append_perm _ _
  have hbefore : ∀ d ∈ before, d.key ≤ e.key := fun d hd => of_decide_eq_true (mem_filter.mp hd).2
  have hafter : ∀ d ∈ after, e.key ≤ d.key :=
    fun d hd => (of_decide_eq_true (mem_filter.mp hd).2 : e.key < d.key).le
  constructor
  · symm
    apply eq_sortEvents (hperm.trans (sortEvents_perm events))
    exact pairwise_append.mpr ⟨hsorted.filter _, hsorted.filter _,
      fun a ha b hb => (hbefore a ha).trans (hafter b hb)⟩
  · symm
    apply eq_sortEvents
    · exact perm_middle.trans ((hperm.trans (sortEvents_perm events)).cons e)
    · refine pairwise_append.mpr ⟨hsorted.filter _, pairwise_cons.mpr ⟨hafter, hsorted.filter _⟩, ?_⟩
      intro a ha b hb
      rcases mem_cons.mp hb with rfl | hb
      · exact hbefore a ha
      · exact (hbefore a ha).trans (hafter b hb)

/-- One by one, as many doors as those of the second list are no later. -/
def Dominates (doors doors' : List DoorEvent) : Prop :=
  ∃ first more, doors = first ++ more ∧ Forall₂ (·.atMs ≤ ·.atMs) first doors'

theorem Dominates.append {doors doors' : List DoorEvent} (h : Dominates doors doors')
    (more : List DoorEvent) : Dominates (doors ++ more) doors' := by
  obtain ⟨first, more', rfl, hfirst⟩ := h
  exact ⟨first, more' ++ more, append_assoc .., hfirst⟩

theorem Dominates.length_le {doors doors' : List DoorEvent} (h : Dominates doors doors') :
    doors'.length ≤ doors.length := by
  obtain ⟨first, more, rfl, hfirst⟩ := h
  rw [length_append, hfirst.length_eq]
  exact Nat.le_add_right _ _

/-- Doors that are no later, one by one, break the rules of time only where the others do. -/
theorem violates_of_forall₂ {doors doors' : List DoorEvent}
    (h : Forall₂ (·.atMs ≤ ·.atMs) doors doors') {r : DoorRejection} (hr : r ≠ .sameAddress)
    (hrule : Violates config doors e r) : Violates config doors' e r := by
  cases r with
  | sameAddress => exact absurd rfl hr
  | tooFast =>
    obtain ⟨d, hd, hlt⟩ := hrule
    have hreverse := forall₂_reverse_iff.mpr h
    rw [getLast?_eq_head?_reverse] at hd
    revert hd
    cases hdoors : doors.reverse with
    | nil => exact nofun
    | cons a l =>
      rintro ⟨⟩
      rw [hdoors] at hreverse
      obtain ⟨d', l', hle, -, hdoors'⟩ := forall₂_cons_left_iff.mp hreverse
      refine ⟨d', ?_, by linarith⟩
      rw [getLast?_eq_head?_reverse, hdoors']
      rfl
  | hourCap =>
    refine ⟨hrule.1, hrule.2.trans ?_⟩
    clear hrule
    induction h with
    | nil => exact Nat.le_refl _
    | @cons a b _ _ hab _ ih =>
      rw [countP_cons, countP_cons]
      by_cases hold : e.atMs - a.atMs < hourMs
      · have hold' : e.atMs - b.atMs < hourMs := by linarith
        rw [if_pos (decide_eq_true hold), if_pos (decide_eq_true hold')]
        omega
      · rw [if_neg (by simpa using hold)]
        omega

/-- An event of a lead that the dominating scan has not seen is no gain of the other scan. -/
theorem Dominates.visit (hs : Scanned (e :: rest) s) (hs' : Scanned (e :: rest) s')
    (h : Dominates s'.counted s.counted) (hfresh : ∀ d ∈ s'.counted, d.leadId ≠ e.leadId) :
    Dominates (s'.visit config e).counted (s.visit config e).counted := by
  have hgrows : ∀ doors, Dominates s'.counted doors →
      Dominates (s'.visit config e).counted doors := by
    intro doors hdoors
    rw [counted_visit hs']
    split
    · exact hdoors
    · exact hdoors.append [e]
  rw [counted_visit hs]
  split
  · exact hgrows _ h
  · rename_i hnone
    obtain ⟨first, ahead, hsplit, hfirst⟩ := h
    cases ahead with
    | cons a ahead =>
      have hle : a.atMs ≤ e.atMs :=
        (pairwise_append.mp hs'.sorted).2.2 a (by simp [hsplit]) e mem_cons_self
      apply hgrows
      exact ⟨first ++ [a], ahead, by simp [hsplit], rel_append hfirst (.cons hle .nil)⟩
    | nil =>
      rw [append_nil] at hsplit
      rw [counted_visit hs', if_neg, hsplit]
      · exact ⟨first ++ [e], [], (append_nil _).symm, rel_append hfirst (.cons le_rfl .nil)⟩
      · rintro ⟨r, hrule⟩
        by_cases hr : r = .sameAddress
        · obtain ⟨d, hd, hsame⟩ := hr ▸ hrule
          exact hfresh d hd hsame
        · exact hnone ⟨r, violates_of_forall₂ hfirst hr (hsplit ▸ hrule)⟩

theorem mem_counted_visit (h : Scanned (e :: rest) s) {d : DoorEvent}
    (hd : d ∈ (s.visit config e).counted) : d ∈ e :: s.counted := by
  rw [counted_visit h] at hd
  split at hd
  · exact mem_cons_of_mem e hd
  · exact (perm_append_singleton e s.counted).subset hd

theorem Dominates.foldl (hs : Scanned rest s) (hs' : Scanned rest s')
    (h : Dominates s'.counted s.counted)
    (hfresh : ∀ d ∈ s'.counted, ∀ e ∈ rest, d.leadId ≠ e.leadId)
    (honce : rest.Pairwise (·.leadId ≠ ·.leadId)) :
    Dominates (rest.foldl (Scan.visit config) s').counted
      (rest.foldl (Scan.visit config) s).counted := by
  induction rest generalizing s s' with
  | nil => exact h
  | cons e rest ih =>
    obtain ⟨hlater, honce⟩ := pairwise_cons.mp honce
    have hnow := fun d hd => hfresh d hd e mem_cons_self
    apply ih hs.visit hs'.visit (h.visit hs hs' hnow) _ honce
    intro d hd e' he'
    rcases mem_cons.mp (mem_counted_visit hs' hd) with rfl | hd
    · exact hlater e' he'
    · exact hfresh d hd e' (mem_cons_of_mem e he')

theorem scanned_foldl {before after : List DoorEvent} (h : Scanned (before ++ after) s) :
    Scanned after (before.foldl (Scan.visit config) s) ∧
      ∀ d ∈ (before.foldl (Scan.visit config) s).counted, d ∈ s.counted ++ before := by
  induction before generalizing s with
  | nil => exact ⟨h, fun d hd => mem_append_left _ hd⟩
  | cons e before ih =>
    obtain ⟨hscanned, hmem⟩ := ih h.visit
    refine ⟨hscanned, fun d hd => perm_middle.symm.subset ?_⟩
    rcases mem_append.mp (hmem d hd) with hd | hd
    · exact mem_append_left _ (mem_counted_visit h hd)
    · exact mem_cons_of_mem e (mem_append_right _ hd)

def gapOf (seconds : ℚ) : DoorDayConfig where
  enabled := true
  doors := some 2
  rewardCents := some 5000
  minSpanMinutes := some 0
  maxPerRollingHour := some 0
  minGapSeconds := some seconds
  voidOnTamper := true

end HomefrontFiber.DoorBonus
