import Mathlib.Algebra.Order.Ring.Rat
import Mathlib.Data.List.Chain
import Mathlib.Data.List.Nodup
import Mathlib.Data.List.TakeWhile
import Mathlib.Data.Prod.Lex
import Mathlib.Tactic.Linarith
import HomefrontFiber.Foundation.Runs

/-!
# Genuine doors

The doors of a day are visited oldest first, and each is held against those that have counted: its
address is new, it is no less than the gap after the last of them, and the hour before it holds
fewer than the cap. A screening says this of any way to sort the events into those that count and
those that are rejected.
-/

namespace HomefrontFiber.DoorBonus

open List

structure DoorEvent where
  leadId : Int
  atMs : ℚ
  deriving DecidableEq

/-- A number is `none` when it is not finite. -/
structure DoorDayConfig where
  enabled : Bool
  doors : Option ℚ
  rewardCents : Option ℚ
  minSpanMinutes : Option ℚ
  maxPerRollingHour : Option ℚ
  minGapSeconds : Option ℚ
  voidOnTamper : Bool

def hourMs : ℚ := 3600000

inductive DoorRejection where
  | sameAddress | tooFast | hourCap
  deriving DecidableEq

/-- The whole part, towards zero. -/
def int (n : Option ℚ) (fallback : Int) : Int :=
  n.elim fallback fun q => if 0 ≤ q then q.floor else q.ceil

namespace DoorDayConfig

variable (config : DoorDayConfig)

def target : Nat := (max 1 (int config.doors 60)).toNat

def minGapMs : ℚ := max 0 (int config.minGapSeconds 0) * 1000

def hourCap : Nat := (int config.maxPerRollingHour 0).toNat

end DoorDayConfig

/-- Ties in time go by lead. -/
def DoorEvent.key (e : DoorEvent) : ℚ ×ₗ Int := toLex (e.atMs, e.leadId)

def sortEvents (events : List DoorEvent) : List DoorEvent := events.mergeSort (·.key ≤ ·.key)

/-- The doors that have counted, oldest first, whose leads are those seen. -/
structure Scan where
  counted : List DoorEvent := []
  windowStart : Nat := 0
  rejected : DoorRejection → Nat := fun _ => 0

namespace Scan

def reject (s : Scan) (r : DoorRejection) : Scan :=
  { s with rejected := Function.update s.rejected r (s.rejected r + 1) }

def count (s : Scan) (e : DoorEvent) : Scan := { s with counted := s.counted ++ [e] }

/-- The window moves past the doors that are an hour old. -/
def slide (s : Scan) (e : DoorEvent) : Scan :=
  { s with windowStart := s.windowStart +
      ((s.counted.drop s.windowStart).takeWhile (hourMs ≤ e.atMs - ·.atMs)).length }

def visit (config : DoorDayConfig) (s : Scan) (e : DoorEvent) : Scan :=
  if s.counted.any (·.leadId = e.leadId) then s.reject .sameAddress
  else if 0 < config.minGapMs && s.counted.getLast?.any (e.atMs - ·.atMs < config.minGapMs) then
    s.reject .tooFast
  else if 0 < config.hourCap then
    let s := s.slide e
    if config.hourCap ≤ s.counted.length - s.windowStart then s.reject .hourCap else s.count e
  else s.count e

end Scan

def scanDoors (events : List DoorEvent) (config : DoorDayConfig) : Scan :=
  (sortEvents events).foldl (Scan.visit config) {}

structure GenuineDoorCount where
  counted : Nat
  submitted : Nat
  rejected : DoorRejection → Nat
  spanMinutes : Int
  firstAtMs : Option ℚ
  lastAtMs : Option ℚ

/-- From the first door to the one that hits the target, or to the last. -/
def spanMs (counted : List DoorEvent) (target : Nat) : ℚ :=
  match counted, counted[min target counted.length - 1]? with
  | first :: _, some last => last.atMs - first.atMs
  | _, _ => 0

def countGenuineDoors (events : List DoorEvent) (config : DoorDayConfig) : GenuineDoorCount :=
  let s := scanDoors events config
  { counted := s.counted.length
    submitted := events.length
    rejected := s.rejected
    spanMinutes := (spanMs s.counted config.target / 60000).floor
    firstAtMs := s.counted.head?.map DoorEvent.atMs
    lastAtMs := s.counted.getLast?.map DoorEvent.atMs }

theorem DoorEvent.key_injective : Function.Injective DoorEvent.key := by
  rintro ⟨lead, time⟩ ⟨lead', time'⟩ h
  obtain ⟨rfl, rfl⟩ := Prod.mk.inj (toLex_inj.mp h)
  rfl

theorem DoorEvent.atMs_le {a b : DoorEvent} (h : a.key ≤ b.key) : a.atMs ≤ b.atMs := by
  rcases Prod.Lex.toLex_le_toLex.mp h with hlt | ⟨heq, -⟩
  · exact hlt.le
  · exact heq.le

theorem sortEvents_sorted (events : List DoorEvent) :
    (sortEvents events).Pairwise (·.key ≤ ·.key) := by
  have hsorted := @pairwise_mergeSort _ (fun a b : DoorEvent => decide (a.key ≤ b.key))
    (fun a b c => by simpa using fun hab hbc => hab.trans hbc)
    (fun a b => by simpa using le_total a.key b.key) events
  simpa [sortEvents] using hsorted

theorem sortEvents_perm (events : List DoorEvent) : (sortEvents events).Perm events :=
  mergeSort_perm events _

/-- Events in order are the sorted events of every list that they permute. -/
theorem eq_sortEvents {l events : List DoorEvent} (h : l.Perm events)
    (hl : l.Pairwise (·.key ≤ ·.key)) : l = sortEvents events := by
  apply (h.trans (sortEvents_perm events).symm).eq_of_pairwise _ hl (sortEvents_sorted events)
  intro a b _ _ hab hba
  exact DoorEvent.key_injective (le_antisymm hab hba)

/-- The rule is broken by an event after doors that have counted. -/
def Violates (config : DoorDayConfig) (doors : List DoorEvent) (e : DoorEvent) :
    DoorRejection → Prop
  | .sameAddress => ∃ d ∈ doors, d.leadId = e.leadId
  | .tooFast => ∃ d ∈ doors.getLast?, e.atMs - d.atMs < config.minGapMs
  | .hourCap => 0 < config.hourCap ∧ config.hourCap ≤ doors.countP (e.atMs - ·.atMs < hourMs)

/-- Each event breaks no rule after the doors that counted before it and counts, or is tallied
under a rule that it breaks after them. -/
inductive Screening (config : DoorDayConfig) :
    List DoorEvent → List DoorEvent → (DoorRejection → Nat) → Prop
  | nil : Screening config [] [] fun _ => 0
  | count {events doors tally e} (h : Screening config events doors tally)
      (hnone : ∀ r, ¬ Violates config doors e r) :
      Screening config (events ++ [e]) (doors ++ [e]) tally
  | reject {events doors tally e r} (h : Screening config events doors tally)
      (hrule : Violates config doors e r) :
      Screening config (events ++ [e]) doors (Function.update tally r (tally r + 1))

variable {config : DoorDayConfig} {e : DoorEvent} {doors events : List DoorEvent}
  {tally : DoorRejection → Nat}

structure Genuine (config : DoorDayConfig) (doors : List DoorEvent) : Prop where
  distinct : (doors.map DoorEvent.leadId).Nodup
  spaced : doors.IsChain fun a b => a.atMs + config.minGapMs ≤ b.atMs
  hourly : 0 < config.hourCap → ∀ start,
    doors.countP (fun d => start ≤ d.atMs ∧ d.atMs < start + hourMs) ≤ config.hourCap

namespace Screening

theorem genuine (h : Screening config events doors tally) : Genuine config doors := by
  induction h with
  | nil => exact ⟨nodup_nil, .nil, fun _ _ => Nat.zero_le _⟩
  | reject _ _ ih => exact ih
  | @count events doors tally e _ hnone ih =>
    constructor
    · rw [map_append, map_singleton]
      apply Nodup.append ih.distinct (nodup_singleton _)
      intro lead hold hnew
      obtain ⟨d, hd, rfl⟩ := mem_map.mp hold
      exact hnone .sameAddress ⟨d, hd, mem_singleton.mp hnew⟩
    · refine isChain_append.mpr ⟨ih.spaced, .singleton _, ?_⟩
      rintro d hd _ ⟨⟩
      have hgap := not_lt.mp fun hlt => hnone .tooFast ⟨d, hd, hlt⟩
      linarith
    · intro hcap start
      rw [countP_append, countP_singleton]
      by_cases hin : start ≤ e.atMs ∧ e.atMs < start + hourMs
      · -- the doors of the window are in the hour before its last door
        have hle : doors.countP (fun d => start ≤ d.atMs ∧ d.atMs < start + hourMs) ≤
            doors.countP (e.atMs - ·.atMs < hourMs) := by
          apply countP_mono_left
          intro d _ hd
          simp only [decide_eq_true_eq] at hd ⊢
          linarith
        have hlt := not_le.mp fun hle => hnone .hourCap ⟨hcap, hle⟩
        rw [if_pos (decide_eq_true hin)]
        omega
      · rw [if_neg (by simpa using hin)]
        exact ih.hourly hcap start

theorem total (h : Screening config events doors tally) :
    doors.length + tally .sameAddress + tally .tooFast + tally .hourCap = events.length := by
  induction h with
  | nil => rfl
  | count _ _ ih => simp only [length_append, length_singleton]; omega
  | @reject _ _ tally _ r _ _ ih =>
    rw [length_append, length_singleton, ← ih]
    cases r <;> simp [Function.update] <;> omega

end Screening

/-- What holds of a scan before the rest of the events. -/
structure Scanned (rest : List DoorEvent) (s : Scan) : Prop where
  sorted : (s.counted ++ rest).Pairwise (·.atMs ≤ ·.atMs)
  window : s.windowStart ≤ s.counted.length
  expired : ∀ d ∈ s.counted.take s.windowStart, ∀ e ∈ rest, hourMs ≤ e.atMs - d.atMs

theorem take_slide (s : Scan) (e : DoorEvent) :
    (s.slide e).counted.take (s.slide e).windowStart = s.counted.take s.windowStart ++
      (s.counted.drop s.windowStart).takeWhile (hourMs ≤ e.atMs - ·.atMs) := by
  unfold Scan.slide
  rw [take_add, ← prefix_iff_eq_take.mp ( takeWhile_prefix _)]

theorem old_of_mem_take {s : Scan} {rest : List DoorEvent} (h : Scanned (e :: rest) s) {d : DoorEvent}
    (hd : d ∈ (s.slide e).counted.take (s.slide e).windowStart) : hourMs ≤ e.atMs - d.atMs := by
  rw [take_slide] at hd
  rcases mem_append.mp hd with hd | hd
  · exact h.expired d hd e mem_cons_self
  · simpa using mem_takeWhile_imp hd

theorem Scanned.slide {s : Scan} {rest : List DoorEvent} (h : Scanned (e :: rest) s) :
    Scanned (e :: rest) (s.slide e) where
  sorted := h.sorted
  window := by
    have hle := (takeWhile_sublist (hourMs ≤ e.atMs - ·.atMs) (l := s.counted.drop s.windowStart)).length_le
    rw [length_drop] at hle
    have hwindow := h.window
    unfold Scan.slide
    dsimp only
    omega
  expired d hd e' he' := by
    have hold := old_of_mem_take h hd
    have hle : e.atMs ≤ e'.atMs := by
      rcases mem_cons.mp he' with rfl | he'
      · exact le_rfl
      · exact rel_of_pairwise_cons (pairwise_append.mp h.sorted).2.1 he'
    linarith

theorem young_of_mem_drop {l : List DoorEvent} (hl : l.Pairwise (·.atMs ≤ ·.atMs)) {d : DoorEvent}
    (hd : d ∈ l.drop (l.takeWhile (hourMs ≤ e.atMs - ·.atMs)).length) :
    e.atMs - d.atMs < hourMs := by
  induction l with
  | nil => simp at hd
  | cons a l ih =>
    by_cases hold : hourMs ≤ e.atMs - a.atMs
    · rw [takeWhile_cons_of_pos (by simpa using hold)] at hd
      exact ih hl.of_cons hd
    · rw [takeWhile_cons_of_neg (by simpa using hold)] at hd
      rcases mem_cons.mp hd with rfl | hd
      · exact not_le.mp hold
      · have hle := rel_of_pairwise_cons hl hd
        linarith

/-- Behind the window are the doors of the last hour. -/
theorem countP_window {s : Scan} {rest : List DoorEvent} (h : Scanned (e :: rest) s) :
    s.counted.countP (e.atMs - ·.atMs < hourMs) = s.counted.length - (s.slide e).windowStart := by
  have hsorted := (pairwise_append.mp h.sorted).1
  have hold : (s.counted.take (s.slide e).windowStart).countP (e.atMs - ·.atMs < hourMs) = 0 := by
    rw [countP_eq_zero]
    intro d hd
    simpa using old_of_mem_take h hd
  have hyoung : (s.counted.drop (s.slide e).windowStart).countP (e.atMs - ·.atMs < hourMs) =
      (s.counted.drop (s.slide e).windowStart).length := by
    rw [countP_eq_length]
    intro d hd
    unfold Scan.slide at hd
    rw [← drop_drop] at hd
    exact decide_eq_true (young_of_mem_drop (hsorted.sublist (drop_sublist _ _)) hd)
  rw [← length_drop, ← hyoung, ← Nat.zero_add (countP _ (drop _ _)), ← hold, ← countP_append,
    take_append_drop]

theorem Scanned.reject {s : Scan} {rest : List DoorEvent} (h : Scanned (e :: rest) s)
    (r : DoorRejection) : Scanned rest (s.reject r) where
  sorted := h.sorted.sublist ((sublist_cons_self e rest).append_left _)
  window := h.window
  expired d hd e' he' := h.expired d hd e' (mem_cons_of_mem e he')

theorem Scanned.count {s : Scan} {rest : List DoorEvent} (h : Scanned (e :: rest) s) :
    Scanned rest (s.count e) where
  sorted := by simpa [Scan.count] using h.sorted
  window := by
    have hwindow := h.window
    simp only [Scan.count, length_append, length_singleton]
    omega
  expired d hd e' he' := by
    rw [Scan.count, take_append_of_le_length h.window] at hd
    exact h.expired d hd e' (mem_cons_of_mem e he')

/-- A visit counts an event that breaks no rule, and else tallies it under one that it breaks. -/
theorem visit_cases {s : Scan} {rest : List DoorEvent} (h : Scanned (e :: rest) s) :
    ∃ s', s'.counted = s.counted ∧ s'.rejected = s.rejected ∧ Scanned (e :: rest) s' ∧
      ((∃ r, Violates config s.counted e r ∧ s.visit config e = s'.reject r) ∨
        ((∀ r, ¬ Violates config s.counted e r) ∧ s.visit config e = s'.count e)) := by
  have hlast : ∀ d ∈ s.counted.getLast?, d.atMs ≤ e.atMs := fun d hd =>
    (pairwise_append.mp h.sorted).2.2 d (mem_of_getLast? hd) e mem_cons_self
  unfold Scan.visit
  split
  · rename_i hseen
    refine ⟨s, rfl, rfl, h, .inl ⟨.sameAddress, ?_, rfl⟩⟩
    simpa [Violates] using hseen
  · rename_i hnew
    split
    · rename_i hfast
      refine ⟨s, rfl, rfl, h, .inl ⟨.tooFast, ?_, rfl⟩⟩
      rw [Bool.and_eq_true, Option.any_eq_true] at hfast
      simpa [Violates] using hfast.2
    · rename_i hslow
      have hnotFast : ¬ Violates config s.counted e .tooFast := by
        rintro ⟨d, hd, hlt⟩
        have hle := hlast d hd
        apply hslow
        rw [Bool.and_eq_true, Option.any_eq_true]
        exact ⟨decide_eq_true (by linarith), d, hd, decide_eq_true hlt⟩
      have hnotSeen : ¬ Violates config s.counted e .sameAddress := by
        simpa [Violates] using hnew
      split
      · rename_i hcap
        have hwindow := countP_window h
        dsimp only
        split
        · rename_i hfull
          refine ⟨s.slide e, rfl, rfl, h.slide, .inl ⟨.hourCap, ⟨hcap, ?_⟩, rfl⟩⟩
          rwa [hwindow]
        · rename_i hroom
          refine ⟨s.slide e, rfl, rfl, h.slide, .inr ⟨?_, rfl⟩⟩
          rintro (_ | _ | _)
          · exact hnotSeen
          · exact hnotFast
          · exact fun hfull => hroom (hwindow ▸ hfull.2)
      · rename_i hcap
        refine ⟨s, rfl, rfl, h, .inr ⟨?_, rfl⟩⟩
        rintro (_ | _ | _)
        · exact hnotSeen
        · exact hnotFast
        · exact fun hfull => hcap hfull.1

theorem Scanned.visit {s : Scan} {rest : List DoorEvent} (h : Scanned (e :: rest) s) :
    Scanned rest (s.visit config e) := by
  obtain ⟨s', -, -, h', ⟨r, -, heq⟩ | ⟨-, heq⟩⟩ := @visit_cases config _ _ _ h
  · exact heq ▸ h'.reject r
  · exact heq ▸ h'.count

open Classical in
theorem counted_visit {s : Scan} {rest : List DoorEvent} (h : Scanned (e :: rest) s) :
    (s.visit config e).counted =
      if ∃ r, Violates config s.counted e r then s.counted else s.counted ++ [e] := by
  obtain ⟨s', hcounted, -, -, ⟨r, hrule, heq⟩ | ⟨hnone, heq⟩⟩ := @visit_cases config _ _ _ h
  · rw [heq, if_pos ⟨r, hrule⟩]
    exact hcounted
  · rw [heq, if_neg (not_exists.mpr hnone), ← hcounted]
    rfl

theorem scanned_start (events : List DoorEvent) : Scanned (sortEvents events) {} where
  sorted := (sortEvents_sorted events).imp DoorEvent.atMs_le
  window := Nat.le_refl 0
  expired := nofun

/-- The scan is a screening of the events in their order. -/
theorem screening_foldl {events rest : List DoorEvent} {s : Scan} (h : Scanned rest s)
    (hs : Screening config events s.counted s.rejected) :
    Screening config (events ++ rest) (rest.foldl (Scan.visit config) s).counted
      (rest.foldl (Scan.visit config) s).rejected := by
  induction rest generalizing events s with
  | nil => simpa using hs
  | cons e rest ih =>
    rw [foldl_cons, append_cons]
    obtain ⟨s', hcounted, hrejected, h', ⟨r, hrule, heq⟩ | ⟨hnone, heq⟩⟩ :=
      @visit_cases config _ _ _ h
    · rw [heq]
      apply ih (h'.reject r)
      simp only [Scan.reject, hcounted, hrejected]
      exact hs.reject hrule
    · rw [heq]
      apply ih h'.count
      simp only [Scan.count, hcounted, hrejected]
      exact hs.count hnone

end HomefrontFiber.DoorBonus
