import Mathlib.Algebra.Order.Group.Int
import Mathlib.Data.List.Induction
import HomefrontFiber.Foundation.Runs
import HomefrontFiber.Observation.Persist

/-!
# Availability in provider time

A snapshot finds its predecessor by the provider's instants, in whatever order the observations arrive.
The target does not: its columns repeat the conclusive observation that arrived last. They are right
when that one agrees with the newest one. And they come back as evidence of the instant at which they
were written, where they can hide a switch-on.
-/

namespace HomefrontFiber.Observation

open List Option

section Newest

variable {ms : Int} {snapshots : List Snapshot}

theorem newestBefore_snoc (ms : Int) (snapshots : List Snapshot) (s : Snapshot) :
    newestBefore ms (snapshots ++ [s]) =
      if s.answers && s.checkedAtEpoch < ms &&
          (newestBefore ms snapshots).all (·.checkedAtEpoch ≤ s.checkedAtEpoch) then some s
      else newestBefore ms snapshots := by
  rw [newestBefore, foldl_append]
  rfl

theorem newestBefore_mem {s : Snapshot} (h : newestBefore ms snapshots = some s) :
    s ∈ snapshots ∧ s.answers = true ∧ s.checkedAtEpoch < ms := by
  induction snapshots using List.reverseRecOn with
  | nil => cases h
  | append_singleton snapshots last ih =>
    rw [newestBefore_snoc] at h
    split at h
    · rename_i hlast
      simp only [Bool.and_eq_true, decide_eq_true_eq] at hlast
      cases h
      exact ⟨by simp, hlast.1.1, hlast.1.2⟩
    · obtain ⟨hmem, hrest⟩ := ih h
      exact ⟨mem_append_left _ hmem, hrest⟩

theorem newestBefore_eq_of_le {ms' : Int} (hle : ms' ≤ ms)
    (h : (newestBefore ms snapshots).all (·.checkedAtEpoch < ms') = true) :
    newestBefore ms' snapshots = newestBefore ms snapshots := by
  induction snapshots using List.reverseRecOn with
  | nil => rfl
  | append_singleton snapshots last ih =>
    have hstep := newestBefore_snoc ms snapshots last
    by_cases hcand : (last.answers && decide (last.checkedAtEpoch < ms)) = true
    · rw [hcand, Bool.true_and] at hstep
      by_cases hnewer : (newestBefore ms snapshots).all (·.checkedAtEpoch ≤ last.checkedAtEpoch) = true
      · rw [if_pos hnewer] at hstep
        rw [hstep] at h
        simp only [all_some, decide_eq_true_eq] at h
        simp only [Bool.and_eq_true, decide_eq_true_eq] at hcand
        have hold : (newestBefore ms snapshots).all (·.checkedAtEpoch < ms') = true := by
          cases hn : newestBefore ms snapshots with
          | none => rfl
          | some n =>
            simp only [hn, all_some, decide_eq_true_eq] at hnewer ⊢
            exact lt_of_le_of_lt hnewer h
        rw [hstep, newestBefore_snoc, ih hold, if_pos (by simp [hcand.1, h, hnewer])]
      · rw [if_neg hnewer] at hstep
        rw [hstep] at h ⊢
        rw [newestBefore_snoc, ih h, if_neg (by simp [hnewer])]
    · rw [Bool.not_eq_true] at hcand
      rw [hcand, Bool.false_and, if_neg (by decide)] at hstep
      rw [hstep] at h ⊢
      rw [newestBefore_snoc, ih h, if_neg]
      simp only [Bool.and_eq_false_iff, decide_eq_false_iff_not] at hcand
      simp only [Bool.and_eq_true, decide_eq_true_eq, not_and]
      intro hanswers
      rcases hcand with hfalse | hlate
      · exact absurd hanswers.1 (by simp [hfalse])
      · omega

end Newest

def observe (d : Door) (c : Call) : Door :=
  match persistKineticObservation d c with
  | .ok d' => d'
  | .error _ => d

/-- Each conclusive snapshot is fresh exactly when it reports fiber and its newest predecessor by
instant, among the snapshots on record, does not. -/
def freshByHistory : List Snapshot → List Snapshot → Prop
  | _, [] => True
  | history, s :: added =>
    (s.conclusive = true → s.fresh = (s.fiberAvailable = some true &&
      (newestBefore s.checkedAtEpoch history).any (·.fiberAvailable = some false))) ∧
    freshByHistory (history ++ [s]) added

def TargetState.lastKnown (t : TargetState) :
    Option Int × Option Bool × Option Text × Bool × Option Text × Option Text :=
  (t.lastScannedAt, t.lastFiberAvailable, t.lastFiberStatus, t.lastIsNewFiber, t.lastBillingStatus,
    t.lastAvailabilityStatus)

structure StepLaw (d d' : Door) (c : Call) : Prop where
  /-- An inconclusive observation leaves the columns and every snapshot alone. -/
  inert : c.verdict = none → d'.target.lastKnown = d.target.lastKnown
  kept : d.snapshots <+: d'.snapshots
  /-- A body that says unqualified is never recorded as available. -/
  body : corroborateAvailability c.observation.rawResponse = .unqualified →
    c.verdict ≠ some true ∧ (d'.snapshots.getLast?.all (·.fiberAvailable = c.verdict)) = true
  fresh : freshByHistory d.snapshots (d'.snapshots.drop d.snapshots.length)

def newestAnswer (answers : List (Int × Bool)) : Option (Int × Bool) :=
  answers.foldl (fun newest a => if newest.all (·.1 ≤ a.1) then some a else newest) none

/-- The conclusive observations in the order of their arrival. -/
def answersOf (calls : List Call) : List (Int × Bool) :=
  calls.filterMap fun c =>
    match explicitPrevious c with
    | .ok _ => c.verdict.map fun fiberAvailable => (c.observedMs, fiberAvailable)
    | .error _ => none

/-- Every call respects the law, and in the end the target repeats the newest answer. -/
structure ReadInProviderTime (d : Door) (calls : List Call) : Prop where
  steps : Along observe (fun d c => persistKineticObservation d c = .ok (observe d c) →
    StepLaw d (observe d c) c) d calls
  last : ∀ a ∈ newestAnswer (answersOf calls),
    (run observe d calls).target.lastFiberAvailable = some a.2

def baselineOf (d : Door) (c : Call) : Option PreviousState :=
  match explicitPrevious c with
  | .ok explicit => baseline d c.observedMs explicit
  | .error _ => none

/-- The columns of the target do not come back as available above an unavailable snapshot. -/
def BaselineAgrees (d : Door) (c : Call) : Prop :=
  ∀ p ∈ baselineOf d c, p.fiberAvailable = true →
    (newestBefore c.observedMs d.snapshots).all (·.fiberAvailable ≠ some false) = true

/-- The conclusive observation that arrived last agrees with the newest one. -/
def LastAgrees (calls : List Call) : Prop :=
  (answersOf calls).getLast?.map (·.2) = (newestAnswer (answersOf calls)).map (·.2)

variable {d d' : Door} {c : Call} {p : PreviousState}

theorem persist_ok (h : persistKineticObservation d c = .ok d') :
    ∃ explicit, explicitPrevious c = .ok explicit ∧
      d'.snapshots = d.snapshots ++
        (baseline d c.observedMs explicit).toList.map baselineSnapshot ++
        [{ checkedAtEpoch := c.observedMs
           conclusive := c.verdict.isSome
           fiberAvailable := c.verdict
           transitionStatus := (classifyFiberAvailabilityTransition
             (((baseline d c.observedMs explicit).or
               (persisted (newestBefore c.observedMs d.snapshots))).map (·.fiberAvailable))
             c.verdict).status
           fresh := (classifyFiberAvailabilityTransition
             (((baseline d c.observedMs explicit).or
               (persisted (newestBefore c.observedMs d.snapshots))).map (·.fiberAvailable))
             c.verdict).fresh }] ∧
      (∀ fiberAvailable, c.verdict = some fiberAvailable →
        d'.target.lastFiberAvailable = some fiberAvailable) ∧
      (c.verdict = none → d'.target = bumpScanTargetInconclusive d.target) := by
  unfold persistKineticObservation at h
  cases hexplicit : explicitPrevious c with
  | error e =>
    rw [hexplicit] at h
    cases h
  | ok explicit =>
    rw [hexplicit] at h
    cases h
    refine ⟨explicit, rfl, rfl, ?_, ?_⟩
    · intro fiberAvailable hverdict
      simp only [hverdict]
      rfl
    · intro hverdict
      simp only [hverdict]

theorem fresh_classify (previous : Option Bool) (current : Option Bool) :
    (classifyFiberAvailabilityTransition previous current).fresh =
      (current = some true && previous = some false) := by
  cases current with
  | none => rfl
  | some current =>
    cases previous with
    | none => cases current <;> rfl
    | some previous => cases current <;> cases previous <;> rfl

/-- The normalised evidence lies strictly between the newest earlier snapshot and the observation. -/
theorem baseline_between {explicit : Option PreviousState}
    (hexplicit : explicitPrevious c = .ok explicit) (hp : baseline d c.observedMs explicit = some p) :
    p.observedAt < c.observedMs ∧
      (newestBefore c.observedMs d.snapshots).all (·.checkedAtEpoch < p.observedAt) = true := by
  have hlatest : ∀ q : PreviousState,
      (persisted (newestBefore c.observedMs d.snapshots)).all (·.observedAt < q.observedAt) = true →
      (newestBefore c.observedMs d.snapshots).all (·.checkedAtEpoch < q.observedAt) = true := by
    intro q hq
    cases hn : newestBefore c.observedMs d.snapshots with
    | none => rfl
    | some n =>
      have hanswers := (newestBefore_mem hn).2.1
      simp only [Snapshot.answers, Bool.and_eq_true, isSome_iff_exists] at hanswers
      obtain ⟨-, fiberAvailable, hsome⟩ := hanswers
      simpa [hn, persisted, hsome] using hq
  have htarget : ∀ q, newer (persisted (newestBefore c.observedMs d.snapshots))
      ((legacyStateFromTarget d.target).filter (·.observedAt < c.observedMs)) = some q →
      q.observedAt < c.observedMs ∧
        (newestBefore c.observedMs d.snapshots).all (·.checkedAtEpoch < q.observedAt) = true := by
    intro q hq
    rw [newer, filter_eq_some_iff, filter_eq_some_iff] at hq
    exact ⟨by simpa using hq.1.2, hlatest q hq.2⟩
  unfold baseline at hp
  simp only at hp
  rw [or_eq_some_iff] at hp
  rcases hp with hnew | ⟨-, hold⟩
  · rw [newer, filter_eq_some_iff] at hnew
    obtain ⟨hsome, hknown⟩ := hnew
    have hbefore : p.observedAt < c.observedMs := by
      unfold explicitPrevious at hexplicit
      split at hexplicit
      · cases hexplicit
        cases hsome
      · split at hexplicit
        · cases hexplicit
        · split at hexplicit
          · cases hexplicit
          · rename_i observedAt _ hrefused
            cases hexplicit
            cases hsome
            simp only [Bool.or_eq_true, decide_eq_true_eq, not_or, not_le] at hrefused
            exact hrefused.1
    refine ⟨hbefore, ?_⟩
    cases hfrom : newer (persisted (newestBefore c.observedMs d.snapshots))
        ((legacyStateFromTarget d.target).filter (·.observedAt < c.observedMs)) with
    | none =>
      rw [hfrom, none_or] at hknown
      exact hlatest p hknown
    | some q =>
      rw [hfrom, some_or, all_some, decide_eq_true_eq] at hknown
      have hq := (htarget q hfrom).2
      cases hn : newestBefore c.observedMs d.snapshots with
      | none => rfl
      | some n =>
        simp only [hn, all_some, decide_eq_true_eq] at hq ⊢
        exact hq.trans hknown
  · exact htarget p hold

theorem persisted_unavailable (n : Option Snapshot) :
    decide ((persisted n).map (·.fiberAvailable) = some false) =
      n.any fun s => decide (s.fiberAvailable = some false) := by
  cases n with
  | none => rfl
  | some n => cases hn : n.fiberAvailable <;> simp [persisted, hn]

theorem newestBefore_baseline (hbefore : p.observedAt < c.observedMs)
    (hnewer : (newestBefore c.observedMs d.snapshots).all (·.checkedAtEpoch < p.observedAt) = true) :
    newestBefore c.observedMs (d.snapshots ++ [baselineSnapshot p]) = some (baselineSnapshot p) := by
  rw [newestBefore_snoc, if_pos]
  have hle : (newestBefore c.observedMs d.snapshots).all
      (·.checkedAtEpoch ≤ (baselineSnapshot p).checkedAtEpoch) = true := by
    cases hn : newestBefore c.observedMs d.snapshots with
    | none => rfl
    | some n =>
      simp only [hn, all_some, decide_eq_true_eq] at hnewer ⊢
      exact hnewer.le
  have hepoch : (baselineSnapshot p).checkedAtEpoch < c.observedMs := hbefore
  rw [hle, Bool.and_true, Bool.and_eq_true, decide_eq_true_eq]
  exact ⟨rfl, hepoch⟩

theorem freshByHistory_iff (h : persistKineticObservation d c = .ok d') :
    freshByHistory d.snapshots (d'.snapshots.drop d.snapshots.length) ↔ BaselineAgrees d c := by
  obtain ⟨explicit, hexplicit, hsnapshots, -, -⟩ := persist_ok h
  have hbaseline : baselineOf d c = baseline d c.observedMs explicit := by
    rw [baselineOf, hexplicit]
  rw [hsnapshots, append_assoc, drop_left, BaselineAgrees, hbaseline]
  cases hprior : baseline d c.observedMs explicit with
  | none =>
    simp only [toList_none, map_nil, nil_append, freshByHistory, none_or,
      fresh_classify, persisted_unavailable]
    simp
  | some p =>
    obtain ⟨hbefore, hnewer⟩ := baseline_between hexplicit hprior
    have hsame : newestBefore p.observedAt d.snapshots = newestBefore c.observedMs d.snapshots :=
      newestBefore_eq_of_le hbefore.le hnewer
    have hlast := newestBefore_baseline hbefore hnewer
    simp only [toList_some, map_cons, map_nil, singleton_append,
      freshByHistory, some_or, map_some, fresh_classify, hlast, any_some]
    have hbase : (baselineSnapshot p).checkedAtEpoch = p.observedAt := rfl
    rw [hbase, hsame]
    constructor
    · rintro ⟨hfresh, -⟩ q hq hlive
      cases hq
      have hnone := hfresh rfl
      simp only [baselineSnapshot, hlive, decide_true, Bool.true_and] at hnone
      cases hn : newestBefore c.observedMs d.snapshots with
      | none => rfl
      | some n => simpa [hn] using hnone
    · intro hagrees
      refine ⟨fun _ => ?_, fun _ => ?_, trivial⟩
      · cases hlive : p.fiberAvailable with
        | false => simp [baselineSnapshot, hlive]
        | true =>
          have hnone := hagrees p rfl hlive
          cases hn : newestBefore c.observedMs d.snapshots with
          | none => simp [baselineSnapshot]
          | some n => simpa [hn, baselineSnapshot, hlive] using hnone
      · rfl

theorem verdict_of_unqualified
    (h : corroborateAvailability c.observation.rawResponse = .unqualified) :
    c.verdict ≠ some true := by
  unfold Call.verdict inferAvailability
  split
  · simp
  · split
    · simp
    · rename_i hclaim
      simp only [Bool.or_eq_true, decide_eq_true_eq, not_or] at hclaim
      split
      · exact hclaim.1
      · split <;> simp

theorem lastKnown_bump (t : TargetState) :
    (bumpScanTargetInconclusive t).lastKnown = t.lastKnown := by
  unfold bumpScanTargetInconclusive
  split <;> rfl

theorem stepLaw_iff (h : persistKineticObservation d c = .ok d') :
    StepLaw d d' c ↔ BaselineAgrees d c := by
  rw [← freshByHistory_iff h]
  refine ⟨fun hlaw => hlaw.fresh, fun hfresh => ?_⟩
  obtain ⟨explicit, -, hsnapshots, -, hinert⟩ := persist_ok h
  constructor
  · intro hverdict
    rw [hinert hverdict]
    exact lastKnown_bump d.target
  · rw [hsnapshots, append_assoc]
    exact prefix_append _ _
  · intro hbody
    refine ⟨verdict_of_unqualified hbody, ?_⟩
    rw [hsnapshots, getLast?_concat]
    simp
  · exact hfresh

theorem observe_eq :
    persistKineticObservation d c = .ok (observe d c) ∨
      observe d c = d ∧ ∃ e, explicitPrevious c = .error e := by
  unfold observe
  cases h : persistKineticObservation d c with
  | ok d' => exact Or.inl rfl
  | error e =>
    refine Or.inr ⟨rfl, ?_⟩
    unfold persistKineticObservation at h
    cases hexplicit : explicitPrevious c with
    | error e => exact ⟨e, rfl⟩
    | ok explicit =>
      rw [hexplicit] at h
      cases h

theorem lastFiberAvailable_run (d : Door) (calls : List Call) :
    (run observe d calls).target.lastFiberAvailable =
      ((answersOf calls).getLast?.map (·.2)).or d.target.lastFiberAvailable := by
  induction calls using List.reverseRecOn with
  | nil => rfl
  | append_singleton calls c ih =>
    have hanswers : answersOf (calls ++ [c]) = answersOf calls ++ answersOf [c] :=
      filterMap_append
    rw [run_append, run_cons, run_nil, hanswers]
    rcases observe_eq (d := run observe d calls) (c := c) with hok | ⟨hsame, e, herror⟩
    · obtain ⟨explicit, hexplicit, -, hlive, hinert⟩ := persist_ok hok
      cases hverdict : c.verdict with
      | none =>
        have hnone : answersOf [c] = [] := by simp [answersOf, hexplicit, hverdict]
        have hcolumns := lastKnown_bump (run observe d calls).target
        rw [hinert hverdict, hnone, append_nil, ← ih]
        exact congrArg (fun columns => columns.2.1) hcolumns
      | some fiberAvailable =>
        have hsome : answersOf [c] = [(c.observedMs, fiberAvailable)] := by
          simp [answersOf, hexplicit, hverdict]
        rw [hlive fiberAvailable hverdict, hsome, getLast?_concat]
        rfl
    · have hnone : answersOf [c] = [] := by simp [answersOf, herror]
      rw [hsame, hnone, append_nil]
      exact ih

theorem newestAnswer_snoc (answers : List (Int × Bool)) (a : Int × Bool) :
    newestAnswer (answers ++ [a]) =
      if (newestAnswer answers).all (·.1 ≤ a.1) then some a else newestAnswer answers := by
  rw [newestAnswer, foldl_append]
  rfl

theorem newestAnswer_isSome {answers : List (Int × Bool)} (h : answers ≠ []) :
    (newestAnswer answers).isSome = true := by
  induction answers using List.reverseRecOn with
  | nil => exact absurd rfl h
  | append_singleton answers a ih =>
    rw [newestAnswer_snoc]
    split
    · rfl
    · rename_i hnewer
      cases hn : newestAnswer answers with
      | none => simp [hn] at hnewer
      | some n => rfl

/-- A door is read in provider time exactly when its columns never come back as available above an
unavailable snapshot, and the conclusive observation that arrived last agrees with the newest one. -/
theorem readInProviderTime_iff (d : Door) (calls : List Call) :
    ReadInProviderTime d calls ↔ Along observe BaselineAgrees d calls ∧ LastAgrees calls := by
  have hsteps : Along observe (fun d c => persistKineticObservation d c = .ok (observe d c) →
      StepLaw d (observe d c) c) d calls ↔ Along observe BaselineAgrees d calls := by
    apply along_congr (I := fun _ => True) (fun _ _ _ => trivial)
    · intro d c _
      rcases observe_eq (d := d) (c := c) with hok | ⟨hsame, e, herror⟩
      · exact ⟨fun hlaw => (stepLaw_iff hok).mp (hlaw hok), fun hagrees _ => (stepLaw_iff hok).mpr hagrees⟩
      · constructor
        · intro _ p hp
          simp [baselineOf, herror] at hp
        · intro _ hok
          obtain ⟨explicit, hexplicit, -⟩ := persist_ok hok
          rw [herror] at hexplicit
          cases hexplicit
    · trivial
  have hlast : (∀ a ∈ newestAnswer (answersOf calls),
      (run observe d calls).target.lastFiberAvailable = some a.2) ↔ LastAgrees calls := by
    rw [lastFiberAvailable_run, LastAgrees]
    cases hanswers : (answersOf calls).getLast? with
    | none =>
      rw [getLast?_eq_none_iff] at hanswers
      rw [hanswers]
      exact ⟨fun _ => rfl, fun _ a ha => by cases ha⟩
    | some last =>
      have hne : answersOf calls ≠ [] := by
        intro hnil
        rw [hnil] at hanswers
        cases hanswers
      obtain ⟨n, hn⟩ := isSome_iff_exists.mp (newestAnswer_isSome hne)
      rw [hn]
      simp
  exact ⟨fun h => ⟨hsteps.mp h.steps, hlast.mp h.last⟩,
    fun h => ⟨hsteps.mpr h.1, hlast.mpr h.2⟩⟩

def newDoor : Door where
  target :=
    { lastScannedAt := none
      lastFiberAvailable := none
      lastFiberStatus := none
      lastIsNewFiber := false
      lastBillingStatus := none
      lastAvailabilityStatus := none
      firstSeenLiveAt := none
      firstSeenFiberAt := none
      negStreak := 0
      scanCount := 0
      inconclusiveAttempts := 0 }
  snapshots := []

/-- A classified answer without a body, with its instant and the instant of its arrival. -/
def answered (fiberAvailable : Bool) (discoveredAt writeMs : Int) : Call where
  observation :=
    { fiberStatus := none
      fiberAvailable := some fiberAvailable
      isNewFiber := none
      billingStatus := none
      apiSource := none
      blocked := false
      checkFailed := false
      discoveredAt := some discoveredAt
      rawResponse := .absent }
  legacyPriorUnavailableEvidence := none
  writeMs := writeMs

/-- The answer of ten o'clock arrives before the one of nine o'clock, which takes the columns. -/
theorem not_readInProviderTime_late :
    ¬ ReadInProviderTime newDoor
      [answered true 36000000 36005000, answered false 32400000 36010000] := by
  intro h
  have hlast := h.last (36000000, true) (by decide)
  revert hlast
  decide

end HomefrontFiber.Observation
