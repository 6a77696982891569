import HomefrontFiber.ScanRun.Store
import Mathlib.Data.List.Dedup
import Mathlib.Data.List.Forall2

/-!
# The counters are the ledger

Every statement moves a pending target and leaves the others alone, and the counters of the run
are bumped exactly when a target becomes verified or failed. So whatever the order of claims,
finalizations, requeues and resets, the counters are the numbers of the targets in those states.
-/

namespace HomefrontFiber.ScanRun

open List

/-- A target keeps its id, and its state once that is terminal. -/
def Moved (t t' : RunTarget) : Prop :=
  t'.targetId = t.targetId ∧ (t.state.pending = false → t'.state = t.state)

theorem Moved.refl (t : RunTarget) : Moved t t := ⟨rfl, fun _ => rfl⟩

theorem Moved.trans {a b c : RunTarget} (hab : Moved a b) (hbc : Moved b c) : Moved a c := by
  refine ⟨hbc.1.trans hab.1, fun hterminal => ?_⟩
  have hb := hab.2 hterminal
  rw [hbc.2 (by rw [hb]; exact hterminal), hb]

abbrev AllMoved (targets targets' : List RunTarget) : Prop := List.Forall₂ Moved targets targets'

theorem AllMoved.refl (targets : List RunTarget) : AllMoved targets targets :=
  forall₂_same.mpr fun t _ => Moved.refl t

theorem AllMoved.trans {as bs cs : List RunTarget} (hab : AllMoved as bs) (hbc : AllMoved bs cs) :
    AllMoved as cs := by
  induction hab generalizing cs with
  | nil =>
    cases hbc
    exact List.Forall₂.nil
  | cons hhead _ ih =>
    cases hbc with
    | cons hhead' htail' => exact List.Forall₂.cons (hhead.trans hhead') (ih htail')

section Updates

variable {targets : List RunTarget} {wanted : RunTarget → Bool} {set : RunTarget → RunTarget}

theorem allMoved_updateTargets (hset : ∀ t, wanted t = true → Moved t (set t)) :
    AllMoved targets (updateTargets targets wanted set).1 := by
  rw [updateTargets_fst, AllMoved, forall₂_map_right_iff]
  apply forall₂_same.mpr
  intro t _
  split
  · exact hset t ‹_›
  · exact Moved.refl t

theorem countP_updateTargets_of_iff {p : RunTarget → Bool}
    (hset : ∀ t, wanted t = true → p (set t) = p t) :
    (updateTargets targets wanted set).1.countP p = targets.countP p := by
  rw [updateTargets_fst, countP_map]
  apply countP_congr
  intro t _
  simp only [Function.comp_apply]
  split
  · rw [hset t ‹_›]
  · exact Iff.rfl

theorem countP_updateTargets_of_into {p : RunTarget → Bool} (hfrom : ∀ t, wanted t = true → p t = false)
    (hinto : ∀ t, wanted t = true → p (set t) = true) :
    (updateTargets targets wanted set).1.countP p = targets.countP p + targets.countP wanted := by
  rw [updateTargets_fst]
  induction targets with
  | nil => rfl
  | cons t targets ih =>
    rw [map_cons, countP_cons, ih, countP_cons, countP_cons]
    by_cases hwanted : wanted t = true
    · rw [if_pos hwanted, hinto t hwanted, hfrom t hwanted]
      simp [hwanted]
      omega
    · simp [hwanted]
      omega

end Updates

def numIn (state : TargetState) (targets : List RunTarget) : Nat :=
  targets.countP (·.state = state)

structure Counted (db : RunDb) : Prop where
  distinct : (db.targets.map (·.targetId)).Nodup
  verified : db.run.verified = numIn .verified db.targets
  failed : db.run.failed = numIn .failed db.targets

/-- What a statement without finalization does: its rows stay out of the counted states. -/
structure Uncounted (db db' : RunDb) : Prop where
  moved : AllMoved db.targets db'.targets
  ids : db'.targets.map (·.targetId) = db.targets.map (·.targetId)
  verified : db'.run.verified = db.run.verified ∧
    numIn .verified db'.targets = numIn .verified db.targets
  failed : db'.run.failed = db.run.failed ∧ numIn .failed db'.targets = numIn .failed db.targets
  budget : db'.run.budget = db.run.budget

theorem Uncounted.refl (db : RunDb) : Uncounted db db :=
  ⟨AllMoved.refl _, rfl, ⟨rfl, rfl⟩, ⟨rfl, rfl⟩, rfl⟩

theorem Uncounted.trans {a b c : RunDb} (hab : Uncounted a b) (hbc : Uncounted b c) :
    Uncounted a c where
  moved := hab.moved.trans hbc.moved
  ids := hbc.ids.trans hab.ids
  verified := ⟨hbc.verified.1.trans hab.verified.1, hbc.verified.2.trans hab.verified.2⟩
  failed := ⟨hbc.failed.1.trans hab.failed.1, hbc.failed.2.trans hab.failed.2⟩
  budget := hbc.budget.trans hab.budget

theorem Uncounted.counted {db db' : RunDb} (h : Uncounted db db') (hcounted : Counted db) :
    Counted db' where
  distinct := h.ids ▸ hcounted.distinct
  verified := by rw [h.verified.1, h.verified.2, hcounted.verified]
  failed := by rw [h.failed.1, h.failed.2, hcounted.failed]

theorem uncounted_run {db : RunDb} {run : ScanRunRow} (hverified : run.verified = db.run.verified)
    (hfailed : run.failed = db.run.failed) (hbudget : run.budget = db.run.budget) :
    Uncounted db { db with run } :=
  ⟨AllMoved.refl _, rfl, ⟨hverified, rfl⟩, ⟨hfailed, rfl⟩, hbudget⟩

/-- A set of one target that keeps its id, its terminal state, and the counted states. -/
structure Plain (wanted : RunTarget → Bool) (set : RunTarget → RunTarget) : Prop where
  ids : ∀ t, (set t).targetId = t.targetId
  states : ∀ t, wanted t = true → (set t).state = t.state ∨
    t.state.pending = true ∧ (set t).state ≠ .verified ∧ (set t).state ≠ .failed

section Plain

variable {targets : List RunTarget} {wanted : RunTarget → Bool} {set : RunTarget → RunTarget}

theorem Plain.moved (h : Plain wanted set) : AllMoved targets (updateTargets targets wanted set).1 := by
  apply allMoved_updateTargets
  intro t hwanted
  refine ⟨h.ids t, fun hterminal => ?_⟩
  obtain hsame | ⟨hpending, -⟩ := h.states t hwanted
  · exact hsame
  · rw [hterminal] at hpending
    cases hpending

theorem Plain.numIn (h : Plain wanted set) {state : TargetState} (hpending : state.pending = false)
    (hstate : state = .verified ∨ state = .failed) :
    ScanRun.numIn state (updateTargets targets wanted set).1 = ScanRun.numIn state targets := by
  apply countP_updateTargets_of_iff
  intro t hwanted
  obtain hsame | ⟨hold, hverified, hfailed⟩ := h.states t hwanted
  · rw [hsame]
  · have hnew : (set t).state ≠ state := by
      obtain rfl | rfl := hstate
      · exact hverified
      · exact hfailed
    have hbefore : t.state ≠ state := by
      rintro rfl
      rw [hpending] at hold
      cases hold
    simp [hnew, hbefore]

theorem Plain.uncounted (h : Plain wanted set) (db : RunDb) :
    Uncounted db { db with targets := (updateTargets db.targets wanted set).1 } :=
  ⟨h.moved, updateTargets_ids h.ids, ⟨rfl, h.numIn rfl (.inl rfl)⟩, ⟨rfl, h.numIn rfl (.inr rfl)⟩, rfl⟩

end Plain

theorem plain_boundedSkip (reason : String) (targetId : Int) :
    Plain (fun t => t.targetId = targetId && t.state = .queued)
      (fun t => { t with state := .skipped, result := some reason, nextAttemptAt := none }) where
  ids _ := rfl
  states t h := by
    rw [Bool.and_eq_true, decide_eq_true_eq, decide_eq_true_eq] at h
    exact .inr ⟨by rw [h.2]; rfl, by simp, by simp⟩

theorem plain_claimMark (targetId now : Int) :
    Plain (fun t => t.targetId = targetId && t.state = .queued && due now t)
      (fun t => { t with state := .inflight, attemptCount := t.attemptCount + 1 }) where
  ids _ := rfl
  states t h := by
    rw [Bool.and_eq_true, Bool.and_eq_true, decide_eq_true_eq, decide_eq_true_eq] at h
    exact .inr ⟨by rw [h.1.2]; rfl, by simp, by simp⟩

theorem plain_skipWhere (reason : String) (views : TargetViews) (now : Int)
    (named : TargetView → Bool) :
    Plain (fun t => t.state = .queued && due now t && (views t.targetId).any named)
      (fun t => { t with state := .skipped, result := some reason, nextAttemptAt := none }) where
  ids _ := rfl
  states t h := by
    rw [Bool.and_eq_true, Bool.and_eq_true, decide_eq_true_eq] at h
    exact .inr ⟨by rw [h.1.1]; rfl, by simp, by simp⟩

theorem uncounted_claimLoop (policy : ClaimPolicy) (limit : Nat) (now : Int)
    (rows : List (RunTarget × TargetView)) (db : RunDb) (cycle : ClaimCycle) :
    Uncounted db { db with targets := (claimLoop policy limit now rows (db.targets, cycle)).1 } := by
  induction rows generalizing db cycle with
  | nil => exact Uncounted.refl db
  | cons row rows ih =>
    obtain ⟨row, view⟩ := row
    unfold claimLoop
    split
    · exact Uncounted.refl db
    · split
      · exact ((plain_boundedSkip _ row.targetId).uncounted db).trans (ih _ _)
      · exact ((plain_claimMark row.targetId now).uncounted db).trans (ih _ _)

theorem uncounted_claimRunTargetCycle (db : RunDb) (tenantId limit : Int) (policy : ClaimPolicy)
    (views : TargetViews) (now : Int) :
    Uncounted db (claimRunTargetCycle db tenantId limit policy views now).1 := by
  unfold claimRunTargetCycle
  split
  · exact uncounted_claimLoop policy _ now _ db {}
  · exact Uncounted.refl db

theorem uncounted_markLoop (now : Int) (ids : List Int) (db : RunDb) (claimed : List Int) :
    Uncounted db { db with targets := (markLoop now ids (db.targets, claimed)).1 } := by
  induction ids generalizing db claimed with
  | nil => exact Uncounted.refl db
  | cons targetId ids ih => exact ((plain_claimMark targetId now).uncounted db).trans (ih _ _)

theorem uncounted_claimRunTargets (db : RunDb) (limit : Nat) (policy : ClaimPolicy)
    (views : TargetViews) (now : Int) :
    Uncounted db (claimRunTargets db limit policy views now).1 := by
  have hskip : ∀ (db : RunDb) (reason : String) (named : TargetView → Bool),
      Uncounted db { db with targets := skipWhere db.targets reason views now named } :=
    fun db reason named => (plain_skipWhere reason views now named).uncounted db
  unfold claimRunTargets
  by_cases hexempt : policy.exempt = true
  · rw [if_pos hexempt]
    exact uncounted_markLoop now _ db []
  · rw [if_neg hexempt]
    by_cases honce : policy.onceOnly = true
    · rw [if_pos honce]
      exact ((hskip db ANSWERED _).trans (hskip _ PARKED _)).trans (uncounted_markLoop now _ _ [])
    · rw [if_neg honce]
      by_cases hskipped : 0 < policy.skipSeconds
      · rw [if_pos hskipped]
        exact ((hskip db RECENT _).trans (hskip _ PARKED _)).trans (uncounted_markLoop now _ _ [])
      · rw [if_neg hskipped]
        exact (hskip db PARKED _).trans (uncounted_markLoop now _ _ [])

theorem uncounted_requeueRunTarget (db : RunDb) (targetId delaySeconds now : Int) :
    Uncounted db (requeueRunTarget db targetId delaySeconds now) := by
  apply Plain.uncounted
  refine ⟨fun _ => rfl, fun t h => ?_⟩
  rw [Bool.and_eq_true, decide_eq_true_eq, decide_eq_true_eq] at h
  exact .inr ⟨by rw [h.2]; rfl, by simp, by simp⟩

theorem uncounted_recordFiberFailure (db : RunDb) (targetId : Int) (attempt : Nat)
    (needsFix : Bool) : Uncounted db (recordFiberFailure db targetId attempt needsFix) := by
  apply Plain.uncounted
  exact ⟨fun _ => rfl, fun _ _ => .inl rfl⟩

theorem uncounted_resetInflightTargets (db : RunDb) : Uncounted db (resetInflightTargets db) := by
  apply Plain.uncounted
  refine ⟨fun _ => rfl, fun t h => ?_⟩
  rw [decide_eq_true_eq] at h
  exact .inr ⟨by rw [h]; rfl, by simp, by simp⟩

theorem uncounted_terminalizeQueuedTail (db : RunDb) (reason : String) :
    Uncounted db (terminalizeQueuedTail db reason).1 := by
  apply Plain.uncounted
  exact ⟨fun _ => rfl, fun _ h => .inr ⟨h, by simp, by simp⟩⟩

theorem uncounted_addRunBytes (db : RunDb) (bytes : Nat) : Uncounted db (addRunBytes db bytes) :=
  uncounted_run rfl rfl rfl

theorem uncounted_setRunStatus (db : RunDb) (status : RunStatus) (error : Option String)
    (now : Int) : Uncounted db (setRunStatus db status error now) :=
  uncounted_run rfl rfl rfl

theorem uncounted_reopenStranded (reopenBudget : Nat) (db : RunDb) (row : ScanRunRow) (now : Int) :
    Uncounted db (reopenStranded reopenBudget db row now) := by
  unfold reopenStranded
  split
  · exact uncounted_terminalizeQueuedTail db _
  · split
    · exact (uncounted_terminalizeQueuedTail db _).trans (uncounted_setRunStatus _ _ _ now)
    · have hbump : Uncounted (resetInflightTargets db) (bumpRunReopen (resetInflightTargets db)) :=
        uncounted_run rfl rfl rfl
      exact ((uncounted_resetInflightTargets db).trans hbump).trans (uncounted_setRunStatus _ _ _ now)

structure Kept (db db' : RunDb) : Prop where
  moved : AllMoved db.targets db'.targets
  counted : Counted db → Counted db'
  budget : db'.run.budget = db.run.budget

theorem Uncounted.kept {db db' : RunDb} (h : Uncounted db db') : Kept db db' :=
  ⟨h.moved, h.counted, h.budget⟩

theorem Kept.trans {a b c : RunDb} (hab : Kept a b) (hbc : Kept b c) : Kept a c :=
  ⟨hab.moved.trans hbc.moved, fun h => hbc.counted (hab.counted h), hbc.budget.trans hab.budget⟩

structure Matches (state : TargetState) (delta : FinalizeDelta) : Prop where
  terminal : state.pending = false
  verified : delta.verified = if state = .verified then 1 else 0
  failed : delta.failed = if state = .failed then 1 else 0

section Finalize

variable {db : RunDb} {targetId : Int} {state : TargetState} {result : Option String}

theorem numIn_finalize {counted : TargetState} (hcounted : counted.pending = false) :
    numIn counted (updateTargets db.targets (fun t => t.targetId = targetId && t.state.pending)
        fun t => { t with state, result, nextAttemptAt := none }).1 =
      numIn counted db.targets + if state = counted then
        db.targets.countP (fun t => t.targetId = targetId && t.state.pending) else 0 := by
  have hfrom : ∀ t : RunTarget, (decide (t.targetId = targetId) && t.state.pending) = true →
      decide (t.state = counted) = false := by
    intro t h
    rw [Bool.and_eq_true] at h
    rw [decide_eq_false_iff_not]
    rintro rfl
    rw [h.2] at hcounted
    cases hcounted
  by_cases hstate : state = counted
  · rw [if_pos hstate]
    exact countP_updateTargets_of_into hfrom fun t _ => by simp [hstate]
  · rw [if_neg hstate, Nat.add_zero]
    apply countP_updateTargets_of_iff
    intro t h
    rw [hfrom t h]
    simp [hstate]

theorem kept_finalizeRunTarget {delta : FinalizeDelta} (hmatches : Matches state delta) (now : Int) :
    Kept db (finalizeRunTarget db targetId state result delta now) where
  moved := by
    apply allMoved_updateTargets
    intro t h
    rw [Bool.and_eq_true] at h
    refine ⟨rfl, fun hterminal => ?_⟩
    rw [h.2] at hterminal
    cases hterminal
  budget := by
    unfold finalizeRunTarget
    dsimp only
    split <;> rfl
  counted h := by
    have hone : db.targets.countP (fun t => t.targetId = targetId && t.state.pending) ≤ 1 := by
      apply countP_named_le_one h.distinct
      intro t ht
      rw [Bool.and_eq_true, decide_eq_true_eq] at ht
      exact ht.1
    have hverified := @numIn_finalize db targetId state result .verified rfl
    have hfailed := @numIn_finalize db targetId state result .failed rfl
    refine ⟨?_, ?_, ?_⟩
    · unfold finalizeRunTarget
      dsimp only
      rw [updateTargets_ids (by exact fun _ => rfl)]
      exact h.distinct
    · unfold finalizeRunTarget
      dsimp only
      rw [hverified, ← h.verified]
      split
      · rename_i hflipped
        have hchanged : db.targets.countP (fun t => t.targetId = targetId && t.state.pending) = 1 :=
          hflipped
        simp [bumpRun, hmatches.verified, hchanged]
      · rename_i hflipped
        have hchanged : db.targets.countP (fun t => t.targetId = targetId && t.state.pending) ≠ 1 :=
          hflipped
        have hzero : db.targets.countP (fun t => t.targetId = targetId && t.state.pending) = 0 := by
          omega
        simp [hzero]
    · unfold finalizeRunTarget
      dsimp only
      rw [hfailed, ← h.failed]
      split
      · rename_i hflipped
        have hchanged : db.targets.countP (fun t => t.targetId = targetId && t.state.pending) = 1 :=
          hflipped
        simp [bumpRun, hmatches.failed, hchanged]
      · rename_i hflipped
        have hchanged : db.targets.countP (fun t => t.targetId = targetId && t.state.pending) ≠ 1 :=
          hflipped
        have hzero : db.targets.countP (fun t => t.targetId = targetId && t.state.pending) = 0 := by
          omega
        simp [hzero]

end Finalize

theorem kept_finalizeBacklogChunk (db : RunDb) (chunk : List (Int × Nat)) (now : Int) :
    Kept db (finalizeBacklogChunk db chunk now) := by
  unfold finalizeBacklogChunk
  induction chunk generalizing db with
  | nil => exact (Uncounted.refl db).kept
  | cons row chunk ih => exact (kept_finalizeRunTarget ⟨rfl, rfl, rfl⟩ now).trans (ih _)

theorem kept_recordAnswer (db : RunDb) (targetId : Int) (answer : CheckAnswer) (now : Int) :
    Kept db (recordAnswer db targetId answer now) := by
  cases answer with
  | conclusive isTarget noService newlyLive bytes => exact kept_finalizeRunTarget ⟨rfl, rfl, rfl⟩ now
  | transient addressNotReady needsFixCount needsFix bytes =>
    unfold recordAnswer
    dsimp only
    split
    · exact (kept_finalizeRunTarget ⟨rfl, rfl, rfl⟩ now).trans
        (uncounted_recordFiberFailure _ targetId _ needsFix).kept
    · exact (((uncounted_requeueRunTarget db targetId _ now).trans (uncounted_addRunBytes _ bytes)).trans
        (uncounted_recordFiberFailure _ targetId _ needsFix)).kept
  | exception admissionTimedOut needsFix =>
    exact (((uncounted_requeueRunTarget db targetId _ now).trans (uncounted_addRunBytes _ _)).trans
      (uncounted_recordFiberFailure _ targetId _ needsFix)).kept

theorem counted_createScanRun (tenantId : Int) (budget : Nat) (targetIds : List Int) (now : Int) :
    Counted (createScanRun tenantId budget targetIds now) := by
  have hids : (createScanRun tenantId budget targetIds now).targets.map (·.targetId) =
      targetIds.dedup := by
    unfold createScanRun
    rw [mapIdx_eq_zipIdx_map, map_map]
    exact zipIdx_map_fst 0 targetIds.dedup
  have hqueued : ∀ t ∈ (createScanRun tenantId budget targetIds now).targets, t.state = .queued := by
    intro t ht
    obtain ⟨i, hi, rfl⟩ := mem_mapIdx.mp ht
    rfl
  have hnone : ∀ state : TargetState, state ≠ .queued →
      numIn state (createScanRun tenantId budget targetIds now).targets = 0 := by
    intro state hstate
    unfold numIn
    rw [countP_eq_zero]
    intro t ht
    rw [hqueued t ht]
    simpa using Ne.symm hstate
  refine ⟨?_, ?_, ?_⟩
  · rw [hids]
    exact nodup_dedup targetIds
  · rw [hnone .verified (by simp)]
    rfl
  · rw [hnone .failed (by simp)]
    rfl

end HomefrontFiber.ScanRun
