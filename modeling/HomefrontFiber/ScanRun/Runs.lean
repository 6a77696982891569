import HomefrontFiber.ScanRun.Budget

/-!
# Steps that finalize or claim

A finalization counts a target that was reserved when it was claimed. A backlog chunk and a claim
reserve what was free, which the condition of the step bounds.
-/

namespace HomefrontFiber.ScanRun

open List

variable {reopenBudget : Nat} {s : Fleet}

def Answered (db : RunDb) (targetId : Int) (answer : CheckAnswer) (t t' : RunTarget) : Prop :=
  t'.targetId = t.targetId ∧ (t'.state = t.state ∨ t.targetId = targetId ∧
    t.state.pending = true ∧ (t'.state.pending = false ∨ requeues db targetId answer = true))

variable {targetId : Int}

theorem answered_finalize {db : RunDb} {answer : CheckAnswer}
    {state : TargetState} (hterminal : state.pending = false) (result : Option String)
    (delta : FinalizeDelta) (now : Int) :
    List.Forall₂ (Answered db targetId answer) db.targets
      (finalizeRunTarget db targetId state result delta now).targets := by
  unfold finalizeRunTarget
  dsimp only
  rw [updateTargets_fst, forall₂_map_right_iff]
  apply forall₂_same.mpr
  intro t _
  split
  · rename_i h
    rw [Bool.and_eq_true, decide_eq_true_eq] at h
    exact ⟨rfl, .inr ⟨h.1, h.2, .inl hterminal⟩⟩
  · exact ⟨rfl, .inl rfl⟩

theorem answered_requeue {db : RunDb} {answer : CheckAnswer}
    (hrequeues : requeues db targetId answer = true) (delaySeconds now : Int) :
    List.Forall₂ (Answered db targetId answer) db.targets
      (requeueRunTarget db targetId delaySeconds now).targets := by
  unfold requeueRunTarget
  rw [updateTargets_fst, forall₂_map_right_iff]
  apply forall₂_same.mpr
  intro t _
  split
  · rename_i h
    rw [Bool.and_eq_true, decide_eq_true_eq, decide_eq_true_eq] at h
    exact ⟨rfl, .inr ⟨h.1, by rw [h.2]; rfl, .inr hrequeues⟩⟩
  · exact ⟨rfl, .inl rfl⟩

theorem answered_failure {db next : RunDb} {answer : CheckAnswer}
    (h : List.Forall₂ (Answered db targetId answer) db.targets next.targets) (attempt : Nat)
    (needsFix : Bool) :
    List.Forall₂ (Answered db targetId answer) db.targets
      (recordFiberFailure next targetId attempt needsFix).targets := by
  unfold recordFiberFailure
  rw [updateTargets_fst, forall₂_map_right_iff]
  apply h.imp
  intro t t' hanswered
  split
  · exact hanswered
  · exact hanswered

theorem answered_recordAnswer (db : RunDb) (targetId : Int) (answer : CheckAnswer) (now : Int) :
    List.Forall₂ (Answered db targetId answer) db.targets
      (recordAnswer db targetId answer now).targets := by
  cases answer with
  | conclusive isTarget noService newlyLive bytes => exact answered_finalize rfl _ _ now
  | transient addressNotReady needsFixCount needsFix bytes =>
    unfold recordAnswer
    dsimp only
    split
    · exact answered_failure (answered_finalize rfl _ _ now) _ needsFix
    · rename_i hopen
      have hrequeues : requeues db targetId
          (.transient addressNotReady needsFixCount needsFix bytes) = true := by
        have hnot := eq_false_of_ne_true hopen
        dsimp only [requeues]
        rw [hnot]
        rfl
      apply answered_failure
      exact answered_requeue hrequeues _ now
  | exception admissionTimedOut needsFix =>
    apply answered_failure
    exact answered_requeue rfl _ now

theorem finalizeRunTarget_reopenCount (db : RunDb) (targetId : Int) (state : TargetState)
    (result : Option String) (delta : FinalizeDelta) (now : Int) :
    (finalizeRunTarget db targetId state result delta now).run.reopenCount =
      db.run.reopenCount := by
  unfold finalizeRunTarget
  dsimp only
  split <;> rfl

theorem recordAnswer_reopenCount (db : RunDb) (targetId : Int) (answer : CheckAnswer) (now : Int) :
    (recordAnswer db targetId answer now).run.reopenCount = db.run.reopenCount := by
  cases answer with
  | conclusive isTarget noService newlyLive bytes => apply finalizeRunTarget_reopenCount
  | transient addressNotReady needsFixCount needsFix bytes =>
    unfold recordAnswer
    dsimp only
    split
    · exact finalizeRunTarget_reopenCount db targetId .failed
        (some (notFoundResult (targetAttempt db targetId))) _ now
    · rfl
  | exception admissionTimedOut needsFix => rfl

theorem heldAlive_erase {worker : Nat} (hmem : (worker, targetId) ∈ s.claims)
    (halive : worker ∉ s.evicted) : (heldAlive s).Perm
      (targetId :: heldAlive { s with claims := s.claims.erase (worker, targetId) }) := by
  have hperm := (perm_cons_erase hmem).filter fun c => decide (c.1 ∉ s.evicted)
  rw [filter_cons_of_pos (by simpa using halive)] at hperm
  exact hperm.map Prod.snd

theorem FleetInv.answers (h : FleetInv reopenBudget s) {worker : Nat}
    {answer : CheckAnswer} (hmem : (worker, targetId) ∈ s.claims)
    (hsound : worker ∈ s.evicted → requeues s.db targetId answer = true → targetId ∉ heldAlive s)
    (now : Int) : FleetInv reopenBudget { s with
      db := recordAnswer s.db targetId answer now
      claims := s.claims.erase (worker, targetId) } := by
  have hsub : (s.claims.erase (worker, targetId)).Sublist s.claims := erase_sublist
  have halive := heldAlive_sublist hsub s
  have hout : held s.claims targetId = true :=
    any_eq_true.mpr ⟨_, hmem, decide_eq_true rfl⟩
  -- a target that goes back on the queue is not held by a live worker any more
  have hdropped : requeues s.db targetId answer = true →
      targetId ∉ heldAlive { s with claims := s.claims.erase (worker, targetId) } := by
    intro hrequeues hheld
    by_cases hevicted : worker ∈ s.evicted
    · exact hsound hevicted hrequeues (halive.subset hheld)
    · have hnodup := (heldAlive_erase hmem hevicted).nodup_iff.mp h.exclusive
      exact (nodup_cons.mp hnodup).1 hheld
  refine h.settles (kept_recordAnswer s.db targetId answer now) ?_ (halive.nodup h.exclusive)
    (h.reopened.trans (recordAnswer_reopenCount s.db targetId answer now).symm) h.bounded
  have hrows := (forall₂_and_left (p := (· ∈ s.db.targets)) _ _).mpr
    ⟨fun t ht => ht, answered_recordAnswer s.db targetId answer now⟩
  apply hrows.imp
  rintro t t' ⟨ht, hid, hsame | ⟨hrow, hpending, hclosed⟩⟩
  · refine ⟨spent_of_held hid (.inl hsame) (held_of_sublist hsub), fun hqueued hheld => ?_⟩
    rw [hid] at hheld
    exact h.working t ht (hsame.symm.trans hqueued) (halive.subset hheld)
  · refine ⟨fun _ => ?_, fun hqueued hheld => ?_⟩
    · rw [spent_of_pending hpending, hrow]
      exact hout
    · rw [hid, hrow] at hheld
      obtain hterminal | hrequeues := hclosed
      · rw [hqueued] at hterminal
        cases hterminal
      · exact hdropped hrequeues hheld

def Closed (chunk : List (Int × Nat)) (t t' : RunTarget) : Prop :=
  t'.targetId = t.targetId ∧ (t'.state = t.state ∨ t.state.pending = true ∧ t'.state = .failed ∧
    chunk.any (·.1 = t.targetId) = true)

theorem closed_finalizeBacklogChunk (chunk : List (Int × Nat)) (db : RunDb) (now : Int) :
    List.Forall₂ (Closed chunk) db.targets (finalizeBacklogChunk db chunk now).targets := by
  unfold finalizeBacklogChunk
  induction chunk generalizing db with
  | nil => exact forall₂_same.mpr fun t _ => ⟨rfl, .inl rfl⟩
  | cons row chunk ih =>
    rw [foldl_cons]
    have hrest := ih (finalizeRunTarget db row.1 .failed (some (backlogResult row.2))
      { failed := 1 } now)
    have hkeep : ∀ t t' : RunTarget, Closed chunk t t' → Closed (row :: chunk) t t' := by
      rintro t t' ⟨hid, hsame | ⟨hpending, hfailed, hany⟩⟩
      · exact ⟨hid, .inl hsame⟩
      · refine ⟨hid, .inr ⟨hpending, hfailed, ?_⟩⟩
        rw [any_cons, hany]
        exact Bool.or_true _
    have hfirst : ∀ t : RunTarget, (decide (t.targetId = row.1) && t.state.pending) = true →
        ∀ t' : RunTarget, Closed chunk { t with
          state := .failed, result := some (backlogResult row.2), nextAttemptAt := none } t' →
            Closed (row :: chunk) t t' := by
      rintro t hnamed t' ⟨hid, hstate⟩
      rw [Bool.and_eq_true, decide_eq_true_eq] at hnamed
      have hfailed : t'.state = .failed := by
        obtain hsame | ⟨hpending, -, -⟩ := hstate
        · exact hsame
        · cases hpending
      refine ⟨hid, .inr ⟨hnamed.2, hfailed, ?_⟩⟩
      rw [any_cons, decide_eq_true hnamed.1.symm]
      exact Bool.true_or _
    unfold finalizeRunTarget at hrest ⊢
    dsimp only at hrest ⊢
    rw [updateTargets_fst, forall₂_map_left_iff] at hrest
    apply hrest.imp
    intro t t' hclosed
    split at hclosed
    · rename_i hnamed
      exact hfirst t hnamed t' hclosed
    · exact hkeep t t' hclosed

theorem finalizeBacklogChunk_reopenCount (chunk : List (Int × Nat)) (db : RunDb) (now : Int) :
    (finalizeBacklogChunk db chunk now).run.reopenCount = db.run.reopenCount := by
  unfold finalizeBacklogChunk
  induction chunk generalizing db with
  | nil => rfl
  | cons row chunk ih =>
    rw [foldl_cons, ih]
    apply finalizeRunTarget_reopenCount

/-- What is spent after a step was spent before it, or is among the rows that it reserves. -/
theorem spentCount_le {s' : Fleet} {reserved : RunTarget → Bool}
    (hrows : List.Forall₂ (fun t t' => spent s'.claims t' = true →
      (spent s.claims t || reserved t) = true) s.db.targets s'.db.targets) :
    spentCount s' ≤ spentCount s + s.db.targets.countP reserved :=
  le_trans (countP_le_of_forall₂ hrows) (countP_or_le _ _ _)

theorem FleetInv.closes (h : FleetInv reopenBudget s) (hfits : ChunkFits s) (now : Int) :
    FleetInv reopenBudget { s with
      db := finalizeBacklogChunk s.db (nextChunk s) now, backlog := s.backlog.drop 500 } := by
  have hkept := kept_finalizeBacklogChunk s.db (nextChunk s) now
  have hrows := closed_finalizeBacklogChunk (nextChunk s) s.db now
  refine ⟨hkept.counted h.counted, h.exclusive, ?_, ?_, ?_, h.bounded⟩
  · intro t' ht' hqueued
    obtain ⟨t, ht, hid, hsame | ⟨-, hfailed, -⟩⟩ := exists_of_forall₂ hrows ht'
    · rw [hid]
      exact h.working t ht (hsame.symm.trans hqueued)
    · rw [hfailed] at hqueued
      cases hqueued
  · dsimp only
    rw [hkept.budget]
    refine le_trans (spentCount_le ?_) hfits
    apply hrows.imp
    rintro t t' ⟨hid, hsame | ⟨hpending, -, hany⟩⟩ hspent
    · rw [spent_of_held hid (.inl hsame) (fun hheld => hheld) hspent]
      exact Bool.true_or _
    · rw [spent_of_pending hpending, hpending, hany]
      cases held s.claims t.targetId <;> rfl
  · exact h.reopened.trans (finalizeBacklogChunk_reopenCount (nextChunk s) s.db now).symm

section Claim

variable {worker : Nat} {targetIds : List Int} {db : RunDb}

theorem heldAlive_claimed (s : Fleet) (worker : Nat) (db : RunDb) (targetIds : List Int) :
    heldAlive (claimed s worker db targetIds) =
      heldAlive s ++ if worker ∈ s.evicted then [] else targetIds := by
  have hpart : ((targetIds.map fun targetId => (worker, targetId)).filter
      fun c => decide (c.1 ∉ s.evicted)).map Prod.snd =
        if worker ∈ s.evicted then [] else targetIds := by
    rw [filter_map, map_map]
    by_cases hevicted : worker ∈ s.evicted
    · simp [Function.comp_def, hevicted]
    · simp [Function.comp_def, hevicted]
  unfold heldAlive claimed
  rw [filter_append, map_append, hpart]

theorem held_claimed (claims : List (Nat × Int)) (worker : Nat) (targetIds : List Int)
    (targetId : Int) :
    held (claims ++ targetIds.map fun targetId => (worker, targetId)) targetId =
      (held claims targetId || decide (targetId ∈ targetIds)) := by
  unfold held
  rw [any_append, any_map]
  congr 1
  rw [Bool.eq_iff_iff, any_eq_true, decide_eq_true_eq]
  simp

theorem taken_queued {targets targets' : List RunTarget}
    (h : List.Forall₂ (Taken targetIds) targets targets') {t : RunTarget} (ht : t ∈ targets)
    (hmem : t.targetId ∈ targetIds) : t.state = .queued := by
  obtain ⟨t', -, -, ⟨-, hqueued, -⟩ | ⟨hnot, -⟩⟩ := exists_of_forall₂_left h ht
  · exact hqueued
  · exact absurd hmem hnot

theorem spent_claimed {t t' : RunTarget} (htaken : Taken targetIds t t')
    (h : spent (s.claims ++ targetIds.map fun targetId => (worker, targetId)) t' = true) :
    (spent s.claims t || (decide (t.state = .queued) && !held s.claims t.targetId &&
      decide (t.targetId ∈ targetIds))) = true := by
  obtain ⟨hid, ⟨hmem, hqueued, hinflight⟩ | ⟨hnot, hstate⟩⟩ := htaken
  · have hpending : t.state.pending = true := by
      rw [hqueued]
      rfl
    rw [spent_of_pending hpending, decide_eq_true hqueued, decide_eq_true hmem]
    cases held s.claims t.targetId <;> rfl
  · have hheld : held (s.claims ++ targetIds.map fun targetId => (worker, targetId)) t.targetId =
        true → held s.claims t.targetId = true := by
      rw [held_claimed, decide_eq_false hnot, Bool.or_false]
      exact fun hheld => hheld
    rw [spent_of_held hid (hstate.imp_right fun hskipped => .inl hskipped.2) hheld h]
    exact Bool.true_or _

theorem FleetInv.claims (h : FleetInv reopenBudget s) (huncounted : Uncounted s.db db)
    (hcount : db.run.reopenCount = s.db.run.reopenCount)
    (hspec : ClaimSpec targetIds s.db.targets db.targets) {limit : Nat}
    (hlimit : targetIds.length ≤ limit) (hfits : Fits s limit) :
    FleetInv reopenBudget (claimed s worker db targetIds) := by
  have hnew : ∀ targetId ∈ targetIds, targetId ∉ heldAlive s := by
    intro targetId hmem
    obtain ⟨t, ht, rfl⟩ := mem_map.mp (hspec.rows targetId hmem)
    exact h.working t ht (taken_queued hspec.taken ht hmem)
  refine ⟨huncounted.counted h.counted, ?_, ?_, ?_, h.reopened.trans hcount.symm, h.bounded⟩
  · rw [heldAlive_claimed]
    split
    · rw [append_nil]
      exact h.exclusive
    · rw [nodup_append]
      refine ⟨h.exclusive, hspec.nodup, ?_⟩
      rintro a ha b hb rfl
      exact hnew a hb ha
  · intro t' ht' hqueued
    obtain ⟨t, ht, hid, ⟨-, -, hinflight⟩ | ⟨hnot, hsame | ⟨-, hskipped⟩⟩⟩ :=
      exists_of_forall₂ hspec.taken ht'
    · rw [hinflight] at hqueued
      cases hqueued
    · have hbefore := h.working t ht (hsame.symm.trans hqueued)
      rw [heldAlive_claimed, mem_append, hid]
      rintro (hheld | hheld)
      · exact hbefore hheld
      · split at hheld
        · exact absurd hheld not_mem_nil
        · exact hnot hheld
    · rw [hskipped] at hqueued
      cases hqueued
  · have hreserved := @spentCount_le s (claimed s worker db targetIds)
      (fun t => decide (t.state = .queued) && !held s.claims t.targetId &&
        decide (t.targetId ∈ targetIds)) (hspec.taken.imp fun _ _ htaken => spent_claimed htaken)
    have hfew : (s.db.targets.countP fun t => decide (t.state = .queued) &&
        !held s.claims t.targetId && decide (t.targetId ∈ targetIds)) ≤
          min limit (s.db.targets.countP fun t => t.state = .queued && !held s.claims t.targetId) := by
      apply le_min
      · refine le_trans (countP_mono_left fun t _ hpart => ?_)
          (le_trans (countP_mem_le h.counted.distinct targetIds) hlimit)
        rw [Bool.and_eq_true] at hpart
        exact hpart.2
      · apply countP_mono_left
        intro t _ hpart
        rw [Bool.and_eq_true] at hpart
        exact hpart.1
    have hbudget : (claimed s worker db targetIds).db.run.budget = s.db.run.budget :=
      huncounted.budget
    rw [hbudget]
    exact le_trans hreserved (le_trans (Nat.add_le_add_left hfew _) hfits)

theorem FleetInv.claimsCycle (h : FleetInv reopenBudget s) (worker : Nat) (tenantId limit : Int)
    (policy : ClaimPolicy) (views : TargetViews) (now : Int) (hfits : Fits s (claimLimit limit)) :
    FleetInv reopenBudget (claimed s worker
      (claimRunTargetCycle s.db tenantId limit policy views now).1
      (claimRunTargetCycle s.db tenantId limit policy views now).2.targets) := by
  obtain ⟨hspec, hlimit⟩ :=
    claimSpec_claimRunTargetCycle h.counted.distinct tenantId limit policy views now
  have hcount : (claimRunTargetCycle s.db tenantId limit policy views now).1.run.reopenCount =
      s.db.run.reopenCount := by
    unfold claimRunTargetCycle
    split <;> rfl
  exact h.claims (uncounted_claimRunTargetCycle s.db tenantId limit policy views now) hcount hspec
    hlimit hfits

theorem FleetInv.tops (h : FleetInv reopenBudget s) (worker batch : Nat) (policy : ClaimPolicy)
    (views : TargetViews) (now : Int) (hfits : s.db.run.status = .running →
      0 < remainingBudget s.db.run →
        Fits s (claimLimit (min batch (remainingBudget s.db.run) : Nat))) :
    FleetInv reopenBudget (claimed s worker (workerTop s.db batch policy views now).1
      (workerTop s.db batch policy views now).2.targets) := by
  have hnone : ∀ db : RunDb, claimed s worker db [] = { s with db } := by
    intro db
    unfold claimed
    rw [map_nil, append_nil]
  unfold workerTop
  split
  · rw [hnone]
    exact h
  · rename_i hrunning
    split
    · rw [hnone]
      exact (h.terminalizes "superseded: run budget exhausted").reads
        (uncounted_setRunStatus _ .done none now) rfl rfl s.backlog s.readings
    · rename_i hleft
      apply h.claimsCycle
      apply hfits (not_not.mp hrunning)
      unfold remainingBudget
      omega

end Claim

end HomefrontFiber.ScanRun

/-!
## Runs of the fleet

The counters are the ledger and terminal states are kept in every interleaving. The other three
hold along every run whose steps reserve within the budget and put no target of a live worker
back on the queue; a worker that acts alone always does the first.
-/

namespace HomefrontFiber.ScanRun

variable {reopenBudget : Nat} {s : Fleet}

theorem kept_workerTop (db : RunDb) (batch : Nat) (policy : ClaimPolicy) (views : TargetViews)
    (now : Int) : Kept db (workerTop db batch policy views now).1 := by
  unfold workerTop
  split
  · exact (Uncounted.refl db).kept
  · split
    · exact ((uncounted_terminalizeQueuedTail db _).trans
        (uncounted_setRunStatus _ .done none now)).kept
    · exact (uncounted_claimRunTargetCycle db _ _ policy views now).kept

theorem kept_fleetStep (reopenBudget : Nat) (s : Fleet) (a : FleetAction) :
    Kept s.db (fleetStep reopenBudget s a).db := by
  have hself : Kept s.db s.db := (Uncounted.refl s.db).kept
  cases a with
  | workerTop worker batch policy views now => exact kept_workerTop s.db batch policy views now
  | claimRunTargetCycle worker tenantId limit policy views now =>
    exact (uncounted_claimRunTargetCycle s.db tenantId limit policy views now).kept
  | claimRunTargets worker limit policy views now =>
    exact (uncounted_claimRunTargets s.db limit policy views now).kept
  | answer worker targetId answer now =>
    dsimp only [fleetStep]
    split
    · exact kept_recordAnswer s.db targetId answer now
    · exact hself
  | drop worker targetId => exact hself
  | resetInflightTargets => exact (uncounted_resetInflightTargets s.db).kept
  | terminalizeQueuedTail reason => exact (uncounted_terminalizeQueuedTail s.db reason).kept
  | readBacklog attemptCap => exact hself
  | backlogChunk now => exact kept_finalizeBacklogChunk s.db (nextChunk s) now
  | evict worker => exact hself
  | setRunStatus status error now => exact (uncounted_setRunStatus s.db status error now).kept
  | readStranded reaper now =>
    dsimp only [fleetStep]
    split
    · exact hself
    · exact hself
  | reopenStranded reaper now =>
    dsimp only [fleetStep]
    split
    · exact hself
    · exact (uncounted_reopenStranded reopenBudget s.db _ now).kept

theorem fleetInv_step (a : FleetAction) (h : FleetInv reopenBudget s)
    (hsound : Sound reopenBudget s a) : FleetInv reopenBudget (fleetStep reopenBudget s a) := by
  cases a with
  | workerTop worker batch policy views now => exact h.tops worker batch policy views now hsound
  | claimRunTargetCycle worker tenantId limit policy views now =>
    exact h.claimsCycle worker tenantId limit policy views now hsound
  | claimRunTargets worker limit policy views now =>
    obtain ⟨hspec, hlimit⟩ := claimSpec_claimRunTargets h.counted.distinct limit policy views now
    exact h.claims (uncounted_claimRunTargets s.db limit policy views now) rfl hspec hlimit hsound
  | answer worker targetId answer now =>
    dsimp only [fleetStep]
    split
    · rename_i hmem
      exact h.answers hmem hsound now
    · exact h
  | drop worker targetId => exact h.drops List.erase_sublist
  | resetInflightTargets => exact h.resets hsound
  | terminalizeQueuedTail reason => exact h.terminalizes reason
  | readBacklog attemptCap => exact h.reads (Uncounted.refl s.db) rfl rfl _ s.readings
  | backlogChunk now => exact h.closes hsound now
  | evict worker => exact h.evicts worker
  | setRunStatus status error now =>
    exact h.reads (uncounted_setRunStatus s.db status error now) rfl rfl s.backlog s.readings
  | readStranded reaper now =>
    dsimp only [fleetStep]
    split
    · exact h.reads (Uncounted.refl s.db) rfl rfl s.backlog _
    · exact h
  | reopenStranded reaper now =>
    dsimp only [fleetStep]
    split
    · exact h
    · rename_i row hrow
      exact h.reopens row now _ (hsound row hrow)

def newFleet (tenantId : Int) (budget : Nat) (targetIds : List Int) (now : Int) : Fleet where
  db := createScanRun tenantId budget targetIds now

theorem fleetInv_newFleet (reopenBudget : Nat) (tenantId : Int) (budget : Nat)
    (targetIds : List Int) (now : Int) :
    FleetInv reopenBudget (newFleet tenantId budget targetIds now) where
  counted := counted_createScanRun tenantId budget targetIds now
  exclusive := List.nodup_nil
  working _ _ _ := List.not_mem_nil
  within := by
    have hnone : spentCount (newFleet tenantId budget targetIds now) = 0 := by
      unfold spentCount
      rw [List.countP_eq_zero]
      intro t ht
      obtain ⟨i, hi, rfl⟩ := List.mem_mapIdx.mp ht
      exact Bool.false_ne_true
    rw [hnone]
    exact Nat.zero_le _
  reopened := rfl
  bounded := Nat.zero_le _

theorem counted_run (reopenBudget : Nat) (as : List FleetAction) (h : Counted s.db) :
    Counted (run (fleetStep reopenBudget) s as).db ∧
      (trace (fleetStep reopenBudget) s as).Pairwise fun t u =>
        AllMoved t.db.targets u.db.targets := by
  have hstep : ∀ (s : Fleet) (a : FleetAction), Counted s.db →
      Counted (fleetStep reopenBudget s a).db :=
    fun s a hcounted => (kept_fleetStep reopenBudget s a).counted hcounted
  refine ⟨run_invariant_all hstep as h, ?_⟩
  have hmoved : ∀ (s : Fleet) (a : FleetAction), Counted s.db →
      AllMoved s.db.targets (fleetStep reopenBudget s a).db.targets :=
    fun s a _ => (kept_fleetStep reopenBudget s a).moved
  have htrans : ∀ {s t u : Fleet}, AllMoved s.db.targets t.db.targets →
      AllMoved t.db.targets u.db.targets → AllMoved s.db.targets u.db.targets :=
    fun hst htu => hst.trans htu
  exact trace_pairwise (R := fun t u => AllMoved t.db.targets u.db.targets) hstep hmoved htrans as h

/-- Along every run whose steps are sound, the counters are the ledger, terminal states stay, no
two live workers hold one target, and both budgets hold. -/
theorem runRight_of_sound (reopenBudget : Nat) (tenantId : Int) (budget : Nat)
    (targetIds : List Int) (now : Int) (as : List FleetAction)
    (h : Along (fleetStep reopenBudget) (Sound reopenBudget)
      (newFleet tenantId budget targetIds now) as) :
    RunRight reopenBudget (run (fleetStep reopenBudget) (newFleet tenantId budget targetIds now) as) ∧
      (trace (fleetStep reopenBudget) (newFleet tenantId budget targetIds now) as).Pairwise
        fun t u => AllMoved t.db.targets u.db.targets := by
  have hstep : ∀ (s : Fleet) (a : FleetAction), FleetInv reopenBudget s →
      Sound reopenBudget s a → FleetInv reopenBudget (fleetStep reopenBudget s a) :=
    fun s a hinv hsound => fleetInv_step a hinv hsound
  have hnew := fleetInv_newFleet reopenBudget tenantId budget targetIds now
  exact ⟨(run_invariant hstep hnew h).right, (counted_run reopenBudget as hnew.counted).2⟩

def bulk : ClaimPolicy := { exempt := false, onceOnly := false, skipSeconds := 0 }

def anyView : TargetViews := fun _ => some {}

/-- Two workers after one another; the first leaves a target in flight when it is evicted. -/
def takeover : List FleetAction :=
  [.workerTop 1 2 bulk anyView 10, .answer 1 7 (.conclusive true false true 12000) 20,
    .evict 1, .resetInflightTargets, .answer 1 8 (.conclusive false true false 12000) 30,
    .workerTop 2 100 bulk anyView 400, .answer 2 9 (.conclusive false true false 12000) 420,
    .workerTop 2 100 bulk anyView 430]

theorem runRight_of_sound_takeover :
    Along (fleetStep 5) (Sound 5) (newFleet 1 3 [7, 8, 9] 0) takeover ∧
      RunRight 5 (run (fleetStep 5) (newFleet 1 3 [7, 8, 9] 0) takeover) ∧
      (run (fleetStep 5) (newFleet 1 3 [7, 8, 9] 0) takeover).db.run.verified = 3 := by
  have hsound : Along (fleetStep 5) (Sound 5) (newFleet 1 3 [7, 8, 9] 0) takeover := by
    decide +kernel
  refine ⟨hsound, (runRight_of_sound 5 1 3 [7, 8, 9] 0 takeover hsound).1, ?_⟩
  decide +kernel

/-- A second process resumes the run at its boot while the first one's worker is alive. -/
def bootRace : List FleetAction :=
  [.workerTop 1 100 bulk anyView 10, .resetInflightTargets, .workerTop 2 100 bulk anyView 12]

theorem not_runRight_bootRace :
    ¬ RunRight 5 (run (fleetStep 5) (newFleet 1 1 [7] 0) bootRace) ∧
      ¬ RunRight 5 (run (fleetStep 5) (newFleet 1 1 [7, 8] 0) (bootRace ++
        [.answer 1 7 (.conclusive true false true 12000) 20,
          .answer 2 8 (.conclusive true false true 12000) 20])) := by
  constructor
  · intro h
    exact absurd h.exclusive (by decide +kernel)
  · intro h
    exact absurd h.budget (by decide +kernel)

end HomefrontFiber.ScanRun
