import HomefrontFiber.ScanRun.Ledger

/-!
# The workers of one run

Any number of workers, in any number of processes, act for one run; each action is one statement or
transaction, and they interleave in any order. A worker holds the targets that it claimed until
their check ends. An evicted worker may still be alive: it keeps what it holds and may go on.
-/

namespace HomefrontFiber.ScanRun

structure Fleet where
  db : RunDb
  /-- The targets that a worker claimed and has not answered, with the worker. -/
  claims : List (Nat × Int) := []
  evicted : List Nat := []
  /-- What `finalizeAddressNotFoundBacklog` selected and has not finalized. -/
  backlog : List (Int × Nat) := []
  /-- The run as a reaper last read it among the stranded ones. -/
  readings : List (Nat × ScanRunRow) := []
  /-- How often the run was re-opened. -/
  reopened : Nat := 0

inductive FleetAction where
  | workerTop (worker batch : Nat) (policy : ClaimPolicy) (views : TargetViews) (now : Int)
  | claimRunTargetCycle (worker : Nat) (tenantId limit : Int) (policy : ClaimPolicy)
      (views : TargetViews) (now : Int)
  | claimRunTargets (worker limit : Nat) (policy : ClaimPolicy) (views : TargetViews) (now : Int)
  | answer (worker : Nat) (targetId : Int) (answer : CheckAnswer) (now : Int)
  /-- The worker drops a check because the run is not running. -/
  | drop (worker : Nat) (targetId : Int)
  | resetInflightTargets
  | terminalizeQueuedTail (reason : String)
  | readBacklog (attemptCap : Nat)
  | backlogChunk (now : Int)
  | evict (worker : Nat)
  | setRunStatus (status : RunStatus) (error : Option String) (now : Int)
  | readStranded (reaper : Nat) (now : Int)
  | reopenStranded (reaper : Nat) (now : Int)

def claimed (s : Fleet) (worker : Nat) (db : RunDb) (targetIds : List Int) : Fleet :=
  { s with db, claims := s.claims ++ targetIds.map fun targetId => (worker, targetId) }

def nextChunk (s : Fleet) : List (Int × Nat) := s.backlog.take 500

def readingOf (s : Fleet) (reaper : Nat) : Option ScanRunRow :=
  (s.readings.find? (·.1 = reaper)).map (·.2)

/-- One action; `reopenBudget` is the configured bound on re-opens. -/
def fleetStep (reopenBudget : Nat) (s : Fleet) : FleetAction → Fleet
  | .workerTop worker batch policy views now =>
    let (db, cycle) := workerTop s.db batch policy views now
    claimed s worker db cycle.targets
  | .claimRunTargetCycle worker tenantId limit policy views now =>
    let (db, cycle) := claimRunTargetCycle s.db tenantId limit policy views now
    claimed s worker db cycle.targets
  | .claimRunTargets worker limit policy views now =>
    let (db, targetIds) := claimRunTargets s.db limit policy views now
    claimed s worker db targetIds
  | .answer worker targetId answer now =>
    if (worker, targetId) ∈ s.claims then
      { s with
        db := recordAnswer s.db targetId answer now
        claims := s.claims.erase (worker, targetId) }
    else s
  | .drop worker targetId => { s with claims := s.claims.erase (worker, targetId) }
  | .resetInflightTargets => { s with db := resetInflightTargets s.db }
  | .terminalizeQueuedTail reason => { s with db := (terminalizeQueuedTail s.db reason).1 }
  | .readBacklog attemptCap => { s with backlog := backlogRows s.db attemptCap }
  | .backlogChunk now =>
    { s with db := finalizeBacklogChunk s.db (nextChunk s) now, backlog := s.backlog.drop 500 }
  | .evict worker => { s with evicted := worker :: s.evicted }
  | .setRunStatus status error now => { s with db := setRunStatus s.db status error now }
  | .readStranded reaper now =>
    if stranded s.db now then { s with readings := (reaper, s.db.run) :: s.readings } else s
  | .reopenStranded reaper now =>
    match readingOf s reaper with
    | none => s
    | some row =>
      { s with
        db := reopenStranded reopenBudget s.db row now
        readings := s.readings.filter (·.1 ≠ reaper)
        reopened := s.reopened + if reopens reopenBudget row then 1 else 0 }

def heldAlive (s : Fleet) : List Int := (s.claims.filter (·.1 ∉ s.evicted)).map (·.2)

/-- What holds of a run in every state: the counters are the ledger, no target is held twice by
workers that were not evicted, and neither budget is exceeded. -/
structure RunRight (reopenBudget : Nat) (s : Fleet) : Prop where
  verified : s.db.run.verified = numIn .verified s.db.targets
  failed : s.db.run.failed = numIn .failed s.db.targets
  exclusive : (heldAlive s).Nodup
  budget : s.db.run.verified + s.db.run.failed ≤ s.db.run.budget
  reopened : s.reopened ≤ reopenBudget

def held (claims : List (Nat × Int)) (targetId : Int) : Bool := claims.any (·.2 = targetId)

/-- A target that was counted, or may still be counted for a claim that is out. -/
def spent (claims : List (Nat × Int)) (t : RunTarget) : Bool :=
  t.state = .verified || t.state = .failed || t.state.pending && held claims t.targetId

def spentCount (s : Fleet) : Nat := s.db.targets.countP (spent s.claims)

/-- A claim of at most `limit` queued targets stays within what the claims that are out leave of
the budget. -/
def Fits (s : Fleet) (limit : Nat) : Prop :=
  spentCount s + min limit (s.db.targets.countP fun t =>
    t.state = .queued && !held s.claims t.targetId) ≤ s.db.run.budget

def ChunkFits (s : Fleet) : Prop :=
  spentCount s + (s.db.targets.countP fun t => t.state.pending && !held s.claims t.targetId &&
    (nextChunk s).any (·.1 = t.targetId)) ≤ s.db.run.budget

/-- No target in flight is held by a worker that was not evicted. -/
def Orphaned (s : Fleet) : Prop :=
  ∀ t ∈ s.db.targets, t.state = .inflight → t.targetId ∉ heldAlive s

/-- The step reserves within the budget, and puts no target of a live worker on the queue. -/
def Sound (reopenBudget : Nat) (s : Fleet) : FleetAction → Prop
  | .workerTop _ batch _ _ _ => s.db.run.status = .running → 0 < remainingBudget s.db.run →
    Fits s (claimLimit (min batch (remainingBudget s.db.run) : Nat))
  | .claimRunTargetCycle _ _ limit _ _ _ => Fits s (claimLimit limit)
  | .claimRunTargets _ limit _ _ _ => Fits s limit
  | .answer worker targetId answer _ =>
    worker ∈ s.evicted → requeues s.db targetId answer = true → targetId ∉ heldAlive s
  | .resetInflightTargets => Orphaned s
  | .backlogChunk _ => ChunkFits s
  | .reopenStranded reaper _ => ∀ row ∈ readingOf s reaper, reopens reopenBudget row = true →
    Orphaned s ∧ s.db.run.reopenCount < reopenBudget
  | _ => True

instance (s : Fleet) (limit : Nat) : Decidable (Fits s limit) :=
  inferInstanceAs (Decidable (_ ≤ _))

instance (s : Fleet) : Decidable (ChunkFits s) := inferInstanceAs (Decidable (_ ≤ _))

instance (s : Fleet) : Decidable (Orphaned s) :=
  inferInstanceAs (Decidable (∀ t ∈ s.db.targets, t.state = .inflight → t.targetId ∉ heldAlive s))

instance (reopenBudget : Nat) (s : Fleet) : ∀ a, Decidable (Sound reopenBudget s a)
  | .workerTop _ _ _ _ _ => inferInstanceAs (Decidable (_ → _ → Fits s _))
  | .claimRunTargetCycle _ _ _ _ _ _ => inferInstanceAs (Decidable (Fits s _))
  | .claimRunTargets _ _ _ _ _ => inferInstanceAs (Decidable (Fits s _))
  | .answer _ _ _ _ => inferInstanceAs (Decidable (_ ∈ s.evicted → _ → _ ∉ heldAlive s))
  | .resetInflightTargets => inferInstanceAs (Decidable (Orphaned s))
  | .backlogChunk _ => inferInstanceAs (Decidable (ChunkFits s))
  | .reopenStranded reaper _ => inferInstanceAs (Decidable (∀ row ∈ readingOf s reaper,
      reopens reopenBudget row = true → Orphaned s ∧ s.db.run.reopenCount < reopenBudget))
  | .drop _ _ | .terminalizeQueuedTail _ | .readBacklog _ | .evict _ | .setRunStatus _ _ _
  | .readStranded _ _ => isTrue trivial

end HomefrontFiber.ScanRun

/-!
## What a claim takes

A claim takes queued targets, each once and no more than its limit, and marks exactly those as in
flight. The other rows it leaves, or skips when they were queued.
-/

namespace HomefrontFiber.ScanRun

open List

/-- What a claim of `claimed` does to a row. -/
def Taken (claimed : List Int) (t t' : RunTarget) : Prop :=
  t'.targetId = t.targetId ∧
    (t.targetId ∈ claimed ∧ t.state = .queued ∧ t'.state = .inflight ∨
      t.targetId ∉ claimed ∧ (t'.state = t.state ∨ t.state = .queued ∧ t'.state = .skipped))

theorem Taken.refl (t : RunTarget) : Taken [] t t := ⟨rfl, .inr ⟨not_mem_nil, .inl rfl⟩⟩

variable {as bs : List Int} {l l' l'' : List RunTarget} {db : RunDb}

theorem Taken.trans {t t' t'' : RunTarget} (hfirst : Taken as t t')
    (hsecond : Taken bs t' t'') : Taken (as ++ bs) t t'' := by
  obtain ⟨hid, hstate⟩ := hfirst
  obtain ⟨hid', hstate'⟩ := hsecond
  rw [hid] at hstate'
  refine ⟨hid'.trans hid, ?_⟩
  rw [mem_append]
  obtain ⟨hmem, hqueued, hinflight⟩ | ⟨hnot, hrest⟩ := hstate
  · rw [hinflight] at hstate'
    obtain ⟨-, hbad, -⟩ | ⟨-, hsame | ⟨hbad, -⟩⟩ := hstate'
    · cases hbad
    · exact .inl ⟨.inl hmem, hqueued, hsame⟩
    · cases hbad
  · obtain hsame | ⟨hqueued, hskipped⟩ := hrest
    · rw [hsame] at hstate'
      obtain ⟨hmem, hqueued, hinflight⟩ | ⟨hnot', hrest'⟩ := hstate'
      · exact .inl ⟨.inr hmem, hqueued, hinflight⟩
      · exact .inr ⟨by rintro (h | h) <;> contradiction, hrest'⟩
    · rw [hskipped] at hstate'
      obtain ⟨-, hbad, -⟩ | ⟨hnot', hsame | ⟨hbad, -⟩⟩ := hstate'
      · cases hbad
      · exact .inr ⟨by rintro (h | h) <;> contradiction, .inr ⟨hqueued, hsame⟩⟩
      · cases hbad

theorem allTaken_trans
    (hfirst : List.Forall₂ (Taken as) l l') (hsecond : List.Forall₂ (Taken bs) l' l'') :
    List.Forall₂ (Taken (as ++ bs)) l l'' := by
  induction hfirst generalizing l'' with
  | nil =>
    cases hsecond
    exact List.Forall₂.nil
  | cons hhead _ ih =>
    cases hsecond with
    | cons hhead' htail' => exact List.Forall₂.cons (hhead.trans hhead') (ih htail')

structure ClaimSpec (claimed : List Int) (targets targets' : List RunTarget) : Prop where
  taken : List.Forall₂ (Taken claimed) targets targets'
  rows : ∀ targetId ∈ claimed, targetId ∈ targets.map (·.targetId)
  nodup : claimed.Nodup

theorem taken_ids {claimed : List Int}
    (h : List.Forall₂ (Taken claimed) l l') : l'.map (·.targetId) = l.map (·.targetId) := by
  induction h with
  | nil => rfl
  | cons hhead _ ih => rw [map_cons, map_cons, ih, hhead.1]

theorem claimSpec_refl (targets : List RunTarget) : ClaimSpec [] targets targets :=
  ⟨forall₂_same.mpr fun t _ => Taken.refl t, fun _ h => absurd h not_mem_nil,
    nodup_nil⟩

theorem exists_taken {claimed : List Int} (h : List.Forall₂ (Taken claimed) l l') {targetId : Int}
    (hmem : targetId ∈ l'.map (·.targetId)) :
    ∃ t t', Taken claimed t t' ∧ t ∈ l ∧ t' ∈ l' ∧ t'.targetId = targetId := by
  induction h with
  | nil => cases hmem
  | @cons t t' l l' hhead _ ih =>
    rw [map_cons, mem_cons] at hmem
    obtain rfl | htail := hmem
    · exact ⟨t, t', hhead, mem_cons_self, mem_cons_self, rfl⟩
    · obtain ⟨a, a', htaken, ha, ha', hid⟩ := ih htail
      exact ⟨a, a', htaken, mem_cons_of_mem t ha, mem_cons_of_mem t' ha', hid⟩

theorem ClaimSpec.trans (hnodup : (l.map (·.targetId)).Nodup) (hfirst : ClaimSpec as l l')
    (hsecond : ClaimSpec bs l' l'') : ClaimSpec (as ++ bs) l l'' where
  taken := allTaken_trans hfirst.taken hsecond.taken
  rows targetId hmem := by
    obtain ha | hb := mem_append.mp hmem
    · exact hfirst.rows targetId ha
    · rw [← taken_ids hfirst.taken]
      exact hsecond.rows targetId hb
  nodup := by
    rw [nodup_append]
    refine ⟨hfirst.nodup, hsecond.nodup, ?_⟩
    rintro a ha b hb rfl
    have hids := taken_ids hfirst.taken
    have hnodup' : (l'.map (·.targetId)).Nodup := by
      rw [hids]
      exact hnodup
    have hrow : a ∈ l''.map (·.targetId) := by
      rw [taken_ids hsecond.taken]
      exact hsecond.rows a hb
    obtain ⟨t', t'', htaken', hmem', -, hid''⟩ := exists_taken hsecond.taken hrow
    have hid' : t'.targetId = a := htaken'.1.symm.trans hid''
    obtain ⟨s, s', htaken, -, hs', hid⟩ := exists_taken hfirst.taken (hsecond.rows a hb)
    have hsame : s' = t' := inj_on_of_nodup_map hnodup' hs' hmem' (hid.trans hid'.symm)
    subst hsame
    obtain ⟨-, -, hinflight⟩ | ⟨hnot, -⟩ := htaken.2
    · obtain ⟨-, hqueued, -⟩ | ⟨hnot', -⟩ := htaken'.2
      · rw [hinflight] at hqueued
        cases hqueued
      · exact hnot' (hid' ▸ hb)
    · exact hnot (by rw [← htaken.1, hid]; exact ha)

section Statements

variable {targets : List RunTarget}

theorem claimSpec_boundedSkip (reason : String) (targetId : Int) :
    ClaimSpec [] targets (boundedSkip targets reason targetId).1 where
  taken := by
    unfold boundedSkip
    rw [updateTargets_fst, forall₂_map_right_iff]
    apply forall₂_same.mpr
    intro t _
    split
    · rename_i h
      rw [Bool.and_eq_true, decide_eq_true_eq, decide_eq_true_eq] at h
      exact ⟨rfl, .inr ⟨not_mem_nil, .inr ⟨h.2, rfl⟩⟩⟩
    · exact Taken.refl t
  rows _ h := absurd h not_mem_nil
  nodup := nodup_nil

theorem claimSpec_skipWhere (reason : String) (views : TargetViews) (now : Int)
    (named : TargetView → Bool) :
    ClaimSpec [] targets (skipWhere targets reason views now named) where
  taken := by
    unfold skipWhere
    rw [updateTargets_fst, forall₂_map_right_iff]
    apply forall₂_same.mpr
    intro t _
    split
    · rename_i h
      rw [Bool.and_eq_true, Bool.and_eq_true, decide_eq_true_eq] at h
      exact ⟨rfl, .inr ⟨not_mem_nil, .inr ⟨h.1.1, rfl⟩⟩⟩
    · exact Taken.refl t
  rows _ h := absurd h not_mem_nil
  nodup := nodup_nil

theorem claimSpec_claimMark (hnodup : (targets.map (·.targetId)).Nodup) (targetId now : Int) :
    ClaimSpec (if (claimMark targets targetId now).2 = 1 then [targetId] else []) targets
      (claimMark targets targetId now).1 := by
  have hnamed : ∀ t : RunTarget,
      (decide (t.targetId = targetId) && decide (t.state = .queued) && due now t) = true →
        t.targetId = targetId ∧ t.state = .queued := by
    intro t h
    rw [Bool.and_eq_true, Bool.and_eq_true, decide_eq_true_eq, decide_eq_true_eq] at h
    exact h.1
  have hone : targets.countP (fun t =>
      decide (t.targetId = targetId) && decide (t.state = .queued) && due now t) ≤ 1 :=
    countP_named_le_one hnodup fun t h => (hnamed t h).1
  unfold claimMark
  split
  · rename_i hflipped
    have hcount : targets.countP (fun t =>
        decide (t.targetId = targetId) && decide (t.state = .queued) && due now t) = 1 := hflipped
    obtain ⟨found, hfound, hwanted⟩ := countP_pos_iff.mp (by rw [hcount]; exact Nat.one_pos)
    refine ⟨?_, ?_, nodup_singleton targetId⟩
    · rw [updateTargets_fst, forall₂_map_right_iff]
      apply forall₂_same.mpr
      intro t ht
      split
      · rename_i h
        exact ⟨rfl, .inl ⟨mem_singleton.mpr (hnamed t h).1, (hnamed t h).2, rfl⟩⟩
      · rename_i h
        refine ⟨rfl, .inr ⟨?_, .inl rfl⟩⟩
        intro hmem
        have hid : t.targetId = found.targetId :=
          (mem_singleton.mp hmem).trans (hnamed found hwanted).1.symm
        have hsame : t = found := inj_on_of_nodup_map hnodup ht hfound hid
        exact h (hsame ▸ hwanted)
    · intro id hid
      rw [mem_singleton.mp hid, ← (hnamed found hwanted).1]
      exact mem_map_of_mem hfound
  · rename_i hflipped
    have hcount : targets.countP (fun t =>
        decide (t.targetId = targetId) && decide (t.state = .queued) && due now t) ≠ 1 := hflipped
    have hzero : targets.countP (fun t =>
        decide (t.targetId = targetId) && decide (t.state = .queued) && due now t) = 0 := by omega
    have hnone := countP_eq_zero.mp hzero
    have hself : (updateTargets targets
        (fun t => decide (t.targetId = targetId) && decide (t.state = .queued) && due now t)
        fun t => { t with state := .inflight, attemptCount := t.attemptCount + 1 }).1 = targets := by
      rw [updateTargets_fst]
      conv_rhs => rw [← map_id targets]
      apply map_congr_left
      intro t ht
      rw [if_neg (hnone t ht)]
      rfl
    rw [hself]
    exact claimSpec_refl targets

end Statements

theorem claimSpec_claimLoop (policy : ClaimPolicy) (limit : Nat) (now : Int)
    (rows : List (RunTarget × TargetView)) {targets : List RunTarget}
    (hnodup : (targets.map (·.targetId)).Nodup) {cycle : ClaimCycle}
    (hlimit : cycle.targets.length ≤ limit) :
    ∃ taken, (claimLoop policy limit now rows (targets, cycle)).2.targets = cycle.targets ++ taken ∧
      ClaimSpec taken targets (claimLoop policy limit now rows (targets, cycle)).1 ∧
      (cycle.targets ++ taken).length ≤ limit := by
  induction rows generalizing targets cycle with
  | nil => exact ⟨[], (append_nil _).symm, claimSpec_refl targets, by simpa using hlimit⟩
  | cons row rows ih =>
    obtain ⟨row, view⟩ := row
    unfold claimLoop
    by_cases hfull : limit ≤ cycle.targets.length
    · rw [if_pos hfull]
      exact ⟨[], (append_nil _).symm, claimSpec_refl targets, by simpa using hlimit⟩
    · rw [if_neg hfull]
      cases skipReason policy view with
      | some reason =>
        have hskip := @claimSpec_boundedSkip targets reason row.targetId
        have hnodup' : ((boundedSkip targets reason row.targetId).1.map (·.targetId)).Nodup := by
          rw [taken_ids hskip.taken]
          exact hnodup
        let next : ClaimCycle := { cycle with
          inspected := cycle.inspected + 1
          skipped := cycle.skipped + (boundedSkip targets reason row.targetId).2 }
        have hnext : next.targets.length ≤ limit := hlimit
        obtain ⟨taken, htargets, hspec, hlength⟩ := ih hnodup' hnext
        exact ⟨taken, htargets, hskip.trans hnodup hspec, hlength⟩
      | none =>
        have hmark := claimSpec_claimMark hnodup row.targetId now
        have hnodup' : ((claimMark targets row.targetId now).1.map (·.targetId)).Nodup := by
          rw [taken_ids hmark.taken]
          exact hnodup
        by_cases hflipped : (claimMark targets row.targetId now).2 = 1
        · rw [if_pos hflipped] at hmark
          let next : ClaimCycle := { cycle with
            inspected := cycle.inspected + 1
            targets := cycle.targets ++ [row.targetId] }
          have hnext : next.targets.length ≤ limit := by
            simp only [next, length_append, length_singleton]
            omega
          obtain ⟨taken, htargets, hspec, hlength⟩ := ih hnodup' hnext
          refine ⟨[row.targetId] ++ taken, ?_, hmark.trans hnodup ?_, ?_⟩
          · dsimp only
            rw [if_pos hflipped, htargets, append_assoc]
          · dsimp only
            rw [if_pos hflipped]
            exact hspec
          · rw [← append_assoc]
            exact hlength
        · rw [if_neg hflipped] at hmark
          let next : ClaimCycle := { cycle with inspected := cycle.inspected + 1 }
          have hnext : next.targets.length ≤ limit := hlimit
          obtain ⟨taken, htargets, hspec, hlength⟩ := ih hnodup' hnext
          refine ⟨taken, ?_, ?_, hlength⟩
          · dsimp only
            rw [if_neg hflipped]
            exact htargets
          · dsimp only
            rw [if_neg hflipped]
            exact hmark.trans hnodup hspec

theorem claimSpec_claimRunTargetCycle (hnodup : (db.targets.map (·.targetId)).Nodup)
    (tenantId limit : Int) (policy : ClaimPolicy) (views : TargetViews) (now : Int) :
    ClaimSpec (claimRunTargetCycle db tenantId limit policy views now).2.targets db.targets
        (claimRunTargetCycle db tenantId limit policy views now).1.targets ∧
      (claimRunTargetCycle db tenantId limit policy views now).2.targets.length ≤ claimLimit limit := by
  unfold claimRunTargetCycle
  split
  · have hempty : ({} : ClaimCycle).targets.length ≤ claimLimit limit :=
      Nat.zero_le _
    obtain ⟨taken, htargets, hspec, hlength⟩ := claimSpec_claimLoop policy _ now
      ((claimable views now db.targets).take 500) hnodup hempty
    rw [nil_append] at htargets hlength
    rw [htargets]
    exact ⟨hspec, hlength⟩
  · exact ⟨claimSpec_refl db.targets, Nat.zero_le _⟩

theorem claimSpec_markLoop (now : Int) (ids : List Int) {targets : List RunTarget}
    (hnodup : (targets.map (·.targetId)).Nodup) (claimed : List Int) :
    ∃ taken, (markLoop now ids (targets, claimed)).2 = claimed ++ taken ∧
      ClaimSpec taken targets (markLoop now ids (targets, claimed)).1 ∧
      taken.length ≤ ids.length := by
  induction ids generalizing targets claimed with
  | nil => exact ⟨[], (append_nil _).symm, claimSpec_refl targets, Nat.zero_le _⟩
  | cons targetId ids ih =>
    have hmark := claimSpec_claimMark hnodup targetId now
    have hnodup' : ((claimMark targets targetId now).1.map (·.targetId)).Nodup := by
      rw [taken_ids hmark.taken]
      exact hnodup
    unfold markLoop
    dsimp only
    by_cases hflipped : (claimMark targets targetId now).2 = 1
    · rw [if_pos hflipped] at hmark ⊢
      obtain ⟨taken, htargets, hspec, hlength⟩ := ih hnodup' (claimed ++ [targetId])
      refine ⟨[targetId] ++ taken, ?_, hmark.trans hnodup hspec, ?_⟩
      · rw [htargets, append_assoc]
      · rw [length_append, length_singleton, length_cons]
        omega
    · rw [if_neg hflipped] at hmark ⊢
      obtain ⟨taken, htargets, hspec, hlength⟩ := ih hnodup' claimed
      exact ⟨taken, htargets, hmark.trans hnodup hspec, Nat.le_succ_of_le hlength⟩

theorem claimSpec_claimRunTargets (hnodup : (db.targets.map (·.targetId)).Nodup)
    (limit : Nat) (policy : ClaimPolicy) (views : TargetViews) (now : Int) :
    ClaimSpec (claimRunTargets db limit policy views now).2 db.targets
        (claimRunTargets db limit policy views now).1.targets ∧
      (claimRunTargets db limit policy views now).2.length ≤ limit := by
  have hmark : ∀ swept : List RunTarget, ClaimSpec [] db.targets swept →
      ∀ ids : List Int, ids.length ≤ limit →
        ClaimSpec (markLoop now ids (swept, [])).2 db.targets (markLoop now ids (swept, [])).1 ∧
          (markLoop now ids (swept, [])).2.length ≤ limit := by
    intro swept hswept ids hids
    have hnodup' : (swept.map (·.targetId)).Nodup := by
      rw [taken_ids hswept.taken]
      exact hnodup
    obtain ⟨taken, htargets, hspec, hlength⟩ := claimSpec_markLoop now ids hnodup' []
    rw [htargets]
    exact ⟨hswept.trans hnodup hspec, le_trans hlength hids⟩
  have hids : ∀ swept : List RunTarget,
      (((claimable views now swept).take limit).map (·.1.targetId)).length ≤ limit := by
    intro swept
    rw [length_map]
    exact length_take_le limit _
  have hskip : ∀ (swept : List RunTarget) (reason : String) (named : TargetView → Bool),
      ClaimSpec [] db.targets swept →
        ClaimSpec [] db.targets (skipWhere swept reason views now named) :=
    fun swept reason named hswept => hswept.trans hnodup (claimSpec_skipWhere reason views now named)
  unfold claimRunTargets
  refine hmark _ ?_ _ (hids _)
  split
  · exact claimSpec_refl db.targets
  · apply hskip
    split
    · exact hskip _ _ _ (claimSpec_refl db.targets)
    · split
      · exact hskip _ _ _ (claimSpec_refl db.targets)
      · exact claimSpec_refl db.targets

end HomefrontFiber.ScanRun
