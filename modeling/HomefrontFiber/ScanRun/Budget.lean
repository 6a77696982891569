import HomefrontFiber.ScanRun.Claims

/-!
# Live claims and the budget

A claim reserves from the budget what it takes. As long as each claim fits in what is left beside
the claims that are out, and no step puts the target of a live worker back on the queue, no target
is held by two live workers, and what was counted never exceeds the budget.
-/

namespace HomefrontFiber.ScanRun

open List

structure FleetInv (reopenBudget : Nat) (s : Fleet) : Prop where
  counted : Counted s.db
  exclusive : (heldAlive s).Nodup
  /-- What a live worker holds is not on the queue. -/
  working : ∀ t ∈ s.db.targets, t.state = .queued → t.targetId ∉ heldAlive s
  within : spentCount s ≤ s.db.run.budget
  reopened : s.reopened = s.db.run.reopenCount
  bounded : s.reopened ≤ reopenBudget

variable {reopenBudget : Nat} {s : Fleet}

variable {l l' : List RunTarget} {R : RunTarget → RunTarget → Prop} {t' t : RunTarget} {s' : Fleet}
  {claims claims' : List (Nat × Int)}

theorem countP_le_of_forall₂ {p q : RunTarget → Bool}
    (h : List.Forall₂ (fun t t' => q t' = true → p t = true) l l') : l'.countP q ≤ l.countP p := by
  induction h with
  | nil => exact le_refl _
  | @cons t t' l l' hhead _ ih =>
    rw [countP_cons, countP_cons]
    by_cases hq : q t' = true
    · rw [if_pos hq, if_pos (hhead hq)]
      omega
    · rw [if_neg hq]
      omega

theorem countP_or_le (p q : RunTarget → Bool) (l : List RunTarget) :
    l.countP (fun t => p t || q t) ≤ l.countP p + l.countP q := by
  induction l with
  | nil => exact le_refl _
  | cons t l ih =>
    rw [countP_cons, countP_cons, countP_cons]
    cases p t <;> cases q t <;> simp <;> omega

/-- Distinct rows with an id among `ids` are no more than the ids. -/
theorem countP_mem_le (hnodup : (l.map (·.targetId)).Nodup) (ids : List Int) :
    l.countP (fun t => t.targetId ∈ ids) ≤ ids.length := by
  rw [countP_eq_length_filter, ← length_map (f := RunTarget.targetId)]
  have hsub : (l.filter fun t => t.targetId ∈ ids).map (·.targetId) ⊆ ids := by
    intro id hid
    obtain ⟨t, ht, rfl⟩ := mem_map.mp hid
    simpa using (mem_filter.mp ht).2
  have hdistinct : ((l.filter fun t => t.targetId ∈ ids).map (·.targetId)).Nodup :=
    (filter_sublist.map RunTarget.targetId).nodup hnodup
  exact (subperm_of_subset hdistinct hsub).length_le

theorem Counted.spentCount (h : Counted s.db) :
    s.db.run.verified + s.db.run.failed ≤ ScanRun.spentCount s := by
  rw [h.verified, h.failed]
  unfold ScanRun.spentCount numIn
  have hsplit : ∀ l : List RunTarget,
      l.countP (fun t => t.state = .verified) + l.countP (fun t => t.state = .failed) ≤
        l.countP (spent s.claims) := by
    intro l
    induction l with
    | nil => exact le_refl _
    | cons t l ih =>
      rw [countP_cons, countP_cons, countP_cons]
      cases hstate : t.state <;> simp [spent, hstate] <;> omega
  exact hsplit s.db.targets

theorem FleetInv.right (h : FleetInv reopenBudget s) : RunRight reopenBudget s where
  verified := h.counted.verified
  failed := h.counted.failed
  exclusive := h.exclusive
  budget := le_trans h.counted.spentCount h.within
  reopened := h.bounded

theorem exists_of_forall₂ (h : List.Forall₂ R l l') (ht' : t' ∈ l') : ∃ t ∈ l, R t t' := by
  induction h with
  | nil => cases ht'
  | @cons a a' l l' hhead _ ih =>
    obtain rfl | htail := mem_cons.mp ht'
    · exact ⟨a, mem_cons_self, hhead⟩
    · obtain ⟨t, ht, hrow⟩ := ih htail
      exact ⟨t, mem_cons_of_mem a ht, hrow⟩

theorem exists_of_forall₂_left (h : List.Forall₂ R l l') (ht : t ∈ l) : ∃ t' ∈ l', R t t' :=
  exists_of_forall₂ h.flip ht

structure Settles (s s' : Fleet) (t t' : RunTarget) : Prop where
  spent : spent s'.claims t' = true → ScanRun.spent s.claims t = true
  queued : t'.state = .queued → t'.targetId ∉ heldAlive s'

theorem FleetInv.settles (h : FleetInv reopenBudget s) (hkept : Kept s.db s'.db)
    (hrows : List.Forall₂ (Settles s s') s.db.targets s'.db.targets)
    (hexclusive : (heldAlive s').Nodup) (hreopened : s'.reopened = s'.db.run.reopenCount)
    (hbounded : s'.reopened ≤ reopenBudget) : FleetInv reopenBudget s' where
  counted := hkept.counted h.counted
  exclusive := hexclusive
  working := by
    intro t' ht' hqueued
    obtain ⟨t, -, hsettles⟩ := exists_of_forall₂ hrows ht'
    exact hsettles.queued hqueued
  within := by
    rw [hkept.budget]
    exact le_trans (countP_le_of_forall₂ (hrows.imp fun _ _ h => h.spent)) h.within
  reopened := hreopened
  bounded := hbounded

theorem heldAlive_sublist (h : claims'.Sublist claims)
    (s : Fleet) : (heldAlive { s with claims := claims' }).Sublist (heldAlive { s with claims }) :=
  (h.filter _).map _

theorem held_of_sublist (h : claims'.Sublist claims)
    {targetId : Int} (hheld : held claims' targetId = true) : held claims targetId = true := by
  unfold held at hheld ⊢
  rw [any_eq_true] at hheld ⊢
  obtain ⟨c, hc, hid⟩ := hheld
  exact ⟨c, h.subset hc, hid⟩

theorem spent_of_pending
    (h : t.state.pending = true) : spent claims t = held claims t.targetId := by
  have hstate : t.state ≠ .verified ∧ t.state ≠ .failed := by
    constructor <;> intro hbad <;> rw [hbad] at h <;> cases h
  unfold spent
  rw [decide_eq_false hstate.1, decide_eq_false hstate.2, h]
  exact Bool.true_and _

theorem spent_of_held (hid : t'.targetId = t.targetId)
    (hstate : t'.state = t.state ∨ t'.state = .skipped ∨
      t.state.pending = true ∧ t'.state.pending = true)
    (hheld : held claims' t.targetId = true → held claims t.targetId = true)
    (h : spent claims' t' = true) : spent claims t = true := by
  obtain hsame | hskipped | ⟨hpending, hpending'⟩ := hstate
  · unfold spent at h ⊢
    rw [hid, hsame, Bool.or_eq_true, Bool.and_eq_true] at h
    rw [Bool.or_eq_true, Bool.and_eq_true]
    exact h.imp (fun hcounted => hcounted) fun hpending => ⟨hpending.1, hheld hpending.2⟩
  · unfold spent at h
    rw [hskipped] at h
    cases h
  · rw [spent_of_pending hpending', hid] at h
    rw [spent_of_pending hpending]
    exact hheld h

theorem FleetInv.drops (h : FleetInv reopenBudget s)
    (hsub : claims'.Sublist s.claims) : FleetInv reopenBudget { s with claims := claims' } := by
  have halive := heldAlive_sublist hsub s
  refine h.settles (Uncounted.refl s.db).kept ?_ (halive.nodup h.exclusive) h.reopened h.bounded
  apply forall₂_same.mpr
  intro t ht
  refine ⟨spent_of_held rfl (.inl rfl) (held_of_sublist hsub), fun hqueued hmem => ?_⟩
  exact h.working t ht hqueued (halive.subset hmem)

theorem FleetInv.evicts (h : FleetInv reopenBudget s) (worker : Nat) :
    FleetInv reopenBudget { s with evicted := worker :: s.evicted } := by
  have halive : (heldAlive { s with evicted := worker :: s.evicted }).Sublist (heldAlive s) := by
    apply List.Sublist.map
    apply monotone_filter_right
    intro c hc
    simp only [mem_cons, not_or, decide_eq_true_eq] at hc ⊢
    exact hc.2
  refine h.settles (Uncounted.refl s.db).kept ?_ (halive.nodup h.exclusive) h.reopened h.bounded
  apply forall₂_same.mpr
  intro t ht
  exact ⟨fun hspent => hspent, fun hqueued hmem => h.working t ht hqueued (halive.subset hmem)⟩

theorem FleetInv.reads (h : FleetInv reopenBudget s) {db : RunDb} (huncounted : Uncounted s.db db)
    (htargets : db.targets = s.db.targets) (hcount : db.run.reopenCount = s.db.run.reopenCount)
    (backlog : List (Int × Nat)) (readings : List (Nat × ScanRunRow)) :
    FleetInv reopenBudget { s with db, backlog, readings } := by
  refine h.settles huncounted.kept ?_ h.exclusive (h.reopened.trans hcount.symm) h.bounded
  rw [htargets]
  apply forall₂_same.mpr
  intro t ht
  exact ⟨fun hspent => hspent, fun hqueued => h.working t ht hqueued⟩

theorem settles_reset (h : FleetInv reopenBudget s) (horphaned : Orphaned s)
    (hclaims : s'.claims = s.claims) (hevicted : s'.evicted = s.evicted) :
    List.Forall₂ (Settles s s') s.db.targets (resetInflightTargets s.db).targets := by
  have halive : heldAlive s' = heldAlive s := by
    unfold heldAlive
    rw [hclaims, hevicted]
  unfold resetInflightTargets
  rw [updateTargets_fst, forall₂_map_right_iff]
  apply forall₂_same.mpr
  intro t ht
  by_cases hinflight : t.state = .inflight
  · rw [if_pos (by simpa using hinflight)]
    have hpending : t.state.pending = true := by
      rw [hinflight]
      rfl
    refine ⟨?_, fun _ hmem => horphaned t ht hinflight (halive ▸ hmem)⟩
    rw [hclaims]
    exact spent_of_held rfl (.inr (.inr ⟨hpending, rfl⟩)) fun hheld => hheld
  · rw [if_neg (by simpa using hinflight)]
    refine ⟨?_, fun hqueued hmem => h.working t ht hqueued (halive ▸ hmem)⟩
    rw [hclaims]
    exact fun hspent => hspent

theorem settles_terminalize (reason : String) (hclaims : s'.claims = s.claims) :
    List.Forall₂ (Settles s s') s.db.targets (terminalizeQueuedTail s.db reason).1.targets := by
  unfold terminalizeQueuedTail
  dsimp only
  rw [updateTargets_fst, forall₂_map_right_iff]
  apply forall₂_same.mpr
  intro t _
  have hheld : held s'.claims t.targetId = true → held s.claims t.targetId = true := by
    rw [hclaims]
    exact fun hheld => hheld
  by_cases hpending : t.state.pending = true
  · rw [if_pos hpending]
    exact ⟨spent_of_held rfl (.inr (.inl rfl)) hheld, fun hqueued => by cases hqueued⟩
  · rw [if_neg hpending]
    refine ⟨spent_of_held rfl (.inl rfl) hheld, fun hqueued => absurd ?_ hpending⟩
    rw [hqueued]
    rfl

theorem FleetInv.resets (h : FleetInv reopenBudget s) (horphaned : Orphaned s) :
    FleetInv reopenBudget { s with db := resetInflightTargets s.db } :=
  h.settles (uncounted_resetInflightTargets s.db).kept (settles_reset h horphaned rfl rfl)
    h.exclusive h.reopened h.bounded

theorem FleetInv.terminalizes (h : FleetInv reopenBudget s) (reason : String) :
    FleetInv reopenBudget { s with db := (terminalizeQueuedTail s.db reason).1 } :=
  h.settles (uncounted_terminalizeQueuedTail s.db reason).kept (settles_terminalize reason rfl)
    h.exclusive h.reopened h.bounded

theorem FleetInv.reopens (h : FleetInv reopenBudget s) (row : ScanRunRow) (now : Int)
    (readings : List (Nat × ScanRunRow)) (hsound : ScanRun.reopens reopenBudget row = true →
      Orphaned s ∧ s.db.run.reopenCount < reopenBudget) :
    FleetInv reopenBudget { s with
      db := reopenStranded reopenBudget s.db row now
      readings
      reopened := s.reopened + if ScanRun.reopens reopenBudget row then 1 else 0 } := by
  have hkept := (uncounted_reopenStranded reopenBudget s.db row now).kept
  by_cases hreopens : ScanRun.reopens reopenBudget row = true
  · obtain ⟨horphaned, hlt⟩ := hsound hreopens
    have hparts := hreopens
    unfold ScanRun.reopens at hparts
    rw [Bool.and_eq_true, decide_eq_true_eq, decide_eq_true_eq] at hparts
    have hdb : reopenStranded reopenBudget s.db row now =
        setRunStatus (bumpRunReopen (resetInflightTargets s.db)) .running none now := by
      unfold reopenStranded
      rw [if_neg (by omega), if_neg (by omega)]
    rw [if_pos hreopens]
    rw [hdb] at hkept ⊢
    refine h.settles hkept (settles_reset h horphaned rfl rfl) h.exclusive ?_ ?_
    · exact congrArg (· + 1) h.reopened
    · dsimp only
      rw [h.reopened]
      omega
  · have hrows : ∀ s' : Fleet, s'.claims = s.claims → List.Forall₂ (Settles s s') s.db.targets
        (reopenStranded reopenBudget s.db row now).targets := by
      intro s' hclaims
      unfold reopenStranded
      unfold ScanRun.reopens at hreopens
      split
      · exact settles_terminalize _ hclaims
      · split
        · exact settles_terminalize _ hclaims
        · refine absurd ?_ hreopens
          rw [Bool.and_eq_true, decide_eq_true_eq, decide_eq_true_eq]
          omega
    have hcount : (reopenStranded reopenBudget s.db row now).run.reopenCount =
        s.db.run.reopenCount := by
      unfold reopenStranded
      unfold ScanRun.reopens at hreopens
      split
      · rfl
      · split
        · rfl
        · refine absurd ?_ hreopens
          rw [Bool.and_eq_true, decide_eq_true_eq, decide_eq_true_eq]
          omega
    rw [if_neg hreopens]
    exact h.settles hkept (hrows _ rfl) h.exclusive (h.reopened.trans hcount.symm) h.bounded

end HomefrontFiber.ScanRun
