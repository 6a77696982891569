import HomefrontFiber.Commission.OverridePairs

/-!
# Override money and locked weeks

A row is PAYABLE only while the statement of its beneficiary and week is not locked, and SETTLED
only while it is. Every writer of the ledger asks for the lock, so this holds along all runs.
-/

namespace HomefrontFiber.Commission

open Alternating List

def OverrideRow.weekKey (r : OverrideRow) : Nat × Stamp := (r.beneficiaryRepId, r.earnedWeekStartUtc)

structure OverrideLocks (db : Db) : Prop where
  payable : ∀ r ∈ db.overrides, r.status = .payable → ∀ id, ¬ LockedAs db id r.weekKey
  settled : ∀ r ∈ db.overrides, r.status = .settled →
    ∃ id, r.settledStatementId = some id ∧ LockedAs db id r.weekKey

theorem payableIn_iff {r : OverrideRow} {repId : Nat} {week : Stamp} :
    PayableIn repId week r ↔ r.weekKey = (repId, week) ∧ r.status = .payable := by
  rw [OverrideRow.weekKey, Prod.mk.injEq, PayableIn, and_assoc]

section Locks

variable {db db' : Db} {now : Stamp}

theorem overrideLocks_empty (org : Org) : OverrideLocks (Db.empty org) where
  payable _ hr := absurd hr not_mem_nil
  settled _ hr := absurd hr not_mem_nil

theorem OverrideLocks.of_sameLocks (h : OverrideLocks db) (ho : db'.overrides = db.overrides)
    (hl : SameLocks db db') : OverrideLocks db' where
  payable r hr hst id hlock := h.payable r (ho ▸ hr) hst id ((hl id r.weekKey).mp hlock)
  settled r hr hst := by
    obtain ⟨id, hid, hlock⟩ := h.settled r (ho ▸ hr) hst
    exact ⟨id, hid, (hl id r.weekKey).mpr hlock⟩

theorem OverrideLocks.promoteReleasedHolds (h : OverrideLocks db) (hwf : Wf db) :
    OverrideLocks (promoteReleasedHolds now db) where
  payable := by
    intro r hr hst id
    obtain ⟨r', hr', rfl⟩ := mem_map.mp hr
    split at hst
    · rename_i hdue
      rw [if_pos hdue]
      unfold releaseRow at hst ⊢
      split at hst
      · rename_i hnone
        simp [hnone, HoldDue] at hdue
      · rename_i after hafter
        rw [hafter]
        dsimp only at hst ⊢
        split at hst
        · simp at hst
        · rename_i hopen
          exact (weekLocked_eq_false_iff hwf).mp (by simpa using hopen) id
    · rw [if_neg ‹_›]
      exact h.payable r' hr' hst id
  settled := by
    intro r hr hst
    obtain ⟨r', hr', rfl⟩ := mem_map.mp hr
    split at hst
    · rename_i hdue
      rcases (releaseRow_status db hdue).1 with hs | hs <;> simp [hs] at hst
    · rw [if_neg ‹_›]
      exact h.settled r' hr' hst

theorem OverrideLocks.opened (h : OverrideLocks db) (hwf : Wf db) (sale : Sale) (week : Stamp)
    (snapshot : List ChainSnapshotNode) (a : OverrideAward) (n : Nat) :
    OverrideLocks { db with
      overrides := db.overrides ++ [earnRow db now sale week snapshot a n] } where
  payable := by
    intro r hr hst id
    rcases mem_append.mp hr with hr | hr
    · exact h.payable r hr hst id
    · obtain rfl := mem_singleton.mp hr
      unfold earnRow at hst
      dsimp only at hst
      split at hst
      · simp at hst
      · rename_i hopen
        have hopen : db.weekLocked a.repId week = false := by simpa using hopen
        exact (weekLocked_eq_false_iff hwf).mp hopen id
  settled := by
    intro r hr hst
    rcases mem_append.mp hr with hr | hr
    · exact h.settled r hr hst
    · obtain rfl := mem_singleton.mp hr
      exact absurd hst (earnRow_not_settled _ _ _ _ _ _ _)

theorem OverrideLocks.closed (h : OverrideLocks db) {earn : OverrideRow}
    (hearn : earn ∈ db.overrides) (l : List OverrideRow) :
    OverrideLocks { db with overrides := closedRows now db.overrides l earn } where
  payable := by
    intro r hr hst id
    rcases mem_append.mp hr with hr | hr
    · obtain ⟨r', hr', rfl⟩ := mem_map.mp hr
      unfold mootRow at hst ⊢
      split at hst
      · simp at hst
      · rw [if_neg ‹_›]
        exact h.payable r' hr' hst id
    · obtain rfl := mem_singleton.mp hr
      refine h.payable earn hearn ?_ id
      unfold clawRow clawVerdict at hst
      cases hs : earn.status <;> simp [hs] at hst ⊢
  settled := by
    intro r hr hst
    rcases mem_append.mp hr with hr | hr
    · obtain ⟨r', hr', rfl⟩ := mem_map.mp hr
      unfold mootRow at hst ⊢
      split at hst
      · simp at hst
      · rw [if_neg ‹_›]
        exact h.settled r' hr' hst
    · obtain rfl := mem_singleton.mp hr
      exact absurd hst (clawRow_ne_settled _ _ _)

theorem OverrideLocks.sync (h : OverrideLocks db) (hwf : Wf db) (x : Nat) (week : Stamp) :
    OverrideLocks (syncOverridesForSale x week now db) :=
  (syncOverridesForSale_keeps hwf h x week
    (fun sale _ _ _ hw hI a _ _ => hI.opened hw sale week _ a _)
    fun _ _ _ _ _ hI _ l _ hpair _ _ => hI.closed (mem_of_pairRows hpair).1 l).2

theorem lockedAs_setStatementStatus {id k : Nat} {key : Nat × Stamp} {status : StatementStatus} :
    LockedAs (setStatementStatus k status now db) id key ↔
      (id ≠ k ∧ LockedAs db id key) ∨ (id = k ∧ status.locked = true ∧ HasStatement k key db) := by
  unfold LockedAs HasStatement setStatementStatus Db.updateStatement
  constructor
  · rintro ⟨s, hs, hid, hkey, hl⟩
    obtain ⟨s', hs', rfl⟩ := mem_map.mp hs
    split at hid
    · rename_i hk
      rw [if_pos hk] at hkey hl
      exact .inr ⟨hid.symm.trans hk, hl, s', hs', hk, hkey⟩
    · rename_i hk
      rw [if_neg hk] at hkey hl
      exact .inl ⟨fun h => hk (hid.trans h), s', hs', hid, hkey, hl⟩
  · rintro (⟨hne, s, hs, hid, hkey, hl⟩ | ⟨rfl, hl, s, hs, hid, hkey⟩)
    · refine ⟨_, mem_map_of_mem hs, ?_⟩
      rw [if_neg (hid.trans_ne hne)]
      exact ⟨hid, hkey, hl⟩
    · refine ⟨_, mem_map_of_mem hs, ?_⟩
      rw [if_pos hid]
      exact ⟨hid, hkey, hl⟩

theorem LockedAs.id_unique (hwf : Wf db) {id id' : Nat} {key : Nat × Stamp}
    (h : LockedAs db id key) (h' : HasStatement id' key db) : id = id' := by
  obtain ⟨s, hs, hid, hk, _⟩ := h
  obtain ⟨s', hs', hid', hk'⟩ := h'
  rw [← hid, ← hid', inj_on_of_nodup_map hwf.weeks hs hs' (hk.trans hk'.symm)]

theorem LockedAs.hasStatement {id : Nat} {key : Nat × Stamp} (h : LockedAs db id key) :
    HasStatement id key db :=
  let ⟨s, hs, hid, hk, _⟩ := h
  ⟨s, hs, hid, hk⟩

theorem OverrideLocks.freeze (h : OverrideLocks db) (hwf : Wf db) {stmt : Statement}
    (hstmt : HasStatement stmt.id stmt.key db) : OverrideLocks (freeze stmt now db) where
  payable := by
    intro r hr hst id hlock
    obtain ⟨r', hr', rfl⟩ := mem_map.mp hr
    split at hst
    · simp at hst
    · rename_i hp
      rw [if_neg hp] at hlock
      rcases lockedAs_setStatementStatus.mp hlock with ⟨_, hl⟩ | ⟨_, _, s, hs, hid, hk⟩
      · exact h.payable r' hr' hst id hl
      · obtain ⟨s', hs', hid', hk'⟩ := hstmt
        obtain rfl := hwf.statementIds.eq_of_key hs hs' (hid.trans hid'.symm)
        exact hp (payableIn_iff.mpr ⟨hk.symm.trans hk', hst⟩)
  settled := by
    intro r hr hst
    obtain ⟨r', hr', rfl⟩ := mem_map.mp hr
    split
    · rename_i hp
      refine ⟨stmt.id, rfl, lockedAs_setStatementStatus.mpr (.inr ⟨rfl, rfl, ?_⟩)⟩
      change HasStatement stmt.id r'.weekKey db
      rw [(payableIn_iff.mp hp).1]
      exact hstmt
    · rename_i hp
      rw [if_neg hp] at hst
      obtain ⟨id, hid, hl⟩ := h.settled r' hr' hst
      refine ⟨id, hid, lockedAs_setStatementStatus.mpr ?_⟩
      by_cases hk : id = stmt.id
      · exact .inr ⟨hk, rfl, hk ▸ hl.hasStatement⟩
      · exact .inl ⟨hk, hl⟩

theorem OverrideLocks.unfreeze (h : OverrideLocks db) (hwf : Wf db) (stmt : Statement) :
    OverrideLocks (unfreeze stmt now db) where
  payable := by
    intro r hr hst id hlock
    obtain ⟨r', hr', rfl⟩ := mem_map.mp hr
    rcases lockedAs_setStatementStatus.mp hlock with ⟨hne, hl⟩ | ⟨_, hopen, _⟩
    · split at hl
      · rename_i hs
        obtain ⟨id', hid', hl'⟩ := h.settled r' hr' hs.1
        rw [hs.2, Option.some.injEq] at hid'
        subst hid'
        refine hne (LockedAs.id_unique hwf hl ?_)
        exact hl'.hasStatement
      · rename_i hs
        rw [if_neg hs] at hst
        exact h.payable r' hr' hst id hl
    · simp [StatementStatus.locked] at hopen
  settled := by
    intro r hr hst
    obtain ⟨r', hr', rfl⟩ := mem_map.mp hr
    split at hst
    · simp at hst
    · rename_i hs
      rw [if_neg hs]
      obtain ⟨id, hid, hl⟩ := h.settled r' hr' hst
      refine ⟨id, hid, lockedAs_setStatementStatus.mpr (.inl ⟨?_, hl⟩)⟩
      rintro rfl
      exact hs ⟨hst, hid⟩

theorem sameLocks_paid (hwf : Wf db) {stmt : Statement} (hfound : db.statementById stmt.id = some stmt)
    (hst : stmt.status.locked = true) : SameLocks db (setStatementStatus stmt.id .paid now db) := by
  obtain ⟨hmem, _⟩ := mem_of_statementById hfound
  intro id key
  rw [lockedAs_setStatementStatus]
  constructor
  · rintro (⟨_, hl⟩ | ⟨rfl, _, s, hs, hid, hk⟩)
    · exact hl
    · obtain rfl := hwf.statementIds.eq_of_key hs hmem hid
      exact ⟨s, hs, hid, hk, hst⟩
  · intro hl
    by_cases hk : id = stmt.id
    · exact .inr ⟨hk, rfl, hk ▸ hl.hasStatement⟩
    · exact .inl ⟨hk, hl⟩

theorem OverrideLocks.resolved (h : OverrideLocks db) {id adjustmentId : Nat} :
    OverrideLocks { db with
      overrides := updateRow db.overrides id fun r =>
        { r with
          status := .resolved
          resolvedAdjustmentId := some adjustmentId
          updatedAt := now } } where
  payable := by
    intro r hr hst
    obtain ⟨r', hr', rfl⟩ := mem_map.mp hr
    split at hst
    · simp at hst
    · rw [if_neg ‹_›]
      exact h.payable r' hr' hst
  settled := by
    intro r hr hst
    obtain ⟨r', hr', rfl⟩ := mem_map.mp hr
    split at hst
    · simp at hst
    · rw [if_neg ‹_›]
      exact h.settled r' hr' hst

theorem calculate_locks (repId : Nat) (ms : Int) :
    Service.Keeps (fun db => Wf db ∧ OverrideLocks db)
      (calculateOrRecalculateStatement repId ms now) :=
  calculateOrRecalculateStatement_keeps
    (fun _ h => ⟨wf_promoteReleasedHolds h.1, h.2.promoteReleasedHolds h.1⟩)
    fun _ _ h _ _ => ⟨wf_storePricing (wf_promoteReleasedHolds h.1) _ _ _,
      (h.2.promoteReleasedHolds h.1).of_sameLocks (storePricing_overrides ..)
        (sameLocks_storePricing _ _ _ _ _ _)⟩

theorem finalizeStatement_locks (stmt : Statement) :
    Service.Triple (fun db => (Wf db ∧ OverrideLocks db) ∧ db.statementById stmt.id = some stmt)
      (finalizeStatement stmt now) (fun _ db => Wf db ∧ OverrideLocks db)
      fun _ db => Wf db ∧ OverrideLocks db := by
  refine finalizeStatement_triple
    (F := fun db => (Wf db ∧ OverrideLocks db) ∧ HasStatement stmt.id stmt.key db)
    (fun _ h => h.1) ?_ fun db h => ?_
  · refine ((recomputeBeforeFreeze_keeps (calculate_locks _ _)).and
      (recomputeBeforeFreeze_keeps (calculate_hasStatement stmt.id stmt.key _ _))).conseq
      (fun db h => ⟨h.1, stmt, (mem_of_statementById h.2).1, rfl, rfl⟩) (fun _ _ h => h)
      fun _ _ h => h.1
  · exact ⟨(wf_markWeekSettled h.1.1 _ _ _).setStatementStatus _ _, h.1.2.freeze h.1.1 h.2⟩

theorem transitionStatement_locks (id : Nat) (action : StatementAction) :
    Service.Keeps (fun db => Wf db ∧ OverrideLocks db) (transitionStatement id action now) := by
  refine transitionStatement_triple (fun _ h => h) fun stmt => ?_
  have hfound : ∀ db : Db, db.statementById id = some stmt → db.statementById stmt.id = some stmt :=
    fun db h => by rw [(mem_of_statementById h).2, h]
  cases action with
  | finalize =>
    exact (finalizeStatement_locks stmt).conseq (fun db h => ⟨h.1, hfound db h.2⟩)
      (fun _ _ h => h) fun _ _ h => h
  | reopen =>
    refine reopenStatement_triple (fun _ h => h.1) fun db h _ => ?_
    exact ⟨(wf_markStatementReopened h.1.1 _).setStatementStatus _ _,
      h.1.2.unfreeze h.1.1 stmt⟩
  | markPaid =>
    refine markStatementPaid_triple (fun _ h => h.1) fun db h hst => ?_
    exact ⟨h.1.1.setStatementStatus _ _, h.1.2.of_sameLocks rfl
      (sameLocks_paid h.1.1 (hfound db h.2) (by rw [hst]; rfl))⟩

theorem applyApprovedAdjustments_locks (id : Nat) :
    Service.Keeps (fun db => Wf db ∧ OverrideLocks db) (applyApprovedAdjustments id now) :=
  applyApprovedAdjustments_keeps fun db _ h _ =>
    ⟨h.1.updateStatement _ (fun _ => rfl) fun _ => rfl, h.2.of_sameLocks rfl
      (sameLocks_updateStatement db _ (fun _ => rfl) (fun _ => rfl) fun _ => rfl)⟩

theorem locks_kept : KeptByWrites OverrideLocks now where
  calculate := calculate_locks
  apply := applyApprovedAdjustments_locks
  promote hwf h := h.promoteReleasedHolds hwf
  create _ _ h := h.of_sameLocks rfl (sameLocks_of_statements rfl)
  resolve _ _ h _ := h.resolved
  commissions _ h := h.of_sameLocks rfl (sameLocks_of_statements rfl)

theorem locks_step (h : Wf db ∧ OverrideLocks db) (e : Event) :
    Wf (step db e) ∧ OverrideLocks (step db e) := by
  unfold step
  by_cases hx : e.action.saleExternalId.isSome
  · refine perform_sale (I := fun db => Wf db ∧ OverrideLocks db) h.1 h hx ?_ calculate_locks
    intro sale db' _ hs
    have hlocks : OverrideLocks db' :=
      h.2.of_sameLocks (by rw [hs.tables]) (sameLocks_of_statements (by rw [hs.tables]))
    exact ⟨wf_syncOverridesForSale hs.wf _ _, hlocks.sync hs.wf _ _⟩
  · refine locks_kept.perform h hx (fun id decision _ => ?_)
      (fun id action _ => (transitionStatement_locks id action).store h)
      fun _ _ => h.2.of_sameLocks rfl (sameLocks_of_statements rfl)
    exact (locks_kept.decide (fun _ _ h => h.of_sameLocks rfl (sameLocks_of_statements rfl)) id
      decision).store h

end Locks

end HomefrontFiber.Commission
