import HomefrontFiber.Commission.OverrideLocks

/-!
# The settled block of a locked statement

A locked statement's override block is the sum of the rows settled by it. FINALIZE recomputes the
statement and then settles the PAYABLE rows of its week, and the two agree when the recomputation
finds the statement: it is asked for the week that contains the week start, which is another week
when the clocks jump over the hour at which weeks start.
-/

namespace HomefrontFiber.Commission

open List
open Service (Keeps Triple)

def settledCents (rows : List OverrideRow) (id : Nat) : Int :=
  ((rows.filter fun r => SettledBy id r).map (·.amountCents)).sum

def SettledSum (db : Db) : Prop :=
  ∀ s ∈ db.statements, s.status.locked = true →
    settledCents db.overrides s.id = s.overridePayCents

def Action.finalizes : Action → Option Nat
  | .transitionStatement id .finalize => some id
  | _ => none

def FinalizesOwnWeek (db : Db) (e : Event) : Prop :=
  ∀ id ∈ e.action.finalizes, ∀ stmt ∈ db.statementById id, stmt.status.locked = false →
    (db.weekOf stmt.weekStartUtc.ms).weekStartUtc = stmt.weekStartUtc

instance (db : Db) (e : Event) : Decidable (FinalizesOwnWeek db e) :=
  inferInstanceAs (Decidable (∀ id ∈ e.action.finalizes, ∀ stmt ∈ db.statementById id, _ → _))

section Rows

variable {rows : List OverrideRow} {now : Stamp}

theorem settledCents_map {f : OverrideRow → OverrideRow} {id : Nat}
    (hamount : ∀ r, (f r).amountCents = r.amountCents)
    (hf : ∀ r ∈ rows, SettledBy id (f r) ↔ SettledBy id r) :
    settledCents (rows.map f) id = settledCents rows id := by
  unfold settledCents
  rw [filter_map, map_map]
  rw [filter_congr (q := fun r => decide (SettledBy id r)) fun r hr => by
    simp only [Function.comp_apply, hf r hr]]
  exact congrArg List.sum (map_congr_left fun r _ => hamount r)

theorem settledCents_snoc {r : OverrideRow} (h : r.status ≠ .settled) (id : Nat) :
    settledCents (rows ++ [r]) id = settledCents rows id := by
  unfold settledCents
  rw [filter_append]
  simp [SettledBy, h]

theorem settledCents_closedRows (hids : Numbered (·.id) rows) {earn : OverrideRow}
    (hearn : earn ∈ rows) (l : List OverrideRow) (id : Nat) :
    settledCents (closedRows now rows l earn) id = settledCents rows id := by
  unfold closedRows
  rw [settledCents_snoc (clawRow_ne_settled _ _ _)]
  refine settledCents_map (fun r => ?_) fun r hr => ?_
  · unfold mootRow
    split <;> rfl
  · unfold mootRow
    split
    · rename_i hmoot
      obtain rfl := hids.eq_of_key hr hearn hmoot.1
      simp [SettledBy, hmoot.2.1]
    · rfl

theorem settledCents_markWeekSettled (db : Db) (repId : Nat) (week : Stamp) (k : Nat) :
    settledCents (markWeekSettled repId week k now db).overrides k =
      settledCents db.overrides k + (payableBlock db.overrides repId week).payCents := by
  unfold markWeekSettled settledCents payableBlock
  induction db.overrides with
  | nil => rfl
  | cons r rows ih =>
    by_cases hp : PayableIn repId week r
    · have hs : ¬ SettledBy k r := fun hs => absurd (hp.2.2.symm.trans hs.1) (by decide)
      have hset : SettledBy k
          { r with status := .settled, settledStatementId := some k, updatedAt := now } :=
        ⟨rfl, rfl⟩
      simp only [map_cons, hp, if_true, filter_cons, hs, hset, decide_true, decide_false,
        sum_cons, Bool.false_eq_true, if_false] at ih ⊢
      omega
    · simp only [map_cons, hp, if_false, filter_cons, decide_false,
        Bool.false_eq_true] at ih ⊢
      by_cases hs : SettledBy k r
      · simp only [hs, decide_true, if_true, map_cons, sum_cons]
        omega
      · simp only [hs, decide_false, Bool.false_eq_true, if_false]
        exact ih

theorem settledCents_markWeekSettled_other (db : Db) (repId : Nat) (week : Stamp) {id k : Nat}
    (h : id ≠ k) : settledCents (markWeekSettled repId week k now db).overrides id =
      settledCents db.overrides id := by
  refine settledCents_map (fun r => ?_) fun r _ => ?_
  · split <;> rfl
  · split
    · rename_i hp
      simp [SettledBy, hp.2.2, h.symm]
    · rfl

theorem settledCents_markStatementReopened (db : Db) {id k : Nat} (h : id ≠ k) :
    settledCents (markStatementReopened k now db).overrides id =
      settledCents db.overrides id := by
  refine settledCents_map (fun r => ?_) fun r _ => ?_
  · split <;> rfl
  · split
    · rename_i hs
      simp [SettledBy, hs.2, h.symm]
    · rfl

theorem settledCents_promoteReleasedHolds (db : Db) (id : Nat) :
    settledCents (promoteReleasedHolds now db).overrides id = settledCents db.overrides id := by
  refine settledCents_map (fun r => (sameEntry_release db now r).amount) fun r _ => ?_
  split
  · rename_i hdue
    have hst := (releaseRow_status db hdue).1
    rcases hst with hst | hst <;> simp [SettledBy, hst, hdue.1]
  · rfl

end Rows

/-- The invariant of a run: the tables, the locks of the rows and the settled sums. -/
structure SettledWf (db : Db) : Prop where
  wf : Wf db
  locks : OverrideLocks db
  sums : SettledSum db

section Steps

variable {db db' : Db} {now : Stamp}

/-- Other rows may move while the settled ones stay, and other statements be rewritten while the
locked ones stay. -/
theorem SettledSum.of_same (h : SettledSum db)
    (ho : ∀ id, settledCents db'.overrides id = settledCents db.overrides id)
    (hs : ∀ s' ∈ db'.statements, s'.status.locked = true → ∃ s ∈ db.statements, s.id = s'.id ∧
      s.status.locked = true ∧ s.overridePayCents = s'.overridePayCents) : SettledSum db' := by
  intro s' hs' hl
  obtain ⟨s, hmem, hid, hl, hpay⟩ := hs s' hs' hl
  rw [ho, ← hid, ← hpay]
  exact h s hmem hl

theorem SettledWf.promoteReleasedHolds (h : SettledWf db) :
    SettledWf (promoteReleasedHolds now db) where
  wf := wf_promoteReleasedHolds h.wf
  locks := h.locks.promoteReleasedHolds h.wf
  sums := h.sums.of_same (settledCents_promoteReleasedHolds db)
    fun s hs hl => ⟨s, hs, rfl, hl, rfl⟩

theorem SettledWf.repriced (h : SettledWf db) {repId : Nat} {ms : Int} {p : StatementPricing}
    (hopen : db.weekLocked repId (db.weekOf ms).weekStartUtc = false)
    (hp : repricing now repId ms db = .ok p) : SettledWf (repriced now repId ms p db) := by
  have hpro : SettledWf (Commission.promoteReleasedHolds now db) := h.promoteReleasedHolds
  have hkept : SameLocks db (Commission.promoteReleasedHolds now db) :=
    sameLocks_of_statements rfl
  have hlocks : SameLocks db (Commission.repriced now repId ms p db) :=
    hkept.trans (sameLocks_storePricing _ _ _ _ _ _)
  refine ⟨wf_storePricing hpro.wf _ _ _, hpro.locks.of_sameLocks (storePricing_overrides ..)
    (sameLocks_storePricing _ _ _ _ _ _), hpro.sums.of_same (fun id => ?_) fun s hs hl => ?_⟩
  · rw [Commission.repriced, storePricing_overrides]
  · rcases repriced_statement h.wf hp hs with ⟨hk, _⟩ | ⟨_, hmem⟩
    · refine absurd ((hlocks s.id _).mp ⟨s, hs, rfl, hk, hl⟩) ?_
      exact (weekLocked_eq_false_iff h.wf).mp hopen s.id
    · exact ⟨s, hmem, rfl, hl, rfl⟩

theorem calculate_settled (repId : Nat) (ms : Int) :
    Keeps SettledWf (calculateOrRecalculateStatement (repId) ms now) :=
  calculateOrRecalculateStatement_keeps (fun _ h => h.promoteReleasedHolds)
    fun _ _ h hopen hp => h.repriced hopen hp

theorem SettledWf.sync (h : SettledWf db) (x : Nat) (week : Stamp) :
    SettledWf (syncOverridesForSale x week now db) := by
  obtain ⟨hwf, hsums⟩ := syncOverridesForSale_keeps h.wf h.sums x week
    (fun sale rows _ _ _ hI a _ _ => hI.of_same
      (settledCents_snoc (earnRow_not_settled _ _ _ _ _ _ _)) fun s hs hl => ⟨s, hs, rfl, hl, rfl⟩)
    fun sale rows _ _ hw hI b l earn hpair _ _ => hI.of_same
      (settledCents_closedRows hw.ledger.ids (mem_of_pairRows hpair).1 l)
      fun s hs hl => ⟨s, hs, rfl, hl, rfl⟩
  exact ⟨hwf, h.locks.sync h.wf x week, hsums⟩

theorem OverrideLocks.settledCents_eq_zero (h : OverrideLocks db) {id : Nat}
    (hid : ∀ key, ¬ LockedAs db id key) : settledCents db.overrides id = 0 := by
  unfold settledCents
  rw [filter_eq_nil_iff.mpr fun r hr => ?_]
  · rfl
  · simp only [decide_eq_true_eq]
    intro hs
    obtain ⟨id', hid', hl⟩ := h.settled r hr hs.1
    rw [hs.2, Option.some.injEq] at hid'
    exact hid _ (hid' ▸ hl)

theorem OverrideLocks.payableBlock_eq_zero (h : OverrideLocks db) {id repId : Nat} {week : Stamp}
    (hl : LockedAs db id (repId, week)) :
    (payableBlock db.overrides repId week).payCents = 0 := by
  unfold payableBlock
  rw [filter_eq_nil_iff.mpr fun r hr => ?_]
  · rfl
  · simp only [decide_eq_true_eq]
    intro hp
    obtain ⟨hkey, hst⟩ := payableIn_iff.mp hp
    exact h.payable r hr hst id (hkey ▸ hl)

/-- What FINALIZE needs of the statement it locks: it is locked already, or its override block is
the one that is settled with it. -/
def ReadyToFreeze (stmt : Statement) (db : Db) : Prop :=
  ∃ s ∈ db.statements, s.id = stmt.id ∧ s.key = stmt.key ∧ (s.status.locked = true ∨
    s.overridePayCents = (payableBlock db.overrides stmt.repId stmt.weekStartUtc).payCents)

theorem SettledWf.freeze (h : SettledWf db) {stmt : Statement} (hready : ReadyToFreeze stmt db) :
    SettledWf (freeze stmt now db) := by
  obtain ⟨s₀, hs₀, hid₀, hkey₀, hready⟩ := hready
  refine ⟨(wf_markWeekSettled h.wf _ _ _).setStatementStatus _ _,
    h.locks.freeze h.wf ⟨s₀, hs₀, hid₀, hkey₀⟩, fun s hs hl => ?_⟩
  obtain ⟨s', hs', rfl⟩ := mem_map.mp hs
  split
  · rename_i hid
    obtain rfl := h.wf.statementIds.eq_of_key hs' hs₀ (hid.trans hid₀.symm)
    change settledCents (markWeekSettled _ _ _ _ _).overrides s'.id = s'.overridePayCents
    rw [hid₀, settledCents_markWeekSettled, ← hid₀]
    cases hl₀ : s'.status.locked with
    | true =>
      have hlock : LockedAs db s'.id stmt.key := ⟨s', hs₀, rfl, hkey₀, hl₀⟩
      rw [h.sums s' hs₀ hl₀, h.locks.payableBlock_eq_zero hlock, add_zero]
    | false =>
      rw [hready.resolve_left (by simp [hl₀]), h.locks.settledCents_eq_zero, zero_add]
      rintro key ⟨s, hs, hid, _, hl⟩
      rw [h.wf.statementIds.eq_of_key hs hs₀ hid, hl₀] at hl
      simp at hl
  · rename_i hid
    rw [if_neg hid] at hl
    exact (settledCents_markWeekSettled_other db _ _ hid).trans (h.sums s' hs' hl)

theorem SettledWf.unfreeze (h : SettledWf db) (stmt : Statement) :
    SettledWf (unfreeze stmt now db) := by
  refine ⟨(wf_markStatementReopened h.wf _).setStatementStatus _ _,
    h.locks.unfreeze h.wf stmt, fun s hs hl => ?_⟩
  obtain ⟨s', hs', rfl⟩ := mem_map.mp hs
  split at hl
  · simp [StatementStatus.locked] at hl
  · rename_i hid
    rw [if_neg hid]
    exact (settledCents_markStatementReopened db hid).trans (h.sums s' hs' hl)

theorem SettledWf.paid (h : SettledWf db) {stmt : Statement}
    (hfound : db.statementById stmt.id = some stmt) (hst : stmt.status.locked = true) :
    SettledWf (setStatementStatus stmt.id .paid now db) := by
  obtain ⟨hmem, _⟩ := mem_of_statementById hfound
  refine ⟨h.wf.setStatementStatus _ _, h.locks.of_sameLocks rfl (sameLocks_paid h.wf hfound hst),
    h.sums.of_same (fun _ => rfl) fun s hs hl => ?_⟩
  obtain ⟨s', hs', rfl⟩ := mem_map.mp hs
  split
  · rename_i hid
    obtain rfl := h.wf.statementIds.eq_of_key hs' hmem hid
    exact ⟨s', hs', rfl, hst, rfl⟩
  · rename_i hid
    rw [if_neg hid] at hl
    exact ⟨s', hs', rfl, hl, rfl⟩

theorem applyApprovedAdjustments_settled (id : Nat) :
    Keeps SettledWf (applyApprovedAdjustments id now) := by
  refine applyApprovedAdjustments_keeps fun db stmt h _ =>
    ⟨h.wf.updateStatement _ (fun _ => rfl) fun _ => rfl, h.locks.of_sameLocks rfl
      (sameLocks_updateStatement db _ (fun _ => rfl) (fun _ => rfl) fun _ => rfl),
      h.sums.of_same (fun _ => rfl) fun s hs hl => ?_⟩
  obtain ⟨s', hs', rfl⟩ := mem_map.mp hs
  refine ⟨s', hs', ?_⟩
  split at hl <;> split <;> exact ⟨rfl, hl, rfl⟩

theorem finalizeStatement_settled (stmt : Statement) :
    Triple (fun db => SettledWf db ∧ db.statementById stmt.id = some stmt ∧
        (stmt.status.locked = false →
          (db.weekOf stmt.weekStartUtc.ms).weekStartUtc = stmt.weekStartUtc))
      (finalizeStatement stmt now) (fun _ => SettledWf) fun _ => SettledWf := by
  by_cases hpaid : stmt.status = .paid
  · unfold finalizeStatement
    rw [if_pos hpaid]
    exact Triple.throw fun _ h => h.1
  · refine finalizeStatement_triple (F := fun db => SettledWf db ∧ ReadyToFreeze stmt db)
      (fun _ h => h.1) ?_ fun db h => h.1.freeze h.2
    unfold recomputeBeforeFreeze
    split
    · rename_i hfin
      refine Triple.pure fun db h => ⟨h.1, stmt, (mem_of_statementById h.2.1).1, rfl, rfl,
        Or.inl (by rw [hfin]; rfl)⟩
    · rename_i hfin
      have hopen : stmt.status.locked = false := by simp [StatementStatus.locked, hfin, hpaid]
      refine Triple.bind (Q := fun _ db => SettledWf db ∧ Wf db ∧
        db.statementById stmt.id = some stmt ∧
          (db.weekOf stmt.weekStartUtc.ms).weekStartUtc = stmt.weekStartUtc)
        (Triple.read fun db h => ⟨h.1, h.1.wf, h.2.1, h.2.2 hopen⟩) fun hourly => ?_
      split
      · exact Triple.throw fun _ h => h.1
      · refine ((recalculate_keeps (calculate_settled _ _)).and
          (recalculate_ownWeek stmt now)).conseq
          (fun _ h => h) ?_ fun _ _ h => h.1
        rintro _ db ⟨h, s, hs, hid, hk, hpay⟩
        exact ⟨h, s, hs, hid, hk, .inr hpay⟩

theorem transitionStatement_settled (id : Nat) (action : StatementAction) :
    Triple (fun db => SettledWf db ∧ (action = .finalize →
        ∀ stmt ∈ db.statementById id, stmt.status.locked = false →
          (db.weekOf stmt.weekStartUtc.ms).weekStartUtc = stmt.weekStartUtc))
      (transitionStatement id action now) (fun _ => SettledWf) fun _ => SettledWf := by
  refine transitionStatement_triple (fun _ h => h.1) fun stmt => ?_
  have hfound : ∀ db : Db, db.statementById id = some stmt → db.statementById stmt.id = some stmt :=
    fun db h => by rw [(mem_of_statementById h).2, h]
  cases action with
  | finalize =>
    exact (finalizeStatement_settled stmt).conseq
      (fun db h => ⟨h.1.1, hfound db h.2, h.1.2 rfl stmt h.2⟩) (fun _ _ h => h) fun _ _ h => h
  | reopen => exact reopenStatement_triple (fun _ h => h.1.1) fun db h _ => h.1.1.unfreeze stmt
  | markPaid =>
    exact markStatementPaid_triple (fun _ h => h.1.1) fun db h hst =>
      h.1.1.paid (hfound db h.2) (by rw [hst]; rfl)

theorem settled_step (h : SettledWf db) {e : Event} (hown : FinalizesOwnWeek db e) :
    SettledWf (step db e) := by
  unfold step
  by_cases hx : e.action.saleExternalId.isSome
  · refine perform_sale h.wf h hx (fun sale db' _ hs => ?_) calculate_settled
    refine SettledWf.sync ⟨hs.wf, ?_, ?_⟩ _ _
    · exact h.locks.of_sameLocks (by rw [hs.tables]) (sameLocks_of_statements (by rw [hs.tables]))
    · rw [hs.tables]
      exact h.sums.of_same (fun _ => rfl) fun s hs hl => ⟨s, hs, rfl, hl, rfl⟩
  · cases ha : e.action with
    | upsertSale | transitionSale | recordFieldSaleFromKnock | reverseFieldSale =>
      simp [ha, Action.saleExternalId] at hx
    | calculateOrRecalculateStatement repId ms =>
      exact (recalculate_keeps (calculate_settled _ _)).store h
    | promoteReleasedHolds => exact h.promoteReleasedHolds
    | createAdjustment input =>
      exact (createAdjustment_keeps (I := SettledWf) fun db _ _ h hv hid hs _ =>
        ⟨wf_adjustment h.wf hv hid hs, h.locks.of_sameLocks rfl (sameLocks_of_statements rfl),
          h.sums⟩).store h
    | decideAdjustment id decision =>
      exact (decideAdjustment_keeps (I := SettledWf) (fun db h => ⟨wf_setAdjustmentStatus h.wf _ _,
        h.locks.of_sameLocks rfl (sameLocks_of_statements rfl), h.sums⟩)
        applyApprovedAdjustments_settled calculate_settled).store h
    | applyApprovedAdjustments id => exact (applyApprovedAdjustments_settled id).store h
    | transitionStatement id action =>
      refine (transitionStatement_settled id action).store ⟨h, fun hfin => ?_⟩
      exact hown id (by rw [ha, hfin]; rfl)
    | resolveException id adj =>
      refine (resolveException_keeps (I := SettledWf) fun db h ho =>
        ⟨wf_resolveException h.wf ho, h.locks.resolved, ?_⟩).store h
      obtain ⟨x, hx, hxid, hst⟩ := ho
      refine h.sums.of_same (fun k => settledCents_map (fun r => ?_) fun r hr => ?_)
        fun s hs hl => ⟨s, hs, rfl, hl, rfl⟩
      · split <;> rfl
      · split
        · rename_i hrid
          rw [h.wf.ledger.ids.eq_of_key hr hx (hrid.trans hxid.symm)]
          simp [SettledBy, hst]
        · rfl
    | editOrg org =>
      exact ⟨h.wf.of_eq rfl rfl rfl rfl, h.locks.of_sameLocks rfl (sameLocks_of_statements rfl),
        h.sums⟩
    | editCommissions cs =>
      exact ⟨h.wf.of_eq rfl rfl rfl rfl, h.locks.of_sameLocks rfl (sameLocks_of_statements rfl),
        h.sums⟩

end Steps

/-- No row is PAYABLE in a locked week, and what a locked statement has settled is its override
block. -/
structure OverrideMoney (db : Db) : Prop where
  payable : ∀ r ∈ db.overrides, r.status = .payable →
    db.weekLocked r.beneficiaryRepId r.earnedWeekStartUtc = false
  settled : SettledSum db

theorem overrideMoney_run (org : Org) {events : List Event}
    (h : Along step FinalizesOwnWeek (Db.empty org) events) :
    OverrideMoney (run step (Db.empty org) events) := by
  have hI := run_invariant (I := SettledWf) (fun _ _ hI hc => settled_step hI hc)
    ⟨wf_empty org, overrideLocks_empty org, fun _ hs => absurd hs not_mem_nil⟩ h
  exact ⟨fun r hr hst => (weekLocked_eq_false_iff hI.wf).mpr (hI.locks.payable r hr hst), hI.sums⟩

/-- 2026-09-09, a Wednesday, at noon UTC. -/
def springNow : Int := 1788955200000

/-- The manager's week is opened, rep 1 sells, and the manager's statement is FINALIZED. -/
def finalizeAfterSale : List Event :=
  [⟨springNow, .calculateOrRecalculateStatement 2 springNow⟩,
    ⟨springNow, .upsertSale
      { sampleSale "A-1" with
        dates := .trusted
          { soldAt := some (Stamp.ofMs springNow)
            qualifiedAt := some (Stamp.ofMs springNow)
            installedAt := none
            activatedAt := none } }⟩,
    ⟨springNow, .transitionStatement 1 .finalize⟩]

theorem overrideMoney_run_utc :
    OverrideMoney (run step (Db.empty sampleOrg) finalizeAfterSale) :=
  overrideMoney_run sampleOrg (by decide +kernel)

/-- Clocks that jump from 00:00 to 01:00 on Sunday 2026-09-06, the hour at which a week starts. -/
def gapZone : Zone := skippedMidnight.timezone

def gapOrg : Org :=
  { sampleOrg with config := { sampleOrg.config with timezone := gapZone, weekStartsOn := 0 } }

theorem not_overrideMoney_gapOrg :
    ¬ OverrideMoney (run step (Db.empty gapOrg) finalizeAfterSale) := by
  intro h
  have hsum := h.settled
  revert hsum
  unfold SettledSum
  decide +kernel

end HomefrontFiber.Commission
