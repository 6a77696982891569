import HomefrontFiber.Commission.Recompute

/-!
# The statement identity

Every statement adds up: its final amount is gross plus adjustments plus the override block, and
its adjustments are the sum of its APPROVED rows. A decision is written before the statement is
re-priced, so the second equation depends on the recomputation that follows an approval: it must
not throw, and it must find the week of the statement.
-/

namespace HomefrontFiber.Commission

open List

open Service (Keeps Triple bind_apply check_apply)

/-- A recomputation of the week can be priced: the rep has a plan that calculates, or else an
hourly rate or override rows. -/
def Priceable (db : Db) (now : Stamp) (repId : Nat) (bounds : WeekBounds) : Prop :=
  let block := payableBlock (promoteReleasedHolds now db).overrides repId bounds.weekStartUtc
  (db.assignmentForWeek repId bounds = none →
    (db.org.hourly repId bounds.weekStartUtc bounds.nextWeekStartUtc).rateCents ≠ none ∨
      block.payCents ≠ 0 ∨ block.itemCount ≠ 0) ∧
  ∀ assignment ∈ db.assignmentForWeek repId bounds,
    ∃ version ∈ db.versionById assignment.commissionPlanVersionId,
      ∃ plan ∈ db.planById version.commissionPlanId, plan.type = .tiered →
        plan.tierMode = "RETROACTIVE_WEEKLY" ∧ (validateTiers version.tiers).ok = true

instance (db : Db) (now : Stamp) (repId : Nat) (bounds : WeekBounds) :
    Decidable (Priceable db now repId bounds) :=
  inferInstanceAs (Decidable ((_ → _ ∨ _ ∨ _) ∧ ∀ assignment ∈ db.assignmentForWeek repId bounds,
    ∃ version ∈ db.versionById assignment.commissionPlanVersionId,
      ∃ plan ∈ db.planById version.commissionPlanId, _ → _))

theorem computeStatement_ok {plan : CommissionPlan} {version : PlanVersion}
    (count approved : Int) (h : plan.type = .tiered →
      plan.tierMode = "RETROACTIVE_WEEKLY" ∧ (validateTiers version.tiers).ok = true) :
    ∃ c, computeStatement plan version count approved = .ok c := by
  unfold computeStatement
  split
  · exact ⟨_, rfl⟩
  · obtain ⟨hm, hv⟩ := h ‹_›
    rw [if_neg (not_not.mpr hm), if_pos hv]
    exact ⟨_, rfl⟩

theorem repricing_ok {db : Db} {now : Stamp} {repId : Nat} {ms : Int}
    (h : Priceable db now repId (db.weekOf ms)) : ∃ p, repricing now repId ms db = .ok p := by
  obtain ⟨hnone, hsome⟩ := h
  suffices hplan : ∀ hourly approved, hourly = db.org.hourly repId (db.weekOf ms).weekStartUtc
      (db.weekOf ms).nextWeekStartUtc → ∃ priced, pricePlan (promoteReleasedHolds now db) now repId
        (db.weekOf ms) hourly (payableBlock (promoteReleasedHolds now db).overrides repId
          (db.weekOf ms).weekStartUtc) approved = .ok priced by
    obtain ⟨priced, hp⟩ := hplan _ _ rfl
    unfold repricing priceStatement
    dsimp only
    rw [show (promoteReleasedHolds now db).org = db.org from rfl, hp]
    exact ⟨_, rfl⟩
  rintro _ approved rfl
  unfold pricePlan
  rw [show (promoteReleasedHolds now db).assignmentForWeek repId (db.weekOf ms) =
    db.assignmentForWeek repId (db.weekOf ms) from rfl]
  cases ha : db.assignmentForWeek repId (db.weekOf ms) with
  | none =>
    have hpay := hnone ha
    rw [if_neg fun hn => by rcases hpay with h | h | h <;> tauto]
    exact ⟨_, rfl⟩
  | some assignment =>
    obtain ⟨version, hv, plan, hpl, hok⟩ := hsome assignment ha
    rw [Option.mem_def] at hv hpl
    dsimp only
    rw [show (promoteReleasedHolds now db).versionById assignment.commissionPlanVersionId =
      some version from hv]
    dsimp only
    rw [show (promoteReleasedHolds now db).planById version.commissionPlanId = some plan from hpl]
    obtain ⟨c, hc⟩ := computeStatement_ok (countQualifiedSales (promoteReleasedHolds now db)
      now version.qualificationBasis repId (db.weekOf ms)) approved hok
    dsimp only
    rw [hc]
    exact ⟨_, rfl⟩

structure Statement.Balanced (db : Db) (s : Statement) : Prop where
  final : s.finalCommissionCents =
    s.grossCommissionCents + s.adjustmentCents + s.overridePayCents
  adjustment : s.adjustmentCents = sumApprovedAdjustments db s.id

def StatementIdentity (db : Db) : Prop := ∀ s ∈ db.statements, s.Balanced db

def Action.approves : Action → Option Nat
  | .decideAdjustment id .approve => some id
  | _ => none

/-- The recomputation that follows the approval finds the statement's week and can be priced. -/
def Reprices (db : Db) (now : Stamp) (stmt : Statement) : Prop :=
  (db.weekOf stmt.weekStartUtc.ms).weekStartUtc = stmt.weekStartUtc ∧
    Priceable db now stmt.repId (db.weekOf stmt.weekStartUtc.ms)

instance (db : Db) (now : Stamp) (stmt : Statement) : Decidable (Reprices db now stmt) :=
  inferInstanceAs (Decidable (_ ∧ _))

/-- An approval on a statement that is not locked re-prices it. -/
def ApprovalReprices (db : Db) (e : Event) : Prop :=
  ∀ id ∈ e.action.approves, ∀ adj ∈ db.adjustments.find? (·.id = id),
    ∀ stmt ∈ db.statementById adj.statementId, stmt.status.locked = false →
      Reprices db (Stamp.ofMs e.now) stmt

instance (db : Db) (e : Event) : Decidable (ApprovalReprices db e) :=
  inferInstanceAs (Decidable (∀ id ∈ e.action.approves, ∀ adj ∈ db.adjustments.find? (·.id = id),
    ∀ stmt ∈ db.statementById adj.statementId, stmt.status.locked = false →
      Reprices db (Stamp.ofMs e.now) stmt))

section Steps

variable {db db' : Db} {now : Stamp}

theorem StatementIdentity.of_eq (h : StatementIdentity db) (hs : db'.statements = db.statements)
    (ha : db'.adjustments = db.adjustments) : StatementIdentity db' := by
  intro s hmem
  obtain ⟨hf, hadj⟩ := h s (hs ▸ hmem)
  exact ⟨hf, by rw [hadj, sumApprovedAdjustments, sumApprovedAdjustments, ha]⟩

theorem StatementIdentity.setStatementStatus (h : StatementIdentity db) (id : Nat)
    (status : StatementStatus) : StatementIdentity (setStatementStatus id status now db) := by
  intro s hmem
  obtain ⟨s', hs', rfl⟩ := mem_map.mp hmem
  obtain ⟨hf, hadj⟩ := h s' hs'
  split <;> exact ⟨hf, hadj⟩

/-- All statements but those with id `k` are balanced. -/
def BalancedExcept (k : Nat) (db : Db) : Prop := ∀ s ∈ db.statements, s.id ≠ k → s.Balanced db

@[simp] theorem sumApprovedAdjustments_storePricing (repId : Nat) (bounds : WeekBounds)
    (existing : Option Statement) (p : StatementPricing) (id : Nat) :
    sumApprovedAdjustments (storePricing repId bounds existing p now db) id =
      sumApprovedAdjustments db id := by
  unfold storePricing
  split
  · split <;> rfl
  · rfl

theorem statementIdentity_repriced (h : Wf db) {repId : Nat} {ms : Int} {p : StatementPricing}
    (hbal : ∀ s ∈ db.statements, s.key ≠ (repId, (db.weekOf ms).weekStartUtc) → s.Balanced db)
    (hp : repricing now repId ms db = .ok p) : StatementIdentity (repriced now repId ms p db) := by
  obtain ⟨_, _, hfinal⟩ := repricing_amounts hp
  intro s hs
  have hsum : sumApprovedAdjustments (repriced now repId ms p db) s.id =
      sumApprovedAdjustments db s.id := sumApprovedAdjustments_storePricing ..
  rcases repriced_statement h hp hs with ⟨_, hpr, hadj⟩ | ⟨hk, hmem⟩
  · refine ⟨?_, ?_⟩
    · rw [hpr.final, hfinal, hpr.gross, hpr.adjustment, hpr.override]
    · rw [hpr.adjustment, hadj, hsum]
  · obtain ⟨hf, hadj⟩ := hbal s hmem hk
    exact ⟨hf, by rw [hadj, hsum]⟩

theorem calculate_balances (repId : Nat) (ms : Int) :
    Keeps (fun db => Wf db ∧ StatementIdentity db)
      (calculateOrRecalculateStatement repId ms now) := by
  refine calculateOrRecalculateStatement_keeps
    (fun db h => ⟨wf_promoteReleasedHolds h.1, h.2.of_eq rfl rfl⟩) fun db p h _ hp => ?_
  exact ⟨wf_storePricing (wf_promoteReleasedHolds h.1) repId _ p,
    statementIdentity_repriced h.1 (fun s hs _ => h.2 s hs) hp⟩

theorem statementIdentity_adjusted {k : Nat} (h : BalancedExcept k db) :
    StatementIdentity (db.updateStatement k (·.adjusted (sumApprovedAdjustments db k) now)) := by
  intro s hs
  obtain ⟨s', hs', rfl⟩ := mem_map.mp hs
  split
  · rename_i hid
    exact ⟨rfl, congrArg (sumApprovedAdjustments db) hid.symm⟩
  · rename_i hid
    obtain ⟨hf, hadj⟩ := h s' hs' hid
    exact ⟨hf, hadj⟩

theorem applyApprovedAdjustments_balances (id : Nat) :
    Keeps (fun db => Wf db ∧ StatementIdentity db) (applyApprovedAdjustments id now) :=
  applyApprovedAdjustments_keeps fun _ _ h _ =>
    ⟨h.1.updateStatement _ (fun _ => rfl) fun _ => rfl,
      statementIdentity_adjusted fun s hs _ => h.2 s hs⟩

theorem decisionVerdict_ok {id : Nat} {decision : Decision} {stmt : Option Statement}
    (h : decisionVerdict id decision db = .ok stmt) :
    ∃ adj, db.adjustments.find? (·.id = id) = some adj ∧ adj.status = .pending ∧
      stmt = db.statementById adj.statementId ∧
      (decision = .approve → ∀ s ∈ stmt, s.status ≠ .paid) := by
  unfold decisionVerdict at h
  split at h
  · simp at h
  · rename_i adj hadj
    split at h
    · simp at h
    · rename_i hpending
      dsimp only at h
      split at h
      · simp at h
      · rename_i hpaid
        rw [Except.ok.injEq] at h
        refine ⟨adj, hadj, not_not.mp hpending, h.symm, fun happ s hs hst => hpaid ⟨happ, ?_⟩⟩
        rw [h, Option.mem_def.mp hs, Option.map_some, hst]

theorem sumApprovedAdjustments_setStatus {id k : Nat} {status : AdjustmentStatus}
    (h : ∀ a ∈ db.adjustments, a.id = id → a.statementId = k →
      (a.status = .approved ↔ status = .approved)) :
    sumApprovedAdjustments (setAdjustmentStatus id status db) k =
      sumApprovedAdjustments db k := by
  unfold sumApprovedAdjustments setAdjustmentStatus
  rw [filter_map, map_map]
  have hamount : ∀ a : Adjustment,
      ((·.amountCents) ∘ fun a => if a.id = id then { a with status := status } else a) a =
        a.amountCents := by
    intro a
    dsimp only [Function.comp_apply]
    split <;> rfl
  rw [map_congr_left fun a _ => hamount a]
  congr 2
  refine filter_congr fun a ha => ?_
  simp only [Function.comp_apply]
  by_cases hid : a.id = id
  · by_cases hk : a.statementId = k
    · simp [hid, hk, h a ha hid hk]
    · simp [hid, hk]
  · simp [hid]

/-- The store between an approval and the re-pricing of its statement. -/
structure Approved (now : Stamp) (stmt : Statement) (db : Db) : Prop where
  wf : Wf db
  others : BalancedExcept stmt.id db
  found : db.statementById stmt.id = some stmt
  notPaid : stmt.status ≠ .paid
  reprices : stmt.status.locked = false → Reprices db now stmt

theorem Approved.recalculate {stmt : Statement} (h : stmt.status.locked = false) :
    Triple (Approved now stmt)
      (recalculate stmt.repId stmt.weekStartUtc.ms now)
      (fun _ db => Wf db ∧ StatementIdentity db) fun _ db => Wf db ∧ StatementIdentity db := by
  refine Triple.bind (Q := fun _ db => Wf db ∧ StatementIdentity db) (fun db hdb => ?_)
    fun _ => Triple.pure fun _ h => h
  obtain ⟨hweek, hprice⟩ := hdb.reprices h
  obtain ⟨hmem, _⟩ := mem_of_statementById hdb.found
  rcases calculateOrRecalculateStatement_cases stmt.repId stmt.weekStartUtc.ms now db with
    ⟨hl, _⟩ | ⟨_, e, he, _⟩ | ⟨_, p, _, hp, hc⟩
  · rw [hweek, hdb.wf.weekLocked_of_mem hmem, h] at hl
    simp at hl
  · obtain ⟨p, hp⟩ := repricing_ok hprice
    simp [hp] at he
  · rw [hc]
    refine ⟨wf_storePricing (wf_promoteReleasedHolds hdb.wf) _ _ p,
      statementIdentity_repriced hdb.wf (fun s hs hk => hdb.others s hs fun hid => hk ?_) hp⟩
    rw [hweek, hdb.wf.statementIds.eq_of_key hs hmem hid, Statement.key]

theorem Approved.apply {stmt : Statement} :
    Triple (Approved now stmt) (applyApprovedAdjustments stmt.id now)
      (fun _ db => Wf db ∧ StatementIdentity db) fun _ db => Wf db ∧ StatementIdentity db := by
  intro db hdb
  have happly : applyApprovedAdjustments stmt.id now db = (.ok (), db.updateStatement stmt.id
      (·.adjusted (sumApprovedAdjustments db stmt.id) now)) := by
    unfold applyApprovedAdjustments
    rw [bind_apply, check_apply, hdb.found]
    simp only [hdb.notPaid, if_false]
    rfl
  rw [happly]
  exact ⟨hdb.wf.updateStatement _ (fun _ => rfl) fun _ => rfl,
    statementIdentity_adjusted hdb.others⟩

theorem decided {id : Nat} {decision : Decision} {adj : Adjustment} (h : Wf db)
    (hbal : StatementIdentity db) (hadj : db.adjustments.find? (·.id = id) = some adj)
    (hpending : adj.status = .pending)
    (hpaid : decision = .approve → ∀ s ∈ db.statementById adj.statementId, s.status ≠ .paid)
    (hre : decision = .approve → ∀ s ∈ db.statementById adj.statementId,
      s.status.locked = false → Reprices db now s) :
    (decision = .reject ∨ db.statementById adj.statementId = none →
      StatementIdentity (setAdjustmentStatus id decision.status db)) ∧
    (decision = .approve → ∀ s ∈ db.statementById adj.statementId,
      Approved now s (setAdjustmentStatus id decision.status db)) := by
  obtain ⟨hmem, hid⟩ := mem_of_find?_key hadj
  have hone : ∀ a ∈ db.adjustments, a.id = id → a = adj := fun a ha hk =>
    h.adjustmentIds.eq_of_key ha hmem (hk.trans hid.symm)
  have hsum : ∀ k, decision = .reject ∨ k ≠ adj.statementId →
      sumApprovedAdjustments (setAdjustmentStatus id decision.status db) k =
        sumApprovedAdjustments db k := by
    intro k hk
    refine sumApprovedAdjustments_setStatus fun a ha hka hs => ?_
    obtain rfl := hone a ha hka
    rcases hk with rfl | hk
    · simp [hpending, Decision.status]
    · exact absurd hs.symm hk
  refine ⟨fun hno s hs => ?_, fun happ s hs => ?_⟩
  · obtain ⟨hf, ha⟩ := hbal s hs
    refine ⟨hf, ha.trans (hsum s.id ?_).symm⟩
    refine hno.imp_right fun hnone hk => ?_
    have := find?_key h.statementIds.nodup hs
    rw [hk] at this
    simp [Db.statementById, this] at hnone
  · rw [Option.mem_def] at hs
    have hsid := (mem_of_statementById hs).2
    refine ⟨wf_setAdjustmentStatus h id _, fun s' hs' hne => ?_, ?_, hpaid happ s hs,
      hre happ s hs⟩
    · obtain ⟨hf, ha⟩ := hbal s' hs'
      exact ⟨hf, ha.trans (hsum s'.id (Or.inr fun hk => hne (hk.trans hsid.symm))).symm⟩
    · rw [hsid]
      exact hs

theorem decideAdjustment_balances (id : Nat) (decision : Decision) :
    Triple (fun db => (Wf db ∧ StatementIdentity db) ∧ (decision = .approve →
        ∀ adj ∈ db.adjustments.find? (·.id = id), ∀ stmt ∈ db.statementById adj.statementId,
          stmt.status.locked = false → Reprices db now stmt))
      (decideAdjustment id decision now)
      (fun _ db => Wf db ∧ StatementIdentity db) fun _ db => Wf db ∧ StatementIdentity db := by
  unfold decideAdjustment
  refine Triple.bind (Q := fun stmt db =>
    (decision = .reject ∨ stmt = none → Wf (setAdjustmentStatus id decision.status db) ∧
      StatementIdentity (setAdjustmentStatus id decision.status db)) ∧
    (decision = .approve → ∀ s ∈ stmt, Approved now s (setAdjustmentStatus id decision.status db)))
    (Triple.check (fun db stmt hdb hv => ?_) fun db _ hdb _ => hdb.1) fun stmt => ?_
  · obtain ⟨adj, hadj, hpending, rfl, hpaid⟩ := decisionVerdict_ok hv
    obtain ⟨h1, h2⟩ := decided hdb.1.1 hdb.1.2 hadj hpending hpaid fun happ => hdb.2 happ adj hadj
    exact ⟨fun hno => ⟨wf_setAdjustmentStatus hdb.1.1 id _, h1 hno⟩, h2⟩
  · refine Triple.bind (Q := fun _ db =>
      (decision = .reject ∨ stmt = none → Wf db ∧ StatementIdentity db) ∧
      (decision = .approve → ∀ s ∈ stmt, Approved now s db))
      (Triple.write fun _ h => h) fun _ => ?_
    cases stmt with
    | none => cases decision <;> exact Triple.pure fun _ h => h.1 (Or.inr rfl)
    | some stmt =>
      cases decision with
      | approve =>
        dsimp only
        split
        · exact Approved.apply.conseq (fun _ h => h.2 rfl stmt rfl) (fun _ _ h => h) fun _ _ h => h
        · rename_i hfin
          by_cases hpaid : stmt.status = .paid
          · exact fun db h => absurd hpaid (h.2 rfl stmt rfl).notPaid
          · have hopen : stmt.status.locked = false := by simp [StatementStatus.locked, hfin, hpaid]
            exact (Approved.recalculate hopen).conseq (fun _ h => h.2 rfl stmt rfl)
              (fun _ _ h => h) fun _ _ h => h
      | reject =>
        dsimp only
        split
        · exact (recalculate_keeps (calculate_balances _ _)).conseq (fun _ h => h.1 (Or.inl rfl))
            (fun _ _ h => h) fun _ _ h => h
        · exact Triple.pure fun _ h => h.1 (Or.inl rfl)

theorem transitionStatement_balances (id : Nat) (action : StatementAction) :
    Keeps (fun db => Wf db ∧ StatementIdentity db) (transitionStatement id action now) :=
  transitionStatement_keeps calculate_balances
    (fun _ _ h => ⟨(wf_markWeekSettled h.1 _ _ _).setStatementStatus _ _,
      (h.2.of_eq rfl rfl : StatementIdentity (markWeekSettled _ _ _ _ _)).setStatementStatus _ _⟩)
    (fun _ _ h _ _ => ⟨(wf_markStatementReopened h.1 _).setStatementStatus _ _,
      (h.2.of_eq rfl rfl : StatementIdentity (markStatementReopened _ _ _)).setStatementStatus _ _⟩)
    fun _ _ h => ⟨h.1.setStatementStatus _ _, h.2.setStatementStatus _ _⟩

theorem balances_kept : KeptByWrites StatementIdentity now where
  calculate := calculate_balances
  apply := applyApprovedAdjustments_balances
  promote _ h := h.of_eq rfl rfl
  create row hst h s hs := by
    obtain ⟨hf, hadj⟩ := h s hs
    refine ⟨hf, ?_⟩
    rw [hadj, sumApprovedAdjustments, sumApprovedAdjustments, filter_append]
    simp [hst]
  resolve _ _ h _ := h.of_eq rfl rfl
  commissions _ h := h.of_eq rfl rfl

theorem statementIdentity_step (h : Wf db ∧ StatementIdentity db) {e : Event}
    (hre : ApprovalReprices db e) : Wf (step db e) ∧ StatementIdentity (step db e) := by
  unfold step
  by_cases hx : e.action.saleExternalId.isSome
  · refine perform_sale (I := fun db => Wf db ∧ StatementIdentity db) h.1 h hx ?_
      calculate_balances
    intro sale db' _ hs
    exact syncOverridesForSale_keeps hs.wf
      (h.2.of_eq (by rw [hs.tables]) (by rw [hs.tables])) _ _
      (fun _ _ _ _ _ hI _ _ _ => hI.of_eq rfl rfl) fun _ _ _ _ _ hI _ _ _ _ _ _ => hI.of_eq rfl rfl
  · refine balances_kept.perform h hx (fun id decision ha => ?_)
      (fun id action _ => (transitionStatement_balances id action).store h) fun _ _ => h.2.of_eq rfl rfl
    refine (decideAdjustment_balances id decision).store ⟨h, fun happ => ?_⟩
    exact hre id (by rw [ha, happ]; rfl)

end Steps

/-- Every statement adds up after every run whose approvals re-price their statements, whatever
else throws. -/
theorem statementIdentity_run (org : Org) {events : List Event}
    (h : Along step ApprovalReprices (Db.empty org) events) :
    StatementIdentity (run step (Db.empty org) events) :=
  (run_invariant (I := fun db => Wf db ∧ StatementIdentity db)
    (fun _ _ hI hc => statementIdentity_step hI hc)
    ⟨wf_empty org, fun _ hs => absurd hs not_mem_nil⟩ h).2

def adjustmentRequested : List Event :=
  [⟨sampleNow, .calculateOrRecalculateStatement 2 sampleNow⟩,
    ⟨sampleNow, .createAdjustment
      { statementId := 1
        amountCents := 500
        type := none
        reason := ['b', 'o', 'n', 'u', 's']
        relatedSaleId := none }⟩]

theorem statementIdentity_run_approved :
    StatementIdentity (run step (Db.empty sampleOrg)
      (adjustmentRequested ++ [⟨sampleNow, .decideAdjustment 1 .approve⟩])) :=
  statementIdentity_run sampleOrg (by decide +kernel)

def withoutHourlyRate : Org :=
  { sampleOrg with
    hourly := fun _ _ _ =>
      { minutes := 0, rateCents := none, payCents := 0, openSessionCount := 0 } }

/-- The approval is written, and the recomputation after it finds no plan. -/
def approvalThrows : List Event :=
  adjustmentRequested ++
    [⟨sampleNow, .editOrg withoutHourlyRate⟩, ⟨sampleNow, .decideAdjustment 1 .approve⟩]

theorem not_statementIdentity_approvalThrows :
    ¬ StatementIdentity (run step (Db.empty sampleOrg) approvalThrows) := by
  intro h
  have hrow := fun s hs => (h s hs).adjustment
  revert hrow
  decide +kernel

end HomefrontFiber.Commission
