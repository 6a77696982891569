import HomefrontFiber.Foundation.Runs
import HomefrontFiber.Commission.Sales

/-!
# Runs of the commission service

An event is one call of a service function at one instant, or a write by another part of the
application to what the service reads. A call that throws still takes its step: its writes up to
the throw stay.
-/

namespace HomefrontFiber.Commission

open Service (Keeps Triple bind_apply check_apply read_apply write_apply)

inductive Action
  | upsertSale (input : SaleInput)
  | transitionSale (externalId : String) (action : SaleAction) (at_ : Option RawStamp)
  | recordFieldSaleFromKnock (input : FieldSaleInput)
  | reverseFieldSale (leadId : Nat)
  | calculateOrRecalculateStatement (repId : Nat) (weekReference : Int)
  | promoteReleasedHolds
  | createAdjustment (input : AdjustmentInput)
  | decideAdjustment (adjustmentId : Nat) (decision : Decision)
  | applyApprovedAdjustments (statementId : Nat)
  | transitionStatement (statementId : Nat) (action : StatementAction)
  | resolveException (overrideId adjustmentId : Nat)
  | editOrg (org : Org)
  | editCommissions (commissions : List LegacyCommission)

structure Event where
  now : Int
  action : Action

def perform (action : Action) (now : Stamp) : CommissionService Unit :=
  match action with
  | .upsertSale input => do let _ ← upsertSale input now
  | .transitionSale externalId action at_ => do let _ ← transitionSale externalId action at_ now
  | .recordFieldSaleFromKnock input => recordFieldSaleFromKnock input now
  | .reverseFieldSale leadId => reverseFieldSale leadId now
  | .calculateOrRecalculateStatement repId weekReference => recalculate repId weekReference now
  | .promoteReleasedHolds => Service.write (promoteReleasedHolds now)
  | .createAdjustment input => createAdjustment input
  | .decideAdjustment adjustmentId decision => decideAdjustment adjustmentId decision now
  | .applyApprovedAdjustments statementId => applyApprovedAdjustments statementId now
  | .transitionStatement statementId action => transitionStatement statementId action now
  | .resolveException overrideId adjustmentId => resolveException overrideId adjustmentId now
  | .editOrg org => Service.write fun db => { db with org := org }
  | .editCommissions commissions => Service.write fun db => { db with commissions := commissions }

/-- The store after an event, whether its call returned or threw. -/
def step (db : Db) (e : Event) : Db := (perform e.action (Stamp.ofMs e.now) db).2

section Frames

variable (now : Stamp) (db : Db)

end Frames

/-- The price of a recomputation of the week of an instant, after the released holds. -/
def repricing (now : Stamp) (repId : Nat) (weekReference : Int) (db : Db) :
    Except CommissionError StatementPricing :=
  let bounds := db.weekOf weekReference
  let promoted := promoteReleasedHolds now db
  priceStatement promoted now repId bounds
    (payableBlock promoted.overrides repId bounds.weekStartUtc)
    (db.statementFor repId bounds.weekStartUtc)

def repriced (now : Stamp) (repId : Nat) (weekReference : Int) (p : StatementPricing) (db : Db) :
    Db :=
  let bounds := db.weekOf weekReference
  storePricing repId bounds (db.statementFor repId bounds.weekStartUtc) p now
    (promoteReleasedHolds now db)

/-- What a recomputation can do: refuse a locked week, fail to price it, or store its price. -/
theorem calculateOrRecalculateStatement_cases (repId : Nat) (weekReference : Int) (now : Stamp)
    (db : Db) :
    (db.weekLocked repId (db.weekOf weekReference).weekStartUtc = true ∧
      ∃ status, calculateOrRecalculateStatement repId weekReference now db =
        (.error (statementLocked (db.weekOf weekReference) status), db)) ∨
    (db.weekLocked repId (db.weekOf weekReference).weekStartUtc = false ∧
      ∃ e, repricing now repId weekReference db = .error e ∧
        calculateOrRecalculateStatement repId weekReference now db =
          (.error e, promoteReleasedHolds now db)) ∨
    (db.weekLocked repId (db.weekOf weekReference).weekStartUtc = false ∧
      ∃ p dto, repricing now repId weekReference db = .ok p ∧
        calculateOrRecalculateStatement repId weekReference now db =
          (.ok dto, repriced now repId weekReference p db)) := by
  unfold calculateOrRecalculateStatement
  simp only [bind_apply, read_apply]
  cases hl : (db.statementFor repId (db.weekOf weekReference).weekStartUtc).filter
      (·.status.locked) with
  | some stmt =>
    obtain ⟨hs, hlocked⟩ := Option.filter_eq_some_iff.mp hl
    refine Or.inl ⟨?_, stmt.status, rfl⟩
    rw [Db.weekLocked, hs]
    exact hlocked
  | none =>
    have hopen : db.weekLocked repId (db.weekOf weekReference).weekStartUtc = false := by
      rw [Db.weekLocked]
      cases hs : db.statementFor repId (db.weekOf weekReference).weekStartUtc with
      | none => rfl
      | some s => simpa [hs] using hl
    refine Or.inr ?_
    simp only [overrideBlockForWeek, bind_apply, write_apply, read_apply,
      check_apply]
    cases hp : repricing now repId weekReference db with
    | error e =>
      refine Or.inl ⟨hopen, e, rfl, ?_⟩
      unfold repricing at hp
      simp only at hp
      rw [hp]
    | ok p =>
      refine Or.inr ⟨hopen, p, ?_⟩
      unfold repricing at hp
      simp only at hp
      rw [hp]
      exact ⟨_, rfl, rfl⟩

section Rules

variable {I P : Db → Prop} {now : Stamp}

variable {repId : Nat} {weekReference : Int} {stmt : Statement} {action : StatementAction}

theorem calculateOrRecalculateStatement_keeps
    (hpromote : ∀ db, I db → I (promoteReleasedHolds now db))
    (hstore : ∀ db p, I db → db.weekLocked repId (db.weekOf weekReference).weekStartUtc = false →
      repricing now repId weekReference db = .ok p → I (repriced now repId weekReference p db)) :
    Keeps I (calculateOrRecalculateStatement repId weekReference now) := by
  intro db hdb
  rcases calculateOrRecalculateStatement_cases repId weekReference now db with
    ⟨_, _, h⟩ | ⟨_, _, _, h⟩ | ⟨hopen, p, _, hp, h⟩
  · rw [h]
    exact hdb
  · rw [h]
    exact hpromote db hdb
  · rw [h]
    exact hstore db p hdb hopen hp

def saleWeek (db : Db) (sale : Sale) : Stamp :=
  (db.weekOf (resolvedBasisTsForSale db sale).ms).weekStartUtc

/-- The side effects of a sale write first sync the overrides, then only recompute statements. -/
theorem reconcileSaleSideEffects_triple {K : Db → Prop} {sale : Sale}
    (hsync : ∀ db, K db → I (syncOverridesForSale sale.id (saleWeek db sale) now db))
    (hcalc : ∀ repId ms, Keeps I (calculateOrRecalculateStatement repId ms now)) :
    Triple K (reconcileSaleSideEffects sale now) (fun _ => I) (fun _ => I) := by
  intro db hdb
  have hrest : ∀ basisTs : Stamp, Keeps I (do
      let statement ← Service.swallow expectedSideEffectError
        (calculateOrRecalculateStatement sale.repId basisTs.ms now)
      let uplines ← Service.read fun db => beneficiariesForSale db sale.id
      Service.forEach (fun b => do
        let _ ← Service.swallow expectedSideEffectError
          (calculateOrRecalculateStatement b.1 b.2.ms now)
        pure ()) uplines
      pure statement) := by
    intro basisTs
    refine Keeps.bind (Keeps.swallow (hcalc _ _)) fun statement => ?_
    refine Keeps.bind (Keeps.read _) fun uplines => ?_
    refine Keeps.bind (Keeps.forEach fun b _ => ?_) fun _ => Keeps.pure _
    exact Keeps.bind (Keeps.swallow (hcalc _ _)) fun _ => Keeps.pure _
  exact hrest (resolvedBasisTsForSale db sale) _ (hsync db hdb)

theorem recalculate_keeps
    (h : Keeps I (calculateOrRecalculateStatement repId weekReference now)) :
    Keeps I (recalculate repId weekReference now) :=
  Keeps.bind h fun _ => Keeps.pure ()

def Action.saleExternalId : Action → Option String
  | .upsertSale input => some input.externalId
  | .transitionSale externalId _ _ => some externalId
  | .recordFieldSaleFromKnock input => some (fieldSaleExternalId input.leadId)
  | .reverseFieldSale leadId => some (fieldSaleExternalId leadId)
  | _ => none

def upsertWritten (db : Db) (now : Stamp) (input : SaleInput) : Option Sale :=
  match saleVerdict input db with
  | .error _ => none
  | .ok w => (storeSale input w now db).saleByExternalId input.externalId

def transitionWritten (db : Db) (now : Stamp) (externalId : String) (action : SaleAction)
    (at_ : Option RawStamp) : Option Sale :=
  match transitionVerdict externalId action at_ now db with
  | .error _ => none
  | .ok sale => some (sale.transitioned action (transitionAt db at_ now) now)

def saleWritten (db : Db) (now : Stamp) : Action → Option Sale
  | .upsertSale input => upsertWritten db now input
  | .transitionSale externalId action at_ => transitionWritten db now externalId action at_
  | .recordFieldSaleFromKnock input =>
    if (db.saleByExternalId (fieldSaleExternalId input.leadId)).map (·.status) = some .qualified
    then none
    else upsertWritten db now (fieldSale input db)
  | .reverseFieldSale leadId =>
    if (db.saleByExternalId (fieldSaleExternalId leadId)).all (·.status = .reversed) then none
    else transitionWritten db now (fieldSaleExternalId leadId) .reverse none
  | _ => none

def freeze (stmt : Statement) (now : Stamp) (db : Db) : Db :=
  setStatementStatus stmt.id .finalized now
    (markWeekSettled stmt.repId stmt.weekStartUtc stmt.id now db)

def unfreeze (stmt : Statement) (now : Stamp) (db : Db) : Db :=
  setStatementStatus stmt.id .open now (markStatementReopened stmt.id now db)

theorem recomputeBeforeFreeze_keeps (h : Keeps I
      (calculateOrRecalculateStatement stmt.repId stmt.weekStartUtc.ms now)) :
    Keeps I (recomputeBeforeFreeze stmt now) := by
  unfold recomputeBeforeFreeze
  split
  · exact Keeps.pure ()
  · refine Keeps.bind (Keeps.read _) fun hourly => ?_
    split
    · exact Keeps.throw _
    · exact recalculate_keeps h

theorem finalizeStatement_triple {F : Db → Prop} (hI : ∀ db, P db → I db)
    (hre : Triple P (recomputeBeforeFreeze stmt now) (fun _ => F) fun _ => I)
    (hfreeze : ∀ db, F db → I (freeze stmt now db)) :
    Triple P (finalizeStatement stmt now) (fun _ => I) fun _ => I := by
  unfold finalizeStatement
  split
  · exact Triple.throw hI
  · refine Triple.bind hre fun _ => ?_
    exact Triple.bind (Q := fun _ db => I (setStatementStatus stmt.id .finalized now db))
      (Triple.write hfreeze) fun _ => Triple.write fun _ h => h

theorem reopenStatement_triple (hI : ∀ db, P db → I db)
    (hunfreeze : ∀ db, P db → stmt.status ≠ .paid → I (unfreeze stmt now db)) :
    Triple P (reopenStatement stmt now) (fun _ => I) fun _ => I := by
  unfold reopenStatement
  split
  · exact Triple.throw hI
  · exact Triple.bind (Q := fun _ db => I (setStatementStatus stmt.id .open now db))
      (Triple.write fun db h => hunfreeze db h ‹_›) fun _ =>
        Triple.write fun _ h => h

theorem markStatementPaid_triple (hI : ∀ db, P db → I db)
    (hpaid : ∀ db, P db → stmt.status = .finalized → I (setStatementStatus stmt.id .paid now db)) :
    Triple P (markStatementPaid stmt now) (fun _ => I) fun _ => I := by
  unfold markStatementPaid
  split
  · exact Triple.throw hI
  · exact Triple.write fun db h => hpaid db h (not_not.mp ‹_›)

theorem transitionStatement_triple {id : Nat} (hI : ∀ db, P db → I db)
    (h : ∀ stmt, Triple (fun db => P db ∧ db.statementById id = some stmt)
      (match action with
        | .finalize => finalizeStatement stmt now
        | .reopen => reopenStatement stmt now
        | .markPaid => markStatementPaid stmt now) (fun _ => I) fun _ => I) :
    Triple P (transitionStatement id action now) (fun _ => I) fun _ => I := by
  unfold transitionStatement
  refine Triple.bind (Q := fun stmt db => P db ∧ db.statementById id = some stmt) ?_ h
  refine Triple.check (fun db stmt hP hs => ⟨hP, ?_⟩) fun db _ hP _ => hI db hP
  split at hs
  · simp at hs
  · rename_i s hs'
    rw [hs', (Except.ok.injEq _ _).mp hs]

/-- A transition whose recomputation and whose writes keep `I`. -/
theorem transitionStatement_keeps {id : Nat}
    (hre : ∀ repId ms, Keeps I (calculateOrRecalculateStatement repId ms now))
    (hfreeze : ∀ db stmt, I db → I (freeze stmt now db))
    (hunfreeze : ∀ db stmt, I db → db.statementById id = some stmt → action = .reopen →
      I (unfreeze stmt now db))
    (hpaid : ∀ db stmt, I db → I (setStatementStatus stmt .paid now db)) :
    Keeps I (transitionStatement id action now) := by
  refine transitionStatement_triple (fun _ h => h) fun stmt => ?_
  cases action with
  | finalize =>
    refine finalizeStatement_triple (F := I) (fun _ h => h.1) ?_ fun db h => hfreeze db stmt h
    exact (recomputeBeforeFreeze_keeps (hre _ _)).conseq (fun _ h => h.1) (fun _ _ h => h)
      fun _ _ h => h
  | reopen =>
    exact reopenStatement_triple (fun _ h => h.1) fun db h _ => hunfreeze db stmt h.1 h.2 rfl
  | markPaid => exact markStatementPaid_triple (fun _ h => h.1) fun db h _ => hpaid db _ h.1

theorem createAdjustment_keeps {input : AdjustmentInput}
    (h : ∀ db stmt row, I db → adjustmentVerdict input db = .ok stmt →
      row.id = db.adjustments.length + 1 → row.statementId = input.statementId →
      row.status = .pending → I { db with adjustments := db.adjustments ++ [row] }) :
    Keeps I (createAdjustment input) := by
  unfold createAdjustment
  refine Triple.bind (Q := fun stmt db => I db ∧ adjustmentVerdict input db = .ok stmt)
    (Triple.check (fun _ _ hI hv => ⟨hI, hv⟩) fun _ _ hI _ => hI) fun stmt => ?_
  exact Triple.write fun db hI => h db stmt _ hI.1 hI.2 rfl rfl rfl

theorem applyApprovedAdjustments_keeps {id : Nat}
    (h : ∀ db stmt, I db → db.statementById id = some stmt →
      I (db.updateStatement stmt.id (·.adjusted (sumApprovedAdjustments db stmt.id) now))) :
    Keeps I (applyApprovedAdjustments id now) := by
  unfold applyApprovedAdjustments
  refine Triple.bind (Q := fun stmt db => I db ∧ db.statementById id = some stmt) ?_
    fun stmt => Triple.write fun db hI => h db stmt hI.1 hI.2
  refine Triple.check (fun db stmt hI hs => ⟨hI, ?_⟩) fun _ _ hI _ => hI
  split at hs
  · simp at hs
  · rename_i s hs'
    split at hs
    · simp at hs
    · rw [hs', (Except.ok.injEq _ _).mp hs]

theorem decideAdjustment_keeps {id : Nat} {decision : Decision}
    (hset : ∀ db, I db → I (setAdjustmentStatus id decision.status db))
    (happly : ∀ id, Keeps I (applyApprovedAdjustments id now))
    (hre : ∀ repId ms, Keeps I (calculateOrRecalculateStatement repId ms now)) :
    Keeps I (decideAdjustment id decision now) := by
  unfold decideAdjustment
  refine Keeps.bind (Keeps.check _) fun stmt => ?_
  refine Keeps.bind (Keeps.write hset) fun _ => ?_
  split
  · exact Keeps.pure ()
  · split
    · exact happly _
    · exact recalculate_keeps (hre _ _)
  · split
    · exact recalculate_keeps (hre _ _)
    · exact Keeps.pure ()

end Rules

section Sample

def sampleMember (id : Nat) (role : MemberRole) (reportsToId : Option Nat) : Member where
  id := id
  role := role
  reportsToId := reportsToId
  active := true
  overrideTeamLeadCents := none
  overrideManagerCents := none

/-- A tenant for concrete runs: rep 1 under manager 2, both paid by the hour, weeks from Monday
midnight UTC. -/
def sampleOrg : Org where
  config :=
    { timezone := Zone.utc
      weekStartsOn := 1
      weekStartLocalTime := ['0', '0', ':', '0', '0']
      qualificationBasis := .qualifiedAt
      correctionWindowDays := 30
      overridesEnabled := true
      overrideBasis := .flatPerSale
      overrideTeamLeadCents := 1000
      overrideManagerCents := 2500 }
  payPolicy := { requireInstallConfirm := false, holdDays := 90 }
  members := [sampleMember 1 .rep (some 2), sampleMember 2 .manager none]
  plans := []
  versions := []
  assignments := []
  hourly _ _ _ := { minutes := 0, rateCents := some 2000, payCents := 0, openSessionCount := 0 }

/-- 2026-03-04, a Wednesday, at noon UTC. -/
def sampleNow : Int := 1772625600000

/-- Rep 1's sale `externalId` of that moment, qualified on the spot. -/
def sampleSale (externalId : String) : SaleInput where
  repId := 1
  externalId := externalId
  status := some .qualified
  dates := .trusted
    { soldAt := some (Stamp.ofMs sampleNow)
      qualifiedAt := some (Stamp.ofMs sampleNow)
      installedAt := none
      activatedAt := none }
  leadId := none

end Sample

end HomefrontFiber.Commission
