import HomefrontFiber.Commission.OverrideStore

/-!
# Weekly statements

A statement prices one rep's week: qualified sales through the plan that governs the week,
approved adjustments, and the override block. It is recomputed from its sources until the week is
FINALIZED; from then on only approved adjustments move it, until it is PAID.
-/

namespace HomefrontFiber.Commission

def dateKey (t : Text) : Text := t.take 10

/-- The element with the greatest key, the last of those that tie. -/
def pickLatest (key : AssignmentRow → Text) (rows : List AssignmentRow) : Option AssignmentRow :=
  rows.foldl (fun best a => match best with
    | none => some a
    | some b => if key b ≤ key a then some a else some b) none

/-- The element with the least key, the last of those that tie. -/
def pickEarliest (key : AssignmentRow → Text) (rows : List AssignmentRow) : Option AssignmentRow :=
  rows.foldl (fun best a => match best with
    | none => some a
    | some b => if key a ≤ key b then some a else some b) none

/-- The assignment effective at the start of a week, else the earliest that begins inside it. -/
def resolveAssignmentForWeek (assignments : List AssignmentRow) (bounds : WeekBounds) :
    Option AssignmentRow :=
  let wk := dateKey bounds.weekStartUtc.text
  let nk := dateKey bounds.nextWeekStartUtc.text
  let covering := assignments.filter fun a =>
    dateKey a.effectiveFrom ≤ wk ∧ ∀ until_ ∈ a.effectiveTo, wk < dateKey until_
  let startingWithin := assignments.filter fun a =>
    wk < dateKey a.effectiveFrom ∧ dateKey a.effectiveFrom < nk ∧
      ∀ until_ ∈ a.effectiveTo, dateKey a.effectiveFrom < dateKey until_
  match pickLatest (·.effectiveFrom) covering with
  | some a => some a
  | none => pickEarliest (·.effectiveFrom) startingWithin

namespace Db

def assignmentForWeek (db : Db) (repId : Nat) (bounds : WeekBounds) : Option AssignmentRow :=
  resolveAssignmentForWeek (db.org.assignments.filter (·.repId = repId)) bounds

def versionById (db : Db) (id : Nat) : Option PlanVersion := db.org.versions.find? (·.id = id)

def planById (db : Db) (id : Nat) : Option CommissionPlan := db.org.plans.find? (·.id = id)

/-- The week of an instant under the organisation's configuration. -/
def weekOf (db : Db) (ms : Int) : WeekBounds := weekBoundsFor ms db.org.config.toWorkweekConfig

end Db

structure StatementComputation where
  qualifiedSaleCount : Int
  tierId : Option Nat
  tierLabel : Option String
  rateCents : Int
  grossCommissionCents : Int
  adjustmentCents : Int
  finalCommissionCents : Int
  retro : Option RetroResult

def computeStatement (plan : CommissionPlan) (version : PlanVersion) (qualifiedSaleCount : Int)
    (approvedAdjustmentCents : Int) : Except CommissionError StatementComputation :=
  let count := max 0 qualifiedSaleCount
  match plan.type with
  | .flat =>
    let rate := max 0 (version.flatRateCents.getD 0)
    let gross := calculateFlatCommission count rate
    .ok
      { qualifiedSaleCount := count, tierId := none, tierLabel := none, rateCents := rate,
        grossCommissionCents := gross, adjustmentCents := approvedAdjustmentCents,
        finalCommissionCents := gross + approvedAdjustmentCents, retro := none }
  | .tiered =>
    if plan.tierMode ≠ "RETROACTIVE_WEEKLY" then
      .error
        { code := .unsupportedTierMode
          message := s!"Tier mode {plan.tierMode} is not supported for calculation yet." }
    else
      let v := validateTiers version.tiers
      if v.ok then
        let retro := calculateRetroactiveCommission count v.normalized
        .ok
          { qualifiedSaleCount := count, tierId := retro.tierId, tierLabel := retro.tierLabel,
            rateCents := retro.rateCents, grossCommissionCents := retro.grossCommissionCents,
            adjustmentCents := approvedAdjustmentCents,
            finalCommissionCents := retro.grossCommissionCents + approvedAdjustmentCents,
            retro := some retro }
      else
        .error
          { code := .invalidTierConfiguration
            message := " ".intercalate (v.errors.map TierError.message) }

def sumApprovedAdjustments (db : Db) (statementId : Nat) : Int :=
  ((db.adjustments.filter fun a => a.statementId = statementId ∧ a.status = .approved).map
    (·.amountCents)).sum

/-- What a recomputation writes: the priced plan, if any, and the two blocks beside it. -/
structure StatementPricing where
  plan : Option CommissionPlan
  version : Option PlanVersion
  basis : QualificationBasis
  comp : StatementComputation
  hourly : WeekHourlyPay
  override : OverrideBlock

/-- The plan part of a recomputation. A rep with an hourly rate or override rows but no plan still
gets a statement, with a commission of zero. -/
def pricePlan (db : Db) (now : Stamp) (repId : Nat) (bounds : WeekBounds) (hourly : WeekHourlyPay)
    (override : OverrideBlock) (approvedAdjustmentCents : Int) :
    Except CommissionError
      (Option CommissionPlan × Option PlanVersion × QualificationBasis × StatementComputation) :=
  match db.assignmentForWeek repId bounds with
  | none =>
    if hourly.rateCents = none ∧ override.payCents = 0 ∧ override.itemCount = 0 then
      .error
        { code := .noEffectivePlanAssignment
          message := s!"No commission plan assigned to rep {repId} for week " ++
            s!"{bounds.localWeekLabel}." }
    else
      .ok (none, none, db.org.config.qualificationBasis,
        { qualifiedSaleCount := 0, tierId := none, tierLabel := none, rateCents := 0,
          grossCommissionCents := 0, adjustmentCents := approvedAdjustmentCents,
          finalCommissionCents := approvedAdjustmentCents, retro := none })
  | some assignment =>
    match db.versionById assignment.commissionPlanVersionId with
    | none =>
      .error { code := .crossTenantAccess, message := "Plan version not found in tenant.",
               httpStatus := 404 }
    | some version =>
      match db.planById version.commissionPlanId with
      | none =>
        .error { code := .invalidCommissionPlan, message := "Plan not found in tenant.",
                 httpStatus := 404 }
      | some plan =>
        let count := countQualifiedSales db now version.qualificationBasis repId bounds
        (computeStatement plan version count approvedAdjustmentCents).map fun comp =>
          (some plan, some version, version.qualificationBasis, comp)

/-- The recomputation without its writes: the override block is folded into the final amount. -/
def priceStatement (db : Db) (now : Stamp) (repId : Nat) (bounds : WeekBounds)
    (override : OverrideBlock) (existing : Option Statement) :
    Except CommissionError StatementPricing :=
  let hourly := db.org.hourly repId bounds.weekStartUtc bounds.nextWeekStartUtc
  let approved := (existing.map fun s => sumApprovedAdjustments db s.id).getD 0
  (pricePlan db now repId bounds hourly override approved).map fun priced =>
    { plan := priced.1, version := priced.2.1, basis := priced.2.2.1
      comp := { priced.2.2.2 with
        finalCommissionCents := priced.2.2.2.finalCommissionCents + override.payCents }
      hourly := hourly, override := override }

/-- Nothing material differs from the stored row, so the write is skipped. -/
def Statement.unchangedBy (s : Statement) (p : StatementPricing) : Bool :=
  s.qualifiedSaleCount = p.comp.qualifiedSaleCount &&
  s.grossCommissionCents = p.comp.grossCommissionCents &&
  s.adjustmentCents = p.comp.adjustmentCents &&
  s.finalCommissionCents = p.comp.finalCommissionCents &&
  s.commissionPlanVersionId = p.version.map (·.id) &&
  s.hourlyMinutes = p.hourly.minutes &&
  s.hourlyRateCents = p.hourly.rateCents &&
  s.hourlyPayCents = p.hourly.payCents &&
  s.overridePayCents = p.override.payCents &&
  s.overrideItemCount = p.override.itemCount

/-- The columns that the conflict clause of the upsert overwrites. -/
def Statement.repriced (s : Statement) (p : StatementPricing) (now : Stamp) : Statement :=
  { s with
    qualifiedSaleCount := p.comp.qualifiedSaleCount
    tierId := p.comp.tierId
    tierLabel := p.comp.tierLabel
    rateCents := p.comp.rateCents
    grossCommissionCents := p.comp.grossCommissionCents
    adjustmentCents := p.comp.adjustmentCents
    finalCommissionCents := p.comp.finalCommissionCents
    hourlyMinutes := p.hourly.minutes
    hourlyRateCents := p.hourly.rateCents
    hourlyPayCents := p.hourly.payCents
    overridePayCents := p.override.payCents
    overrideItemCount := p.override.itemCount
    commissionPlanId := p.plan.map (·.id)
    commissionPlanVersionId := p.version.map (·.id)
    calculationVersion := s.calculationVersion + 1
    updatedAt := now }

def newStatement (id repId : Nat) (bounds : WeekBounds) (p : StatementPricing) (now : Stamp) :
    Statement where
  id := id
  repId := repId
  weekStartUtc := bounds.weekStartUtc
  nextWeekStartUtc := bounds.nextWeekStartUtc
  qualificationBasis := p.basis
  commissionPlanId := p.plan.map (·.id)
  commissionPlanVersionId := p.version.map (·.id)
  qualifiedSaleCount := p.comp.qualifiedSaleCount
  tierId := p.comp.tierId
  tierLabel := p.comp.tierLabel
  rateCents := p.comp.rateCents
  grossCommissionCents := p.comp.grossCommissionCents
  adjustmentCents := p.comp.adjustmentCents
  finalCommissionCents := p.comp.finalCommissionCents
  hourlyMinutes := p.hourly.minutes
  hourlyRateCents := p.hourly.rateCents
  hourlyPayCents := p.hourly.payCents
  overridePayCents := p.override.payCents
  overrideItemCount := p.override.itemCount
  calculationVersion := 1
  status := .open
  updatedAt := now

/-- The write of a recomputation: none, an update of the stored row, or a new OPEN row. -/
def storePricing (repId : Nat) (bounds : WeekBounds) (existing : Option Statement)
    (p : StatementPricing) (now : Stamp) (db : Db) : Db :=
  match existing with
  | some s => if s.unchangedBy p then db else db.updateStatement s.id (·.repriced p now)
  | none =>
    { db with
      statements := db.statements ++ [newStatement (db.statements.length + 1) repId bounds p now] }

def statementLocked (bounds : WeekBounds) (status : StatementStatus) : CommissionError where
  code := .statementLocked
  message := s!"Week {bounds.localWeekLabel} is {status.label}. " ++
    "Use an adjustment or an authorized reopen."
  httpStatus := 409

def lockedStatement (db : Db) (repId : Nat) (week : Stamp) : Option Statement :=
  (db.statementFor repId week).filter (·.status.locked)

structure StatementDTO where
  statement : Option Statement
  computation : StatementComputation
  bounds : WeekBounds
  hourly : WeekHourlyPay
  override : OverrideBlock

def calculateOrRecalculateStatement (repId : Nat) (weekReference : Int) (now : Stamp) :
    CommissionService StatementDTO := do
  let bounds ← Service.read (·.weekOf weekReference)
  let existing ← Service.read (·.statementFor repId bounds.weekStartUtc)
  match existing.filter (·.status.locked) with
  | some locked => Service.throw (statementLocked bounds locked.status)
  | none => do
    let override ← overrideBlockForWeek repId bounds.weekStartUtc now
    let pricing ← Service.check fun db => priceStatement db now repId bounds override existing
    Service.write (storePricing repId bounds existing pricing now)
    let statement ← Service.read (·.statementFor repId bounds.weekStartUtc)
    pure { statement, computation := pricing.comp, bounds, hourly := pricing.hourly, override }

def recalculate (repId : Nat) (weekReference : Int) (now : Stamp) : CommissionService Unit := do
  let _ ← calculateOrRecalculateStatement repId weekReference now
  pure ()

def maxAdjustmentCents : Int := 100000000

structure AdjustmentInput where
  statementId : Nat
  amountCents : Int
  type : Option String
  reason : Text
  relatedSaleId : Option Nat

def statementNotFound : CommissionError where
  code := .crossTenantAccess
  message := "Statement not found in tenant."
  httpStatus := 404

def statementPaid (message : String) : CommissionError where
  code := .statementLocked
  message := message
  httpStatus := 409

def invalidAdjustment (message : String) (httpStatus : Nat) : CommissionError where
  code := .invalidAdjustment
  message := message
  httpStatus := httpStatus

/-- The checks of `createAdjustment`, in the order in which the code makes them. -/
def adjustmentVerdict (input : AdjustmentInput) (db : Db) : Except CommissionError Statement :=
  match db.statementById input.statementId with
  | none => .error statementNotFound
  | some stmt =>
    if stmt.status = .paid then
      .error (statementPaid
        "Statement is PAID - book corrections on a future week, not a paid one.")
    else if input.amountCents = 0 then
      .error (invalidAdjustment "amountCents must be a non-zero integer." 400)
    else if maxAdjustmentCents < |input.amountCents| then
      .error (invalidAdjustment "Adjustment exceeds the $1,000,000 limit." 400)
    else if trim input.reason = [] then
      .error (invalidAdjustment "A reason is required." 400)
    else if (stmt.status = .open ∨ stmt.status = .review) ∧
        ((input.relatedSaleId.bind db.saleById).map (·.status)) = some .reversed then
      .error (invalidAdjustment
        "That sale is already reversed and excluded from this open week - no adjustment needed."
        409)
    else .ok stmt

def createAdjustment (input : AdjustmentInput) : CommissionService Unit := do
  let stmt ← Service.check (adjustmentVerdict input)
  Service.write fun db =>
    { db with
      adjustments := db.adjustments ++
        [{ id := db.adjustments.length + 1
           statementId := input.statementId
           repId := stmt.repId
           amountCents := input.amountCents
           type := (input.type.filter (· ≠ "")).getD "MANUAL"
           reason := trim input.reason
           relatedSaleId := input.relatedSaleId
           status := .pending }] }

/-- The approved sum over the frozen gross and override block of a statement. -/
def Statement.adjusted (s : Statement) (sum : Int) (now : Stamp) : Statement :=
  { s with
    adjustmentCents := sum
    finalCommissionCents := s.grossCommissionCents + sum + s.overridePayCents
    calculationVersion := s.calculationVersion + 1
    updatedAt := now }

def applyApprovedAdjustments (statementId : Nat) (now : Stamp) : CommissionService Unit := do
  let stmt ← Service.check fun db =>
    match db.statementById statementId with
    | none => .error statementNotFound
    | some stmt =>
      if stmt.status = .paid then
        .error (statementPaid
          "Statement is PAID - money already moved; correct on a future week.")
      else .ok stmt
  Service.write fun db =>
    db.updateStatement stmt.id (·.adjusted (sumApprovedAdjustments db stmt.id) now)

inductive Decision
  | approve | reject
deriving DecidableEq

def Decision.status : Decision → AdjustmentStatus
  | .approve => .approved
  | .reject => .rejected

/-- The checks of `decideAdjustment`, with the statement the adjustment belongs to. -/
def decisionVerdict (adjustmentId : Nat) (decision : Decision) (db : Db) :
    Except CommissionError (Option Statement) :=
  match db.adjustments.find? (·.id = adjustmentId) with
  | none =>
    .error { code := .crossTenantAccess, message := "Adjustment not found in tenant.",
             httpStatus := 404 }
  | some adj =>
    if adj.status ≠ .pending then
      .error (invalidAdjustment s!"Adjustment already {adj.status.label}." 409)
    else
      let stmt := db.statementById adj.statementId
      if decision = .approve ∧ (stmt.map (·.status)) = some .paid then
        .error (statementPaid "Statement is PAID; approve corrections on a future week.")
      else .ok stmt

def setAdjustmentStatus (adjustmentId : Nat) (status : AdjustmentStatus) (db : Db) : Db :=
  { db with
    adjustments := db.adjustments.map fun a =>
      if a.id = adjustmentId then { a with status := status } else a }

/-- The decision is written first; re-pricing the statement follows and may throw. -/
def decideAdjustment (adjustmentId : Nat) (decision : Decision) (now : Stamp) :
    CommissionService Unit := do
  let stmt ← Service.check (decisionVerdict adjustmentId decision)
  Service.write (setAdjustmentStatus adjustmentId decision.status)
  match decision, stmt with
  | _, none => pure ()
  | .approve, some stmt =>
    if stmt.status = .finalized then applyApprovedAdjustments stmt.id now
    else recalculate stmt.repId stmt.weekStartUtc.ms now
  | .reject, some stmt =>
    if stmt.status = .open ∨ stmt.status = .review then
      recalculate stmt.repId stmt.weekStartUtc.ms now
    else pure ()

inductive StatementAction
  | finalize | reopen | markPaid
deriving DecidableEq

def setStatementStatus (id : Nat) (status : StatementStatus) (now : Stamp) (db : Db) : Db :=
  db.updateStatement id fun s => { s with status := status, updatedAt := now }

/-- No open punch may remain and the statement is recomputed, unless it is FINALIZED already. -/
def recomputeBeforeFreeze (stmt : Statement) (now : Stamp) : CommissionService Unit :=
  if stmt.status = .finalized then pure ()
  else do
    let hourly ← Service.read fun db =>
      db.org.hourly stmt.repId stmt.weekStartUtc stmt.nextWeekStartUtc
    if hourly.rateCents ≠ none ∧ 0 < hourly.openSessionCount then
      Service.throw
        { code := .openClockSession
          message := "Close the open clock session before finalizing hourly pay."
          httpStatus := 409 }
    else recalculate stmt.repId stmt.weekStartUtc.ms now

/-- The PAYABLE override rows of the recomputed week are frozen with the statement. -/
def finalizeStatement (stmt : Statement) (now : Stamp) : CommissionService Unit :=
  if stmt.status = .paid then
    Service.throw (statementPaid "Paid statements cannot be re-finalized.")
  else do
    recomputeBeforeFreeze stmt now
    Service.write (markWeekSettled stmt.repId stmt.weekStartUtc stmt.id now)
    Service.write (setStatementStatus stmt.id .finalized now)

def reopenStatement (stmt : Statement) (now : Stamp) : CommissionService Unit :=
  if stmt.status = .paid then
    Service.throw (statementPaid "Paid statements cannot be reopened.")
  else do
    Service.write (markStatementReopened stmt.id now)
    Service.write (setStatementStatus stmt.id .open now)

def markStatementPaid (stmt : Statement) (now : Stamp) : CommissionService Unit :=
  if stmt.status ≠ .finalized then
    Service.throw (statementPaid "Only FINALIZED statements can be marked PAID.")
  else Service.write (setStatementStatus stmt.id .paid now)

def transitionStatement (statementId : Nat) (action : StatementAction) (now : Stamp) :
    CommissionService Unit := do
  let stmt ← Service.check fun db =>
    match db.statementById statementId with
    | none => .error statementNotFound
    | some stmt => .ok stmt
  match action with
  | .finalize => finalizeStatement stmt now
  | .reopen => reopenStatement stmt now
  | .markPaid => markStatementPaid stmt now

end HomefrontFiber.Commission
