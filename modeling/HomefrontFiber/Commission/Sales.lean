import HomefrontFiber.Commission.Statements

/-!
# Commission sales

Every sale write goes through `upsertSale` or `transitionSale`, and both end in
`reconcileSaleSideEffects`: the override ledger is brought in step with the sale first, then the
statement of the sale's week and those of its uplines are recomputed. A door-knock books its sale
through `recordFieldSaleFromKnock` and takes it back through `reverseFieldSale`.
-/

namespace HomefrontFiber.Commission

structure SaleInput where
  repId : Nat
  externalId : String
  status : Option SaleStatus
  dates : SaleDates
  leadId : Option Nat

/-- The basis of the plan version that governs a rep's week, else that of the organisation. -/
def fallbackBasisForRepWeek (db : Db) (repId : Nat) (bounds : WeekBounds) : QualificationBasis :=
  match db.assignmentForWeek repId bounds with
  | none => db.org.config.qualificationBasis
  | some assignment =>
    ((db.versionById assignment.commissionPlanVersionId).map (·.qualificationBasis)).getD
      db.org.config.qualificationBasis

def resolveSaleBasis (db : Db) (repId : Nat) (atMs : Int) : QualificationBasis :=
  fallbackBasisForRepWeek db repId (db.weekOf atMs)

/-- The instant that places an unstamped sale: the first candidate whose week's own basis leads
back to that week. -/
def coherentBasisTs (db : Db) (sale : Sale) : List Stamp → Option Stamp
  | [] => none
  | candidate :: rest =>
    let basis := fallbackBasisForRepWeek db sale.repId (db.weekOf candidate.ms)
    let ts := (sale.basisColumn basis).getD sale.soldAt
    if (db.weekOf ts.ms).weekStartUtc = (db.weekOf candidate.ms).weekStartUtc then some ts
    else coherentBasisTs db sale rest

def resolvedBasisTsForSale (db : Db) (sale : Sale) : Stamp :=
  match sale.qualificationBasis with
  | some stamped => (sale.basisColumn stamped).getD sale.soldAt
  | none =>
    (coherentBasisTs db sale ([sale.qualifiedAt, sale.installedAt, sale.activatedAt].filterMap id ++
      [sale.soldAt])).getD (sale.basisTsForSale db.org.config.qualificationBasis)

def expectedSideEffectError (e : CommissionError) : Bool :=
  e.code = .noEffectivePlanAssignment || e.code = .statementLocked

def reconcileSaleSideEffects (sale : Sale) (now : Stamp) :
    CommissionService (Option StatementDTO) := do
  let basisTs ← Service.read fun db => resolvedBasisTsForSale db sale
  let bounds ← Service.read (·.weekOf basisTs.ms)
  Service.write (syncOverridesForSale sale.id bounds.weekStartUtc now)
  let statement ← Service.swallow expectedSideEffectError
    (calculateOrRecalculateStatement sale.repId basisTs.ms now)
  let uplines ← Service.read fun db => beneficiariesForSale db sale.id
  Service.forEach (fun b => do
    let _ ← Service.swallow expectedSideEffectError
      (calculateOrRecalculateStatement b.1 b.2.ms now)
    pure ()) uplines
  pure statement

/-- The gate for every path that makes a sale countable: its week must not be locked. -/
def assertWeekOpenForQualify (db : Db) (repId : Nat) (basisTs : Stamp) :
    Except CommissionError Unit :=
  let target := (db.weekOf basisTs.ms).weekStartUtc
  match lockedStatement db repId target with
  | none => .ok ()
  | some stmt =>
    .error
      { code := .statementLocked
        message := s!"Week {String.ofList target.text} is {stmt.status.label} for rep " ++
          s!"{repId} - book the sale PENDING and qualify it in an open correction period."
        httpStatus := 409 }

structure SaleWrite where
  soldAt : Stamp
  dates : DateFields Stamp
  basis : QualificationBasis

def SaleInput.statusOrPending (input : SaleInput) : SaleStatus := input.status.getD .pending

/-- The basis an upsert places its sale by: the frozen one of the row, else that of the plan. -/
def saleBasis (db : Db) (input : SaleInput) (existing : Option Sale) (dates : DateFields Stamp)
    (soldAt : Stamp) : QualificationBasis :=
  (existing.bind (·.qualificationBasis)).getD
    (resolveSaleBasis db input.repId (dates.qualifiedAt.getD soldAt).ms)

def movesCredit (input : SaleInput) (existing : Sale) : Bool := existing.repId ≠ input.repId

/-- A QUALIFIED sale with a stamped basis would change its pay week. -/
def movesWeek (db : Db) (existing : Sale) (basis : QualificationBasis) (incoming : Stamp) : Bool :=
  existing.status = .qualified &&
    (existing.basisColumn basis).any fun raw =>
      (db.weekOf incoming.ms).weekStartUtc ≠ (db.weekOf raw.ms).weekStartUtc

def saleCreditLocked (message : String) : CommissionError where
  code := .saleCreditLocked
  message := message
  httpStatus := 409

/-- The freeze of a sale's owner and of a QUALIFIED sale's pay week. Bringing a REVERSED sale back
under a new owner is a move of credit like any other. -/
def creditVerdict (db : Db) (input : SaleInput) (existing : Option Sale)
    (basis : QualificationBasis) (incoming : Stamp) : Except CommissionError Unit :=
  match existing with
  | none => .ok ()
  | some sale =>
    if movesCredit input sale then
      .error (saleCreditLocked (s!"Sale {input.externalId} already belongs to rep " ++
        s!"{sale.repId} - reverse it before re-crediting."))
    else if movesWeek db sale basis incoming then
      .error (saleCreditLocked (s!"Sale {input.externalId} is QUALIFIED in an earlier pay " ++
        "week - reverse it before re-dating."))
    else .ok ()

/-- The external id or the sale date is absent or blank. -/
def SaleInput.incomplete (input : SaleInput) : Bool :=
  input.externalId = "" || match input.dates with
    | .untrusted _ raw => raw.soldAt.all (·.text.isEmpty)
    | .trusted dates => dates.soldAt.all (·.text.isEmpty)

/-- The clamped timestamps of an upsert and the basis that places them. -/
def saleWrite (db : Db) (input : SaleInput) : Option SaleWrite :=
  let dates := resolveEffectiveDates input.dates db.org.config.correctionWindowDays
  dates.soldAt.map fun soldAt =>
    { soldAt, dates
      basis := saleBasis db input (db.saleByExternalId input.externalId) dates soldAt }

/-- The timestamp that places the written sale, `soldAt` while the basis column is not stamped. -/
def SaleWrite.incoming (w : SaleWrite) : Stamp := (w.dates.get w.basis).getD w.soldAt

/-- The checks of `upsertSale`, in the order in which the code makes them. -/
def saleVerdict (input : SaleInput) (db : Db) : Except CommissionError SaleWrite :=
  match db.memberById input.repId, saleWrite db input with
  | none, _ =>
    .error { code := .crossTenantAccess, message := "Rep not found in tenant.", httpStatus := 404 }
  | some _, none => .error (invalidAdjustment "externalId and soldAt are required." 400)
  | some _, some w =>
    if input.incomplete then .error (invalidAdjustment "externalId and soldAt are required." 400)
    else
      match creditVerdict db input (db.saleByExternalId input.externalId) w.basis w.incoming with
      | .error e => .error e
      | .ok _ =>
        if input.statusOrPending = .qualified then
          (assertWeekOpenForQualify db input.repId w.incoming).map fun _ => w
        else .ok w

/-- The conflict clause of the upsert. The basis is written once. -/
def Sale.overwritten (s : Sale) (input : SaleInput) (w : SaleWrite) (now : Stamp) : Sale :=
  { s with
    repId := input.repId
    status := input.statusOrPending
    soldAt := w.soldAt
    qualifiedAt := w.dates.qualifiedAt
    installedAt := w.dates.installedAt
    activatedAt := w.dates.activatedAt
    leadId := input.leadId
    qualificationBasis := s.qualificationBasis.or (some w.basis)
    updatedAt := now }

def newSale (id : Nat) (input : SaleInput) (w : SaleWrite) (now : Stamp) : Sale where
  id := id
  repId := input.repId
  externalId := input.externalId
  status := input.statusOrPending
  soldAt := w.soldAt
  qualifiedAt := w.dates.qualifiedAt
  installedAt := w.dates.installedAt
  activatedAt := w.dates.activatedAt
  reversedAt := none
  disqualificationReason := none
  leadId := input.leadId
  qualificationBasis := some w.basis
  createdAt := now
  updatedAt := now

def storeSale (input : SaleInput) (w : SaleWrite) (now : Stamp) (db : Db) : Db :=
  match db.saleByExternalId input.externalId with
  | some s => db.updateSale s.id (·.overwritten input w now)
  | none => { db with sales := db.sales ++ [newSale (db.sales.length + 1) input w now] }

/-- Reconciles the side effects of the sale with the given external id. -/
def reconcileStored (externalId : String) (now : Stamp) :
    CommissionService (Option (Sale × Option StatementDTO)) := do
  let sale ← Service.read (·.saleByExternalId externalId)
  match sale with
  | none => pure none
  | some sale => do
    let statement ← reconcileSaleSideEffects sale now
    pure (some (sale, statement))

def upsertSale (input : SaleInput) (now : Stamp) : CommissionService (Option Sale) := do
  let w ← Service.check (saleVerdict input)
  Service.write (storeSale input w now)
  let r ← reconcileStored input.externalId now
  pure (r.map (·.1))

/-- `cancel` is any action text besides the other three. -/
inductive SaleAction
  | qualify | reverse | disqualify (reason : Option String) | cancel
deriving DecidableEq

/-- The timestamp of a transition: the caller's, clamped, else the server's own clock. -/
def transitionAt (db : Db) (at_ : Option RawStamp) (now : Stamp) : Stamp :=
  ((at_.filter fun raw => !raw.text.isEmpty).map
    (clampStamp now.ms db.org.config.correctionWindowDays)).getD now

def Sale.transitioned (s : Sale) (action : SaleAction) (at_ now : Stamp) : Sale :=
  match action with
  | .qualify =>
    { s with status := .qualified, qualifiedAt := s.qualifiedAt.or (some at_), updatedAt := now }
  | .reverse => { s with status := .reversed, reversedAt := some at_, updatedAt := now }
  | .disqualify reason =>
    { s with status := .disqualified, disqualificationReason := reason, updatedAt := now }
  | .cancel => { s with status := .cancelled, updatedAt := now }

/-- The sale a transition applies to. A sale that is not QUALIFIED is qualified only into a week
that is not locked. -/
def transitionVerdict (externalId : String) (action : SaleAction) (at_ : Option RawStamp)
    (now : Stamp) (db : Db) : Except CommissionError Sale :=
  match db.saleByExternalId externalId with
  | none => .error (invalidAdjustment "Sale not found." 404)
  | some sale =>
    if action = .qualify ∧ sale.status ≠ .qualified then
      let projected := sale.transitioned .qualify (transitionAt db at_ now) now
      (assertWeekOpenForQualify db sale.repId
        (projected.basisTsForSale db.org.config.qualificationBasis)).map fun _ => sale
    else .ok sale

def transitionSale (externalId : String) (action : SaleAction) (at_ : Option RawStamp)
    (now : Stamp) : CommissionService (Option (Sale × Option StatementDTO)) := do
  let sale ← Service.check (transitionVerdict externalId action at_ now)
  Service.write fun db =>
    db.updateSale sale.id (·.transitioned action (transitionAt db at_ now) now)
  reconcileStored externalId now

def fieldSaleExternalId (leadId : Nat) : String := s!"lead:{leadId}"

structure FieldSaleInput where
  repId : Nat
  leadId : Nat
  soldAt : RawStamp
  serverReceivedAt : Int

/-- The knock's time, kept within the correction window before the server's receipt. -/
def effectiveSoldAt (input : FieldSaleInput) (db : Db) : Stamp :=
  let floorMs := input.serverReceivedAt - db.org.config.correctionWindowDays * msPerDay
  Stamp.ofMs (min (max (input.soldAt.ms.getD input.serverReceivedAt) floorMs)
    input.serverReceivedAt)

/-- The sale a sold knock books: QUALIFIED, or PENDING when its week is locked. -/
def fieldSale (input : FieldSaleInput) (db : Db) : SaleInput :=
  let soldAt := effectiveSoldAt input db
  let weekLocked := db.weekLocked input.repId (db.weekOf soldAt.ms).weekStartUtc
  { repId := input.repId
    externalId := fieldSaleExternalId input.leadId
    status := some (if weekLocked then .pending else .qualified)
    dates := .trusted
      { soldAt := some soldAt
        qualifiedAt := if weekLocked then none else some soldAt
        installedAt := none
        activatedAt := none }
    leadId := some input.leadId }

/-- A live sale is frozen: a sold knock on a QUALIFIED door is no money event. -/
def recordFieldSaleFromKnock (input : FieldSaleInput) (now : Stamp) : CommissionService Unit := do
  let existing ← Service.read (·.saleByExternalId (fieldSaleExternalId input.leadId))
  if existing.map (·.status) = some .qualified then pure ()
  else do
    let sale ← Service.read (fieldSale input)
    let _ ← upsertSale sale now
    pure ()

def reverseFieldSale (leadId : Nat) (now : Stamp) : CommissionService Unit := do
  let existing ← Service.read (·.saleByExternalId (fieldSaleExternalId leadId))
  if existing.all (·.status = .reversed) then pure ()
  else do
    let _ ← transitionSale (fieldSaleExternalId leadId) .reverse none now
    pure ()

end HomefrontFiber.Commission
