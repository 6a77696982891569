import HomefrontFiber.Commission.Steps
import HomefrontFiber.Knocking.Schema

/-!
# The knock route

`postKnock` is `POST /api/leads/:id/knock`. The first request inserts the knock row and then runs
the money bundle, one transaction of the outcome's compare-and-set, the field sale and the legacy
commission. A retry with the same client id runs the bundle of the stored row again. An attempt
may crash between any two of its steps and the bundle may throw; both are part of the `Attempt`.
-/

namespace HomefrontFiber.Knocking

open Commission

inductive KnockError
  | tenantUnresolvable
  | bundleFault
  | commission (e : CommissionError)
  | crash

abbrev KnockService (α : Type) := Service KnockDb KnockError α

/-- Runs a function of the commission service on the commission tables. -/
def onCommission {α : Type} (m : CommissionService α) : KnockService α := fun s =>
  ((m s.commission).1.mapError .commission, { s with commission := (m s.commission).2 })

/-- The steps before which a process may crash. Inside the bundle a crash undoes the bundle. -/
inductive CrashPoint
  | beforeInsert | beforeBundle | afterBundle | beforeRecord | beforeResponse
deriving DecidableEq

/-- The body of a knock request. `mayKnock` and `mayCredit` are the verdicts of the tenant and
visibility checks on the caller, `valid` that of the schema on the fields that nothing reads here.
`outcome` is absent for a text that is no outcome, `clientId` for an absent or empty one. -/
structure KnockRequest where
  leadId : Nat
  clientId : Option String
  mayKnock : Bool
  outcome : Option KnockOutcome
  repId : Option Nat
  mayCredit : Bool
  valid : Bool
  knockedAt : Option RawStamp
  superseded : Bool

/-- One request and what happens around it: the server clock when it arrives and when it is read
again, the tenant's local day, whether the bundle throws for a reason outside these tables, what
the spiff engine decides, and where the process crashes, if it does. -/
structure Attempt where
  request : KnockRequest
  serverTs : Int
  dateNow : Int
  saleDate : Text
  bundleFault : Bool
  spiffDecision : Option Nat
  crash : Option CrashPoint

structure Response where
  status : Nat
  knock : Option Nat
  superseded : Bool

def Response.refused (status : Nat) : Response :=
  { status, knock := none, superseded := false }

def maxSkewMs : Int := 600000

/-- A tap time that parses and is not in the future is kept, any other is the given clock's. -/
def clampTapTime (knockedAt : Option RawStamp) (dateNow fallback : Int) : Stamp :=
  match knockedAt with
  | none => Stamp.ofMs fallback
  | some raw =>
    match raw.ms with
    | none => Stamp.ofMs fallback
    | some ms => if ms ≤ dateNow + maxSkewMs then { text := raw.text, ms } else Stamp.ofMs fallback

/-- Whether the outcome may take the lead: none is recorded, or an older one, or itself. -/
def Lead.yieldsTo (l : Lead) (outcome : KnockOutcome) (knockedAt : Stamp) : Bool :=
  match l.lastOutcomeAt with
  | none => true
  | some at_ =>
    at_.text < knockedAt.text ||
      at_.text = knockedAt.text && l.leadStatus = outcome.leadStatus &&
        l.lastOutcome = some outcome

def Lead.withOutcome (l : Lead) (outcome : KnockOutcome) (knockedAt now : Stamp) : Lead :=
  { l with
    leadStatus := outcome.leadStatus
    lastOutcome := some outcome
    lastOutcomeAt := some knockedAt
    updatedAt := now }

/-- The compare-and-set of a lead's outcome. It tells whether the outcome took the lead. -/
def applyKnockOutcomeCas (leadId : Nat) (outcome : KnockOutcome) (knockedAt now : Stamp) :
    KnockService Bool := do
  let won ← Service.read fun s => (s.leadById leadId).any (·.yieldsTo outcome knockedAt)
  if won then do
    Service.write (·.updateLead leadId (·.withOutcome outcome knockedAt now))
    pure true
  else pure false

/-- The knock row's tenant, else the default one, never the caller's. -/
def resolveKnockSaleTenant (knockTenantId defaultTenantId : Option Nat) : Option Nat :=
  knockTenantId.or defaultTenantId

def rawStamp (t : Stamp) : RawStamp := { text := t.text, ms := some t.ms }

def bookFieldSale (knock : Knock) (outcome : KnockOutcome) (a : Attempt) : KnockService Unit := do
  let tenant ← Service.read fun s => resolveKnockSaleTenant knock.tenantId s.defaultTenantId
  match tenant with
  | none => Service.throw .tenantUnresolvable
  | some _ =>
    if outcome = .sold then
      onCommission (recordFieldSaleFromKnock
        { repId := knock.repId
          leadId := knock.leadId
          soldAt := rawStamp knock.knockedAt
          serverReceivedAt := a.serverTs } (Stamp.ofMs a.dateNow))
    else onCommission (reverseFieldSale knock.leadId (Stamp.ofMs a.dateNow))

/-- Inserts a pending commission unless the door has one, which its unique index forbids. -/
def createCommission (knock : Knock) (active : CommissionStructure) (s : KnockDb) : KnockDb :=
  if s.commission.commissions.any fun c => c.leadId = some knock.leadId && c.status = .pending then s
  else
    { s with
      commissionSeq := s.commissionSeq + 1
      commission :=
        { s.commission with
          commissions := s.commission.commissions ++
            [{ id := s.commissionSeq + 1
               repId := knock.repId
               leadId := some knock.leadId
               knockId := some knock.id
               amountCents := calcCommission active
               status := .pending
               installConfirmedAt := none
               payableAfter := none }] } }

def removePendingCommissionsForLead (leadId : Nat) (s : KnockDb) : KnockDb :=
  { s with
    commission :=
      { s.commission with
        commissions := s.commission.commissions.filter fun c =>
          ¬ (c.leadId = some leadId ∧ c.status = .pending) } }

/-- The structure that pays the knock's rep on the given day. -/
def activeStructure (knock : Knock) (saleDate : Text) (s : KnockDb) : Option CommissionStructure :=
  pickActiveStructure s.rates knock.repId ((s.commission.memberById knock.repId).map (·.role))
    saleDate

/-- One door, one commission: none is created beside a live one. -/
def bookCommission (knock : Knock) (outcome : KnockOutcome) (a : Attempt) : KnockService Unit :=
  Service.write fun s =>
    if outcome = .sold then
      match activeStructure knock a.saleDate s, s.liveCommissionForLead knock.leadId with
      | some active, none => createCommission knock active s
      | _, _ => s
    else removePendingCommissionsForLead knock.leadId s

def bookMoney (knock : Knock) (outcome : KnockOutcome) (a : Attempt) : KnockService Unit :=
  if knock.repId = 0 then pure ()
  else do
    bookFieldSale knock outcome a
    bookCommission knock outcome a

def markApplied (knockId : Nat) (s : KnockDb) : KnockDb :=
  { s with applied := s.applied ++ [knockId] }

/-- The money bundle of a knock, all or nothing. It tells whether the knock was superseded. -/
def runMoneyBundle (knock : Knock) (knockedAt : Stamp) (a : Attempt) : KnockService Bool :=
  Service.transaction do
    if a.bundleFault then Service.throw .bundleFault
    else do
      let won ← applyKnockOutcomeCas knock.leadId knock.outcome knockedAt (Stamp.ofMs a.dateNow)
      if won then do
        bookMoney knock knock.outcome a
        Service.write (markApplied knock.id)
        pure false
      else pure true

def setSuperseded (knockId : Nat) (superseded : Bool) (s : KnockDb) : KnockDb :=
  { s with
    knocks := s.knocks.map fun k => if k.id = knockId then { k with superseded } else k }

def recordHeal (existing : Knock) (healed : Bool) (s : KnockDb) : KnockDb :=
  if healed = existing.superseded then s else setSuperseded existing.id healed s

def crashAt (a : Attempt) (point : CrashPoint) : KnockService Unit :=
  if a.crash = some point then Service.throw .crash else pure ()

/-- The replay of a stored knock. A bundle that throws is answered like one that did not. -/
def replayKnock (existing : Knock) (a : Attempt) : KnockService Response :=
  if existing.leadId ≠ a.request.leadId then pure (Response.refused 404)
  else do
    crashAt a .beforeBundle
    let healed ← Service.attempt (runMoneyBundle existing existing.knockedAt a)
    match healed with
    | .error _ =>
      pure { status := 200, knock := some existing.id, superseded := existing.superseded }
    | .ok healed => do
      crashAt a .beforeRecord
      Service.write (recordHeal existing healed)
      crashAt a .beforeResponse
      pure { status := 200, knock := some existing.id, superseded := healed }

/-- The row that a first request inserts. Its tenant is the lead's. -/
def newKnock (id : Nat) (lead : Lead) (outcome : KnockOutcome) (repId : Nat) (a : Attempt) :
    Knock where
  id := id
  leadId := a.request.leadId
  repId := repId
  tenantId := lead.tenantId
  knockedAt := clampTapTime a.request.knockedAt a.dateNow a.dateNow
  outcome := outcome
  clientId := a.request.clientId
  superseded := a.request.superseded

def createKnock (lead : Lead) (outcome : KnockOutcome) (repId : Nat) (a : Attempt) :
    KnockService Knock := do
  let id ← Service.read (·.knocks.length + 1)
  Service.write fun s => { s with knocks := s.knocks ++ [newKnock id lead outcome repId a] }
  pure (newKnock id lead outcome repId a)

def evaluateSpiffForSale (knock : Knock) (superseded : Bool) (a : Attempt) (s : KnockDb) :
    KnockDb :=
  match a.spiffDecision with
  | none => s
  | some amountCents =>
    if superseded ∨ knock.outcome ≠ .sold ∨ s.spiffs.any (·.knockId = knock.id) then s
    else
      { s with spiffs := s.spiffs ++ [{ repId := knock.repId, knockId := knock.id, amountCents }] }

/-- The first request of a knock. Its compare-and-set goes by a clock read of its own. -/
def firstKnock (lead : Lead) (outcome : KnockOutcome) (repId : Nat) (a : Attempt) :
    KnockService Response := do
  crashAt a .beforeInsert
  let knock ← createKnock lead outcome repId a
  crashAt a .beforeBundle
  let verdict ← Service.attempt
    (runMoneyBundle knock (clampTapTime a.request.knockedAt a.dateNow a.serverTs) a)
  match verdict with
  | .error .tenantUnresolvable => pure (Response.refused 409)
  | .error _ => pure (Response.refused 503)
  | .ok superseded => do
    crashAt a .afterBundle
    Service.write (evaluateSpiffForSale knock superseded a)
    crashAt a .beforeRecord
    Service.write (setSuperseded knock.id superseded)
    crashAt a .beforeResponse
    if superseded then pure { status := 200, knock := some knock.id, superseded := true }
    else pure { status := 201, knock := some knock.id, superseded := knock.superseded }

def postKnock (a : Attempt) : KnockService Response := do
  let lead ← Service.read (·.leadById a.request.leadId)
  match lead with
  | none => pure (Response.refused 404)
  | some lead =>
    if ¬ a.request.mayKnock then pure (Response.refused 404)
    else if lead.doNotKnock then pure (Response.refused 409)
    else do
      let existing ← Service.read fun s => a.request.clientId.bind s.knockByClientId
      match existing, a.request.outcome, a.request.repId with
      | some existing, _, _ => replayKnock existing a
      | none, none, _ => pure (Response.refused 400)
      | none, some outcome, repId =>
        if ¬ a.request.mayCredit then pure (Response.refused 403)
        else
          match repId, a.request.valid with
          | some repId, true => firstKnock lead outcome repId a
          | _, _ => pure (Response.refused 400)

/-- The store after an attempt, whether it was answered or crashed. -/
def step (s : KnockDb) (a : Attempt) : KnockDb := (postKnock a s).2

end HomefrontFiber.Knocking
