import HomefrontFiber.Foundation.Table
import HomefrontFiber.Incentive.Engine

/-!
# The award ledger

Awards and clawbacks are rows of the `spiffs` table, where no reference of an organization repeats.
The work of one event is one transaction: it reads its counters, decides and writes, or it throws
and leaves nothing. What it reads from the tables that this model leaves out (the roster, the
sales, the referral store) is given with the event.
-/

namespace HomefrontFiber.Incentive

structure Spiff where
  id : Nat
  tenantId : Nat
  repId : Nat
  saleRef : Option String
  amountCents : Int
  reason : String
  status : SpiffStatus
  createdAtMs : Int
  campaignId : Option Nat
  sourceEventId : Option Nat
  incentiveType : Option IncentiveType

structure SpiffInput where
  tenantId : Nat
  repId : Nat
  saleRef : Option String
  amountCents : Int
  reason : String
  status : SpiffStatus
  createdAtMs : Int
  campaignId : Option Nat
  sourceEventId : Option Nat
  incentiveType : Option IncentiveType

structure AwardBook where
  campaigns : List IncentiveCampaign
  spiffs : List Spiff

def AwardBook.empty : AwardBook := { campaigns := [], spiffs := [] }

/-- The unique index on `(tenant_id, sale_ref)`, which ignores rows without a reference. -/
def AwardBook.refused (book : AwardBook) (row : SpiffInput) : Bool :=
  row.saleRef.isSome &&
    book.spiffs.any fun s => s.tenantId = row.tenantId && s.saleRef = row.saleRef

def SpiffInput.toSpiff (row : SpiffInput) (id : Nat) : Spiff where
  id := id
  tenantId := row.tenantId
  repId := row.repId
  saleRef := row.saleRef
  amountCents := row.amountCents
  reason := row.reason
  status := row.status
  createdAtMs := row.createdAtMs
  campaignId := row.campaignId
  sourceEventId := row.sourceEventId
  incentiveType := row.incentiveType

/-- `INSERT … ON CONFLICT DO NOTHING`. -/
def AwardBook.insert (book : AwardBook) (row : SpiffInput) : AwardBook :=
  if book.refused row then book
  else { book with spiffs := book.spiffs ++ [row.toSpiff (book.spiffs.length + 1)] }

def sumCents (rows : List Spiff) : Int := (rows.map (·.amountCents)).sum

def AwardBook.campaignRows (book : AwardBook) (tenantId campaignId : Nat) : List Spiff :=
  book.spiffs.filter fun s =>
    s.tenantId = tenantId && s.campaignId = some campaignId && s.status ≠ .void

def AwardBook.recipientRows (book : AwardBook) (tenantId campaignId repId : Nat) : List Spiff :=
  book.spiffs.filter fun s =>
    s.tenantId = tenantId && s.campaignId = some campaignId && s.repId = repId && s.status ≠ .void

/-- What an event finds in the tables that this model leaves out. -/
structure Surroundings where
  role : Option String
  lifetimeApprovedSales : Nat
  referrerRepId : Option Nat

def campaignsFor (book : AwardBook) (tenantId : Nat) (type : DomainEventType) :
    List IncentiveCampaign :=
  book.campaigns.filter fun c => c.tenantId = tenantId && c.incentiveType.triggerEvent = type

def countersFor (book : AwardBook) (around : Surroundings) (tenantId campaignId repId : Nat) :
    RecipientCounters where
  repId := repId
  role := around.role
  awardsFromCampaign := (book.recipientRows tenantId campaignId repId).length
  centsFromCampaign := sumCents (book.recipientRows tenantId campaignId repId)
  centsFromCampaignTotal := sumCents (book.campaignRows tenantId campaignId)
  lifetimeApprovedSales := some around.lifetimeApprovedSales

def noCounters : RecipientCounters where
  repId := 0
  role := none
  awardsFromCampaign := 0
  centsFromCampaign := 0
  centsFromCampaignTotal := 0
  lifetimeApprovedSales := none

def factsFrom (event : DomainEvent) : EventFacts where
  eventId := event.id
  type := event.type
  occurredAtMs := event.occurredAtMs
  subjectRepId := event.subjectRepId
  amountCents := event.payload.reimbursementCents.or
    (event.payload.rewardCents.or event.payload.saleAmountCents)
  provider := event.payload.provider
  product := event.payload.product
  market := event.payload.market
  territoryId := event.payload.territoryId
  lifetimeSaleNumber := event.payload.lifetimeSaleNumber

/-- A referral pays the referrer for an event about the referred rep. -/
def recipientFor (around : Surroundings) (event : DomainEvent) : Option Nat :=
  if event.type = .referralThresholdReached then around.referrerRepId else event.subjectRepId

def awardRow (event : DomainEvent) (nowMs : Int) (award : IncentiveAward) : SpiffInput where
  tenantId := event.tenantId
  repId := award.recipientRepId
  saleRef := some award.rewardKey
  amountCents := award.amountCents
  reason := award.reason
  status := award.status
  createdAtMs := nowMs
  campaignId := some award.campaignId
  sourceEventId := some event.id
  incentiveType := some award.incentiveType

def awardOne (around : Surroundings) (event : DomainEvent) (nowMs : Int) (book : AwardBook)
    (campaign : IncentiveCampaign) : AwardBook :=
  let recipient := recipientFor around event
  let counters :=
    match recipient with
    | some repId => countersFor book around event.tenantId campaign.id repId
    | none => noCounters
  match evaluateIncentive campaign (factsFrom event) counters recipient with
  | .error _ => book
  | .ok award => book.insert (awardRow event nowMs award)

def clawbackRef (awardId eventId : Nat) : String := s!"clawback:{awardId}:e{eventId}"

/-- The positive awards that the approval of the sale caused. -/
def priorAwards (book : AwardBook) (events : List DomainEvent) (event : DomainEvent) : List Spiff :=
  book.spiffs.filter fun s =>
    s.tenantId = event.tenantId && 0 < s.amountCents &&
      events.any fun e => s.sourceEventId = some e.id && e.subjectType = .sale &&
        e.subjectId = event.subjectId && e.type = .saleApproved

def clawbackOne (event : DomainEvent) (nowMs : Int) (book : AwardBook) (award : Spiff) : AwardBook :=
  let campaign := book.campaigns.find? fun c => award.campaignId = some c.id
  let policy := (campaign.map (·.clawbackPolicy)).getD defaultClawback
  match evaluateClawback policy award.createdAtMs event.occurredAtMs award.amountCents with
  | none => book
  | some cents =>
    book.insert
      { tenantId := event.tenantId
        repId := award.repId
        saleRef := some (clawbackRef award.id event.id)
        amountCents := -cents
        reason := "Clawback - " ++ award.reason
        status := .approved
        createdAtMs := nowMs
        campaignId := award.campaignId
        sourceEventId := some event.id
        incentiveType := campaign.map (·.incentiveType) }

def applyClawbacks (events : List DomainEvent) (event : DomainEvent) (nowMs : Int)
    (book : AwardBook) : AwardBook :=
  (priorAwards book events event).foldl (clawbackOne event nowMs) book

def processEvent (events : List DomainEvent) (around : Surroundings) (event : DomainEvent)
    (nowMs : Int) (book : AwardBook) : AwardBook :=
  if event.type = .saleCancelled then applyClawbacks events event nowMs book
  else
    (campaignsFor book event.tenantId event.type).foldl (awardOne around event nowMs) book

def validateCampaign (c : IncentiveCampaign) : Bool :=
  c.name.toList.any (fun ch => !ch.isWhitespace) &&
    (c.amountBasis ≠ .flat || 0 < c.rewardCents) &&
    (c.amountBasis ≠ .percent || (0 < c.percentageBp && c.percentageBp ≤ 10000)) &&
    c.startsAtMs < c.endsAtMs &&
    0 ≤ c.maximumRewardsPerUser && 0 ≤ c.perRepCapCents && 0 ≤ c.campaignCapCents &&
    0 ≤ c.clawbackPolicy.windowDays

def createCampaign (c : IncentiveCampaign) (book : AwardBook) : AwardBook :=
  if validateCampaign c then
    { book with campaigns := book.campaigns ++ [{ c with id := book.campaigns.length + 1 }] }
  else book

def setCampaignActive (id : Nat) (active : Bool) (book : AwardBook) : AwardBook :=
  { book with
    campaigns := book.campaigns.map fun c => if c.id = id then { c with active := active } else c }

/-- `approveSpiff` and `markSpiffPaid`. -/
def settleSpiff (tenantId id : Nat) (paid : Bool) (book : AwardBook) : AwardBook :=
  let before : SpiffStatus := if paid then .approved else .earned
  let after : SpiffStatus := if paid then .paid else .approved
  { book with
    spiffs := book.spiffs.map fun s =>
      if s.tenantId = tenantId ∧ s.id = id ∧ s.status = before then { s with status := after }
      else s }

/-- A row of another store, which names no campaign of the engine. -/
def otherSpiff (row : SpiffInput) (book : AwardBook) : AwardBook :=
  book.insert { row with campaignId := none, sourceEventId := none }

end HomefrontFiber.Incentive
