import HomefrontFiber.Earnings.Ledger
import HomefrontFiber.Foundation.Runs

/-!
# Mileage trips

A trip moves from draft through approval to payment. Approval resolves the rate in force on the
date of the trip, writes it onto the row with the cents it makes, and records the earning in the
same transaction. An operation that throws leaves the store as it was. Positions, vehicles, the
consent of a worker and the emitted events are left out.
-/

namespace HomefrontFiber.Mileage

open Earnings

inductive MileageStatus where
  | draft | submitted | approved | rejected | paid
deriving DecidableEq

def MileageStatus.next : MileageStatus → List MileageStatus
  | .draft => [.submitted]
  | .submitted => [.approved, .rejected, .draft]
  | .approved => [.paid]
  | .rejected => [.draft]
  | .paid => []

def MileageStatus.text : MileageStatus → String
  | .draft => "DRAFT"
  | .submitted => "SUBMITTED"
  | .approved => "APPROVED"
  | .rejected => "REJECTED"
  | .paid => "PAID"

def canMileageTransition (old new : MileageStatus) : Bool := old = new || new ∈ old.next

def isMileageLocked (status : MileageStatus) : Bool := status = .approved || status = .paid

inductive MileageSource where
  | manual | gps | imported
deriving DecidableEq

structure MileageRate where
  id : Nat
  tenantId : Nat
  rateMilliCentsPerMile : Int
  /-- `YYYY-MM-DD`, inclusive -/
  effectiveFrom : String

def betterRate (tripDate : String) (best : Option MileageRate) (r : MileageRate) :
    Option MileageRate :=
  if tripDate < r.effectiveFrom then best
  else
    match best with
    | none => some r
    | some b =>
      if b.effectiveFrom < r.effectiveFrom then some r
      else if r.effectiveFrom = b.effectiveFrom ∧ b.id < r.id then some r
      else some b

def resolveRateForDate (rates : List MileageRate) (tripDate : String) : Option MileageRate :=
  rates.foldl (betterRate tripDate) none

/-- Hundredths of a mile times thousandths of a cent, rounded half away from zero. -/
def reimbursementCents (milesHundredths rateMilliCentsPerMile : Int) : Int :=
  let scaled := milesHundredths * rateMilliCentsPerMile
  scaled.sign * ((scaled.natAbs + 50000) / 100000 : Nat)

structure MileageTrip where
  id : Nat
  tenantId : Nat
  repId : Nat
  tripDate : String
  startLocation : Option String
  endLocation : Option String
  milesHundredths : Int
  purpose : Option String
  notes : Option String
  source : MileageSource
  status : MileageStatus
  rateMilliCentsPerMile : Option Int
  rateId : Option Nat
  reimbursementCents : Option Int
  startedAt : Option String
  endedAt : Option String
  submittedAt : Option String
  approvedBy : Option Nat
  approvedAt : Option String
  rejectedBy : Option Nat
  rejectedAt : Option String
  rejectionReason : Option String
  paidAt : Option String
  clientId : Option String
  deletedAt : Option String

structure MileageAdjustment where
  tenantId : Nat
  tripId : Nat
  repId : Nat
  milesHundredthsDelta : Int
  centsDelta : Int
  reason : String

structure MileageBook where
  trips : List MileageTrip
  adjustments : List MileageAdjustment
  rates : List MileageRate
  /-- The last id that the rates table gave out. -/
  lastRateId : Nat
  /-- The organizations whose reimbursement flag is set. -/
  reimbursing : List Nat
  ledger : List EarningsLedgerRow

def MileageBook.empty : MileageBook where
  trips := []
  adjustments := []
  rates := []
  lastRateId := 0
  reimbursing := []
  ledger := []

variable (book : MileageBook)

def listRates (tenantId : Nat) : List MileageRate :=
  book.rates.filter (·.tenantId = tenantId)

def rateForDate (tenantId : Nat) (tripDate : String) : Option MileageRate :=
  resolveRateForDate (listRates book tenantId) tripDate

def reimbursementEnabled (tenantId : Nat) : Bool := tenantId ∈ book.reimbursing

def getTrip (tenantId id : Nat) : Option MileageTrip :=
  book.trips.find? fun t => t.tenantId = tenantId ∧ t.id = id ∧ t.deletedAt = none

def updateTrip (tenantId id : Nat) (f : MileageTrip → MileageTrip) : MileageBook :=
  { book with
    trips := book.trips.map fun t => if t.tenantId = tenantId ∧ t.id = id then f t else t }

def isBlank (text : Option String) : Bool := (text.getD "").toList.all (·.isWhitespace)

/-- `/^\d{4}-\d{2}-\d{2}$/` -/
def isIsoDate (text : String) : Bool :=
  match text.toList with
  | [a, b, c, d, dash, e, f, dash', g, h] =>
    dash = '-' && dash' = '-' && [a, b, c, d, e, f, g, h].all (·.isDigit)
  | _ => false

structure CreateTripInput where
  tenantId : Nat
  repId : Nat
  tripDate : String
  startLocation : Option String
  endLocation : Option String
  milesHundredths : Int
  purpose : Option String
  notes : Option String
  source : MileageSource
  clientId : Option String
  startedAt : Option String
  status : MileageStatus
  nowIso : String
  todayIso : String

def maxTripMiles : Int := 2000

def validateTrip (input : CreateTripInput) : List String :=
  (if !isIsoDate input.tripDate then ["tripDate must be a YYYY-MM-DD date"]
    else if input.todayIso < input.tripDate then ["tripDate cannot be in the future"] else []) ++
  (if input.milesHundredths ≤ 0 then ["miles must be greater than zero"]
    else if maxTripMiles * 100 < input.milesHundredths then
      ["miles cannot exceed 2000 for a single trip"] else []) ++
  (if isBlank input.purpose then ["purpose is required"] else []) ++
  if input.source = .manual then
    (if isBlank input.startLocation then ["startLocation is required for a manual trip"] else []) ++
      if isBlank input.endLocation then ["endLocation is required for a manual trip"] else []
  else []

def openTripRefused (input : CreateTripInput) : Bool :=
  input.startedAt.isSome && book.trips.any fun t =>
    t.tenantId = input.tenantId && t.repId = input.repId && t.endedAt = none &&
      t.startedAt.isSome && t.deletedAt = none

def CreateTripInput.toTrip (input : CreateTripInput) (id : Nat) : MileageTrip where
  id := id
  tenantId := input.tenantId
  repId := input.repId
  tripDate := input.tripDate
  startLocation := input.startLocation
  endLocation := input.endLocation
  milesHundredths := input.milesHundredths
  purpose := input.purpose
  notes := input.notes
  source := input.source
  status := input.status
  rateMilliCentsPerMile := none
  rateId := none
  reimbursementCents := none
  startedAt := input.startedAt
  endedAt := none
  submittedAt := none
  approvedBy := none
  approvedAt := none
  rejectedBy := none
  rejectedAt := none
  rejectionReason := none
  paidAt := none
  clientId := input.clientId
  deletedAt := none

/-- An open trip has no distance and no end yet, so its fields are not validated. -/
def CreateTripInput.problems (input : CreateTripInput) : List String :=
  if input.startedAt.isSome && input.milesHundredths = 0 then [] else validateTrip input

def createTrip (input : CreateTripInput) : Except String MileageBook :=
  if input.problems ≠ [] then .error ("INVALID_TRIP:" ++ String.intercalate "; " input.problems)
  -- An offline retry finds its own trip, deleted or not.
  else if input.clientId.isSome &&
      book.trips.any (fun t => t.tenantId = input.tenantId && t.clientId = input.clientId) then
    .ok book
  else if openTripRefused book input then .error "UNIQUE constraint failed"
  else .ok { book with trips := book.trips ++ [input.toTrip (book.trips.length + 1)] }

structure PatchTripInput where
  startLocation : Option (Option String) := none
  endLocation : Option (Option String) := none
  milesHundredths : Option Int := none
  purpose : Option (Option String) := none
  notes : Option (Option String) := none

def PatchTripInput.apply (patch : PatchTripInput) (t : MileageTrip) : MileageTrip :=
  { t with
    startLocation := patch.startLocation.getD t.startLocation
    endLocation := patch.endLocation.getD t.endLocation
    milesHundredths := patch.milesHundredths.getD t.milesHundredths
    purpose := patch.purpose.getD t.purpose
    notes := patch.notes.getD t.notes }

def patchTrip (tenantId id : Nat) (patch : PatchTripInput) : Except String MileageBook :=
  match getTrip book tenantId id with
  | none => .error "MILEAGE_TRIP_NOT_FOUND"
  | some trip =>
    if isMileageLocked trip.status then .error "MILEAGE_LOCKED"
    else .ok (updateTrip book tenantId id patch.apply)

structure EndTripInput where
  tenantId : Nat
  id : Nat
  endLocation : Option String
  milesHundredths : Int
  nowIso : String

def EndTripInput.apply (p : EndTripInput) (t : MileageTrip) : MileageTrip :=
  { t with
    endedAt := some p.nowIso
    endLocation := p.endLocation.or t.endLocation
    milesHundredths := p.milesHundredths }

def endTrip (p : EndTripInput) : Except String MileageBook :=
  match getTrip book p.tenantId p.id with
  | none => .error "MILEAGE_TRIP_NOT_FOUND"
  | some trip =>
    if isMileageLocked trip.status then .error "MILEAGE_LOCKED"
    else if trip.startedAt = none then .error "MILEAGE_TRIP_NOT_OPEN"
    else if trip.endedAt.isSome then .error "MILEAGE_TRIP_ALREADY_ENDED"
    else .ok (updateTrip book p.tenantId p.id p.apply)

structure TransitionInput where
  tenantId : Nat
  id : Nat
  target : MileageStatus
  actorUserId : Option Nat
  reason : Option String
  nowIso : String

/-- What the trip is worth at the rate in force on its date; no rate makes no money. -/
def priceOf (trip : MileageTrip) : Option MileageRate × Int :=
  match rateForDate book trip.tenantId trip.tripDate with
  | some rate => (some rate, reimbursementCents trip.milesHundredths rate.rateMilliCentsPerMile)
  | none => (none, 0)

/-- The columns that a transition writes, given the price of the trip. -/
def TransitionInput.writes (p : TransitionInput) (price : Option MileageRate × Int)
    (t : MileageTrip) : MileageTrip :=
  match p.target with
  | .submitted =>
    { t with
      status := .submitted
      submittedAt := some p.nowIso
      rejectedBy := none
      rejectedAt := none
      rejectionReason := none }
  | .approved =>
    { t with
      status := .approved
      approvedBy := p.actorUserId
      approvedAt := some p.nowIso
      rateMilliCentsPerMile := price.1.map (·.rateMilliCentsPerMile)
      rateId := price.1.map (·.id)
      reimbursementCents := some price.2 }
  | .rejected =>
    { t with
      status := .rejected
      rejectedBy := p.actorUserId
      rejectedAt := some p.nowIso
      rejectionReason := p.reason }
  | .paid => { t with status := .paid, paidAt := some p.nowIso }
  | .draft => { t with status := .draft, submittedAt := none }

def mileageInput (trip : MileageTrip) (cents : Int) : RecordInput where
  tenantId := trip.tenantId
  recipientRepId := trip.repId
  sourceType := .mileageTrip
  sourceId := trip.id
  earningType := .mileageReimbursement
  grossCents := cents
  status := .approved
  effectiveDate := trip.tripDate

def recordMileage (trip : MileageTrip) (cents : Int) (ledger : List EarningsLedgerRow) :
    List EarningsLedgerRow :=
  if cents = 0 then ledger else upsert (mileageInput trip cents) ledger

/-- The earning of a price, which an organization that does not reimburse leaves out. -/
def earnedCents (tenantId : Nat) (price : Option MileageRate × Int) : Int :=
  if reimbursementEnabled book tenantId then price.2 else 0

def transitionTrip (p : TransitionInput) : Except String MileageBook :=
  match getTrip book p.tenantId p.id with
  | none => .error "MILEAGE_TRIP_NOT_FOUND"
  | some trip =>
    if !canMileageTransition trip.status p.target then
      .error s!"MILEAGE_BAD_TRANSITION:{trip.status.text}->{p.target.text}"
    else if p.target = .submitted ∧ trip.milesHundredths ≤ 0 then .error "MILEAGE_NO_DISTANCE"
    else
      let price := priceOf book trip
      let moved := updateTrip book p.tenantId p.id (p.writes price)
      if p.target = .approved then
        let earned := earnedCents book p.tenantId price
        .ok { moved with ledger := recordMileage trip earned book.ledger }
      else .ok moved

structure AdjustmentInput where
  tenantId : Nat
  tripId : Nat
  milesHundredthsDelta : Int
  centsDelta : Int
  reason : String

def addAdjustment (p : AdjustmentInput) : Except String MileageBook :=
  match getTrip book p.tenantId p.tripId with
  | none => .error "MILEAGE_TRIP_NOT_FOUND"
  | some trip =>
    if isBlank (some p.reason) then .error "MILEAGE_ADJUSTMENT_REASON_REQUIRED"
    else
      -- Miles alone are priced at the rate frozen on the trip.
      let frozen := trip.rateMilliCentsPerMile.getD 0
      let cents :=
        if p.centsDelta = 0 ∧ p.milesHundredthsDelta ≠ 0 ∧ frozen ≠ 0 then
          reimbursementCents p.milesHundredthsDelta frozen
        else p.centsDelta
      if p.milesHundredthsDelta = 0 ∧ cents = 0 then .error "MILEAGE_ADJUSTMENT_EMPTY"
      else .ok { book with
        adjustments := book.adjustments ++ [
          { tenantId := p.tenantId
            tripId := p.tripId
            repId := trip.repId
            milesHundredthsDelta := p.milesHundredthsDelta
            centsDelta := cents
            reason := p.reason.trimAscii.toString }] }

def softDeleteTrip (tenantId id : Nat) (nowIso : String) : Except String MileageBook :=
  match getTrip book tenantId id with
  | none => .error "MILEAGE_TRIP_NOT_FOUND"
  | some trip =>
    if isMileageLocked trip.status then .error "MILEAGE_LOCKED"
    else .ok (updateTrip book tenantId id fun t => { t with deletedAt := some nowIso })

/-- A second rate for a date replaces the first; the table gives it a new id. -/
def addRate (tenantId : Nat) (rateMilliCentsPerMile : Int) (effectiveFrom : String) : MileageBook :=
  { book with
    rates :=
      book.rates.filter (fun r => ¬(r.tenantId = tenantId ∧ r.effectiveFrom = effectiveFrom)) ++
        [{ id := book.lastRateId + 1, tenantId, rateMilliCentsPerMile, effectiveFrom }]
    lastRateId := book.lastRateId + 1 }

def setReimbursementEnabled (tenantId : Nat) (on : Bool) : MileageBook :=
  { book with
    reimbursing :=
      if on then tenantId :: book.reimbursing else book.reimbursing.filter (· ≠ tenantId) }

inductive MileageAction where
  | createTrip (input : CreateTripInput)
  | patchTrip (tenantId id : Nat) (patch : PatchTripInput)
  | endTrip (p : EndTripInput)
  | transitionTrip (p : TransitionInput)
  | addAdjustment (p : AdjustmentInput)
  | softDeleteTrip (tenantId id : Nat) (nowIso : String)
  | addRate (tenantId : Nat) (rateMilliCentsPerMile : Int) (effectiveFrom : String)
  | setReimbursementEnabled (tenantId : Nat) (on : Bool)

def call : MileageAction → Except String MileageBook
  | .createTrip input => createTrip book input
  | .patchTrip tenantId id patch => patchTrip book tenantId id patch
  | .endTrip p => endTrip book p
  | .transitionTrip p => transitionTrip book p
  | .addAdjustment p => addAdjustment book p
  | .softDeleteTrip tenantId id nowIso => softDeleteTrip book tenantId id nowIso
  | .addRate tenantId rate effectiveFrom => .ok (addRate book tenantId rate effectiveFrom)
  | .setReimbursementEnabled tenantId on => .ok (setReimbursementEnabled book tenantId on)

def step (action : MileageAction) : MileageBook :=
  match call book action with
  | .ok after => after
  | .error _ => book

end HomefrontFiber.Mileage
