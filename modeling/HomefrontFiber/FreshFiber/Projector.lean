import Mathlib.Data.List.Sort
import Mathlib.Data.Rat.Lemmas
import HomefrontFiber.FreshFiber.AddressKey

/-!
# The confirmation gate

A flip to fiber is confirmed by independent evidence of fiber near the time of the flip.
-/

namespace HomefrontFiber.FreshFiber

open ComingLedger (Piece test trim)

/-- A timestamp column: its text and what `timestampMs` reads in it. -/
structure SqlStamp where
  text : Text
  ms : Option Int

inductive Availability
  | available | unavailable | unknown
deriving DecidableEq

structure IndependentAvailabilityEvidence where
  source : Text
  observedAt : SqlStamp
  availability : Availability
  technology : Option Text

inductive CustomerSegment
  | newOpportunity | existingCustomer | unknown

structure FreshFiberConfirmationInput where
  transitionFresh : Bool
  currentFiberAvailable : Option Bool
  customerSegment : CustomerSegment
  firstDetectedAt : Option SqlStamp
  evidence : List IndependentAvailabilityEvidence
  nowMs : Int

inductive FreshConfirmationStatus
  | confirmed | provisional | rejected | regressed
deriving DecidableEq

structure FreshFiberConfirmationDecision where
  status : FreshConfirmationStatus
  confirmed : Bool
  reasons : List String
  sources : List Text
  confirmedAt : Option Text

def kinetic : Text := "kinetic".toList

def dayMs : Int := 86400000

def isWordChar (c : Char) : Bool := c.isAlphanum || c = '_'

/-- The words of a text: `\b` stands at their ends. -/
def wordsOf (t : Text) : List Text := (t.splitOnP fun c => !isWordChar c).filter (· ≠ [])

/-- `replace(/[_-]+/g, " ")`. -/
def blankDashes : Bool → Text → Text
  | _, [] => []
  | dropped, c :: t =>
    if c = '_' || c = '-' then (if dropped then blankDashes true t else ' ' :: blankDashes true t)
    else c :: blankDashes false t

def isExplicitFiberTechnology (value : Option Text) : Bool :=
  let normalized := blankDashes false ((trim (value.getD [])).map Char.toLower)
  (wordsOf normalized).any (fun w => w = "fiber".toList || w = "fttp".toList || w = "ftth".toList) ||
    test [[.word "fiber to the premises"], [.word "fiber to the home"]] normalized

/-- Evidence from a week before the flip to a month after it, and not from the future. -/
def qualifyingIndependentEvidence (evidence : List IndependentAvailabilityEvidence)
    (firstDetectedAt : SqlStamp) (nowMs : Int) : List IndependentAvailabilityEvidence :=
  match firstDetectedAt.ms with
  | none => []
  | some detectedMs =>
    let earliest := detectedMs - 7 * dayMs
    let latest := min (detectedMs + 31 * dayMs) (nowMs + 5 * 60000)
    evidence.filter fun row => row.availability = .available &&
      isExplicitFiberTechnology row.technology &&
        row.observedAt.ms.any fun observedMs => earliest ≤ observedMs && observedMs ≤ latest

/-- `[...new Set(sources)]`: each source once, where it first stands. -/
def distinct (sources : List Text) : List Text :=
  sources.foldl (fun seen source => if source ∈ seen then seen else seen ++ [source]) []

/-- `Math.max` over the instants of a nonempty list. -/
def latestOf (rows : List IndependentAvailabilityEvidence) : Option Int :=
  rows.foldl (fun latest row => match latest, row.observedAt.ms with
    | some ms, some observedMs => some (max ms observedMs)
    | latest, observed => latest.or observed) none

def notConfirmed (status : FreshConfirmationStatus) (reason : String) :
    FreshFiberConfirmationDecision :=
  { status, confirmed := false, reasons := [reason], sources := [kinetic], confirmedAt := none }

/-- An empty timestamp is no timestamp. -/
def decideFreshFiberConfirmation (input : FreshFiberConfirmationInput) :
    FreshFiberConfirmationDecision :=
  match input.transitionFresh, input.firstDetectedAt.filter (·.text ≠ []) with
  | false, _ | _, none => notConfirmed .rejected "No proven unavailable-to-fiber transition."
  | true, some firstDetectedAt =>
    match input.currentFiberAvailable with
    | some false =>
      notConfirmed .regressed "Fiber is no longer serviceable at the latest conclusive check."
    | none => notConfirmed .provisional "The latest fiber state is inconclusive."
    | some true =>
      match input.customerSegment with
      | .existingCustomer =>
        notConfirmed .rejected "Provider indicates an existing service account."
      | .unknown => notConfirmed .rejected "No decisive no-existing-service signal."
      | .newOpportunity =>
        match qualifyingIndependentEvidence input.evidence firstDetectedAt input.nowMs with
        | [] =>
          notConfirmed .provisional
            "Primary-source flip is awaiting recent independent address-level fiber evidence."
        | row :: rows =>
          { status := .confirmed
            confirmed := true
            reasons := ["Unavailable-to-fiber transition and no-account signal confirmed by " ++
              "independent fiber evidence."]
            sources := kinetic :: distinct ((row :: rows).map (·.source))
            confirmedAt := (latestOf (row :: rows)).map toISOString }

end HomefrontFiber.FreshFiber

/-!
## From scan evidence to leads

One call of the projector reads its candidates once and then takes them one by one, each in a
savepoint of its own. The verdict on a candidate depends on what was read of it alone. Only a
candidate whose verdict is to publish looks at the leads: for the one it created, for one at its
address in its city, for one within fifteen meters under its house number.
-/

namespace HomefrontFiber.FreshFiber

open ComingLedger (trim)

structure LastScan where
  firstSeenFiberAt : Option SqlStamp
  lastFiberStatus : Option Text
  lastBillingStatus : Option Text
  lastCustomerSegment : Option CustomerSegment
  frontierControl : Option Text
  competitorCompany : Option Text

structure ScanTarget where
  id : Int
  tenantId : Int
  address : Text
  city : Text
  state : Text
  zip : Text
  lat : Option Rat
  lng : Option Rat
  carrier : Option Text
  last : LastScan
  convertedToLeadId : Option Int
  addressReviewReason : Option Text

inductive CompetitiveDecision
  | eligible | excludedFiberCompetitor | competitorReview
deriving DecidableEq

structure AvailabilitySnapshot where
  scanTargetId : Int
  tenantId : Int
  checkedAtEpoch : Int
  conclusive : Bool
  fresh : Bool
  fiberAvailable : Option Bool
  householdSegmentType : Option Text
  billingStatus : Option Text
  serviceStatus : Option Text
  maxDownloadMbps : Option Int
  competitiveDecision : Option CompetitiveDecision
  competitorName : Option Text
  competitorTech : Option Text

structure Corroboration where
  tenantId : Int
  scanTargetId : Int
  evidence : IndependentAvailabilityEvidence

/-- An entry of a stored ring. Anything but a pair of numbers and `null` compares as not a number. -/
inductive Vertex
  | point (lng lat : Rat)
  | malformed
  | null

/-- A row of `territories`. A polygon that does not parse to at least three vertices is no ring. -/
structure Territory where
  id : Int
  tenantId : Int
  repId : Int
  status : Text
  ring : Option (List Vertex)

structure TerritoryAssignment where
  territoryId : Int
  repId : Int

def crosses (lat lng : Rat) : Vertex → Vertex → Except Text Bool
  | .null, _ | _, .null => .error "Cannot read properties of null (reading '0')".toList
  | .point xj yj, .point xi yi =>
    .ok ((decide (lat < yi) != decide (lat < yj)) &&
      decide (lng < (xj - xi) * (lat - yi) / (yj - yi) + xi))
  | _, _ => .ok false

/-- Ray casting: each edge that the ray crosses flips the answer. -/
def pointInPolygon (lat lng : Rat) (poly : List Vertex) : Except Text Bool :=
  ((poly.getLast?.toList ++ poly).zip poly).foldlM
    (fun hit (j, i) => do return hit != (← crosses lat lng j i)) false

def usableRing (t : Territory) : Option (TerritoryAssignment × List Vertex) :=
  (t.ring.filter (3 ≤ ·.length)).map fun ring => ({ territoryId := t.id, repId := t.repId }, ring)

/-- A door in several territories is assigned to none. -/
def territoryAssignmentFor (territories : List Territory) (tenantId : Int) (lat lng : Option Rat) :
    Except Text (Option TerritoryAssignment) :=
  match lat, lng with
  | some lat, some lng => do
    let areas := (territories.filter fun t => t.tenantId = tenantId &&
      (t.status = "active".toList || t.status = "shared".toList)).filterMap usableRing
    match ← areas.filterM fun area => pointInPolygon lat lng area.2 with
    | [(assignment, _)] => return some assignment
    | _ => return none
  | _, _ => return none

inductive LeadStatus
  | prospect | sold | nowActive | competitorSuppressed | addressReview | scopeSuppressed
  | other (name : Text)
deriving DecidableEq

/-- The columns of `leads` that the projector reads or writes. -/
structure Lead where
  id : Int
  tenantId : Int
  address : Text
  city : Text
  state : Text
  zip : Text
  lat : Option Rat
  lng : Option Rat
  fiberStatus : Option Text
  maxDownloadMbps : Option Int
  isNewDeployment : Bool
  isNewFiber : Bool
  isTenured : Bool
  householdSegmentType : Option Text
  billingStatus : Option Text
  leadStatus : LeadStatus
  notes : String
  deploymentNotes : String
  leadTag : Option Text
  leadScore : Option Int
  sourceScanTargetId : Option Int
  freshConfirmedAt : Option Text
  freshConfidence : Option Text
  freshSources : List Text
  assignedRepId : Option Int
  assignedTerritoryId : Option Int
  assignmentSource : Option Text
  assignedAt : Option Int
  createdAt : Int
  updatedAt : Int
  carrier : Option Text
  exchangeId : Option Text
  canonicalKey : Option Text
  competitorName : Option Text
  competitorTech : Option Text

inductive LeadEventDetail
  | addressReview (issues : List AddressIssue)
  | competitorSuppressed (reason : CompetitiveDecision) (competitor competitorTech : Option Text)
  | assigned (assignment : TerritoryAssignment)

structure LeadEvent where
  leadId : Int
  type : String
  actor : String
  detail : LeadEventDetail
  time : Int

/-- `lastLeadId` is the largest id that was ever given to a lead. -/
structure Tables where
  targets : List ScanTarget
  snapshots : List AvailabilitySnapshot
  corroborations : List Corroboration
  territories : List Territory
  leads : List Lead
  leadEvents : List LeadEvent
  lastLeadId : Int

/-- `datetime('now')`, in seconds. -/
def datetimeNow (nowMs : Int) : Int := nowMs / 1000

structure ProjectionCandidate where
  target : ScanTarget
  provenFlip : Bool
  latest : Option AvailabilitySnapshot

def upperText (t : Option Text) : Text := (t.getD []).map Char.toUpper

/-- The newest conclusive snapshot of a target, the later recorded among equals. -/
def latestConclusive (snapshots : List AvailabilitySnapshot) (tenantId targetId : Int) :
    Option AvailabilitySnapshot :=
  (snapshots.filter fun s => s.scanTargetId = targetId && s.tenantId = tenantId && s.conclusive).foldl
    (fun newest s => if newest.all (·.checkedAtEpoch ≤ s.checkedAtEpoch) then some s else newest) none

def candidateOf (db : Tables) (tenantId : Int) (s : ScanTarget) : ProjectionCandidate :=
  { target := s
    provenFlip := db.snapshots.any fun f =>
      f.scanTargetId = s.id && f.tenantId = tenantId && f.fresh && f.conclusive
    latest := latestConclusive db.snapshots tenantId s.id }

namespace ProjectionCandidate

def householdSegmentType (c : ProjectionCandidate) : Option Text :=
  c.latest.bind (·.householdSegmentType)

def billingStatus (c : ProjectionCandidate) : Option Text := c.latest.bind (·.billingStatus)

def latestFiberAvailable (c : ProjectionCandidate) : Option Bool := c.latest.bind (·.fiberAvailable)

def competitiveDecision (c : ProjectionCandidate) : Option CompetitiveDecision :=
  c.latest.bind (·.competitiveDecision)

def seg (c : ProjectionCandidate) : Text := upperText c.householdSegmentType

def billing (c : ProjectionCandidate) : Text := upperText c.billingStatus

def competitorName (c : ProjectionCandidate) : Option Text :=
  (c.latest.bind (·.competitorName)).or c.target.last.competitorCompany

def competitorTech (c : ProjectionCandidate) : Option Text := c.latest.bind (·.competitorTech)

end ProjectionCandidate

def newFiber : Text := "NEW FIBER".toList

def monitoredStates : List String := ["FL", "GA", "IA", "KY", "NC", "SC"]

/-- `LIKE 'Frontier fiber live%'`. -/
def likeFrontierLive (t : Text) : Bool :=
  "frontier fiber live".toList.isPrefixOf (t.map Char.toLower)

/-- The `WHERE` clause apart from the ids. -/
def qualifies (tenantId : Int) (c : ProjectionCandidate) : Bool :=
  monitoredStates.any (fun code => c.target.state = code.toList) && c.target.tenantId = tenantId &&
    (c.target.last.firstSeenFiberAt.isSome || (c.seg = newFiber && c.billing = ['N'])) &&
    (c.target.carrier ≠ some "frontier".toList ||
      (c.latest.bind (·.serviceStatus)).any likeFrontierLive)

/-- `none` sweeps the tenant. Ids that are not positive are dropped. -/
def candidates (db : Tables) (tenantId : Int) (targetIds : Option (List Int)) :
    List ProjectionCandidate :=
  (db.targets.filter fun s => targetIds.all fun ids => 0 < s.id && s.id ∈ ids).map
    (candidateOf db tenantId) |>.filter (qualifies tenantId)

/-- `ORDER BY observed_at`. -/
def evidenceOf (db : Tables) (tenantId targetId : Int) : List IndependentAvailabilityEvidence :=
  ((db.corroborations.filter fun e => e.tenantId = tenantId && e.scanTargetId = targetId).map
    (·.evidence)).insertionSort fun a b => a.observedAt.text ≤ b.observedAt.text

def evidenceDecision (evidence : List IndependentAvailabilityEvidence) (nowMs : Int)
    (c : ProjectionCandidate) : FreshFiberConfirmationDecision :=
  decideFreshFiberConfirmation
    { transitionFresh := c.provenFlip
      currentFiberAvailable := c.latestFiberAvailable
      customerSegment := c.target.last.lastCustomerSegment.getD .unknown
      firstDetectedAt := c.target.last.firstSeenFiberAt
      evidence
      nowMs }

def competitiveBlocked (decision : Option CompetitiveDecision) : Bool :=
  decision = some .excludedFiberCompetitor || decision = some .competitorReview

def authoritativeFresh (c : ProjectionCandidate) : Bool :=
  c.seg = newFiber && c.billing = ['N'] && c.latestFiberAvailable = some true

def decisionOf (evidence : List IndependentAvailabilityEvidence) (nowMs : Int)
    (c : ProjectionCandidate) : FreshFiberConfirmationDecision :=
  let decision := evidenceDecision evidence nowMs c
  if decision.confirmed then decision
  else if authoritativeFresh c then
    { status := .confirmed
      confirmed := true
      reasons := ["NEW FIBER + billing N (authoritative Fresh Lead rule)."]
      sources := [kinetic]
      confirmedAt := ((c.target.last.firstSeenFiberAt.map (·.text)).getD (toISOString nowMs)) }
  else decision

def identityIssues (u : Unicode) (c : ProjectionCandidate) : List AddressIssue :=
  addressIdentityIssues u c.target.address c.target.city c.target.state c.target.lat c.target.lng

/-- Where `perCandidate` leaves before it looks for a lead, or that it publishes. -/
inductive Verdict
  | rejected
  | nowActive (leadId : Int)
  | blocked (reason : CompetitiveDecision)
  | provisional
  | review (issues : List AddressIssue)
  | publish (decision : FreshFiberConfirmationDecision)

def confirm (u : Unicode) (evidence : List IndependentAvailabilityEvidence) (nowMs : Int)
    (c : ProjectionCandidate) : Verdict :=
  let decision := decisionOf evidence nowMs c
  if decision.status = .provisional then .provisional
  else if !decision.confirmed || decision.confirmedAt.all (· = []) then .rejected
  else
    match identityIssues u c with
    | [] => .publish decision
    | issue :: issues => .review (issue :: issues)

/-- The exits in the order of the source: an unknown answer, a door that signed up, a competitor, an
unavailable answer, the confirmation, the address. -/
def verdict (u : Unicode) (evidence : List IndependentAvailabilityEvidence) (nowMs : Int)
    (c : ProjectionCandidate) : Verdict :=
  match c.latestFiberAvailable with
  | none => .rejected
  | some fiberAvail =>
    match c.target.convertedToLeadId.filter fun _ =>
        c.seg = newFiber && (c.billing = ['Y'] || c.billing = ['A']) with
    | some leadId => .nowActive leadId
    | none =>
      match c.competitiveDecision.filter fun decision => competitiveBlocked (some decision) with
      | some reason => .blocked reason
      | none => if fiberAvail then confirm u evidence nowMs c else .rejected

structure ProjectionResult where
  considered : Nat
  confirmed : Nat
  created : Nat
  linkedExisting : Nat
  published : Nat
  provisional : Nat
  rejected : Nat
  addressReview : Nat
  retracted : Nat
  leadIds : List Int
  errors : List (Int × Text)

def ProjectionResult.empty : ProjectionResult :=
  { considered := 0, confirmed := 0, created := 0, linkedExisting := 0, published := 0
    provisional := 0, rejected := 0, addressReview := 0, retracted := 0, leadIds := []
    errors := [] }

structure IndexedLead where
  id : Int
  assignedRepId : Option Int

def Lead.indexed (l : Lead) : IndexedLead := { id := l.id, assignedRepId := l.assignedRepId }

abbrev CityIndex := List (Text × IndexedLead)

/-- A call under way: the tables, the leads indexed so far by city and the counters. -/
structure Batch where
  tables : Tables
  cityLeadIndex : List ((Text × Text) × CityIndex)
  result : ProjectionResult

/-- `UPDATE leads … WHERE id=? AND tenant_id=? AND p`. -/
def updateLead (leadId tenantId : Int) (p : Lead → Bool) (f : Lead → Lead) (leads : List Lead) :
    List Lead :=
  leads.map fun l => if l.id = leadId && l.tenantId = tenantId && p l then f l else l

def changes (leadId tenantId : Int) (p : Lead → Bool) (leads : List Lead) : Bool :=
  leads.any fun l => l.id = leadId && l.tenantId = tenantId && p l

def setStatus (status : LeadStatus) (nowMs : Int) (l : Lead) : Lead :=
  { l with leadStatus := status, updatedAt := datetimeNow nowMs }

def canActivate (l : Lead) : Bool := l.leadStatus ≠ .nowActive

def canSuppress (l : Lead) : Bool :=
  l.leadStatus ∉ [LeadStatus.sold, .nowActive, .competitorSuppressed]

def canReview (l : Lead) : Bool :=
  l.leadStatus ∉
    [LeadStatus.sold, .nowActive, .competitorSuppressed, .scopeSuppressed, .addressReview]

def markNowActive (tenantId nowMs leadId : Int) (b : Batch) : Batch :=
  { b with
    tables := { b.tables with
      leads := updateLead leadId tenantId canActivate (setStatus .nowActive nowMs) b.tables.leads }
    result := { b.result with
      leadIds := if changes leadId tenantId canActivate b.tables.leads then
          b.result.leadIds ++ [leadId]
        else b.result.leadIds } }

def suppressLead (tenantId nowMs leadId : Int) (reason : CompetitiveDecision)
    (c : ProjectionCandidate) (b : Batch) : Batch :=
  if changes leadId tenantId canSuppress b.tables.leads then
    { b with
      tables := { b.tables with
        leads := updateLead leadId tenantId canSuppress (setStatus .competitorSuppressed nowMs)
          b.tables.leads
        leadEvents := b.tables.leadEvents ++
          [{ leadId, type := "status_change", actor := "Competitive Eligibility"
             detail := .competitorSuppressed reason (c.latest.bind (·.competitorName))
               c.competitorTech
             time := datetimeNow nowMs }] }
      result := { b.result with retracted := b.result.retracted + 1 } }
  else b

/-- The event of a review is recorded whether or not the lead changes. -/
def reviewLead (tenantId nowMs leadId : Int) (issues : List AddressIssue) (tables : Tables) :
    Tables :=
  { tables with
    leads := updateLead leadId tenantId canReview (setStatus .addressReview nowMs) tables.leads
    leadEvents := tables.leadEvents ++
      [{ leadId, type := "status_change", actor := "Address Review"
         detail := .addressReview issues, time := datetimeNow nowMs }] }

/-- `identityIssues.join("; ")`. -/
def reviewReason (issues : List AddressIssue) : Text :=
  "; ".toList.intercalate (issues.map (·.reason.toList))

def markAddressReview (targetId : Int) (issues : List AddressIssue) (tables : Tables) : Tables :=
  { tables with
    targets := tables.targets.map fun s =>
      if s.id = targetId then { s with addressReviewReason := some (reviewReason issues) } else s }

def findBySource (leads : List Lead) (tenantId targetId : Int) : Option Lead :=
  leads.find? fun l => l.tenantId = tenantId && l.sourceScanTargetId = some targetId

/-- SQLite's `trim` takes off blanks only. -/
def sqlTrim (t : Text) : Text := ((t.dropWhile (· = ' ')).reverse.dropWhile (· = ' ')).reverse

def findByCityLeads (leads : List Lead) (tenantId : Int) (city state : Text) : List Lead :=
  leads.filter fun l => (sqlTrim l.city).map Char.toLower = (sqlTrim city).map Char.toLower &&
    l.state.map Char.toUpper = state.map Char.toUpper && l.tenantId = tenantId

def cityIndexKey (city state : Text) : Text × Text :=
  ((trim city).map Char.toLower, (trim state).map Char.toUpper)

def CityIndex.add (idx : CityIndex) (key : Text) (lead : IndexedLead) : CityIndex :=
  if idx.any (·.1 = key) then idx else idx ++ [(key, lead)]

def buildCityIndex (u : Unicode) (leads : List Lead) (city state : Text) : CityIndex :=
  leads.foldl (fun idx l => idx.add (normalizeKineticAddressKey u l.address city state) l.indexed) []

def cityIndexAt (b : Batch) (city state : Text) : Option CityIndex :=
  (b.cityLeadIndex.find? (·.1 = cityIndexKey city state)).map (·.2)

def getCityIndex (u : Unicode) (tenantId : Int) (city state : Text) (b : Batch) : Batch × CityIndex :=
  match cityIndexAt b city state with
  | some idx => (b, idx)
  | none =>
    let idx := buildCityIndex u (findByCityLeads b.tables.leads tenantId city state) city state
    ({ b with cityLeadIndex := b.cityLeadIndex ++ [(cityIndexKey city state, idx)] }, idx)

def CityIndex.get (idx : CityIndex) (key : Text) : Option IndexedLead :=
  (idx.find? (·.1 = key)).map (·.2)

/-- A new lead joins the index of its city if that was built. -/
def rememberNewLead (u : Unicode) (lead : IndexedLead) (s : ScanTarget) (b : Batch) : Batch :=
  { b with
    cityLeadIndex := b.cityLeadIndex.map fun entry =>
      if entry.1 = cityIndexKey s.city s.state then
        (entry.1, entry.2.add (normalizeKineticAddressKey u s.address s.city s.state) lead)
      else entry }

def houseNum (address : Text) : Option Text :=
  if firstWord address ≠ [] && (firstWord address).all Char.isDigit then some (firstWord address)
  else none

def within (radius : Rat) (center : Rat) (value : Option Rat) : Bool :=
  value.any fun x => center - radius ≤ x && x ≤ center + radius

/-- The first lead in the box around the door whose address starts with its house number. -/
def geoHit (leads : List Lead) (tenantId : Int) (s : ScanTarget) : Option Lead :=
  match s.lat, s.lng, houseNum s.address with
  | some lat, some lng, some house =>
    leads.find? fun l => l.tenantId = tenantId && within (15 / 100000) lat l.lat &&
      within (20 / 100000) lng l.lng && (l.address = house || (house ++ [' ']).isPrefixOf l.address)
  | _, _, _ => none

def crossVerified : Text := "cross_verified".toList

def confidenceOf (decision : FreshFiberConfirmationDecision) : Text :=
  if 2 ≤ decision.sources.length then crossVerified else "kinetic_new_fiber".toList

def leadSegment (c : ProjectionCandidate) : Option Text :=
  c.householdSegmentType.or
    (if authoritativeFresh c then some newFiber else c.target.last.lastFiberStatus)

def leadBilling (c : ProjectionCandidate) : Option Text :=
  (c.billingStatus.or c.target.last.lastBillingStatus).or
    (if authoritativeFresh c then some ['N'] else none)

def carrierName (c : ProjectionCandidate) : String :=
  if c.target.carrier = some "frontier".toList then "Frontier" else "Kinetic"

def freshTag : Text := "fresh_fiber_confirmed".toList

def freshTerritory : Text := "fresh-fiber-territory".toList

def newLead (u : Unicode) (tenantId nowMs id : Int) (c : ProjectionCandidate)
    (decision : FreshFiberConfirmationDecision) (assignment : Option TerritoryAssignment) : Lead :=
  { id
    tenantId
    address := c.target.address
    city := c.target.city
    state := c.target.state
    zip := c.target.zip
    lat := c.target.lat
    lng := c.target.lng
    fiberStatus := c.target.last.lastFiberStatus.getD "new_fiber".toList
    maxDownloadMbps := c.latest.bind (·.maxDownloadMbps)
    isNewDeployment := true
    isNewFiber := true
    isTenured := false
    householdSegmentType := leadSegment c
    billingStatus := leadBilling c
    leadStatus := .prospect
    notes := "New Fiber. Confirmed " ++ carrierName c ++
      " fiber at the address with no active service on it."
    deploymentNotes := if 2 ≤ decision.sources.length then
        "Unavailable-to-fiber flip; independently confirmed by " ++
          String.ofList (", ".toList.intercalate decision.sources.tail) ++ "."
      else "NEW FIBER + billing N (authoritative " ++ carrierName c ++ " new-build signal)."
    leadTag := freshTag
    leadScore := some 100
    sourceScanTargetId := c.target.id
    freshConfirmedAt := decision.confirmedAt
    freshConfidence := confidenceOf decision
    freshSources := decision.sources
    assignedRepId := assignment.map (·.repId)
    assignedTerritoryId := assignment.map (·.territoryId)
    assignmentSource := freshTerritory
    assignedAt := assignment.map fun _ => datetimeNow nowMs
    createdAt := datetimeNow nowMs
    updatedAt := datetimeNow nowMs
    carrier := c.target.carrier.getD kinetic
    exchangeId := c.target.last.frontierControl
    canonicalKey := kineticLeadKeyOrNull u c.target.address c.target.city c.target.state
    competitorName := c.competitorName
    competitorTech := c.competitorTech }

/-- `INSERT … ON CONFLICT(tenant_id, canonical_key) DO UPDATE SET updated_at … RETURNING id`. -/
def insertLead (l : Lead) (nowMs : Int) (tables : Tables) : Tables × Int :=
  match tables.leads.find? fun old =>
      old.tenantId = l.tenantId && old.canonicalKey.isSome && old.canonicalKey = l.canonicalKey with
  | some old =>
    ({ tables with
        leads := updateLead old.id old.tenantId (fun _ => true)
          (fun l => { l with updatedAt := datetimeNow nowMs }) tables.leads }, old.id)
  | none => ({ tables with leads := tables.leads ++ [l], lastLeadId := l.id }, l.id)

/-- `COALESCE(NULLIF(new,''),old)`. -/
def fill (new old : Option Text) : Option Text := (new.filter (· ≠ [])).or old

/-- What `stamp` makes of the row. -/
def stamped (nowMs : Int) (c : ProjectionCandidate) (decision : FreshFiberConfirmationDecision)
    (assignment : Option TerritoryAssignment) (l : Lead) : Lead :=
  let repId := assignment.map (·.repId)
  { l with
    sourceScanTargetId := l.sourceScanTargetId.or (some c.target.id)
    competitorName := l.competitorName.or c.competitorName
    competitorTech := l.competitorTech.or c.competitorTech
    householdSegmentType := fill (leadSegment c) l.householdSegmentType
    billingStatus := fill (leadBilling c) l.billingStatus
    freshConfirmedAt := decision.confirmedAt
    freshConfidence := if l.freshConfidence = some crossVerified then some crossVerified
      else some (confidenceOf decision)
    freshSources := decision.sources
    leadTag := some freshTag
    leadScore := some (max (l.leadScore.getD 0) 100)
    assignedRepId := l.assignedRepId.or repId
    assignedTerritoryId := l.assignedTerritoryId.or (assignment.map (·.territoryId))
    assignmentSource := if l.assignedRepId.isNone && repId.isSome then some freshTerritory
      else l.assignmentSource
    assignedAt := if l.assignedRepId.isNone && repId.isSome then some (datetimeNow nowMs)
      else l.assignedAt
    updatedAt := datetimeNow nowMs }

/-- `UPDATE scan_targets SET converted_to_lead_id=? WHERE id=? AND tenant_id=?`. -/
def linkTarget (leadId targetId tenantId : Int) (targets : List ScanTarget) : List ScanTarget :=
  targets.map fun s =>
    if s.id = targetId && s.tenantId = tenantId then { s with convertedToLeadId := some leadId }
    else s

def attach (tenantId nowMs leadId : Int) (c : ProjectionCandidate)
    (decision : FreshFiberConfirmationDecision) (assignment : Option TerritoryAssignment)
    (wasUnassigned : Bool) (tables : Tables) : Tables :=
  { tables with
    leads := updateLead leadId tenantId (fun _ => true) (stamped nowMs c decision assignment)
      tables.leads
    targets := linkTarget leadId c.target.id tenantId tables.targets
    leadEvents := tables.leadEvents ++
      ((assignment.filter fun _ => wasUnassigned).map fun assignment =>
        ({ leadId, type := "assignment", actor := "Fresh Fiber Monitor"
           detail := .assigned assignment, time := datetimeNow nowMs } : LeadEvent)).toList }

/-- The lead for a candidate that has none of its own: at its address in its city, else nearby. -/
def lookUp (u : Unicode) (tenantId : Int) (s : ScanTarget) (b : Batch) : Batch × Option IndexedLead :=
  let (b, idx) := getCityIndex u tenantId s.city s.state b
  (b, (idx.get (normalizeKineticAddressKey u s.address s.city s.state)).or
    ((geoHit b.tables.leads tenantId s).map Lead.indexed))

/-- A candidate without a lead creates one, or falls on the one that holds its key. -/
def resolve (u : Unicode) (tenantId nowMs : Int) (c : ProjectionCandidate)
    (decision : FreshFiberConfirmationDecision) (assignment : Option TerritoryAssignment)
    (found : Option IndexedLead) (b : Batch) : Batch × Int :=
  match found with
  | some lead =>
    ({ b with result := { b.result with linkedExisting := b.result.linkedExisting + 1 } }, lead.id)
  | none =>
    let (tables, leadId) := insertLead
      (newLead u tenantId nowMs (b.tables.lastLeadId + 1) c decision assignment) nowMs b.tables
    let lead := { id := leadId, assignedRepId := assignment.map (·.repId) }
    (rememberNewLead u lead c.target
      { b with tables, result := { b.result with created := b.result.created + 1 } }, leadId)

/-- `slice(0, 200)` of the message. -/
def fail (targetId : Int) (reason : Text) (b : Batch) : Batch :=
  { b with result := { b.result with errors := b.result.errors ++ [(targetId, reason.take 200)] } }

def ownLead (leads : List Lead) (tenantId : Int) (c : ProjectionCandidate) : Option IndexedLead :=
  (findBySource leads tenantId c.target.id).map Lead.indexed

/-- The link of the candidate leads to its own lead: a stable link. -/
def linkedToOwn (leads : List Lead) (tenantId : Int) (c : ProjectionCandidate) : Bool :=
  c.target.convertedToLeadId.isSome &&
    (ownLead leads tenantId c).map (·.id) = c.target.convertedToLeadId

/-- The lead that a candidate comes to: its own, else one that is looked up. -/
def findLead (u : Unicode) (tenantId : Int) (c : ProjectionCandidate) (b : Batch) :
    Batch × Option IndexedLead :=
  match ownLead b.tables.leads tenantId c with
  | some lead => (b, some lead)
  | none => lookUp u tenantId c.target b

/-- Finds or creates the lead and attaches the candidate to it. -/
def place (u : Unicode) (tenantId nowMs : Int) (c : ProjectionCandidate)
    (decision : FreshFiberConfirmationDecision) (assignment : Option TerritoryAssignment)
    (b : Batch) : Batch :=
  let (b, found) := findLead u tenantId c b
  let wasUnassigned := (found.bind (·.assignedRepId)).all (· = 0)
  let (b, leadId) := resolve u tenantId nowMs c decision assignment found b
  { b with
    tables := attach tenantId nowMs leadId c decision assignment wasUnassigned b.tables
    result := { b.result with leadIds := b.result.leadIds ++ [leadId] } }

/-- A stable link is left alone. The counters of a candidate that fails stay. -/
def publish (u : Unicode) (tenantId nowMs : Int) (c : ProjectionCandidate)
    (decision : FreshFiberConfirmationDecision) (b : Batch) : Batch :=
  if linkedToOwn b.tables.leads tenantId c then
    { b with
      result := { b.result with
        linkedExisting := b.result.linkedExisting + 1
        leadIds := b.result.leadIds ++ c.target.convertedToLeadId.toList } }
  else
    let b := { b with result := { b.result with published := b.result.published + 1 } }
    match territoryAssignmentFor b.tables.territories tenantId c.target.lat c.target.lng with
    | .error reason => fail c.target.id reason b
    | .ok assignment => place u tenantId nowMs c decision assignment b

def perCandidate (u : Unicode) (tenantId nowMs : Int) (b : Batch) (c : ProjectionCandidate) : Batch :=
  match verdict u (evidenceOf b.tables tenantId c.target.id) nowMs c with
  | .rejected => { b with result := { b.result with rejected := b.result.rejected + 1 } }
  | .nowActive leadId => markNowActive tenantId nowMs leadId b
  | .blocked reason =>
    let b := match c.target.convertedToLeadId with
      | some leadId => suppressLead tenantId nowMs leadId reason c b
      | none => b
    { b with result := { b.result with rejected := b.result.rejected + 1 } }
  | .provisional => { b with result := { b.result with provisional := b.result.provisional + 1 } }
  | .review issues =>
    let tables := markAddressReview c.target.id issues b.tables
    { b with
      tables := match c.target.convertedToLeadId with
        | some leadId => reviewLead tenantId nowMs leadId issues tables
        | none => tables
      result := { b.result with
        confirmed := b.result.confirmed + 1
        addressReview := b.result.addressReview + 1 } }
  | .publish decision =>
    publish u tenantId nowMs c decision
      { b with result := { b.result with confirmed := b.result.confirmed + 1 } }

def startBatch (db : Tables) (considered : Nat) : Batch :=
  { tables := db, cityLeadIndex := [], result := { ProjectionResult.empty with considered } }

/-- A call that names targets of which none is a positive id projects nothing. -/
def projectConfirmedFreshLeads (u : Unicode) (tenantId nowMs : Int) (targetIds : Option (List Int))
    (db : Tables) : Tables × ProjectionResult :=
  if targetIds.any fun ids => !ids.any (0 < ·) then (db, .empty)
  else
    let cs := candidates db tenantId targetIds
    let b := cs.foldl (perCandidate u tenantId nowMs) (startBatch db cs.length)
    (b.tables, b.result)

def neverScanned : LastScan :=
  { firstSeenFiberAt := none, lastFiberStatus := none, lastBillingStatus := none
    lastCustomerSegment := none, frontierControl := none, competitorCompany := none }

def maconDoor (id : Int) (address : String) : ScanTarget :=
  { id, tenantId := 1, address := address.toList, city := "Macon".toList, state := "GA".toList
    zip := [], lat := some 33, lng := some (-83), carrier := none, last := neverScanned
    convertedToLeadId := none, addressReviewReason := none }

def newFiberAnswer (targetId epoch : Int) : AvailabilitySnapshot :=
  { scanTargetId := targetId, tenantId := 1, checkedAtEpoch := epoch, conclusive := true
    fresh := false, fiberAvailable := some true, householdSegmentType := some newFiber
    billingStatus := some ['N'], serviceStatus := none, maxDownloadMbps := none
    competitiveDecision := none, competitorName := none, competitorTech := none }

def doorsOnly (targets : List ScanTarget) (snapshots : List AvailabilitySnapshot) : Tables :=
  { targets, snapshots, corroborations := [], territories := [], leads := [], leadEvents := []
    lastLeadId := 0 }

end HomefrontFiber.FreshFiber
