import HomefrontFiber.Foundation.Table
import HomefrontFiber.ManualCalls.Policy

/-!
# The tables of manual calling

The tables of one organisation. A phone is known by its number, and the contact of a lead by the
lead. `buildEvaluation` reads the tables that the operations write, and takes the other facts of an
evaluation from its `Surroundings`. Instants are in milliseconds.
-/

namespace HomefrontFiber.ManualCalls

inductive ValidationStatus where
  | unvalidated | valid | invalid | internalDnc
  deriving DecidableEq

structure Phone where
  number : Nat
  validation : ValidationStatus := .unvalidated
  lineType : Option LineType := none
  reassignedRisk : Bool := false
  verificationExpiresAt : Option Int := none

structure Lead where
  id : Nat
  state : Text

structure Association where
  leadId : Nat
  phone : Nat
  wrongParty : Bool := false

inductive QueueStage where
  | freshFiberDetected | awaitingPhoneValidation | awaitingDncCheck | eligibleManualCall
  | complianceReview | complianceBlocked | attempted | suppressed | callbackScheduled | interested
  | converted | closed
  deriving DecidableEq

structure Entry where
  leadId : Nat
  contactId : Option Nat := none
  phone : Option Nat := none
  stage : QueueStage := .freshFiberDetected
  closedAt : Option Int := none
  assignedUserId : Option Nat := none
  lastDecisionId : Option Nat := none

structure Decision where
  id : Nat
  leadId : Nat
  phone : Nat
  eligible : Bool
  expiresAt : Int
  ruleVersion : Text

/-- The row of an authorization. Its token carries the same values under a signature. -/
structure Authorization where
  id : Nat
  userId : Nat
  leadId : Nat
  contactId : Nat
  phone : Nat
  decisionId : Nat
  ruleVersion : Text
  expiresAt : Int
  used : Bool := false
  invalidated : Bool := false

inductive DispositionCode where
  | noAnswer | busy | disconnected | voicemailReached | leftNoMessage | callbackRequested
  | interested | notInterested | wrongNumber | wrongParty | propertyOwnerNotResident
  | alreadyHasService | notServiceable | appointmentScheduled | saleStarted | saleCompleted
  | doNotCall | consentGranted | consentRevoked | languageBarrier | reviewRequired
  | representativeHold
  deriving DecidableEq

structure Attempt where
  id : Nat
  authorizationId : Nat
  leadId : Nat
  phone : Nat
  userId : Nat
  startedAt : Int
  endedAt : Option Int := none
  code : Option DispositionCode := none

structure Callback where
  leadId : Nat
  phone : Nat
  scheduled : Bool := true

/-- A consent of the approved type and channel, with whether a revocation names it. -/
structure Consent where
  leadId : Nat
  phone : Nat
  seller : Text
  capturedAt : Int
  expiresAt : Option Int
  revoked : Bool := false

inductive SourceType where
  | national
  | state (code : Text)
  deriving DecidableEq

structure Dataset where
  source : SourceType
  active : Bool
  effectiveAt : Int
  numbers : List Nat

structure Profile where
  callingEnabled : Bool
  emergencyDisabled : Bool
  callerIdAuthorized : Bool
  callerIdReference : Bool
  sellerName : Text
  window : CallingWindow
  defaultTimeZone : Option Zone
  allowNationalDncConsentOverride : Bool
  allowStateDncConsentOverride : Bool
  propagateOptOutPlatformWide : Bool

inductive Pending where
  | issuing (userId leadId decisionId : Nat) (ruleVersion : Text)
  | inserting (claims : Authorization)
  | starting (claims : Authorization)
  | disposing (attempt : Attempt) (code : DispositionCode)

structure World where
  simpleMode : Bool
  newYork : Zone
  profile : Profile
  now : Int := 0
  leads : List Lead
  queue : List Entry
  phones : List Phone := []
  associations : List Association := []
  internalDnc : List Nat := []
  platformDnc : List Nat := []
  datasets : List Dataset := []
  consents : List Consent := []
  holds : List Nat := []
  decisions : List Decision := []
  authorizations : List Authorization := []
  attempts : List Attempt := []
  dispositions : List Nat := []
  callbacks : List Callback := []
  pending : List Pending := []

structure Candidate where
  lead : Lead
  entry : Entry
  phone : Option Phone
  wrongParty : Bool

def getCallingCandidate (w : World) (leadId : Nat) : Option Candidate := do
  let entry ← w.queue.find? (·.leadId = leadId)
  let lead ← w.leads.find? (·.id = leadId)
  let phone := entry.phone.bind fun number => w.phones.find? (·.number = number)
  some
    { lead, entry, phone
      wrongParty := w.associations.any fun a =>
        a.leadId = leadId && some a.phone = entry.phone && a.wrongParty }

def latest {α : Type} (at_ : α → Int) : List α → Option α
  | [] => none
  | a :: as =>
    match latest at_ as with
    | none => some a
    | some b => if at_ a < at_ b then some b else some a

def currentDncDataset (w : World) (source : SourceType) : Option Dataset :=
  latest (·.effectiveAt) (w.datasets.filter fun d => d.source = source && d.active)

def dncHit (w : World) (source : SourceType) (number : Option Nat) : Bool :=
  (currentDncDataset w source).any fun d => number.any (· ∈ d.numbers)

def internalDncHit (w : World) (number : Option Nat) : Bool := number.any (· ∈ w.internalDnc)

def platformDncHit (w : World) (number : Option Nat) : Bool := number.any (· ∈ w.platformDnc)

def currentConsent (w : World) (number : Option Nat) (leadId : Nat) : Option Consent :=
  latest (·.capturedAt) (w.consents.filter fun c =>
    some c.phone = number && c.leadId = leadId && c.seller = w.profile.sellerName &&
      c.expiresAt.all (w.now < ·))

def openAttemptOn (w : World) (number : Nat) : Bool :=
  w.attempts.any fun a => a.phone = number && a.endedAt = none

def blocksNextCall : DispositionCode → Bool
  | .doNotCall | .wrongNumber | .wrongParty | .saleCompleted | .consentRevoked | .notInterested
  | .alreadyHasService | .notServiceable | .disconnected | .propertyOwnerNotResident => true
  | _ => false

def previousDispositionAllowed (w : World) (number : Option Nat) : Bool :=
  number.any fun n => !openAttemptOn w n &&
    ((latest (·.startedAt) (w.attempts.filter fun a => a.phone = n && a.code.isSome)).bind
      (·.code)).all (!blocksNextCall ·)

def easternStates : List Text := [['N', 'C'], ['S', 'C'], ['G', 'A']]

def timeZoneFor (w : World) (lead : Lead) : Option Zone × Confidence :=
  if lead.state ∈ easternStates then (some w.newYork, .high)
  else if w.profile.defaultTimeZone.isSome then (w.profile.defaultTimeZone, .low)
  else (none, .unknown)

/-- What an evaluation reads and no operation of the model writes. -/
structure Surroundings where
  environmentReady : Bool
  environmentEmergency : Bool
  tenantAuthorized : Bool
  leadEvidence : Bool
  leadStatusOpen : Bool
  canManage : Bool
  representativeAuthorized : Bool
  sellerAuthorized : Bool
  registrationValid : Bool
  legalConfigurationApproved : Bool
  providerUseApproved : Bool
  blockedLineType : Bool
  residentAssociationAllowed : Bool
  identityConfidence : Rat
  minimumIdentityConfidence : Rat
  tracedTenantDnc : Bool
  tracedNationalDnc : Bool
  tracedStateDnc : Bool
  nationalDncFresh : Bool
  stateDncFresh : Bool
  ruleWindow : CallingWindow
  frequencyAllowed : Bool
  scriptApproved : Bool
  ruleVersion : Text
  ruleVersionAvailable : Bool

def phoneValid (w : World) (phone : Option Phone) (s : Surroundings) : Bool :=
  if w.simpleMode then phone.isSome
  else phone.any fun p => p.validation ≠ .invalid && !s.blockedLineType &&
    p.lineType.any fun line => line ≠ .tollFree && line ≠ .other

def policyInput (w : World) (userId : Nat) (c : Candidate) (manualActionConfirmed : Bool)
    (s : Surroundings) : ComplianceInput :=
  let number := c.phone.map (·.number)
  let consent := currentConsent w number c.entry.leadId
  let (zone, confidence) := timeZoneFor w c.lead
  { evaluatedAt := w.now
    featureEnabled := s.environmentReady && w.profile.callingEnabled
    emergencyDisabled := s.environmentEmergency || w.profile.emergencyDisabled
    tenantAuthorized := s.tenantAuthorized
    leadStillQualified := s.leadEvidence && c.entry.closedAt.isNone && s.leadStatusOpen
    representativeAuthorized := s.representativeAuthorized
    representativeOnHold := userId ∈ w.holds
    sellerAuthorized := s.sellerAuthorized
    registrationValid := s.registrationValid
    legalConfigurationApproved := s.legalConfigurationApproved
    providerUseApproved := s.providerUseApproved
    phoneValid := phoneValid w c.phone s
    lineType := c.phone.bind (·.lineType)
    manualActionConfirmed
    phoneValidationFresh := c.phone.any fun p =>
      p.validation = .valid && p.verificationExpiresAt.any (w.now < ·)
    identityConfidence := s.identityConfidence
    minimumIdentityConfidence := s.minimumIdentityConfidence
    residentAssociationAllowed := s.residentAssociationAllowed
    wrongParty := c.wrongParty
    internalDnc := platformDncHit w number
    tenantDnc := internalDncHit w number || s.tracedTenantDnc
    nationalDnc := dncHit w .national number || s.tracedNationalDnc
    stateDnc := dncHit w (.state c.lead.state) number || s.tracedStateDnc
    nationalDncFresh := s.nationalDncFresh
    stateDncFresh := s.stateDncFresh
    verifiedConsent := consent.isSome
    consentRevoked := consent.any (·.revoked)
    allowNationalDncConsentOverride := w.profile.allowNationalDncConsentOverride
    allowStateDncConsentOverride := w.profile.allowStateDncConsentOverride
    reassignedRisk := c.phone.any (·.reassignedRisk)
    timeZone := zone
    timeZoneConfidence := confidence
    callingWindow := s.ruleWindow
    frequencyAllowed := s.frequencyAllowed
    previousDispositionAllowed := previousDispositionAllowed w number
    queueOwned := s.canManage || c.entry.assignedUserId.all (· = userId)
    callerIdAuthorized := w.profile.callerIdAuthorized && w.profile.callerIdReference
    scriptApproved := s.scriptApproved
    ruleVersion := s.ruleVersion
    ruleVersionAvailable := s.ruleVersionAvailable }

def buildEvaluation (w : World) (userId : Nat) (c : Candidate) (manualActionConfirmed : Bool)
    (s : Surroundings) : ComplianceEvaluation :=
  evaluateCallingCompliance (policyInput w userId c manualActionConfirmed s) w.simpleMode

def World.editEntry (w : World) (leadId : Nat) (f : Entry → Entry) : World :=
  { w with queue := w.queue.map fun e => if e.leadId = leadId then f e else e }

def World.editPhone (w : World) (number : Nat) (f : Phone → Phone) : World :=
  { w with phones := w.phones.map fun p => if p.number = number then f p else p }

/-- The unused authorizations that a condition names are void. -/
def World.invalidate (w : World) (which : Authorization → Bool) : World :=
  { w with
    authorizations := w.authorizations.map fun r =>
      if which r && !r.used && !r.invalidated then { r with invalidated := true } else r }

def World.cancelCallbacks (w : World) (which : Callback → Bool) : World :=
  { w with
    callbacks := w.callbacks.map fun c =>
      if which c && c.scheduled then { c with scheduled := false } else c }

/-- The open attempts that a condition names end with a disposition, which an attempt has once. -/
def World.terminate (w : World) (which : Attempt → Bool) (code : DispositionCode) : World :=
  { w with
    attempts := w.attempts.map fun a =>
      if which a && a.endedAt.isNone then { a with endedAt := some w.now, code := some code } else a
    dispositions := w.dispositions ++
      ((w.attempts.filter fun a => which a && a.endedAt.isNone).map (·.id)) }

end HomefrontFiber.ManualCalls
