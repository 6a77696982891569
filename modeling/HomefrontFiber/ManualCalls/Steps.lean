import HomefrontFiber.Foundation.Runs
import HomefrontFiber.ManualCalls.Store

/-!
# The operations of manual calling

An operation with checks before its transaction has an action for each instant, so the transactions
of several processes interleave. `startManualAttempt` verifies the token and the hold first and
reads everything else again under the write lock.
-/

namespace HomefrontFiber.ManualCalls

def stageOfEvaluation (e : ComplianceEvaluation) : QueueStage :=
  if e.eligible then .eligibleManualCall
  else
    match e.decision with
    | .reviewIdentityMatch | .reviewLegalConfiguration | .reviewRequired => .complianceReview
    | _ => .complianceBlocked

/-- `evaluateLeadCompliance`. It fails for a lead without a contact or a phone. -/
def evaluateLeadCompliance (w : World) (userId leadId : Nat) (manualActionConfirmed : Bool)
    (s : Surroundings) : Option (World × Decision) := do
  let c ← getCallingCandidate w leadId
  let phone ← c.phone
  let _ ← c.entry.contactId
  let e := buildEvaluation w userId c manualActionConfirmed s
  let decision : Decision :=
    ⟨w.decisions.length + 1, leadId, phone.number, e.eligible, e.expiresAt, e.ruleVersion⟩
  let w := { w with decisions := w.decisions ++ [decision] }
  some (w.editEntry leadId fun row =>
    { row with lastDecisionId := some decision.id, stage := stageOfEvaluation e }, decision)

/-- The evaluation of `issueCallAuthorization`. -/
def issueCallAuthorization (w : World) (userId leadId : Nat) (s : Surroundings) : World :=
  match evaluateLeadCompliance w userId leadId true s with
  | none => w
  | some (w, decision) =>
    if decision.eligible then
      { w with
        pending := w.pending ++ [.issuing userId leadId decision.id decision.ruleVersion] }
    else w

def readCandidate (w : World) (userId leadId decisionId : Nat) (ruleVersion : Text) (ttl : Int) :
    World :=
  match getCallingCandidate w leadId with
  | some c =>
    match c.entry.contactId, c.phone with
    | some contactId, some phone =>
      { w with
        pending := w.pending ++ [.inserting
          { id := 0, userId, leadId, contactId, phone := phone.number, decisionId, ruleVersion
            expiresAt := w.now + max 30 (min 300 ttl) * 1000 }] }
    | _, _ => w
  | none => w

def insertAuthorization (w : World) (claims : Authorization) : World :=
  { w with
    authorizations := w.authorizations ++ [{ claims with id := w.authorizations.length + 1 }] }

/-- The checks before the transaction, over the claims of the token. -/
def checkStart (w : World) (userId authorizationId : Nat) (environmentReady : Bool) : World :=
  match w.authorizations.find? (·.id = authorizationId) with
  | none => w
  | some claims =>
    if claims.userId = userId ∧ w.now < claims.expiresAt ∧ userId ∉ w.holds ∧
        environmentReady = true then
      { w with pending := w.pending ++ [.starting claims] }
    else w

def findAuthorization (w : World) (claims : Authorization) : Option Authorization :=
  w.authorizations.find? fun r => r.id = claims.id && r.userId = claims.userId &&
    r.leadId = claims.leadId && r.contactId = claims.contactId && r.phone = claims.phone

def authorizationLive (w : World) (r : Authorization) : Bool :=
  !r.used && !r.invalidated && w.now < r.expiresAt

def decisionLive (w : World) (r claims : Authorization) : Bool :=
  (w.decisions.find? (·.id = r.decisionId)).any fun d =>
    d.eligible && w.now < d.expiresAt && d.ruleVersion = claims.ruleVersion

def candidateMatches (claims : Authorization) (c : Candidate) : Bool :=
  c.phone.any (·.number = claims.phone) && c.entry.contactId = some claims.contactId &&
    c.entry.lastDecisionId = some claims.decisionId && c.entry.stage = .eligibleManualCall &&
    c.entry.assignedUserId.all (· = claims.userId)

def notSuppressed (w : World) (claims : Authorization) (c : Candidate) : Bool :=
  !internalDncHit w (c.phone.map (·.number)) &&
    !(currentConsent w (c.phone.map (·.number)) claims.leadId).any (·.revoked)

def phoneStillValid (c : Candidate) : Bool :=
  c.phone.any (fun p => p.validation = .valid && !p.reassignedRisk) && !c.wrongParty

def profileStillCalls (w : World) : Bool :=
  !w.profile.emergencyDisabled && w.profile.callingEnabled && w.profile.callerIdAuthorized &&
    w.profile.callerIdReference

def insideHours (w : World) (c : Candidate) : Bool :=
  let (zone, confidence) := timeZoneFor w c.lead
  zone.any fun z => confidence ≠ .low && isInsideCallingWindow w.now z w.profile.window

def mayStart (w : World) (claims r : Authorization) (c : Candidate) (s : Surroundings) : Bool :=
  let e := buildEvaluation w claims.userId c true s
  authorizationLive w r && decisionLive w r claims && candidateMatches claims c &&
    e.eligible && e.ruleVersion = claims.ruleVersion && !openAttemptOn w claims.phone &&
    notSuppressed w claims c && phoneStillValid c && profileStillCalls w && insideHours w c &&
    s.ruleVersionAvailable && s.ruleVersion = claims.ruleVersion && s.scriptApproved

/-- `startManualAttempt` from its transaction on. It answers the number. -/
def startManualAttempt (w : World) (claims : Authorization) (s : Surroundings) :
    Option (World × Nat) := do
  let r ← findAuthorization w claims
  let c ← getCallingCandidate w claims.leadId
  if mayStart w claims r c s then
    let attempt : Attempt :=
      ⟨w.attempts.length + 1, r.id, claims.leadId, claims.phone, claims.userId, w.now, none, none⟩
    let w :=
      { w with
        authorizations := w.authorizations.map fun x : Authorization =>
          if x.id = r.id then { x with used := true } else x
        attempts := w.attempts ++ [attempt] }
    some (w.editEntry claims.leadId fun row =>
      { row with stage := .attempted, assignedUserId := some claims.userId }, claims.phone)
  else none

def terminalCode : DispositionCode → DispositionCode
  | .wrongNumber => .wrongNumber
  | .wrongParty => .wrongParty
  | .consentRevoked => .consentRevoked
  | _ => .doNotCall

def saysWrongParty : DispositionCode → Bool
  | .wrongParty | .wrongNumber => true
  | _ => false

/-- `createInternalOptOut`. The reason is the code of the disposition that asks for it. -/
def createInternalOptOut (w : World) (number : Nat) (reason : DispositionCode)
    (leaveAttemptIdOpen : Option Nat) : World :=
  if w.phones.any (·.number = number) then
    let w :=
      { w with
        internalDnc := if number ∈ w.internalDnc then w.internalDnc else w.internalDnc ++ [number]
        platformDnc :=
          if w.profile.propagateOptOutPlatformWide && number ∉ w.platformDnc then
            w.platformDnc ++ [number]
          else w.platformDnc
        associations := w.associations.map fun a : Association =>
          if a.phone = number then
            { a with wrongParty := a.wrongParty || saysWrongParty reason }
          else a
        queue := w.queue.map fun e : Entry =>
          if e.phone = some number then { e with stage := .suppressed, closedAt := some w.now }
          else e }
    let w := w.editPhone number fun p => { p with validation := .internalDnc }
    let w := w.cancelCallbacks fun c => c.phone = number
    let w := w.invalidate fun r => r.phone = number
    w.terminate (fun a => a.phone = number && some a.id ≠ leaveAttemptIdOpen) (terminalCode reason)
  else w

def suppresses : DispositionCode → Bool
  | .wrongParty | .wrongNumber | .consentRevoked | .doNotCall => true
  | _ => false

def stageOfCode : DispositionCode → QueueStage
  | .wrongParty | .wrongNumber | .consentRevoked | .doNotCall => .suppressed
  | .callbackRequested => .callbackScheduled
  | .interested | .appointmentScheduled | .saleStarted => .interested
  | .saleCompleted => .converted
  | .notInterested | .alreadyHasService | .notServiceable => .closed
  | .disconnected => .complianceBlocked
  | .propertyOwnerNotResident => .complianceReview
  | _ => .attempted

/-- The checks before the transaction. A callback needs its evidence. -/
def checkDisposition (w : World) (userId attemptId : Nat) (code : DispositionCode)
    (callbackEvidence : Bool) : World :=
  match w.attempts.find? (·.id = attemptId) with
  | none => w
  | some a =>
    let consent := currentConsent w (some a.phone) a.leadId
    if w.queue.any (·.leadId = a.leadId) && a.userId = userId && a.endedAt.isNone && a.code.isNone &&
        (code ≠ .callbackRequested || callbackEvidence) &&
        (code ≠ .consentGranted || consent.any (!·.revoked)) && code ≠ .representativeHold then
      { w with pending := w.pending ++ [.disposing a code] }
    else w

def revokeConsents (w : World) (a : Attempt) : World :=
  { w with
    consents := w.consents.map fun c =>
      if c.leadId = a.leadId ∧ c.phone = a.phone then { c with revoked := true } else c }

def endAttempt (w : World) (a : Attempt) (code : DispositionCode) : World :=
  { w with
    dispositions := w.dispositions ++ [a.id]
    attempts := w.attempts.map fun x =>
      if x.id = a.id then { x with endedAt := some w.now, code := some code } else x }

def moveQueue (w : World) (a : Attempt) (code : DispositionCode) : World :=
  let stage := stageOfCode code
  w.editEntry a.leadId fun row =>
    { row with
      stage
      closedAt := if stage = .converted ∨ stage = .closed then some w.now else none }

def disconnectPhone (w : World) (a : Attempt) : World :=
  (w.editPhone a.phone fun p =>
    { p with validation := .invalid, verificationExpiresAt := some w.now }).invalidate
    fun r => r.phone = a.phone

def scheduleCallback (w : World) (a : Attempt) : World :=
  { w with callbacks := w.callbacks ++ [⟨a.leadId, a.phone, true⟩] }

def closeLead (w : World) (a : Attempt) : World :=
  (w.cancelCallbacks fun c => c.leadId = a.leadId).invalidate fun r => r.leadId = a.leadId

def terminalStage (stage : QueueStage) : Bool :=
  stage = .converted || stage = .closed || stage = .complianceBlocked

/-- The transaction of `recordCallDisposition`. An attempt has one disposition. -/
def recordCallDisposition (w : World) (a : Attempt) (code : DispositionCode) : World :=
  let w₁ := if suppresses code then createInternalOptOut w a.phone code (some a.id) else w
  let w₂ := if code = .consentRevoked then revokeConsents w₁ a else w₁
  if a.id ∈ w₂.dispositions then w
  else
    let w₃ := endAttempt w₂ a code
    let w₄ := if suppresses code then w₃ else moveQueue w₃ a code
    let w₅ := if code = .disconnected then disconnectPhone w₄ a else w₄
    let w₆ := if code = .callbackRequested then scheduleCallback w₅ a else w₅
    if terminalStage (stageOfCode code) then closeLead w₆ a else w₆

def placeHold (w : World) (userId : Nat) : World :=
  if userId ∈ w.holds then w
  else
    let w := ({ w with holds := w.holds ++ [userId] }.invalidate fun r => r.userId = userId).terminate
      (fun a => a.userId = userId) .representativeHold
    { w with
      queue := w.queue.map fun e : Entry =>
        if e.assignedUserId = some userId ∧ e.closedAt = none then
          { e with stage := .complianceReview, lastDecisionId := none }
        else e }

def releaseHold (w : World) (userId : Nat) : World :=
  { w with holds := w.holds.filter (· ≠ userId) }

def updateCallingAssignment (w : World) (leadId : Nat) (assignedUserId : Option Nat) : World :=
  match w.queue.find? (·.leadId = leadId) with
  | none => w
  | some e =>
    if e.assignedUserId = assignedUserId then w
    else
      (w.editEntry leadId fun row => { row with assignedUserId }).invalidate fun r => r.leadId = leadId

/-- `validatePhoneManually` for an approved provider. -/
def validatePhoneManually (w : World) (leadId number : Nat) (lineType : LineType)
    (reachable reassignedRisk : Bool) (validDays : Int) : World :=
  if w.associations.any (fun a => a.leadId = leadId && a.phone = number) && 1 ≤ validDays &&
      validDays ≤ 30 then
    (w.editPhone number fun p =>
      { p with
        validation := if reachable then .valid else .invalid
        lineType := some lineType
        reassignedRisk
        verificationExpiresAt := some (w.now + validDays * msPerDay) }).editEntry leadId fun row =>
      { row with stage := if reachable then .awaitingDncCheck else .complianceBlocked }
  else w

/-- `storeManualContact` for an approved provider. -/
def storeManualContact (w : World) (leadId number : Nat) : World :=
  if w.leads.any (·.id = leadId) then
    let suppressed := internalDncHit w (some number)
    let w :=
      { w with
        phones := if w.phones.any (·.number = number) then w.phones else w.phones ++ [({ number } : Phone)]
        associations :=
          if w.associations.any (fun a => a.leadId = leadId && a.phone = number) then w.associations
          else w.associations ++ [({ leadId, phone := number } : Association)] }
    w.editEntry leadId fun row =>
      { row with
        contactId := some leadId
        phone := some number
        stage := if suppressed then .suppressed else .awaitingPhoneValidation }
  else w

/-- The dataset that `finalizeDncImport` activates. -/
def finalizeDncImport (w : World) (source : SourceType) (effectiveAt : Int) (numbers : List Nat) :
    World :=
  { w with
    datasets := (w.datasets.map fun d => if d.source = source then { d with active := false } else d) ++
      [⟨source, true, effectiveAt, numbers⟩] }

inductive Action where
  | tick (ms : Nat)
  | evaluate (userId leadId : Nat) (s : Surroundings)
  | issue (userId leadId : Nat) (s : Surroundings)
  | readCandidate (index : Nat) (ttl : Int)
  | insertAuthorization (index : Nat)
  | checkStart (userId authorizationId : Nat) (environmentReady : Bool)
  | start (index : Nat) (s : Surroundings)
  | checkDisposition (userId attemptId : Nat) (code : DispositionCode) (callbackEvidence : Bool)
  | dispose (index : Nat)
  | optOut (number : Nat)
  | placeHold (userId : Nat)
  | releaseHold (userId : Nat)
  | assign (leadId : Nat) (assignedUserId : Option Nat)
  | validate (leadId number : Nat) (lineType : LineType) (reachable reassignedRisk : Bool)
      (validDays : Int)
  | storeContact (leadId number : Nat)
  | finalize (source : SourceType) (effectiveAt : Int) (numbers : List Nat)

def resume (w : World) (index : Nat) : Option (Pending × World) :=
  w.pending[index]?.map fun p => (p, { w with pending := w.pending.eraseIdx index })

def reveal (w : World) (index : Nat) (s : Surroundings) : Option (World × Nat) :=
  match resume w index with
  | some (.starting claims, w) => startManualAttempt w claims s
  | _ => none

def step (w : World) : Action → World
  | .tick ms => { w with now := w.now + ms }
  | .evaluate userId leadId s =>
    (evaluateLeadCompliance w userId leadId false s).elim w Prod.fst
  | .issue userId leadId s => issueCallAuthorization w userId leadId s
  | .readCandidate index ttl =>
    match resume w index with
    | some (.issuing userId leadId decisionId ruleVersion, w) =>
      readCandidate w userId leadId decisionId ruleVersion ttl
    | _ => w
  | .insertAuthorization index =>
    match resume w index with
    | some (.inserting claims, w) => insertAuthorization w claims
    | _ => w
  | .checkStart userId authorizationId ready => checkStart w userId authorizationId ready
  | .start index s => (reveal w index s).elim w Prod.fst
  | .checkDisposition userId attemptId code evidence =>
    checkDisposition w userId attemptId code evidence
  | .dispose index =>
    match resume w index with
    | some (.disposing a code, w) => recordCallDisposition w a code
    | _ => w
  | .optOut number => createInternalOptOut w number .doNotCall none
  | .placeHold userId => placeHold w userId
  | .releaseHold userId => releaseHold w userId
  | .assign leadId assignedUserId => updateCallingAssignment w leadId assignedUserId
  | .validate leadId number lineType reachable reassignedRisk validDays =>
    validatePhoneManually w leadId number lineType reachable reassignedRisk validDays
  | .storeContact leadId number => storeManualContact w leadId number
  | .finalize source effectiveAt numbers => finalizeDncImport w source effectiveAt numbers

end HomefrontFiber.ManualCalls
