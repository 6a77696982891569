import HomefrontFiber.Workweek

/-!
# The policy of a manual call

`evaluateCallingCompliance` records every rule with its reason code, and a fixed precedence selects
the decision. The simple mode keeps the rules about suppression and a few gates. Whatever the mode
is, an eligible call has no internal suppression and no revoked consent.
-/

namespace HomefrontFiber.ManualCalls

inductive CallingDecision where
  | eligibleManualCall | eligibleWithVerifiedConsent
  | blockedNationalDnc | blockedStateDnc | blockedInternalDnc | blockedConsentRevoked
  | blockedCallingHours | blockedInvalidNumber | blockedAutomatedDialAttempt
  | blockedReassignedRisk | blockedWrongParty | blockedFrequencyPolicy
  | blockedMissingRegistration | blockedProviderUse | blockedStaleDncData | blockedTenantPolicy
  | blockedUnauthorizedRep | blockedRepresentativeHold
  | reviewIdentityMatch | reviewLegalConfiguration | reviewRequired

inductive LineType where
  | wireless | landline | voip | fixedVoip | nonFixedVoip | tollFree | other
  deriving DecidableEq

inductive Confidence where
  | high | medium | low | unknown
  deriving DecidableEq

structure CallingWindow where
  startLocal : Text
  endLocal : Text

def msPerMinute : Int := 60000

def digit? (c : Char) : Option Int :=
  if '0' ≤ c ∧ c ≤ '9' then some (c.toNat - '0'.toNat : Nat) else none

/-- The minute of a text such as `08:30`. -/
def parseLocalMinute : Text → Option Int
  | [h₁, h₂, ':', m₁, m₂] => do
    let hour := 10 * (← digit? h₁) + (← digit? h₂)
    let minute := 10 * (← digit? m₁) + (← digit? m₂)
    if hour ≤ 23 ∧ minute ≤ 59 then some (hour * 60 + minute) else none
  | _ => none

def localMinutes (at_ : Int) (zone : Zone) : Int := (at_ + zone.offset at_) % msPerDay / msPerMinute

def isInsideCallingWindow (at_ : Int) (zone : Zone) (window : CallingWindow) : Bool :=
  match parseLocalMinute window.startLocal, parseLocalMinute window.endLocal with
  | some start, some stop =>
    let minutes := localMinutes at_ zone
    if start = stop then false
    else if start < stop then start ≤ minutes && minutes < stop
    else start ≤ minutes || minutes < stop
  | _, _ => false

structure ComplianceInput where
  evaluatedAt : Int
  featureEnabled : Bool
  emergencyDisabled : Bool
  tenantAuthorized : Bool
  leadStillQualified : Bool
  representativeAuthorized : Bool
  representativeOnHold : Bool
  sellerAuthorized : Bool
  registrationValid : Bool
  legalConfigurationApproved : Bool
  providerUseApproved : Bool
  phoneValid : Bool
  lineType : Option LineType
  manualActionConfirmed : Bool
  phoneValidationFresh : Bool
  identityConfidence : Rat
  minimumIdentityConfidence : Rat
  residentAssociationAllowed : Bool
  wrongParty : Bool
  internalDnc : Bool
  tenantDnc : Bool
  nationalDnc : Bool
  stateDnc : Bool
  nationalDncFresh : Bool
  stateDncFresh : Bool
  verifiedConsent : Bool
  consentRevoked : Bool
  allowNationalDncConsentOverride : Bool
  allowStateDncConsentOverride : Bool
  reassignedRisk : Bool
  timeZone : Option Zone
  timeZoneConfidence : Confidence
  callingWindow : CallingWindow
  frequencyAllowed : Bool
  previousDispositionAllowed : Bool
  queueOwned : Bool
  callerIdAuthorized : Bool
  scriptApproved : Bool
  ruleVersion : Text
  ruleVersionAvailable : Bool

structure ComplianceRuleResult where
  rule : String
  passed : Bool
  reasonCode : String

structure ComplianceEvaluation where
  decision : CallingDecision
  eligible : Bool
  rules : List ComplianceRuleResult
  evaluatedAt : Int
  expiresAt : Int
  ruleVersion : Text

def finish (input : ComplianceInput) (rules : List ComplianceRuleResult)
    (decision : CallingDecision) (eligible : Bool) : ComplianceEvaluation where
  decision := decision
  eligible := eligible
  rules := rules
  evaluatedAt := input.evaluatedAt
  expiresAt := input.evaluatedAt + if eligible then 2 * 60000 else 15 * 60000
  ruleVersion := input.ruleVersion

section Rules

variable (i : ComplianceInput)

def featureOk : Bool := i.featureEnabled && !i.emergencyDisabled
def internalDncOk : Bool := !i.internalDnc && !i.tenantDnc
def nationalAllowed : Bool :=
  !i.nationalDnc || (i.verifiedConsent && i.allowNationalDncConsentOverride)
def stateAllowed : Bool := !i.stateDnc || (i.verifiedConsent && i.allowStateDncConsentOverride)
def screenedOk : Bool := i.nationalDncFresh && i.stateDncFresh
def lineTypeOk : Bool :=
  i.lineType.any fun line => line ≠ .tollFree && line ≠ .other
def timeZoneOk : Bool :=
  i.timeZone.isSome && (i.timeZoneConfidence = .high || i.timeZoneConfidence = .medium)
def hoursOk : Bool := i.timeZone.any (isInsideCallingWindow i.evaluatedAt · i.callingWindow)
def identityOk : Bool := i.minimumIdentityConfidence ≤ i.identityConfidence
def ruleVersionOk : Bool := i.ruleVersionAvailable && trim i.ruleVersion ≠ []

def featureReason : String :=
  if i.emergencyDisabled then "EMERGENCY_DISABLED" else "CALLING_DISABLED"
def internalReason : String := if i.internalDnc then "COMPANY_DNC_HIT" else "TENANT_DNC_HIT"
def manualReason : String :=
  if i.lineType = some .wireless then "WIRELESS_REQUIRES_MANUAL_ACTION"
  else "MANUAL_ACTION_REQUIRED"

def simpleRules : List ComplianceRuleResult := [
  ⟨"feature_enabled", featureOk i, featureReason i⟩,
  ⟨"lead_current_status", i.leadStillQualified, "LEAD_NO_LONGER_FRESH_OR_OPEN"⟩,
  ⟨"phone_present", i.phoneValid, "PHONE_INVALID"⟩,
  ⟨"internal_dnc", internalDncOk i, internalReason i⟩,
  ⟨"national_dnc", !i.nationalDnc, "NATIONAL_DNC_HIT"⟩,
  ⟨"state_dnc", !i.stateDnc, "STATE_DNC_HIT"⟩,
  ⟨"dnc_screened", screenedOk i, "PHONE_NOT_DNC_SCREENED"⟩,
  ⟨"consent_revocation", !i.consentRevoked, "CONSENT_REVOKED"⟩]

def fullRules : List ComplianceRuleResult := [
  ⟨"feature_enabled", featureOk i, featureReason i⟩,
  ⟨"tenant_authorized", i.tenantAuthorized, "TENANT_NOT_IN_PILOT"⟩,
  ⟨"lead_current_status", i.leadStillQualified, "LEAD_NO_LONGER_FRESH_OR_OPEN"⟩,
  ⟨"representative_authorized", i.representativeAuthorized, "REPRESENTATIVE_NOT_AUTHORIZED"⟩,
  ⟨"representative_hold", !i.representativeOnHold, "REPRESENTATIVE_CALLING_HOLD_ACTIVE"⟩,
  ⟨"seller_authorized", i.sellerAuthorized, "SELLER_AUTHORIZATION_MISSING"⟩,
  ⟨"registration", i.registrationValid, "REGISTRATION_OR_EXEMPTION_MISSING"⟩,
  ⟨"legal_configuration", i.legalConfigurationApproved, "COUNSEL_APPROVAL_MISSING"⟩,
  ⟨"provider_permitted_use", i.providerUseApproved, "PROVIDER_USE_NOT_APPROVED"⟩,
  ⟨"phone_valid", i.phoneValid, "PHONE_INVALID"⟩,
  ⟨"line_type_known", lineTypeOk i, "LINE_TYPE_UNKNOWN_OR_UNSUPPORTED"⟩,
  ⟨"manual_human_action", i.manualActionConfirmed, manualReason i⟩,
  ⟨"phone_validation_fresh", i.phoneValidationFresh, "PHONE_VALIDATION_STALE"⟩,
  ⟨"resident_association", i.residentAssociationAllowed, "RESIDENT_ASSOCIATION_UNVERIFIED"⟩,
  ⟨"identity_match", identityOk i, "IDENTITY_CONFIDENCE_LOW"⟩,
  ⟨"wrong_party", !i.wrongParty, "WRONG_PARTY_SUPPRESSED"⟩,
  ⟨"internal_dnc", internalDncOk i, internalReason i⟩,
  ⟨"national_dnc_fresh", i.nationalDncFresh, "NATIONAL_DNC_DATA_STALE"⟩,
  ⟨"state_dnc_fresh", i.stateDncFresh, "STATE_DNC_DATA_STALE"⟩,
  ⟨"national_dnc", nationalAllowed i, "NATIONAL_DNC_HIT"⟩,
  ⟨"state_dnc", stateAllowed i, "STATE_DNC_HIT"⟩,
  ⟨"consent_revocation", !i.consentRevoked, "CONSENT_REVOKED"⟩,
  ⟨"reassigned_number", !i.reassignedRisk, "REASSIGNED_NUMBER_RISK"⟩,
  ⟨"time_zone", timeZoneOk i, "TIME_ZONE_UNCERTAIN"⟩,
  ⟨"calling_hours", hoursOk i, "OUTSIDE_CALLING_HOURS"⟩,
  ⟨"frequency", i.frequencyAllowed, "ATTEMPT_FREQUENCY_LIMIT"⟩,
  ⟨"previous_disposition", i.previousDispositionAllowed, "PREVIOUS_DISPOSITION_BLOCKS_CALL"⟩,
  ⟨"queue_ownership", i.queueOwned, "QUEUE_NOT_OWNED"⟩,
  ⟨"caller_id", i.callerIdAuthorized, "CALLER_ID_NOT_AUTHORIZED"⟩,
  ⟨"approved_script", i.scriptApproved, "APPROVED_SCRIPT_MISSING"⟩,
  ⟨"rule_version", ruleVersionOk i, "RULE_VERSION_UNAVAILABLE"⟩]

/-- The checks of the simple mode in the order that selects the decision. -/
def simplePrecedence : List (Bool × CallingDecision) := [
  (internalDncOk i, .blockedInternalDnc),
  (!i.consentRevoked, .blockedConsentRevoked),
  (!i.nationalDnc, .blockedNationalDnc),
  (!i.stateDnc, .blockedStateDnc),
  (screenedOk i, .blockedStaleDncData),
  ((simpleRules i).all (·.passed), .blockedTenantPolicy)]

/-- The checks of the full mode in the order that selects the decision. -/
def fullPrecedence : List (Bool × CallingDecision) := [
  (internalDncOk i, .blockedInternalDnc),
  (!i.consentRevoked, .blockedConsentRevoked),
  (!i.wrongParty, .blockedWrongParty),
  (!i.reassignedRisk, .blockedReassignedRisk),
  (nationalAllowed i, .blockedNationalDnc),
  (stateAllowed i, .blockedStateDnc),
  (featureOk i && i.tenantAuthorized && i.leadStillQualified, .blockedTenantPolicy),
  (!i.representativeOnHold, .blockedRepresentativeHold),
  (i.representativeAuthorized && i.queueOwned, .blockedUnauthorizedRep),
  (i.sellerAuthorized && i.legalConfigurationApproved && i.scriptApproved && ruleVersionOk i &&
    i.callerIdAuthorized, .reviewLegalConfiguration),
  (i.registrationValid, .blockedMissingRegistration),
  (i.providerUseApproved, .blockedProviderUse),
  (i.phoneValid, .blockedInvalidNumber),
  (i.manualActionConfirmed, .blockedAutomatedDialAttempt),
  (lineTypeOk i, .reviewRequired),
  (i.phoneValidationFresh, .reviewRequired),
  (i.residentAssociationAllowed, .reviewIdentityMatch),
  (identityOk i, .reviewIdentityMatch),
  (screenedOk i, .blockedStaleDncData),
  (timeZoneOk i, .reviewRequired),
  (hoursOk i, .blockedCallingHours),
  (i.frequencyAllowed, .blockedFrequencyPolicy),
  (i.previousDispositionAllowed, .blockedTenantPolicy)]

def firstBlock (checks : List (Bool × CallingDecision)) : Option CallingDecision :=
  (checks.find? fun c => !c.1).map (·.2)

def consentOverrideUsed : Bool := (i.nationalDnc || i.stateDnc) && i.verifiedConsent

/-- `evaluateCallingCompliance`. `simpleMode` is the environment variable. -/
def evaluateCallingCompliance (simpleMode : Bool) : ComplianceEvaluation :=
  if simpleMode then
    match firstBlock (simplePrecedence i) with
    | some decision => finish i (simpleRules i) decision false
    | none => finish i (simpleRules i) .eligibleManualCall true
  else
    match firstBlock (fullPrecedence i) with
    | some decision => finish i (fullRules i) decision false
    | none =>
      finish i (fullRules i)
        (if consentOverrideUsed i then .eligibleWithVerifiedConsent else .eligibleManualCall) true

end Rules

theorem firstBlock_eq_none {checks : List (Bool × CallingDecision)} :
    firstBlock checks = none ↔ ∀ c ∈ checks, c.1 = true := by
  unfold firstBlock
  rw [Option.map_eq_none_iff, List.find?_eq_none]
  simp

theorem eligible_iff (i : ComplianceInput) (simpleMode : Bool) :
    (evaluateCallingCompliance i simpleMode).eligible = true ↔
      ∀ c ∈ if simpleMode then simplePrecedence i else fullPrecedence i, c.1 = true := by
  rw [← firstBlock_eq_none]
  unfold evaluateCallingCompliance
  cases simpleMode with
  | true =>
    simp only [if_true]
    cases h : firstBlock (simplePrecedence i) <;> simp [finish]
  | false =>
    simp only [Bool.false_eq_true, if_false]
    cases h : firstBlock (fullPrecedence i) <;> simp [finish]

structure Unsuppressed (i : ComplianceInput) (simpleMode : Bool) : Prop where
  internalDnc : i.internalDnc = false
  tenantDnc : i.tenantDnc = false
  consent : i.consentRevoked = false
  national : i.nationalDnc = false ∨ simpleMode = false ∧ i.verifiedConsent = true ∧
    i.allowNationalDncConsentOverride = true
  state : i.stateDnc = false ∨ simpleMode = false ∧ i.verifiedConsent = true ∧
    i.allowStateDncConsentOverride = true

theorem unsuppressed_of_eligible {i : ComplianceInput} {simpleMode : Bool}
    (h : (evaluateCallingCompliance i simpleMode).eligible = true) :
    Unsuppressed i simpleMode := by
  rw [eligible_iff] at h
  cases simpleMode with
  | true =>
    have hinternal := h (internalDncOk i, .blockedInternalDnc) (by simp [simplePrecedence])
    have hconsent := h (!i.consentRevoked, .blockedConsentRevoked) (by simp [simplePrecedence])
    have hnational := h (!i.nationalDnc, .blockedNationalDnc) (by simp [simplePrecedence])
    have hstate := h (!i.stateDnc, .blockedStateDnc) (by simp [simplePrecedence])
    simp only [internalDncOk, Bool.and_eq_true, Bool.not_eq_true'] at hinternal
    simp only [Bool.not_eq_true'] at hconsent hnational hstate
    exact ⟨hinternal.1, hinternal.2, hconsent, .inl hnational, .inl hstate⟩
  | false =>
    have hinternal := h (internalDncOk i, .blockedInternalDnc) (by simp [fullPrecedence])
    have hconsent := h (!i.consentRevoked, .blockedConsentRevoked) (by simp [fullPrecedence])
    have hnational := h (nationalAllowed i, .blockedNationalDnc) (by simp [fullPrecedence])
    have hstate := h (stateAllowed i, .blockedStateDnc) (by simp [fullPrecedence])
    simp only [internalDncOk, Bool.and_eq_true, Bool.not_eq_true'] at hinternal
    simp only [Bool.not_eq_true'] at hconsent
    simp only [nationalAllowed, Bool.and_eq_true, Bool.or_eq_true, Bool.not_eq_true'] at hnational
    simp only [stateAllowed, Bool.and_eq_true, Bool.or_eq_true, Bool.not_eq_true'] at hstate
    exact ⟨hinternal.1, hinternal.2, hconsent, hnational.imp_right fun h => ⟨rfl, h⟩,
      hstate.imp_right fun h => ⟨rfl, h⟩⟩

theorem decision_of_internalDnc {i : ComplianceInput} (simpleMode : Bool)
    (h : internalDncOk i = false) :
    (evaluateCallingCompliance i simpleMode).decision = .blockedInternalDnc ∧
      (evaluateCallingCompliance i simpleMode).eligible = false := by
  unfold evaluateCallingCompliance firstBlock simplePrecedence fullPrecedence
  cases simpleMode <;> simp [h, finish]

end HomefrontFiber.ManualCalls
