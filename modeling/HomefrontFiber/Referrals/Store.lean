import Mathlib.Data.List.Basic
import HomefrontFiber.Commission.Schema
import HomefrontFiber.Earnings.Ledger
import HomefrontFiber.Foundation.Runs

/-!
# The referral program

The rules of a referral: the statuses and their transitions, what a referred representative must
have done, how long a reward is held back, who may be attributed to whom. Nothing here reads a
clock or a table. Instants are in milliseconds.
-/

namespace HomefrontFiber.Referrals

inductive ReferralStatus where
  | clicked | applicationStarted | applied | hired | trainingPending | activated | inProgress
  | qualified | rewardPending | approved | paid | rejected | expired | clawedBack
deriving DecidableEq

def referralTransitions : ReferralStatus → List ReferralStatus
  | .clicked => [.applicationStarted, .applied, .rejected, .expired]
  | .applicationStarted => [.applied, .rejected, .expired]
  | .applied => [.hired, .rejected, .expired]
  | .hired => [.trainingPending, .activated, .rejected, .expired]
  | .trainingPending => [.activated, .rejected, .expired]
  | .activated => [.inProgress, .qualified, .rejected, .expired]
  | .inProgress => [.qualified, .rejected, .expired]
  | .qualified => [.rewardPending, .rejected, .expired]
  | .rewardPending => [.approved, .rejected, .expired]
  | .approved => [.paid, .clawedBack, .rejected]
  | .paid => [.clawedBack]
  | .rejected | .expired | .clawedBack => []

def canReferralTransition (source target : ReferralStatus) : Bool :=
  source = target || (referralTransitions source).contains target

def isReferralCommitted (status : ReferralStatus) : Bool := status = .approved || status = .paid

/-- Neither rejected nor expired, as the partial unique indexes have it. -/
def blocksRetry (status : ReferralStatus) : Bool := status ≠ .rejected && status ≠ .expired

structure ReferralProgramConfig where
  enabled : Bool := true
  rewardCents : Int := 50000
  requiredApprovedSales : Int := 6
  qualificationWindowDays : Int := 180
  clawbackWindowDays : Int := 30
  requireTrainingComplete : Bool := true
  requireActiveStatus : Bool := true
  attributionWindowDays : Int := 90
deriving DecidableEq

def defaultReferralConfig : ReferralProgramConfig := {}

structure ReferralFacts where
  hiredAt : Option Int
  activatedAt : Option Int
  approvedSalesCount : Int
  trainingComplete : Bool
  repActive : Bool

inductive RequirementKey where
  | hired | activated | training | active | sales | window
deriving DecidableEq

structure RequirementState where
  key : RequirementKey
  met : Bool
  current : Option Int := none
  target : Option Int := none

structure QualificationResult where
  qualified : Bool
  requirements : List RequirementState
  salesRemaining : Int
  windowExpired : Bool

/-- The qualification window runs from the hire; a window of no days has no deadline. -/
def windowOpen (config : ReferralProgramConfig) (hiredAt : Option Int) (nowMs : Int) : Bool :=
  config.qualificationWindowDays ≤ 0 ||
    match hiredAt with
    | none => true
    | some hired => nowMs - hired ≤ config.qualificationWindowDays * msPerDay

def requirementsFor (facts : ReferralFacts) (config : ReferralProgramConfig) (nowMs : Int) :
    List RequirementState :=
  let target := max 1 config.requiredApprovedSales
  let sales := max 0 facts.approvedSalesCount
  [{ key := .hired, met := facts.hiredAt.isSome },
    { key := .activated, met := facts.activatedAt.isSome }] ++
  (if config.requireTrainingComplete then [{ key := .training, met := facts.trainingComplete }]
    else []) ++
  (if config.requireActiveStatus then [{ key := .active, met := facts.repActive }] else []) ++
  [{ key := .sales, met := target ≤ sales, current := some (min sales target),
     target := some target }] ++
  (if 0 < config.qualificationWindowDays then
    [{ key := .window, met := windowOpen config facts.hiredAt nowMs }] else [])

def evaluateQualification (facts : ReferralFacts) (config : ReferralProgramConfig) (nowMs : Int) :
    QualificationResult :=
  let requirements := requirementsFor facts config nowMs
  let target := max 1 config.requiredApprovedSales
  { qualified := requirements.all (·.met)
    requirements := requirements
    salesRemaining := max 0 (target - max 0 facts.approvedSalesCount)
    windowExpired := !windowOpen config facts.hiredAt nowMs }

theorem qualified_iff (facts : ReferralFacts) (config : ReferralProgramConfig) (nowMs : Int) :
    (evaluateQualification facts config nowMs).qualified = true ↔
      facts.hiredAt.isSome = true ∧ facts.activatedAt.isSome = true ∧
        (config.requireTrainingComplete = true → facts.trainingComplete = true) ∧
        (config.requireActiveStatus = true → facts.repActive = true) ∧
        max 1 config.requiredApprovedSales ≤ max 0 facts.approvedSalesCount ∧
        windowOpen config facts.hiredAt nowMs = true := by
  have hwindow : ¬0 < config.qualificationWindowDays →
      windowOpen config facts.hiredAt nowMs = true := by
    intro h
    unfold windowOpen
    simp [not_lt.mp h]
  unfold evaluateQualification requirementsFor
  split_ifs with htraining hactive hdays hdays hactive hdays hdays <;>
    simp_all

structure Releasable where
  releasable : Bool
  daysRemaining : Int

/-- A reward is held back until the clawback window after the qualification has closed. -/
def rewardReleasable (qualifiedAt : Option Int) (config : ReferralProgramConfig) (nowMs : Int) :
    Releasable :=
  match qualifiedAt with
  | none => { releasable := false, daysRemaining := config.clawbackWindowDays }
  | some qualified =>
    if config.clawbackWindowDays ≤ 0 then { releasable := true, daysRemaining := 0 }
    else
      -- the part of a day that is left counts as a day
      let remaining := max 0 (-((nowMs - qualified - config.clawbackWindowDays * msPerDay) /
        msPerDay))
      { releasable := remaining ≤ 0, daysRemaining := remaining }

def attributionExpired (createdAt : Int) (config : ReferralProgramConfig) (nowMs : Int) : Bool :=
  0 < config.attributionWindowDays && config.attributionWindowDays * msPerDay < nowMs - createdAt

inductive ReferralRejection where
  | invalidCode | invalidEmail | selfReferral | existingUser | alreadyReferred
  | referrerInactive | programDisabled | attributionExpired

structure AttributionCandidate where
  referrerRepId : Nat
  referrerActive : Bool
  applicantEmail : String
  referrerEmail : String
  applicantAlreadyHasAccount : Bool
  applicantAlreadyReferred : Bool
  linkCreatedAt : Int

def rejectAttribution (c : AttributionCandidate) (config : ReferralProgramConfig) (nowMs : Int) :
    Option ReferralRejection :=
  if !config.enabled then some .programDisabled
  else if c.applicantEmail ≠ "" ∧ c.applicantEmail = c.referrerEmail then some .selfReferral
  else if c.applicantAlreadyHasAccount then some .existingUser
  else if c.applicantAlreadyReferred then some .alreadyReferred
  else if !c.referrerActive then some .referrerInactive
  else if attributionExpired c.linkCreatedAt config nowMs then some .attributionExpired
  else none

/-- The reason why the referrer may not be changed, if it may not. -/
def canChangeReferrer (status : ReferralStatus) (actorIsAdmin : Bool) : Option String :=
  if status = .clicked ∨ status = .applicationStarted ∨ status = .applied then none
  else if isReferralCommitted status then
    some "The reward has already been committed to the current referrer."
  else if actorIsAdmin then none
  else some "Changing the referrer after hire requires an admin."

end HomefrontFiber.Referrals

/-!
## The referral store

A referral is created by an application, moves with the career of the person that was referred, and
is judged anew at every sale, every cancellation and at the approval of its reward. What other parts
of the application write is given as `Surroundings`: the configuration, the roster, the sales and
the training progress. A refused operation writes nothing.
-/

namespace HomefrontFiber.Referrals

open Earnings

structure Referral where
  id : Nat
  tenantId : Nat
  referrerUserId : Nat
  referrerRepId : Nat
  referredUserId : Option Nat
  referredRepId : Option Nat
  referredApplicationId : Option Nat
  referredEmail : String
  referralLinkId : Nat
  status : ReferralStatus
  hiredAt : Option Int
  activatedAt : Option Int
  qualifiedAt : Option Int
  qualifyingSalesCount : Int
  rewardAmountCents : Int
  approvedBy : Option Nat
  approvedAt : Option Int
  rejectedBy : Option Nat
  rejectedAt : Option Int
  rejectionReason : Option String
  paidAt : Option Int
  configSnapshot : Option ReferralProgramConfig
  createdAt : Int
  updatedAt : Int

inductive ReferralEventType where
  | applied | hired | activated | qualified | unqualified | clawbackException | approved
  | rejected | paid | referrerChanged

structure ReferralEvent where
  tenantId : Nat
  referralId : Nat
  eventType : ReferralEventType
  createdAt : Int

structure ReferralLink where
  id : Nat
  tenantId : Nat
  referrerUserId : Nat
  referrerRepId : Nat
  createdAt : Int

/-- A member of the team with the account that is linked to it. -/
structure ReferralMember where
  active : Bool
  email : Option String
  userId : Option Nat

structure Surroundings where
  config : Nat → ReferralProgramConfig
  linkByCode : String → Option ReferralLink
  member : Nat → Nat → Option ReferralMember
  hasAccount : String → Bool
  sales : Nat → List Commission.Sale
  requiredLessons : Nat → Int
  lessonsDone : Nat → Nat → Nat

structure World where
  surroundings : Surroundings
  referrals : List Referral
  events : List ReferralEvent
  ledger : List EarningsLedgerRow

def World.empty (surroundings : Surroundings) : World :=
  { surroundings := surroundings, referrals := [], events := [], ledger := [] }

inductive ReferralError where
  | notFound
  | badTransition (source target : ReferralStatus)
  | notQualified
  | clawbackWindowOpen (daysRemaining : Int)
  | reasonRequired
  | referrerLocked (reason : String)
  | referrerNotFound
  | selfReferral
  /-- One live referral for each referred user. -/
  | userTaken
  | notNative (message : String)

section Tables

variable (w : World)

def getReferral (tenantId id : Nat) : Option Referral :=
  w.referrals.find? fun r => r.tenantId = tenantId ∧ r.id = id

/-- `UPDATE referrals ... WHERE tenant_id = ? AND id = ?`. -/
def World.setReferral (tenantId id : Nat) (f : Referral → Referral) : World :=
  { w with referrals := w.referrals.map fun r =>
      if r.tenantId = tenantId ∧ r.id = id then f r else r }

def World.recordEvent (tenantId referralId : Nat) (eventType : ReferralEventType)
    (nowMs : Int) : World :=
  { w with events := w.events ++ [
      { tenantId := tenantId
        referralId := referralId
        eventType := eventType
        createdAt := nowMs }] }

/-- `ORDER BY created_at DESC, id DESC`. -/
def newer (a b : Referral) : Bool :=
  b.createdAt < a.createdAt || b.createdAt = a.createdAt && b.id ≤ a.id

def listReferrals (tenantId limit : Nat) : List Referral :=
  ((w.referrals.filter (·.tenantId = tenantId)).mergeSort newer).take (max 1 (min 2000 limit))

def referralForRep (tenantId repId : Nat) : Option Referral :=
  w.referrals.find? fun r => r.tenantId = tenantId ∧ r.referredRepId = some repId

def userTaken (tenantId id : Nat) (userId : Option Nat) : Bool :=
  userId.isSome && w.referrals.any fun r =>
    r.tenantId = tenantId && r.id ≠ id && r.referredUserId = userId && blocksRetry r.status

end Tables

section Qualification

variable (s : Surroundings)

def countQualifyingSales (tenantId repId : Nat) (since : Option Int) : Nat :=
  (s.sales tenantId).countP fun sale =>
    sale.repId = repId && sale.status = .qualified && sale.reversedAt.isNone &&
      match since with
      | none => true
      | some ms => decide (toISOString ms ≤ sale.soldAt.text)

/-- An organization without a threshold has not said what complete means. -/
def trainingComplete (tenantId : Nat) (userId : Option Nat) : Bool :=
  match userId with
  | none => false
  | some user => 0 < s.requiredLessons tenantId &&
      s.requiredLessons tenantId ≤ s.lessonsDone tenantId user

def repActive (tenantId : Nat) (repId : Option Nat) : Bool :=
  match repId with
  | none => false
  | some rep => ((s.member tenantId rep).map (·.active)).getD false

def salesOf (r : Referral) : Nat :=
  match r.referredRepId with
  | none => 0
  | some rep => countQualifyingSales s r.tenantId rep r.hiredAt

def factsOf (r : Referral) : ReferralFacts where
  hiredAt := r.hiredAt
  activatedAt := r.activatedAt
  approvedSalesCount := salesOf s r
  trainingComplete := trainingComplete s r.tenantId r.referredUserId
  repActive := repActive s r.tenantId r.referredRepId

/-- The configuration that was frozen when the referral qualified, or else the current one. -/
def configFor (r : Referral) : ReferralProgramConfig := r.configSnapshot.getD (s.config r.tenantId)

structure Qualification where
  referral : Referral
  result : QualificationResult
  config : ReferralProgramConfig
  releasable : Releasable

def qualificationOf (r : Referral) (nowMs : Int) : Qualification where
  referral := r
  result := evaluateQualification (factsOf s r) (configFor s r) nowMs
  config := configFor s r
  releasable := rewardReleasable r.qualifiedAt (configFor s r) nowMs

end Qualification

def qualificationFor (w : World) (tenantId id : Nat) (nowMs : Int) : Option Qualification :=
  (getReferral w tenantId id).map fun r => qualificationOf w.surroundings r nowMs

/-- The count that a checklist shows, which is capped at its target. -/
def salesCurrent (result : QualificationResult) : Int :=
  ((result.requirements.find? fun r => r.key = .sales).bind (·.current)).getD 0

structure ApplicationInput where
  tenantId : Nat
  linkCode : String
  applicantEmail : String
  applicationId : Option Nat := none
  applicantUserId : Option Nat := none
  nowMs : Int

def trim (text : Text) : Text :=
  ((text.dropWhile Char.isWhitespace).reverse.dropWhile Char.isWhitespace).reverse

def normEmail (email : String) : Option String :=
  let text := (trim email.toList).map Char.toLower
  if text.contains '@' then some (String.ofList text) else none

def ApplicationInput.appliedRow (input : ApplicationInput) (id : Nat) (link : ReferralLink)
    (email : String) (rewardCents : Int) : Referral where
  id := id
  tenantId := input.tenantId
  referrerUserId := link.referrerUserId
  referrerRepId := link.referrerRepId
  referredUserId := input.applicantUserId
  referredRepId := none
  referredApplicationId := input.applicationId
  referredEmail := email
  referralLinkId := link.id
  status := .applied
  hiredAt := none
  activatedAt := none
  qualifiedAt := none
  qualifyingSalesCount := 0
  rewardAmountCents := rewardCents
  approvedBy := none
  approvedAt := none
  rejectedBy := none
  rejectedAt := none
  rejectionReason := none
  paidAt := none
  configSnapshot := none
  createdAt := input.nowMs
  updatedAt := input.nowMs

def attributeApplication (w : World) (input : ApplicationInput) :
    Except ReferralError (World × Option ReferralRejection) :=
  let s := w.surroundings
  let config := s.config input.tenantId
  match s.linkByCode input.linkCode with
  | none => .ok (w, some .invalidCode)
  | some link =>
    if link.tenantId ≠ input.tenantId then .ok (w, some .invalidCode)
    else match normEmail input.applicantEmail with
      | none => .ok (w, some .invalidEmail)
      | some email =>
        let referrer := s.member input.tenantId link.referrerRepId
        let alreadyReferred := w.referrals.any fun r =>
          r.tenantId = input.tenantId && r.referredEmail = email && blocksRetry r.status
        let rejection := rejectAttribution
          { referrerRepId := link.referrerRepId
            referrerActive := (referrer.map (·.active)).getD false
            applicantEmail := email
            referrerEmail := ((referrer.bind (·.email)).bind normEmail).getD ""
            applicantAlreadyHasAccount := s.hasAccount email
            applicantAlreadyReferred := alreadyReferred
            linkCreatedAt := link.createdAt } config input.nowMs
        if rejection.isSome then .ok (w, rejection)
        else if input.applicantUserId.isSome ∧
            referrer.bind (·.userId) = input.applicantUserId then
          .ok (w, some .selfReferral)
        else if userTaken w input.tenantId 0 input.applicantUserId then .error .userTaken
        else
          let id := w.referrals.length + 1
          let row := input.appliedRow id link email config.rewardCents
          let inserted : World := { w with referrals := w.referrals ++ [row] }
          .ok (inserted.recordEvent input.tenantId id .applied input.nowMs, none)

/-- A referral that may take a status, or the error of the operation that would give it. -/
def transitioning (w : World) (tenantId id : Nat) (target : ReferralStatus) :
    Except ReferralError Referral :=
  match getReferral w tenantId id with
  | none => .error .notFound
  | some r =>
    if canReferralTransition r.status target then .ok r
    else .error (.badTransition r.status target)

structure HireInput where
  tenantId : Nat
  referralId : Nat
  referredRepId : Nat
  referredUserId : Option Nat := none
  nowMs : Int

def hiredRow (input : HireInput) (r : Referral) : Referral :=
  { r with
    status := .hired
    referredRepId := some input.referredRepId
    referredUserId := input.referredUserId.or r.referredUserId
    hiredAt := some input.nowMs
    updatedAt := input.nowMs }

def markHired (w : World) (input : HireInput) : Except ReferralError World :=
  match transitioning w input.tenantId input.referralId .hired with
  | .error e => .error e
  | .ok _ =>
    if userTaken w input.tenantId input.referralId input.referredUserId then .error .userTaken
    else
      .ok ((w.setReferral input.tenantId input.referralId (hiredRow input)).recordEvent
        input.tenantId input.referralId .hired input.nowMs)

def activatedRow (nowMs : Int) (r : Referral) : Referral :=
  { r with
    status := .activated
    activatedAt := some nowMs
    updatedAt := nowMs }

def markActivated (w : World) (tenantId id : Nat) (nowMs : Int) : Except ReferralError World :=
  match transitioning w tenantId id .activated with
  | .error e => .error e
  | .ok _ =>
    .ok ((w.setReferral tenantId id (activatedRow nowMs)).recordEvent tenantId id .activated nowMs)

def rechecked (snapshot : Qualification) (nowMs : Int) (r : Referral) : Referral :=
  let count := salesCurrent snapshot.result
  let counted := { r with qualifyingSalesCount := count, updatedAt := nowMs }
  let progressed :=
    if snapshot.referral.status = .activated ∧ 0 < count ∧ ¬snapshot.result.qualified then
      { counted with status := .inProgress }
    else counted
  if snapshot.result.qualified ∧ snapshot.referral.qualifiedAt = none ∧
      canReferralTransition snapshot.referral.status .qualified then
    -- qualified for a moment, and pending its reward from then on
    { progressed with
      status := .rewardPending
      qualifiedAt := some nowMs
      configSnapshot := some snapshot.config
      rewardAmountCents := snapshot.config.rewardCents }
  else progressed

def recheckQualification (w : World) (tenantId id : Nat) (nowMs : Int) : World :=
  match qualificationFor w tenantId id nowMs with
  | none => w
  | some snapshot =>
    let after := w.setReferral tenantId id (rechecked snapshot nowMs)
    if snapshot.result.qualified ∧ snapshot.referral.qualifiedAt = none ∧
        canReferralTransition snapshot.referral.status .qualified then
      after.recordEvent tenantId id .qualified nowMs
    else after

def afterCancellation (snapshot : Qualification) (nowMs : Int) (r : Referral) : Referral :=
  let counted := { r with
    qualifyingSalesCount := salesCurrent snapshot.result
    updatedAt := nowMs }
  if ¬snapshot.result.qualified ∧ snapshot.referral.qualifiedAt.isSome ∧
      snapshot.referral.status = .rewardPending then
    { counted with status := .inProgress, qualifiedAt := none }
  else counted

def recheckAfterCancellation (w : World) (tenantId id : Nat) (nowMs : Int) :
    Except ReferralError World :=
  match qualificationFor w tenantId id nowMs with
  | none => .error .notFound
  | some snapshot =>
    let after := w.setReferral tenantId id (afterCancellation snapshot nowMs)
    let dropped : Bool := !snapshot.result.qualified && snapshot.referral.qualifiedAt.isSome
    if dropped ∧ snapshot.referral.status = .rewardPending then
      .ok (after.recordEvent tenantId id .unqualified nowMs)
    else if dropped ∧ isReferralCommitted snapshot.referral.status then
      .ok (after.recordEvent tenantId id .clawbackException nowMs)
    else .ok after

structure ApprovalInput where
  tenantId : Nat
  referralId : Nat
  actorUserId : Nat
  /-- Off only for a documented early release. -/
  enforceClawbackWindow : Bool := true
  nowMs : Int

def rewardInput (r : Referral) (nowMs : Int) : RecordInput where
  tenantId := r.tenantId
  recipientRepId := r.referrerRepId
  sourceType := .referral
  sourceId := r.id
  earningType := .referralBonus
  grossCents := r.rewardAmountCents
  status := .approved
  effectiveDate := String.ofList ((toISOString nowMs).take 10)

def approvedRow (input : ApprovalInput) (r : Referral) : Referral :=
  { r with
    status := .approved
    approvedBy := some input.actorUserId
    approvedAt := some input.nowMs
    updatedAt := input.nowMs }

/-- The approval and the ledger row of its reward are one transaction. -/
def approveReward (w : World) (input : ApprovalInput) : Except ReferralError World :=
  match qualificationFor w input.tenantId input.referralId input.nowMs with
  | none => .error .notFound
  | some snapshot =>
    let r := snapshot.referral
    if !canReferralTransition r.status .approved then .error (.badTransition r.status .approved)
    else if !snapshot.result.qualified then .error .notQualified
    else if input.enforceClawbackWindow && !snapshot.releasable.releasable then
      .error (.clawbackWindowOpen snapshot.releasable.daysRemaining)
    else
      let approved := (w.setReferral input.tenantId input.referralId
        (approvedRow input)).recordEvent input.tenantId input.referralId .approved input.nowMs
      match recordNative (rewardInput r input.nowMs) approved.ledger with
      | .ok ledger => .ok { approved with ledger := ledger }
      | .error message => .error (.notNative message)

def rejectedRow (actorUserId : Nat) (reason : String) (nowMs : Int) (r : Referral) : Referral :=
  { r with
    status := .rejected
    rejectedBy := some actorUserId
    rejectedAt := some nowMs
    rejectionReason := some reason
    updatedAt := nowMs }

def rejectReferral (w : World) (tenantId id actorUserId : Nat) (reason : String) (nowMs : Int) :
    Except ReferralError World :=
  match getReferral w tenantId id with
  | none => .error .notFound
  | some r =>
    let text := trim reason.toList
    if text = [] then .error .reasonRequired
    else if !canReferralTransition r.status .rejected then
      .error (.badTransition r.status .rejected)
    else
      .ok ((w.setReferral tenantId id
        (rejectedRow actorUserId (String.ofList text) nowMs)).recordEvent tenantId id .rejected
          nowMs)

def paidRow (nowMs : Int) (r : Referral) : Referral :=
  { r with
    status := .paid
    paidAt := some nowMs
    updatedAt := nowMs }

def markPaid (w : World) (tenantId id : Nat) (nowMs : Int) : Except ReferralError World :=
  match transitioning w tenantId id .paid with
  | .error e => .error e
  | .ok _ => .ok ((w.setReferral tenantId id (paidRow nowMs)).recordEvent tenantId id .paid nowMs)

structure ReferrerInput where
  tenantId : Nat
  referralId : Nat
  newReferrerRepId : Nat
  actorIsAdmin : Bool
  nowMs : Int

def rereferredRow (input : ReferrerInput) (referrer : ReferralMember) (r : Referral) : Referral :=
  { r with
    referrerRepId := input.newReferrerRepId
    referrerUserId := referrer.userId.getD r.referrerUserId
    updatedAt := input.nowMs }

def changeReferrer (w : World) (input : ReferrerInput) : Except ReferralError World :=
  match getReferral w input.tenantId input.referralId with
  | none => .error .notFound
  | some r =>
    match canChangeReferrer r.status input.actorIsAdmin with
    | some reason => .error (.referrerLocked reason)
    | none =>
      match (w.surroundings.member input.tenantId input.newReferrerRepId).filter (·.active) with
      | none => .error .referrerNotFound
      | some referrer =>
        if r.referredRepId = some input.newReferrerRepId then .error .selfReferral
        else
          .ok ((w.setReferral input.tenantId input.referralId
            (rereferredRow input referrer)).recordEvent input.tenantId input.referralId
              .referrerChanged input.nowMs)

def recheckListed (tenantId : Nat) (nowMs : Int) (w : World) (r : Referral) :
    Except ReferralError World :=
  if r.referredRepId = none then .ok w else recheckAfterCancellation w tenantId r.id nowMs

/-- A cancelled sale rechecks the referrals of a list with its default limit. -/
def saleCancelled (w : World) (tenantId : Nat) (nowMs : Int) : Except ReferralError World :=
  (listReferrals w tenantId 200).foldlM (recheckListed tenantId nowMs) w

/-- An approved sale rechecks the referral of its representative. -/
def saleApproved (w : World) (tenantId : Nat) (repId : Option Nat) (nowMs : Int) : World :=
  match repId.bind (referralForRep w tenantId) with
  | none => w
  | some r => recheckQualification w tenantId r.id nowMs

inductive Action where
  | attributeApplication (input : ApplicationInput)
  | markHired (input : HireInput)
  | markActivated (tenantId id : Nat) (nowMs : Int)
  | recheckQualification (tenantId id : Nat) (nowMs : Int)
  | recheckAfterCancellation (tenantId id : Nat) (nowMs : Int)
  | approveReward (input : ApprovalInput)
  | rejectReferral (tenantId id actorUserId : Nat) (reason : String) (nowMs : Int)
  | changeReferrer (input : ReferrerInput)
  | markPaid (tenantId id : Nat) (nowMs : Int)
  | saleApproved (tenantId : Nat) (repId : Option Nat) (nowMs : Int)
  | saleCancelled (tenantId : Nat) (nowMs : Int)
  /-- Other parts of the application write their own tables. -/
  | surroundings (surroundings : Surroundings)

def perform (w : World) : Action → Except ReferralError World
  | .attributeApplication input => (attributeApplication w input).map (·.1)
  | .markHired input => markHired w input
  | .markActivated tenantId id nowMs => markActivated w tenantId id nowMs
  | .recheckQualification tenantId id nowMs => .ok (recheckQualification w tenantId id nowMs)
  | .recheckAfterCancellation tenantId id nowMs => recheckAfterCancellation w tenantId id nowMs
  | .approveReward input => approveReward w input
  | .rejectReferral tenantId id actorUserId reason nowMs =>
    rejectReferral w tenantId id actorUserId reason nowMs
  | .changeReferrer input => changeReferrer w input
  | .markPaid tenantId id nowMs => markPaid w tenantId id nowMs
  | .saleApproved tenantId repId nowMs => .ok (saleApproved w tenantId repId nowMs)
  | .saleCancelled tenantId nowMs => saleCancelled w tenantId nowMs
  | .surroundings surroundings => .ok { w with surroundings := surroundings }

def step (w : World) (a : Action) : World :=
  match perform w a with
  | .ok w' => w'
  | .error _ => w

end HomefrontFiber.Referrals
