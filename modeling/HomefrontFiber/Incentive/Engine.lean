import Mathlib.Data.Int.Order.Basic
import Mathlib.Tactic.Common

/-!
# The incentive rules

A campaign decides from an event and from what it has already paid whether a recipient earns an
award, and how much. Caps trim an award to the room that is left; only a trim to zero withholds it.
A cancelled sale claws its awards back within the campaign's window.
-/

namespace HomefrontFiber.Incentive

inductive DomainEventType
  | saleApproved | saleCancelled | trainingCompleted | trainingPassed | mileageSubmitted
  | mileageApproved | referralCreated | referralRepHired | referralRepActivated
  | referralThresholdReached | payoutApproved
deriving DecidableEq

inductive EventSubjectType
  | sale | trainingEnrollment | trainingQuizAttempt | mileageTrip | referral | payout | rep
deriving DecidableEq

structure Payload where
  reimbursementCents : Option Int
  rewardCents : Option Int
  saleAmountCents : Option Int
  provider : Option String
  product : Option String
  market : Option String
  territoryId : Option Int
  lifetimeSaleNumber : Option Int
deriving DecidableEq

structure DomainEvent where
  id : Nat
  tenantId : Nat
  type : DomainEventType
  subjectType : EventSubjectType
  subjectId : Nat
  subjectRepId : Option Nat
  payload : Payload
  occurredAtMs : Int
  dedupeKey : String
deriving DecidableEq

inductive IncentiveType
  | trainingCompletion | trainingAssessment | firstSale | salesGoal | productSpiff
  | territoryCampaign | attendance | referralReward | mileageReimbursement

def IncentiveType.triggerEvent : IncentiveType → DomainEventType
  | .trainingCompletion => .trainingCompleted
  | .trainingAssessment => .trainingPassed
  | .firstSale => .saleApproved
  | .salesGoal => .saleApproved
  | .productSpiff => .saleApproved
  | .territoryCampaign => .saleApproved
  | .attendance => .saleApproved
  | .referralReward => .referralThresholdReached
  | .mileageReimbursement => .mileageApproved

inductive AmountBasis
  | flat | percent | passthrough
deriving DecidableEq

/-- Each list narrows the campaign; an absent or empty one does not. -/
structure IncentiveFilters where
  providers : Option (List String)
  products : Option (List String)
  markets : Option (List String)
  territoryIds : Option (List Int)
  repIds : Option (List Nat)
  roles : Option (List String)

inductive ClawbackMode
  | full | prorated

structure ClawbackPolicy where
  enabled : Bool
  windowDays : Int
  mode : ClawbackMode

def defaultClawback : ClawbackPolicy where
  enabled := true
  windowDays := 90
  mode := .full

structure IncentiveCampaign where
  id : Nat
  tenantId : Nat
  name : String
  incentiveType : IncentiveType
  amountBasis : AmountBasis
  rewardCents : Int
  percentageBp : Int
  filters : IncentiveFilters
  startsAtMs : Int
  endsAtMs : Int
  maximumRewardsPerUser : Int
  perRepCapCents : Int
  campaignCapCents : Int
  approvalRequired : Bool
  clawbackPolicy : ClawbackPolicy
  active : Bool

structure RecipientCounters where
  repId : Nat
  role : Option String
  awardsFromCampaign : Nat
  centsFromCampaign : Int
  centsFromCampaignTotal : Int
  lifetimeApprovedSales : Option Nat

structure EventFacts where
  eventId : Nat
  type : DomainEventType
  occurredAtMs : Int
  subjectRepId : Option Nat
  amountCents : Option Int
  provider : Option String
  product : Option String
  market : Option String
  territoryId : Option Int
  lifetimeSaleNumber : Option Int

inductive IncentiveSkip
  | inactive | wrongEvent | windowClosed | noRecipient | filterProvider | filterProduct
  | filterMarket | filterTerritory | filterRep | filterRole | triggerUnmet | maxRewardsReached
  | repCapReached | campaignCapReached | zeroAmount

inductive SpiffStatus
  | earned | approved | paid | void
deriving DecidableEq

structure IncentiveAward where
  campaignId : Nat
  eventId : Nat
  recipientRepId : Nat
  amountCents : Int
  rewardKey : String
  reason : String
  status : SpiffStatus
  incentiveType : IncentiveType

def rewardKey (campaignId eventId recipientRepId : Nat) : String :=
  s!"inc:c{campaignId}:e{eventId}:r{recipientRepId}"

def admits {α : Type} [DecidableEq α] (list : Option (List α)) (value : Option α) : Bool :=
  match list with
  | none => true
  | some [] => true
  | some (x :: xs) => value.any fun v => v ∈ x :: xs

/-- `Math.round` of `n / d` for a natural `n`. -/
def roundDiv (n d : Nat) : Nat := (2 * n + d) / (2 * d)

def grossAmountCents (campaign : IncentiveCampaign) (facts : EventFacts) : Int :=
  match campaign.amountBasis with
  | .flat => max 0 campaign.rewardCents
  | .passthrough => max 0 (facts.amountCents.getD 0)
  | .percent =>
    let base := max 0 (facts.amountCents.getD 0)
    let bp := max 0 campaign.percentageBp
    if base = 0 ∨ bp = 0 then 0 else roundDiv (base * bp).toNat 10000

/-- The amount that is left of `amount` under a cap, none when no room is left. A cap of zero is no
cap. -/
def capped (cap taken amount : Int) : Option Int :=
  if 0 < max 0 cap then
    let room := max 0 cap - max 0 taken
    if room ≤ 0 then none else some (min amount room)
  else some amount

def applyCaps (gross : Int) (campaign : IncentiveCampaign) (counters : RecipientCounters) :
    Except IncentiveSkip Int :=
  match capped campaign.perRepCapCents counters.centsFromCampaign (max 0 gross) with
  | none => .error .repCapReached
  | some amount =>
    match capped campaign.campaignCapCents counters.centsFromCampaignTotal amount with
    | none => .error .campaignCapReached
    | some amount => if 0 < amount then .ok amount else .error .zeroAmount

def triggerMet (campaign : IncentiveCampaign) (facts : EventFacts) (counters : RecipientCounters) :
    Bool :=
  match campaign.incentiveType with
  | .firstSale =>
    match facts.lifetimeSaleNumber with
    | some ordinal => ordinal = 1
    | none => counters.lifetimeApprovedSales.getD 0 ≤ 1
  | .mileageReimbursement => 0 < facts.amountCents.getD 0
  | _ => true

def evaluateIncentive (campaign : IncentiveCampaign) (facts : EventFacts)
    (counters : RecipientCounters) (recipientRepId : Option Nat) :
    Except IncentiveSkip IncentiveAward := do
  if !campaign.active then throw .inactive
  if campaign.incentiveType.triggerEvent ≠ facts.type then throw .wrongEvent
  if facts.occurredAtMs < campaign.startsAtMs ∨ campaign.endsAtMs ≤ facts.occurredAtMs then
    throw .windowClosed
  match recipientRepId with
  | none => throw .noRecipient
  | some recipient =>
    if !admits campaign.filters.providers facts.provider then throw .filterProvider
    if !admits campaign.filters.products facts.product then throw .filterProduct
    if !admits campaign.filters.markets facts.market then throw .filterMarket
    if !admits campaign.filters.territoryIds facts.territoryId then throw .filterTerritory
    if !admits campaign.filters.repIds recipient then throw .filterRep
    if !admits campaign.filters.roles counters.role then throw .filterRole
    if !triggerMet campaign facts counters then throw .triggerUnmet
    if 0 < max 0 campaign.maximumRewardsPerUser ∧
        max 0 campaign.maximumRewardsPerUser ≤ counters.awardsFromCampaign then
      throw .maxRewardsReached
    let amount ← applyCaps (grossAmountCents campaign facts) campaign counters
    return {
      campaignId := campaign.id
      eventId := facts.eventId
      recipientRepId := recipient
      amountCents := amount
      rewardKey := rewardKey campaign.id facts.eventId recipient
      reason := campaign.name
      status := if campaign.approvalRequired then .earned else .approved
      incentiveType := campaign.incentiveType }

def dayMs : Int := 86400000

/-- The cents that a cancellation takes back, if any. The subscriber passes no lost fraction, which
stands for the whole award. -/
def evaluateClawback (policy : ClawbackPolicy) (awardedAtMs cancelledAtMs awardAmountCents : Int) :
    Option Int :=
  let windowDays := max 0 policy.windowDays
  let award := max 0 awardAmountCents
  if !policy.enabled then none
  else if 0 < windowDays ∧ windowDays * dayMs < cancelledAtMs - awardedAtMs then none
  else if award = 0 then none
  else
    match policy.mode with
    | .prorated =>
      let amount : Int := roundDiv (award * 10000).toNat 10000
      if 0 < amount then some amount else none
    | .full => some award

theorem capped_le {cap taken amount left : Int} (h : capped cap taken amount = some left) :
    left ≤ amount ∧ (0 < cap → left ≤ cap - max 0 taken) := by
  unfold capped at h
  split at h
  · simp only at h
    split at h
    · simp at h
    · obtain rfl : min amount (max 0 cap - max 0 taken) = left := by simpa using h
      omega
  · obtain rfl : amount = left := by simpa using h
    omega

theorem applyCaps_ok {gross amount : Int} {campaign : IncentiveCampaign}
    {counters : RecipientCounters} (h : applyCaps gross campaign counters = .ok amount) :
    0 < amount ∧
      (0 < campaign.perRepCapCents →
        amount ≤ campaign.perRepCapCents - max 0 counters.centsFromCampaign) ∧
      (0 < campaign.campaignCapCents →
        amount ≤ campaign.campaignCapCents - max 0 counters.centsFromCampaignTotal) := by
  unfold applyCaps at h
  split at h
  · simp at h
  · rename_i afterRep hrep
    split at h
    · simp at h
    · rename_i afterCampaign hcampaign
      split at h
      · rename_i hpos
        obtain rfl : afterCampaign = amount := by simpa using h
        obtain ⟨-, hrepRoom⟩ := capped_le hrep
        obtain ⟨hle, hcampaignRoom⟩ := capped_le hcampaign
        exact ⟨hpos, fun hcap => Int.le_trans hle (hrepRoom hcap), hcampaignRoom⟩
      · simp at h

theorem passed_of_ok {ε α : Type} {c : Prop} [Decidable c] {e : ε} {rest : Except ε α} {a : α}
    (h : (do
      if c then
        throw e
      rest) = .ok a) : ¬c ∧ rest = .ok a := by
  by_cases hc : c
  · simp [hc, throw, throwThe, MonadExceptOf.throw, bind, Except.bind] at h
  · exact ⟨hc, by simpa [hc] using h⟩

theorem evaluateIncentive_ok {campaign : IncentiveCampaign} {facts : EventFacts}
    {counters : RecipientCounters} {recipient : Option Nat} {award : IncentiveAward}
    (h : evaluateIncentive campaign facts counters recipient = .ok award) :
    recipient = some award.recipientRepId ∧ award.campaignId = campaign.id ∧
      award.rewardKey = rewardKey campaign.id facts.eventId award.recipientRepId ∧
      (award.status = .earned ∨ award.status = .approved) ∧
      applyCaps (grossAmountCents campaign facts) campaign counters = .ok award.amountCents := by
  unfold evaluateIncentive at h
  obtain ⟨-, h⟩ := passed_of_ok h
  obtain ⟨-, h⟩ := passed_of_ok h
  obtain ⟨-, h⟩ := passed_of_ok h
  cases recipient with
  | none => simp [throw, throwThe, MonadExceptOf.throw] at h
  | some recipient =>
    obtain ⟨-, h⟩ := passed_of_ok h
    obtain ⟨-, h⟩ := passed_of_ok h
    obtain ⟨-, h⟩ := passed_of_ok h
    obtain ⟨-, h⟩ := passed_of_ok h
    obtain ⟨-, h⟩ := passed_of_ok h
    obtain ⟨-, h⟩ := passed_of_ok h
    obtain ⟨-, h⟩ := passed_of_ok h
    obtain ⟨-, h⟩ := passed_of_ok h
    cases hcaps : applyCaps (grossAmountCents campaign facts) campaign counters with
    | error skip => simp [hcaps, bind, Except.bind] at h
    | ok amount =>
      simp only [hcaps, bind, Except.bind, pure, Except.pure, Except.ok.injEq] at h
      subst h
      refine ⟨rfl, rfl, rfl, ?_, rfl⟩
      cases campaign.approvalRequired
      · exact .inr rfl
      · exact .inl rfl

end HomefrontFiber.Incentive
