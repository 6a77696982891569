import Mathlib.Data.List.Infix
import Mathlib.Data.Rat.Defs
import Mathlib.Order.Basic
import HomefrontFiber.VendorOrders.Schema
import HomefrontFiber.Foundation.Ring

/-!
# Which orders need a human

The pure decision of `shared/orderRecovery.ts`: whether an order becomes a recovery case, for which
reason and how urgent, and the raise that an open case gets as it ages. The numbers of a policy are
rationals, as an organization may state fractions of a day.
-/

namespace HomefrontFiber.Recovery

open VendorOrders

inductive RecoveryReason where
  | staleSubmitted | staleAccepted | installOverdue | failedInstall | missedAppointment
  | pendingCustomerAction | pendingDocuments | onHold | recoverableCancellation
  | vendorRecoverableFlag
deriving DecidableEq

def RecoveryReason.label : RecoveryReason → String
  | .staleSubmitted => "Submitted with no progress"
  | .staleAccepted => "Accepted with no install date"
  | .installOverdue => "Install date passed with no install"
  | .failedInstall => "Failed install"
  | .missedAppointment => "Missed appointment"
  | .pendingCustomerAction => "Customer action needed"
  | .pendingDocuments => "Missing documents"
  | .onHold => "On hold"
  | .recoverableCancellation => "Canceled and possibly recoverable"
  | .vendorRecoverableFlag => "Provider flagged it as fixable"

inductive RecoveryPriority where
  | urgent | high | medium | low
deriving DecidableEq

def RecoveryPriority.text : RecoveryPriority → String
  | .urgent => "urgent"
  | .high => "high"
  | .medium => "medium"
  | .low => "low"

def RecoveryPriority.rank : RecoveryPriority → Nat
  | .urgent => 0
  | .high => 1
  | .medium => 2
  | .low => 3

structure RecoveryPolicy where
  staleSubmittedDays : Rat
  acceptedNoScheduleDays : Rat
  installOverdueGraceDays : Rat
  cancellationRecoveryWindowDays : Rat
  urgentRecentIssueHours : Rat
  recoverableCancellationReasons : List String
  nonRecoverableReasons : List String
  vendorRecoverableReasonHints : List String
  escalateAfterDaysOpen : Rat

def defaultRecoveryPolicy : RecoveryPolicy where
  staleSubmittedDays := 7
  acceptedNoScheduleDays := 5
  installOverdueGraceDays := 1
  cancellationRecoveryWindowDays := 30
  urgentRecentIssueHours := 72
  recoverableCancellationReasons := []
  nonRecoverableReasons := ["fraud", "duplicate", "test order", "do not contact", "deceased"]
  vendorRecoverableReasonHints := ["missing", "pending customer", "reschedule", "unable to reach",
    "no answer", "documentation", "signature", "access", "gate code"]
  escalateAfterDaysOpen := 14

/-- The facts of an order that the decision needs; a date that cannot be read is `none`. -/
structure RecoveryCandidate where
  normalizedStatus : NormalizedOrderStatus
  submittedDate : Option Int
  installScheduledAt : Option Int
  cancellationDate : Option Int
  failureReason : Option String
  requiredCustomerAction : Option String
  lastVendorUpdatedAt : Option Int
  identityResolved : Bool
  commissionPaid : Bool
  knownFraudulent : Bool
  doNotContact : Bool
  optedOutEverywhere : Bool
  hasActiveCase : Bool

inductive RecoveryIneligibleReason where
  | installed | commissionPaid | knownFraud | doNotContact | optedOut | identityUnresolved
  | nonRecoverableReason | cancellationWindowClosed | cancellationNotRecoverable | alreadyHasCase
  | noTrigger
deriving DecidableEq

inductive RecoveryDecision where
  | open_ (reason : RecoveryReason) (priority : RecoveryPriority) (daysStalled : Int)
  | refuse (ineligible : RecoveryIneligibleReason)

def wholeDaysBetween (earlier : Option Int) (later : Int) : Int :=
  match earlier with
  | none => 0
  | some t => max 0 ((later - t) / 86400000)

def hoursBetween (earlier : Option Int) (later : Int) : Option Rat :=
  earlier.map fun t => max 0 (((later - t : Int) : Rat) / 3600000)

def isInstalledOrderStatus (status : NormalizedOrderStatus) : Bool := status = .installed

/-- A substring match without regard to case against a list that an admin wrote. -/
def matchesAny (haystack : List Char) (needles : List String) : Bool :=
  haystack.any (fun c => !c.isWhitespace) && needles.any fun n =>
    let needle := lowercase ((n.toList.dropWhile Char.isWhitespace).reverse.dropWhile
      Char.isWhitespace).reverse
    decide (needle ≠ []) && decide (needle <:+: lowercase haystack)

/-- What to open for an order whose status asks for a human now. -/
def attention (order : RecoveryCandidate) (policy : RecoveryPolicy) (now : Int) :
    Option RecoveryDecision :=
  let recentlyBroken := (hoursBetween (order.lastVendorUpdatedAt.or order.installScheduledAt)
    now).any (· ≤ policy.urgentRecentIssueHours)
  let sinceUpdate := wholeDaysBetween (order.lastVendorUpdatedAt.or order.submittedDate) now
  match order.normalizedStatus with
  | .failedInstall => some (.open_ .failedInstall (if recentlyBroken then .urgent else .high)
      (wholeDaysBetween (order.lastVendorUpdatedAt.or order.installScheduledAt) now))
  | .missedAppointment => some (.open_ .missedAppointment
      (if recentlyBroken then .urgent else .high)
      (wholeDaysBetween (order.installScheduledAt.or order.lastVendorUpdatedAt) now))
  | .pendingCustomerAction => some (.open_ .pendingCustomerAction .high sinceUpdate)
  | .pendingDocuments => some (.open_ .pendingDocuments .high sinceUpdate)
  | .onHold => some (.open_ .onHold .medium sinceUpdate)
  | .submitted | .accepted | .installScheduled | .installed | .canceled | .rejected | .unknown =>
    none

def overdue (scheduled : Int) (policy : RecoveryPolicy) (now : Int) : RecoveryDecision :=
  let daysPast := wholeDaysBetween (some scheduled) now
  if policy.installOverdueGraceDays < daysPast then
    .open_ .installOverdue
      (if (hoursBetween (some scheduled) now).any (· ≤ policy.urgentRecentIssueHours) then .urgent
        else .high) daysPast
  else .refuse .noTrigger

/-- An order that has not moved for the days of its stall window. -/
def stalled (order : RecoveryCandidate) (policy : RecoveryPolicy) (now : Int) : RecoveryDecision :=
  let lastMovement := order.lastVendorUpdatedAt.or order.submittedDate
  let stalledDays := wholeDaysBetween lastMovement now
  if order.normalizedStatus = .accepted ∧ order.installScheduledAt = none then
    if policy.acceptedNoScheduleDays ≤ stalledDays ∧ lastMovement.isSome then
      .open_ .staleAccepted .medium stalledDays
    else .refuse .noTrigger
  else if order.normalizedStatus = .submitted then
    if policy.staleSubmittedDays ≤ stalledDays ∧ lastMovement.isSome then
      .open_ .staleSubmitted .medium stalledDays
    else .refuse .noTrigger
  else .refuse .noTrigger

/-- Should this order become a recovery case, and how urgent is it? -/
def evaluateRecovery (order : RecoveryCandidate) (policy : RecoveryPolicy) (now : Int) :
    RecoveryDecision :=
  let reasonText := lowercase ((order.failureReason.getD "").toList ++ [' '] ++
    (order.requiredCustomerAction.getD "").toList)
  if isInstalledOrderStatus order.normalizedStatus then .refuse .installed
  else if order.commissionPaid then .refuse .commissionPaid
  else if order.knownFraudulent then .refuse .knownFraud
  else if order.doNotContact then .refuse .doNotContact
  else if order.optedOutEverywhere then .refuse .optedOut
  else if ¬ order.identityResolved then .refuse .identityUnresolved
  else if matchesAny reasonText policy.nonRecoverableReasons then .refuse .nonRecoverableReason
  else if order.hasActiveCase then .refuse .alreadyHasCase
  else if order.normalizedStatus = .canceled then
    let since := wholeDaysBetween (order.cancellationDate.or order.lastVendorUpdatedAt) now
    if policy.cancellationRecoveryWindowDays < since then .refuse .cancellationWindowClosed
    else if ¬ matchesAny reasonText policy.recoverableCancellationReasons then
      .refuse .cancellationNotRecoverable
    else .open_ .recoverableCancellation .low since
  else if order.normalizedStatus = .rejected then .refuse .noTrigger
  else match attention order policy now with
    | some decision => decision
    | none =>
      match order.normalizedStatus, order.installScheduledAt with
      | .installScheduled, some scheduled => overdue scheduled policy now
      | _, _ =>
        if matchesAny reasonText policy.vendorRecoverableReasonHints then
          .open_ .vendorRecoverableFlag .medium
            (wholeDaysBetween (order.lastVendorUpdatedAt.or order.submittedDate) now)
        else stalled order policy now

/-- The more urgent of two priorities, the first of two that are equally urgent. -/
def raise (a b : RecoveryPriority) : RecoveryPriority := if b.rank < a.rank then b else a

def escalatePriority (current : RecoveryPriority) (daysOpen : Int)
    (scheduledInstallWithinHours : Option Rat) (policy : RecoveryPolicy) : RecoveryPriority :=
  let next := if scheduledInstallWithinHours.any (· ≤ 48) then raise current .high else current
  if policy.escalateAfterDaysOpen ≤ daysOpen then raise next .high else next

theorem raise_idem (a b : RecoveryPriority) : raise (raise a b) b = raise a b := by
  cases a <;> cases b <;> rfl

theorem raise_self (a : RecoveryPriority) : raise a a = a := by
  cases a <;> rfl

theorem raise_raise_left (a b c : RecoveryPriority) :
    raise (raise (raise a b) c) b = raise (raise a b) c := by
  cases a <;> cases b <;> cases c <;> rfl

theorem raise_high_eq_self_iff (a : RecoveryPriority) : raise a .high = a ↔ a.rank ≤ 1 := by
  cases a <;> simp [raise, RecoveryPriority.rank]

/-- A re-score keeps a priority that is high already, and any other one while neither the install
is near nor the case is old. -/
theorem escalatePriority_eq_self_iff (current : RecoveryPriority) (daysOpen : Int)
    (within : Option Rat) (policy : RecoveryPolicy) :
    escalatePriority current daysOpen within policy = current ↔
      current.rank ≤ 1 ∨ within.all (48 < ·) ∧ (daysOpen : Rat) < policy.escalateAfterDaysOpen := by
  have hnear : within.any (· ≤ 48) = true ↔ ¬within.all (48 < ·) = true := by
    cases within with
    | none => simp
    | some hours => simp
  unfold escalatePriority
  by_cases hwithin : within.all (48 < ·) = true
  · have hfar : ¬within.any (· ≤ 48) = true := fun h => hnear.mp h hwithin
    rw [if_neg hfar]
    by_cases hold : policy.escalateAfterDaysOpen ≤ (daysOpen : Rat)
    · rw [if_pos hold, raise_high_eq_self_iff]
      simp [not_lt.mpr hold]
    · rw [if_neg hold]
      simp [hwithin, not_le.mp hold]
  · rw [if_pos (hnear.mpr hwithin)]
    split
    · rw [raise_idem, raise_high_eq_self_iff]
      simp [hwithin]
    · rw [raise_high_eq_self_iff]
      simp [hwithin]

theorem escalatePriority_idem (current : RecoveryPriority) (daysOpen : Int)
    (within : Option Rat) (policy : RecoveryPolicy) :
    escalatePriority (escalatePriority current daysOpen within policy) daysOpen within policy =
      escalatePriority current daysOpen within policy := by
  unfold escalatePriority
  split
  · split
    · rw [raise_idem, raise_idem]
    · exact raise_idem current .high
  · split
    · exact raise_idem current .high
    · rfl

theorem raise_escalatePriority (current proposed : RecoveryPriority) (daysOpen : Int)
    (within : Option Rat) (policy : RecoveryPolicy) :
    raise (escalatePriority (raise current proposed) daysOpen within policy) proposed =
      escalatePriority (raise current proposed) daysOpen within policy := by
  unfold escalatePriority
  split
  · split
    · rw [raise_idem, raise_raise_left]
    · exact raise_raise_left current proposed .high
  · split
    · exact raise_raise_left current proposed .high
    · exact raise_idem current proposed

end HomefrontFiber.Recovery

/-!
## The recovery engine

The pass that turns what the provider says about the orders of an organization into recovery
cases: it closes the cases of installed orders, then visits the other orders page by page, opens
a case where a human is needed and refreshes the case that is open already. `wall` is what the
server's clock reads while the order with an id is handled; it stamps the rows, while `now` is the
one instant by which the whole pass judges.
-/

namespace HomefrontFiber.Recovery

open VendorOrders

inductive RecoveryCaseStatus where
  | opened | inProgress | snoozed | resolved | notRecoverable

/-- `status IN ('open','in_progress','snoozed')` -/
def RecoveryCaseStatus.active : RecoveryCaseStatus → Bool
  | .opened | .inProgress | .snoozed => true
  | .resolved | .notRecoverable => false

inductive ResolutionCode where
  | recoveredInstalled | recoveredRescheduled | customerCompletedAction | documentsReceived
  | resubmittedAsNewOrder | notRecoverableCustomerDeclined | notRecoverableNoServiceability
  | notRecoverableUnreachable | notRecoverableDuplicate | closedNoActionNeeded

structure RecoveryCase where
  id : Nat
  tenantId : Nat
  vendorOrderId : Nat
  saleId : Option Nat
  leadId : Option Nat
  assignedToUserId : Option Nat
  assignedToRepId : Option Nat
  recoveryReason : RecoveryReason
  priority : RecoveryPriority
  status : RecoveryCaseStatus
  daysStalled : Int
  nextActionAt : Option Int
  optOutBlocked : Bool
  openedAt : Int
  resolvedAt : Option Int := none
  resolutionCode : Option ResolutionCode := none
  resolutionNote : Option String := none
  updatedAt : Int

inductive CaseEventType where
  | opened | assigned | resolved | closed | reasonChanged | priorityChanged
  | note | callbackScheduled | outreachSent | outreachBlocked | optOut

structure RecoveryCaseEvent where
  tenantId : Nat
  caseId : Nat
  eventType : CaseEventType
  actorUserId : Option Nat
  actorName : Option String
  detail : Option String

structure RecoveryDb where
  orders : List VendorOrder
  cases : List RecoveryCase
  caseEvents : List RecoveryCaseEvent
  /-- What the autoincrement column of the cases gives next. -/
  nextCaseId : Nat

structure TeamMember where
  name : String
  active : Bool
  tenantId : Nat

/-- What the pass reads from other tables and does not write. -/
structure Surroundings where
  policy : Nat → RecoveryPolicy
  fraudFlagged : Nat → Nat → Bool
  doNotKnock : Nat → Bool
  commissionPaidForOrder : Nat → Nat → Bool
  optedOutEverywhere : Nat → VendorOrder → Bool
  teamMember : Nat → Option TeamMember
  userOfMember : Nat → Option Nat

def RecoveryCase.activeFor (tenantId orderId : Nat) (c : RecoveryCase) : Bool :=
  decide (c.tenantId = tenantId) && decide (c.vendorOrderId = orderId) && c.status.active

/-- The latest active case of an order, in a table in the order of its ids. -/
def RecoveryDb.findActiveCase (db : RecoveryDb) (tenantId orderId : Nat) : Option RecoveryCase :=
  (db.cases.filter (·.activeFor tenantId orderId)).getLast?

structure NewCase where
  tenantId : Nat
  vendorOrderId : Nat
  saleId : Option Nat
  leadId : Option Nat
  assignedToRepId : Option Nat
  assignedToUserId : Option Nat
  reason : RecoveryReason
  priority : RecoveryPriority
  daysStalled : Int
  nextActionAt : Option Int
  optOutBlocked : Bool

def NewCase.row (input : NewCase) (id : Nat) (clock : Int) : RecoveryCase where
  id
  tenantId := input.tenantId
  vendorOrderId := input.vendorOrderId
  saleId := input.saleId
  leadId := input.leadId
  assignedToUserId := input.assignedToUserId
  assignedToRepId := input.assignedToRepId
  recoveryReason := input.reason
  priority := input.priority
  status := .opened
  daysStalled := input.daysStalled
  nextActionAt := input.nextActionAt
  optOutBlocked := input.optOutBlocked
  openedAt := clock
  updatedAt := clock

/-- Insert a case; the partial unique index refuses a second active case of an order. -/
def RecoveryDb.openCase (db : RecoveryDb) (input : NewCase) (clock : Int) :
    RecoveryDb × Option Nat :=
  if db.cases.any (·.activeFor input.tenantId input.vendorOrderId) then (db, none)
  else ({ db with
    cases := db.cases ++ [input.row db.nextCaseId clock]
    nextCaseId := db.nextCaseId + 1 }, some db.nextCaseId)

structure CasePatch where
  status : Option RecoveryCaseStatus := none
  priority : Option RecoveryPriority := none
  recoveryReason : Option RecoveryReason := none
  daysStalled : Option Int := none
  resolvedAt : Option Int := none
  resolutionCode : Option ResolutionCode := none
  resolutionNote : Option String := none

def RecoveryCase.patched (c : RecoveryCase) (patch : CasePatch) (clock : Int) : RecoveryCase :=
  { c with
    status := patch.status.getD c.status
    priority := patch.priority.getD c.priority
    recoveryReason := patch.recoveryReason.getD c.recoveryReason
    daysStalled := patch.daysStalled.getD c.daysStalled
    resolvedAt := patch.resolvedAt.or c.resolvedAt
    resolutionCode := patch.resolutionCode.or c.resolutionCode
    resolutionNote := patch.resolutionNote.or c.resolutionNote
    updatedAt := clock }

def RecoveryDb.updateCase (db : RecoveryDb) (id : Nat) (patch : CasePatch) (clock : Int) :
    RecoveryDb :=
  { db with cases := db.cases.map fun c => if c.id = id then c.patched patch clock else c }

def RecoveryDb.appendCaseEvent (db : RecoveryDb) (event : RecoveryCaseEvent) : RecoveryDb :=
  { db with caseEvents := db.caseEvents ++ [event] }

def engineEvent (tenantId caseId : Nat) (eventType : CaseEventType) (detail : String) :
    RecoveryCaseEvent where
  tenantId
  caseId
  eventType
  actorUserId := none
  actorName := some "Recovery engine"
  detail := some detail

def SCAN_PAGE : Nat := 250

/-- The orders that a pass visits, in the order of their ids. -/
def RecoveryDb.scanned (db : RecoveryDb) (tenantId : Nat) : List VendorOrder :=
  db.orders.filter fun o => decide (o.tenantId = tenantId) &&
    decide (o.normalizedStatus ≠ .installed) && decide (o.normalizedStatus ≠ .rejected)

/-- `match_confidence_score >= 0.9`, with the score in hundredths. -/
def identityResolved (order : VendorOrder) : Bool :=
  decide (order.matchStatus = .matched) && decide (90 ≤ order.matchConfidenceScore.getD 0)

def toCandidate (f : Surroundings) (tenantId : Nat) (order : VendorOrder) (hasActiveCase : Bool) :
    RecoveryCandidate where
  normalizedStatus := order.normalizedStatus
  submittedDate := order.details.submittedDate
  installScheduledAt := order.details.installScheduledAt
  cancellationDate := order.details.cancellationDate
  failureReason := order.failureReason
  requiredCustomerAction := order.requiredCustomerAction
  lastVendorUpdatedAt := order.lastVendorUpdatedAt.or (some order.lastSyncedAt)
  identityResolved := identityResolved order
  commissionPaid := f.commissionPaidForOrder tenantId order.id
  knownFraudulent := order.saleId.any (f.fraudFlagged tenantId)
  doNotContact := order.leadId.any f.doNotKnock
  optedOutEverywhere := f.optedOutEverywhere tenantId order
  hasActiveCase

structure Assignment where
  repId : Option Nat := none
  userId : Option Nat := none
  repName : Option String := none

/-- Back to the rep who sold it, while the rep is still on the team. -/
def resolveAssignment (f : Surroundings) (tenantId : Nat) (order : VendorOrder) : Assignment :=
  match order.repId with
  | none => {}
  | some repId =>
    match f.teamMember repId with
    | none => {}
    | some rep =>
      if rep.tenantId ≠ tenantId ∨ !rep.active then {}
      else { repId := some repId, userId := f.userOfMember repId, repName := some rep.name }

def nextActionFor (priority : RecoveryPriority) (now : Int) : Int :=
  let hours : Int := match priority with
    | .urgent => 2
    | .high => 24
    | .medium => 72
    | .low => 168
  now + hours * 3600000

/-- What the provider's date says about the completed install. -/
def installedNote (order : VendorOrder) : String :=
  match order.details.installDate with
  | some day => "The provider reported the install completed on " ++
      String.ofList ((toISOString day).take 10) ++ "."
  | none => "The provider reported the order as installed."

def installedPatch (order : VendorOrder) (now : Int) : CasePatch where
  status := some .resolved
  resolvedAt := some now
  resolutionCode := some .recoveredInstalled
  resolutionNote := some (installedNote order)

def lostPatch (order : VendorOrder) (now : Int) : CasePatch where
  status := some .notRecoverable
  resolvedAt := some now
  resolutionCode := some .notRecoverableCustomerDeclined
  resolutionNote := some ("The provider marked this order " ++ order.normalizedStatus.text ++ ".")

inductive OrderOutcome where
  | opened | escalated | unchanged
deriving DecidableEq

def daysOpen (c : RecoveryCase) (now : Int) : Int := max 0 ((now - c.openedAt) / 86400000)

def scheduledHours (order : VendorOrder) (now : Int) : Option Rat :=
  match order.details.installScheduledAt with
  | none => none
  | some scheduled =>
    let hours := ((scheduled - now : Int) : Rat) / 3600000
    if 0 ≤ hours then some hours else none

def closesCase (order : VendorOrder) : RecoveryDecision → Bool
  | .open_ _ _ _ => false
  | .refuse ineligible =>
    (decide (order.normalizedStatus = .canceled) || decide (order.normalizedStatus = .rejected)) &&
    (decide (ineligible = .cancellationNotRecoverable) ||
      decide (ineligible = .cancellationWindowClosed) || decide (ineligible = .noTrigger))

def rescored (existing : RecoveryCase) (order : VendorOrder) (decision : RecoveryDecision)
    (policy : RecoveryPolicy) (now : Int) : RecoveryPriority :=
  let proposed := match decision with
    | .open_ _ priority _ => priority
    | .refuse _ => existing.priority
  escalatePriority (raise existing.priority proposed) (daysOpen existing now)
    (scheduledHours order now) policy

def refreshedDays (existing : RecoveryCase) : RecoveryDecision → Int
  | .open_ _ _ daysStalled => daysStalled
  | .refuse _ => existing.daysStalled

/-- The reason that the engine would open today, when it is another one. -/
def refreshedReason (existing : RecoveryCase) : RecoveryDecision → Option RecoveryReason
  | .open_ reason _ _ => if reason = existing.recoveryReason then none else some reason
  | .refuse _ => none

def refreshExistingCase (db : RecoveryDb) (tenantId : Nat) (existing : RecoveryCase)
    (order : VendorOrder) (decision : RecoveryDecision) (policy : RecoveryPolicy) (now : Int)
    (clock : Int) : RecoveryDb × OrderOutcome :=
  if isInstalledOrderStatus order.normalizedStatus then
    ((db.updateCase existing.id (installedPatch order now) clock).appendCaseEvent
      (engineEvent tenantId existing.id .resolved "The order installed."), .escalated)
  else if closesCase order decision then
    ((db.updateCase existing.id (lostPatch order now) clock).appendCaseEvent
      (engineEvent tenantId existing.id .closed ("Closed because the provider marked the order " ++
        order.normalizedStatus.text ++ ".")), .escalated)
  else
    let escalated := rescored existing order decision policy now
    let daysStalled := refreshedDays existing decision
    let reason := refreshedReason existing decision
    if escalated = existing.priority ∧ daysStalled = existing.daysStalled ∧ reason = none then
      (db, .unchanged)
    else
      let updated := db.updateCase existing.id {
        priority := some escalated
        daysStalled := some daysStalled
        recoveryReason := reason } clock
      let explained := match reason with
        | none => updated
        | some reason => updated.appendCaseEvent (engineEvent tenantId existing.id .reasonChanged
            ("Now " ++ reason.label ++ " (was " ++ existing.recoveryReason.label ++ ")."))
      let raised := if escalated = existing.priority then explained
        else explained.appendCaseEvent (engineEvent tenantId existing.id .priorityChanged
          ("Priority raised from " ++ existing.priority.text ++ " to " ++ escalated.text ++ "."))
      (raised, .escalated)

def decisionOn (f : Surroundings) (tenantId : Nat) (order : VendorOrder) (policy : RecoveryPolicy)
    (now : Int) : RecoveryDecision :=
  evaluateRecovery (toCandidate f tenantId order false) policy now

def newCase (f : Surroundings) (tenantId : Nat) (order : VendorOrder) (reason : RecoveryReason)
    (priority : RecoveryPriority) (daysStalled : Int) (now : Int) : NewCase where
  tenantId
  vendorOrderId := order.id
  saleId := order.saleId
  leadId := order.leadId
  assignedToRepId := (resolveAssignment f tenantId order).repId
  assignedToUserId := (resolveAssignment f tenantId order).userId
  reason
  priority
  daysStalled
  nextActionAt := some (nextActionFor priority now)
  optOutBlocked := f.optedOutEverywhere tenantId order

def stalledText (reason : RecoveryReason) (daysStalled : Int) : String :=
  reason.label ++ " - " ++ toString daysStalled ++ " day" ++ (if daysStalled = 1 then "" else "s") ++
    " stalled"

def assignedText (repName : Option String) : String :=
  "Assigned to the rep who sold the order" ++ match repName with
    | some name => if name = "" then "" else " (" ++ name ++ ")"
    | none => ""

def evaluateOneOrder (f : Surroundings) (tenantId : Nat) (policy : RecoveryPolicy) (now : Int)
    (wall : Nat → Int) (db : RecoveryDb) (order : VendorOrder) : RecoveryDb × OrderOutcome :=
  let decision := decisionOn f tenantId order policy now
  match db.findActiveCase tenantId order.id with
  | some existing =>
    refreshExistingCase db tenantId existing order decision policy now (wall order.id)
  | none =>
    match decision with
    | .refuse _ => (db, .unchanged)
    | .open_ reason priority daysStalled =>
      match db.openCase (newCase f tenantId order reason priority daysStalled now)
          (wall order.id) with
      | (db, none) => (db, .unchanged)
      | (db, some caseId) =>
        let noted := db.appendCaseEvent
          (engineEvent tenantId caseId .opened (stalledText reason daysStalled))
        let assignment := resolveAssignment f tenantId order
        (if assignment.repId.isSome then noted.appendCaseEvent
          (engineEvent tenantId caseId .assigned (assignedText assignment.repName)) else noted,
          .opened)

def RecoveryDb.installedRows (db : RecoveryDb) (tenantId : Nat) :
    List (RecoveryCase × VendorOrder) :=
  db.cases.filterMap fun c =>
    if c.tenantId = tenantId ∧ c.status.active then
      (db.orders.find? fun o => decide (o.id = c.vendorOrderId) && decide (o.tenantId = tenantId) &&
        decide (o.normalizedStatus = .installed)).map fun o => (c, o)
    else none

def closeInstalled (tenantId : Nat) (now : Int) (wall : Nat → Int) (db : RecoveryDb)
    (row : RecoveryCase × VendorOrder) : RecoveryDb :=
  (db.updateCase row.1.id (installedPatch row.2 now) (wall row.2.id)).appendCaseEvent
    (engineEvent tenantId row.1.id .resolved "The order installed.")

def closeCasesForInstalledOrders (tenantId : Nat) (now : Int) (wall : Nat → Int)
    (db : RecoveryDb) : RecoveryDb × Nat :=
  let rows := db.installedRows tenantId
  (rows.foldl (closeInstalled tenantId now wall) db, rows.length)

structure EvaluationSummary where
  scanned : Nat := 0
  opened : Nat := 0
  escalated : Nat := 0
  autoResolved : Nat := 0
  skipped : Nat := 0

def EvaluationSummary.count (s : EvaluationSummary) : OrderOutcome → EvaluationSummary
  | .opened => { s with scanned := s.scanned + 1, opened := s.opened + 1 }
  | .escalated => { s with scanned := s.scanned + 1, escalated := s.escalated + 1 }
  | .unchanged => { s with scanned := s.scanned + 1, skipped := s.skipped + 1 }

def visit (f : Surroundings) (tenantId : Nat) (policy : RecoveryPolicy) (now : Int)
    (wall : Nat → Int) (s : RecoveryDb × EvaluationSummary) (order : VendorOrder) :
    RecoveryDb × EvaluationSummary :=
  let evaluated := evaluateOneOrder f tenantId policy now wall s.1 order
  (evaluated.1, s.2.count evaluated.2)

/-- Evaluate every order of an organization: the installed ones first, then the scan. The
visits write no order, so every page is read from the orders as they were. -/
def evaluateTenantRecovery (f : Surroundings) (tenantId : Nat) (now : Int) (wall : Nat → Int)
    (db : RecoveryDb) : RecoveryDb × EvaluationSummary :=
  let closed := closeCasesForInstalledOrders tenantId now wall db
  foldPages VendorOrder.id SCAN_PAGE (db.scanned tenantId)
    (visit f tenantId (f.policy tenantId) now wall) (db.orders.length + 1) 0
    (closed.1, { autoResolved := closed.2 })

end HomefrontFiber.Recovery
