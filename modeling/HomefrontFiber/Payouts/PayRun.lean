import Mathlib.Data.List.Basic
import HomefrontFiber.Foundation.Runs
import HomefrontFiber.Foundation.Table

/-!
# Payout statuses and eligibility

The status machine of a row of `rep_payouts`, and the verdict on whether a rep's statement may be
paid at all.
-/

namespace HomefrontFiber.Payouts

inductive PayoutStatus
  | pending | processing | paid | failed | reversed
deriving DecidableEq

def payoutTransitions : PayoutStatus → List PayoutStatus
  | .pending => [.processing, .paid, .failed]
  | .processing => [.paid, .failed, .reversed]
  | .paid => [.reversed]
  | .failed => [.pending, .processing, .paid]
  | .reversed => []

def canPayoutTransition (source target : PayoutStatus) : Bool :=
  source = target || (payoutTransitions source).contains target

def isActivePayout (s : PayoutStatus) : Bool :=
  s = .pending || s = .processing || s = .paid

/-- Nothing leads out of `reversed`, and only `reversed` out of `paid`. -/
theorem canPayoutTransition_paid (target : PayoutStatus) :
    canPayoutTransition .paid target = true ↔ target = .paid ∨ target = .reversed := by
  cases target <;> decide

theorem canPayoutTransition_reversed (target : PayoutStatus) :
    canPayoutTransition .reversed target = true ↔ target = .reversed := by
  cases target <;> decide

inductive OnboardingStatus
  | none | pending | restricted | enabled
deriving DecidableEq

inductive StatementStatus
  | open | review | finalized | paid
deriving DecidableEq

inductive PayoutBlockReason
  | notFinalized | alreadyPaid | noAmount | notOnboarded | payoutsDisabled

structure EligibilityInput where
  statementStatus : StatementStatus
  finalCents : Int
  onboardingStatus : OnboardingStatus
  existingPayoutStatus : Option PayoutStatus

def payoutBlock (p : EligibilityInput) : Option PayoutBlockReason :=
  if p.statementStatus = .paid then some .alreadyPaid
  else if p.statementStatus ≠ .finalized then some .notFinalized
  else if p.existingPayoutStatus.any isActivePayout then some .alreadyPaid
  else if p.finalCents ≤ 0 then some .noAmount
  else if p.onboardingStatus ≠ .enabled then
    if p.onboardingStatus = .none then some .notOnboarded else some .payoutsDisabled
  else none

def eligible (p : EligibilityInput) : Bool := (payoutBlock p).isNone

end HomefrontFiber.Payouts

/-!
## The pay run

A pay run takes up one statement after the other. An attempt is a run at one statement, and an
action is one statement of SQL or one call to Stripe of one attempt, so any number of attempts
interleave, and each may stop for good after any of them. `rep_payouts` has at most one row for a
statement. Stripe is outside: what the route relies on is that a POST with an idempotency key of the
last 24 hours is answered with the transfer it made, and that a lookup by group, when it is
answered, returns the group's latest transfer.
-/

namespace HomefrontFiber.Payouts

/-- A row of `rep_payouts`. -/
structure PayoutRow where
  id : Nat
  repId : Nat
  statementId : Nat
  amountCents : Int
  status : PayoutStatus
  stripeTransferId : Option Nat
  destinationAccountId : Option String

def PayoutRow.retriable (r : PayoutRow) : Bool :=
  r.stripeTransferId = none &&
    (r.status = .pending || r.status = .processing || r.status = .failed)

/-- A transfer at Stripe. The group and the idempotency key are both made of the statement's id. -/
structure Transfer where
  id : Nat
  statementId : Nat
  amountCents : Int
  createdMs : Nat

/-- What a run knows of a statement and its rep before it reads the ledger. -/
structure PayJob where
  repId : Nat
  statementId : Nat
  statementStatus : StatementStatus
  finalCommissionCents : Int
  onboardingStatus : OnboardingStatus
  stripeAccountId : Option String

/-- What an attempt does next. `checkedMs` is the instant of the answered lookup that found no
transfer, and nothing when that lookup failed. -/
inductive Phase
  | readLedger
  | reconcile (rowId : Nat)
  | reset (rowId : Nat)
  | ensureSchedule
  | lookup
  | createPending (prior : Option Nat) (checkedMs : Option Nat)
  | markProcessing (rowId : Nat) (checkedMs : Option Nat)
  | createTransfer (rowId : Nat) (checkedMs : Option Nat)
  | lateLookup (rowId : Nat)
  | markFailed (rowId : Nat)
  | markPaid (rowId : Nat) (transferId : Nat)
  | done

structure Attempt where
  job : PayJob
  phase : Phase

/-- `reversals` are the processed `transfer.reversed` events, each with its transfer. -/
structure PayState where
  nowMs : Nat
  payouts : List PayoutRow
  nextPayoutId : Nat
  transfers : List Transfer
  attempts : List Attempt
  reversals : List (String × Nat)

def PayState.empty : PayState := ⟨0, [], 1, [], [], []⟩

/-- How a call to Stripe ends. A call that is not answered may have been carried out. -/
structure Reply where
  delivered : Bool
  answered : Bool
  forgetsKey : Bool

inductive Action
  | begin (job : PayJob)
  | advance (attempt : Nat) (reply : Reply)
  | crash (attempt : Nat)
  | wait (ms : Nat)
  | transferReversed (eventId : String) (transferId : Nat)

def keyWindowMs : Nat := 24 * 60 * 60 * 1000

namespace PayState

variable (s : PayState)

def getPayoutByStatement (statementId : Nat) : Option PayoutRow :=
  s.payouts.find? (·.statementId = statementId)

def updatePayout (id : Nat) (f : PayoutRow → PayoutRow) : PayState :=
  { s with payouts := s.payouts.map fun r => if r.id = id then f r else r }

def markPayoutProcessing (id : Nat) : PayState := s.updatePayout id ({ · with status := .processing })

def markPayoutPaid (id transferId : Nat) : PayState :=
  s.updatePayout id ({ · with status := .paid, stripeTransferId := some transferId })

def markPayoutFailed (id : Nat) : PayState :=
  s.updatePayout id fun r => if r.stripeTransferId = none then { r with status := .failed } else r

def markPayoutReversedByTransfer (transferId : Nat) : PayState :=
  { s with
    payouts := s.payouts.map fun r =>
      if r.stripeTransferId = some transferId ∧ r.status ≠ .reversed then
        { r with status := .reversed }
      else r }

def resetPayoutForRetry (id : Nat) : PayState :=
  { s with payouts := s.payouts.filter fun r => ¬ (r.id = id ∧ r.retriable) }

def createPendingPayout (job : PayJob) : PayoutRow × PayState :=
  match s.getPayoutByStatement job.statementId with
  | some row => (row, s)
  | none =>
    let row : PayoutRow :=
      { id := s.nextPayoutId
        repId := job.repId
        statementId := job.statementId
        amountCents := job.finalCommissionCents
        status := .pending
        stripeTransferId := none
        destinationAccountId := job.stripeAccountId }
    (row, { s with payouts := s.payouts ++ [row], nextPayoutId := s.nextPayoutId + 1 })

/-- `findTransferByGroup`: the latest transfer of the statement's group. -/
def findTransfer (statementId : Nat) : Option Transfer :=
  (s.transfers.filter (·.statementId = statementId)).getLast?

/-- The POST of a transfer: the transfer that the key stands for, while Stripe keeps the key, or
a new one. -/
def postTransfer (job : PayJob) (forgetsKey : Bool) : Nat × PayState :=
  let fresh : Nat × PayState :=
    (s.transfers.length + 1,
      { s with
        transfers := s.transfers ++
          [{ id := s.transfers.length + 1
             statementId := job.statementId
             amountCents := job.finalCommissionCents
             createdMs := s.nowMs }] })
  match s.findTransfer job.statementId with
  | none => fresh
  | some t => if s.nowMs < t.createdMs + keyWindowMs || !forgetsKey then (t.id, s) else fresh

def setPhase (attempt : Nat) (phase : Phase) : PayState :=
  { s with attempts := s.attempts.modify attempt ({ · with phase := phase }) }

end PayState

def freshPhase (job : PayJob) : Phase :=
  if eligible
      { statementStatus := job.statementStatus
        finalCents := job.finalCommissionCents
        onboardingStatus := job.onboardingStatus
        existingPayoutStatus := none }
  then .ensureSchedule
  else .done

def readLedger (job : PayJob) : Option PayoutRow → Phase
  | none => freshPhase job
  | some row =>
    if row.status = .paid ∨ row.status = .reversed then .done
    else
      match row.stripeTransferId with
      | some transferId => .markPaid row.id transferId
      | none => .reconcile row.id

def lookupResult (s : PayState) (job : PayJob) (reply : Reply) : Option Nat :=
  if reply.answered then (s.findTransfer job.statementId).map (·.id) else none

/-- The next statement or call of an attempt, and where it leads. -/
def perform (s : PayState) (job : PayJob) (reply : Reply) : Phase → Phase × PayState
  | .readLedger => (readLedger job (s.getPayoutByStatement job.statementId), s)
  | .reconcile rowId =>
    match lookupResult s job reply with
    | some transferId => (.markPaid rowId transferId, s)
    | none => (.reset rowId, s)
  | .reset rowId => (freshPhase job, s.resetPayoutForRetry rowId)
  | .ensureSchedule => (if reply.answered then .lookup else .done, s)
  | .lookup =>
    (.createPending (lookupResult s job reply) (if reply.answered then some s.nowMs else none), s)
  | .createPending prior checkedMs =>
    let created := s.createPendingPayout job
    match prior with
    | some transferId => (.markPaid created.1.id transferId, created.2)
    | none => (.markProcessing created.1.id checkedMs, created.2)
  | .markProcessing rowId checkedMs =>
    (.createTransfer rowId checkedMs, s.markPayoutProcessing rowId)
  | .createTransfer rowId _ =>
    if reply.delivered then
      let posted := s.postTransfer job reply.forgetsKey
      (if reply.answered then .markPaid rowId posted.1 else .lateLookup rowId, posted.2)
    else (.lateLookup rowId, s)
  | .lateLookup rowId =>
    match lookupResult s job reply with
    | some transferId => (.markPaid rowId transferId, s)
    | none => (.markFailed rowId, s)
  | .markFailed rowId => (.done, s.markPayoutFailed rowId)
  | .markPaid rowId transferId => (.done, s.markPayoutPaid rowId transferId)
  | .done => (.done, s)

/-- A webhook is checked, applied and recorded in one transaction. -/
def processConnectWebhook (s : PayState) (eventId : String) (transferId : Nat) : PayState :=
  if eventId ∈ s.reversals.map Prod.fst then s
  else
    let applied := s.markPayoutReversedByTransfer transferId
    { applied with reversals := s.reversals ++ [(eventId, transferId)] }

def step (s : PayState) : Action → PayState
  | .begin job => { s with attempts := s.attempts ++ [{ job, phase := .readLedger }] }
  | .advance i reply =>
    match s.attempts[i]? with
    | none => s
    | some a =>
      let next := perform s a.job reply a.phase
      next.2.setPhase i next.1
  | .crash i => s.setPhase i .done
  | .wait ms => { s with nowMs := s.nowMs + ms }
  | .transferReversed eventId transferId => processConnectWebhook s eventId transferId

theorem step_advance {s : PayState} {i : Nat} {a : Attempt} (h : s.attempts[i]? = some a)
    (reply : Reply) :
    step s (.advance i reply) =
      (perform s a.job reply a.phase).2.setPhase i (perform s a.job reply a.phase).1 := by
  simp only [step, h]

end HomefrontFiber.Payouts
