import Mathlib.Algebra.Order.Ring.Rat
import Mathlib.Data.Int.Basic
import Mathlib.Data.List.Basic
import HomefrontFiber.Foundation.Runs

/-!
# Plans, billing states and lead credits

The pure rules of billing: the plans' allowances, the billing state machine, and what consuming
one lead credit or starting a cycle does to the credits of a tenant. An unlimited tenant has no
cap; its cap and its remaining credits are `none`.
-/

namespace HomefrontFiber.Billing

inductive PlanKey where
  | starter | growth | professional | enterprise

/-- The parts of a plan that billing reads; `none` is custom. -/
structure Plan where
  monthlyCredits : Option Int
  seats : Option Int

def PLANS : PlanKey → Plan
  | .starter => ⟨some 250, some 3⟩
  | .growth => ⟨some 1500, some 10⟩
  | .professional => ⟨some 6000, some 40⟩
  | .enterprise => ⟨none, none⟩

def PlanKey.text : PlanKey → String
  | .starter => "starter"
  | .growth => "growth"
  | .professional => "professional"
  | .enterprise => "enterprise"

inductive BillingState where
  | trial | active | pastDue | suspended | canceled
  deriving DecidableEq

def BillingState.text : BillingState → String
  | .trial => "trial"
  | .active => "active"
  | .pastDue => "past_due"
  | .suspended => "suspended"
  | .canceled => "canceled"

def TRANSITIONS : BillingState → List BillingState
  | .trial => [.active, .pastDue, .suspended, .canceled]
  | .active => [.pastDue, .canceled]
  | .pastDue => [.active, .suspended, .canceled]
  | .suspended => [.active, .canceled]
  | .canceled => [.active, .trial]

def canTransition (source target : BillingState) : Bool :=
  source = target || (TRANSITIONS source).contains target

def isScanningAllowed (state : BillingState) : Bool :=
  state = .trial || state = .active || state = .pastDue

def DUNNING_GRACE_DAYS : Int := 7

inductive OverageMode where
  | stop | allowOverage | autoPurchase | requireApproval

structure CreditState where
  planKey : PlanKey
  state : BillingState
  included : Int
  used : Int
  rollover : Int
  purchased : Int
  overageUsed : Int
  overageMode : OverageMode
  unlimited : Bool

def creditsCap (c : CreditState) : Option Int :=
  if c.unlimited then none else some (c.included + c.rollover + c.purchased)

def creditsRemaining (c : CreditState) : Option Int :=
  (creditsCap c).map fun cap => max 0 (cap - c.used)

def usageFraction (c : CreditState) : ℚ :=
  match creditsCap c with
  | none => 0
  | some cap => if cap ≤ 0 then 1 else c.used / cap

inductive UsageLevel where
  | ok | warn | critical | exhausted

def usageLevel (c : CreditState) : UsageLevel :=
  if c.unlimited then .ok
  else if usageFraction c ≥ 1 then .exhausted
  else if usageFraction c ≥ 9 / 10 then .critical
  else if usageFraction c ≥ 3 / 4 then .warn
  else .ok

structure ConsumeResult where
  delivered : Bool
  overage : Bool
  requiresApproval : Bool
  next : CreditState
  reason : Option String

def consumeCredit (c : CreditState) : ConsumeResult :=
  let refused (requiresApproval : Bool) (reason : String) : ConsumeResult :=
    ⟨false, false, requiresApproval, c, some reason⟩
  if !isScanningAllowed c.state then refused false ("billing state " ++ c.state.text)
  else match creditsRemaining c with
    | none => ⟨true, false, false, { c with used := c.used + 1 }, none⟩
    | some remaining =>
      if 0 < remaining then ⟨true, false, false, { c with used := c.used + 1 }, none⟩
      else match c.overageMode with
        | .allowOverage | .autoPurchase =>
          ⟨true, true, false, { c with used := c.used + 1, overageUsed := c.overageUsed + 1 }, none⟩
        | .requireApproval => refused true "credit limit reached - approval required"
        | .stop => refused false "credit limit reached"

/-- Start a billing cycle. An unlimited tenant carries nothing over. -/
def resetCycle (c : CreditState) (allowRollover : Bool) : CreditState :=
  { c with
    included := (PLANS c.planKey).monthlyCredits.getD c.included
    used := 0
    purchased := 0
    overageUsed := 0
    rollover := if allowRollover then (creditsRemaining c).getD 0 else 0 }

variable {c : CreditState}

theorem creditsRemaining_nonneg {remaining : Int} (h : creditsRemaining c = some remaining) :
    0 ≤ remaining := by
  obtain ⟨cap, -, rfl⟩ := Option.map_eq_some_iff.mp h
  exact le_max_left 0 _

theorem resetCycle_rollover_nonneg (allowRollover : Bool) :
    0 ≤ (resetCycle c allowRollover).rollover := by
  unfold resetCycle
  split
  · cases h : creditsRemaining c with
    | none => exact le_refl 0
    | some remaining => exact creditsRemaining_nonneg h
  · exact le_refl 0

/-- What a delivered credit says about the state that it was drawn from. -/
structure Delivers (c : CreditState) (overage : Bool) : Prop where
  allowed : isScanningAllowed c.state = true
  within : overage = false → c.unlimited = true ∨ c.used < c.included + c.rollover + c.purchased
  exhausted : c.unlimited = false → c.included + c.rollover + c.purchased ≤ c.used →
    c.overageMode ≠ .stop ∧ c.overageMode ≠ .requireApproval

theorem creditsRemaining_of_limited (h : c.unlimited = false) :
    creditsRemaining c = some (max 0 (c.included + c.rollover + c.purchased - c.used)) := by
  unfold creditsRemaining creditsCap
  rw [if_neg (by simp [h])]
  rfl

theorem creditsRemaining_of_unlimited (h : c.unlimited = true) : creditsRemaining c = none := by
  unfold creditsRemaining creditsCap
  rw [if_pos h]
  rfl

/-- One credit more is used, and one more as overage when it is marked so. -/
def drawn (c : CreditState) (overage : Bool) : CreditState :=
  { c with used := c.used + 1, overageUsed := c.overageUsed + if overage then 1 else 0 }

theorem consumeCredit_cases (c : CreditState) :
    (consumeCredit c).delivered = false ∨
      ∃ overage, Delivers c overage ∧ consumeCredit c = ⟨true, overage, false, drawn c overage, none⟩ := by
  unfold consumeCredit
  dsimp only
  by_cases hallowed : isScanningAllowed c.state = true
  · rw [if_neg (by simp [hallowed])]
    by_cases hunlimited : c.unlimited = true
    · rw [creditsRemaining_of_unlimited hunlimited]
      have hdelivers : Delivers c false :=
        ⟨hallowed, fun _ => .inl hunlimited, fun hlimited => by simp [hunlimited] at hlimited⟩
      exact .inr ⟨false, hdelivers, by simp [drawn]⟩
    · have hlimited : c.unlimited = false := by simpa using hunlimited
      rw [creditsRemaining_of_limited hlimited]
      dsimp only
      by_cases hleft : 0 < max 0 (c.included + c.rollover + c.purchased - c.used)
      · rw [if_pos hleft]
        have hbelow : c.used < c.included + c.rollover + c.purchased := by omega
        have hdelivers : Delivers c false :=
          ⟨hallowed, fun _ => .inr hbelow, fun _ hspent => absurd hspent (by omega)⟩
        exact .inr ⟨false, hdelivers, by simp [drawn]⟩
      · rw [if_neg hleft]
        cases hmode : c.overageMode with
        | allowOverage | autoPurchase =>
          have hdelivers : Delivers c true := by
            refine ⟨hallowed, fun hwithin => ?_, fun _ _ => by simp [hmode]⟩
            cases hwithin
          exact .inr ⟨true, hdelivers, by simp [drawn, hmode]⟩
        | requireApproval | stop => exact .inl rfl
  · rw [if_pos (by simpa using hallowed)]
    exact .inl rfl

end HomefrontFiber.Billing

/-!
## The billing store

One billing row per tenant and an append-only ledger of lead credits. A tenant without a row is
dark: it is never metered. Instants are milliseconds.
-/

namespace HomefrontFiber.Billing

structure BillingRow where
  tenantId : Int
  planKey : PlanKey
  state : BillingState
  cycleStart : Option Int
  cycleEnd : Option Int
  creditsIncluded : Int
  creditsUsed : Int := 0
  creditsRollover : Int := 0
  creditsPurchased : Int := 0
  overageUsed : Int := 0
  overageMode : OverageMode
  unlimited : Bool
  seatsPaid : Int
  trialEndsAt : Option Int
  graceEndsAt : Option Int := none
  provider : Option String
  providerCustomerId : Option String := none
  providerSubscriptionId : Option String := none
  lastEventAt : Option Int := none

inductive LedgerReason where
  | leadDelivered | grant | purchase | adjustment | cycleReset | stateChange | planChange
  deriving DecidableEq

structure LedgerRow where
  tenantId : Int
  delta : Int
  reason : LedgerReason
  leadId : Option Int := none
  overage : Bool := false
  balanceAfter : Option Int := none
  dedupeKey : Option String := none
  actor : Option String := none

structure BillingDb where
  billing : List BillingRow
  ledger : List LedgerRow

def getBilling (db : BillingDb) (tenantId : Int) : Option BillingRow :=
  db.billing.find? (·.tenantId = tenantId)

def toCreditState (r : BillingRow) : CreditState where
  planKey := r.planKey
  state := r.state
  included := r.creditsIncluded
  used := r.creditsUsed
  rollover := r.creditsRollover
  purchased := r.creditsPurchased
  overageUsed := r.overageUsed
  overageMode := r.overageMode
  unlimited := r.unlimited

/-- `UPDATE tenant_billing SET … WHERE tenant_id = ?`. -/
def updateBilling (db : BillingDb) (tenantId : Int) (set : BillingRow → BillingRow) : BillingDb :=
  { db with billing := db.billing.map fun r => if r.tenantId = tenantId then set r else r }

def appendLedger (db : BillingDb) (row : LedgerRow) : BillingDb :=
  { db with ledger := db.ledger ++ [row] }

structure EnsureBillingOpts where
  planKey : Option PlanKey := none
  state : Option BillingState := none
  overageMode : Option OverageMode := none
  trialEndsAt : Option Int := none
  provider : Option String := none
  cycleStart : Option Int := none
  cycleEnd : Option Int := none

def provisionedRow (tenantId : Int) (opts : EnsureBillingOpts) : BillingRow :=
  let planKey := opts.planKey.getD .starter
  let plan := PLANS planKey
  { tenantId
    planKey
    state := opts.state.getD .trial
    cycleStart := opts.cycleStart
    cycleEnd := opts.cycleEnd
    creditsIncluded := plan.monthlyCredits.getD 0
    overageMode := opts.overageMode.getD .stop
    unlimited := plan.monthlyCredits.isNone
    seatsPaid := plan.seats.getD 0
    trialEndsAt := opts.trialEndsAt
    provider := opts.provider }

def ensureBilling (db : BillingDb) (tenantId : Int) (opts : EnsureBillingOpts) : BillingDb :=
  match getBilling db tenantId with
  | some _ => db
  | none =>
    let row := provisionedRow tenantId opts
    appendLedger { db with billing := db.billing ++ [row] }
      { tenantId, delta := row.creditsIncluded, reason := .grant,
        balanceAfter := some row.creditsIncluded, actor := some "system:provision" }

def persistCreditState (db : BillingDb) (tenantId : Int) (next : CreditState) : BillingDb :=
  updateBilling db tenantId fun r => { r with
    creditsUsed := next.used
    creditsRollover := next.rollover
    creditsPurchased := next.purchased
    overageUsed := next.overageUsed }

structure MeterResult where
  metered : Bool
  delivered : Bool
  overage : Bool
  requiresApproval : Bool
  alreadyCounted : Bool
  remaining : Option Int
  level : UsageLevel
  reason : Option String := none

def dedupeKey (tenantId leadId : Int) : String :=
  "consume:" ++ toString tenantId ++ ":lead:" ++ toString leadId

def meterQualifiedLead (db : BillingDb) (tenantId leadId : Int) (actor : String) :
    BillingDb × MeterResult :=
  match getBilling db tenantId with
  | none => (db, ⟨false, false, false, false, false, none, .ok, none⟩)
  | some row =>
    let cs := toCreditState row
    match db.ledger.find? (·.dedupeKey = some (dedupeKey tenantId leadId)) with
    | some prior =>
      (db, ⟨true, prior.delta < 0, false, false, true, creditsRemaining cs, usageLevel cs,
        some "already counted"⟩)
    | none =>
      let res := consumeCredit cs
      if res.delivered then
        let remaining := creditsRemaining res.next
        (appendLedger (persistCreditState db tenantId res.next)
          { tenantId, delta := -1, reason := .leadDelivered, leadId := some leadId,
            overage := res.overage, balanceAfter := remaining,
            dedupeKey := some (dedupeKey tenantId leadId), actor := some actor },
          ⟨true, true, res.overage, false, false, remaining, usageLevel res.next, res.reason⟩)
      else
        (db, ⟨true, false, false, res.requiresApproval, false, creditsRemaining cs, usageLevel cs,
          res.reason⟩)

structure StateResult where
  ok : Bool
  state : BillingState
  reason : Option String := none

def setBillingState (db : BillingDb) (tenantId : Int) (target : BillingState) (actor : String) :
    BillingDb × StateResult :=
  match getBilling db tenantId with
  | none => (db, ⟨false, .canceled, some "no billing row"⟩)
  | some row =>
    if row.state = target then (db, ⟨true, target, none⟩)
    else if !canTransition row.state target then
      (db, ⟨false, row.state,
        some ("illegal transition " ++ row.state.text ++ " -> " ++ target.text)⟩)
    else
      (appendLedger (updateBilling db tenantId fun r => { r with state := target })
        { tenantId, delta := 0, reason := .stateChange,
          actor := some (actor ++ ":" ++ row.state.text ++ "->" ++ target.text) },
        ⟨true, target, none⟩)

def setPlan (db : BillingDb) (tenantId : Int) (planKey : PlanKey) (actor : String) : BillingDb :=
  match getBilling db tenantId with
  | none => db
  | some row =>
    let plan := PLANS planKey
    appendLedger
      (updateBilling db tenantId fun r => { r with
        planKey
        creditsIncluded := plan.monthlyCredits.getD 0
        unlimited := plan.monthlyCredits.isNone
        seatsPaid := plan.seats.getD row.seatsPaid })
      { tenantId, delta := 0, reason := .planChange,
        actor := some (actor ++ ":" ++ row.planKey.text ++ "->" ++ planKey.text) }

inductive GrantReason where
  | grant | purchase | adjustment

def GrantReason.ledger : GrantReason → LedgerReason
  | .grant => .grant
  | .purchase => .purchase
  | .adjustment => .adjustment

/-- What is left to a tenant, `none` when it is unlimited. -/
def remainingOf (db : BillingDb) (tenantId : Int) : Option Int :=
  (getBilling db tenantId).bind fun after => creditsRemaining (toCreditState after)

def grantCredits (db : BillingDb) (tenantId amount : Int) (reason : GrantReason) (actor : String) :
    BillingDb :=
  match getBilling db tenantId with
  | none => db
  | some _ =>
    if amount ≤ 0 then db
    else
      let granted := updateBilling db tenantId fun r =>
        { r with creditsPurchased := r.creditsPurchased + amount }
      appendLedger granted
        { tenantId, delta := amount, reason := reason.ledger,
          balanceAfter := remainingOf granted tenantId, actor := some actor }

def resetBillingCycle (db : BillingDb) (tenantId : Int) (allowRollover : Bool)
    (cycleStart cycleEnd : Int) (actor : String) : BillingDb :=
  match getBilling db tenantId with
  | none => db
  | some row =>
    let next := resetCycle (toCreditState row) allowRollover
    let reset := updateBilling db tenantId fun r => { r with
      creditsIncluded := next.included
      creditsUsed := 0
      creditsPurchased := 0
      overageUsed := 0
      creditsRollover := next.rollover
      cycleStart := some cycleStart
      cycleEnd := some cycleEnd }
    appendLedger reset
      { tenantId, delta := next.included, reason := .cycleReset,
        balanceAfter := remainingOf reset tenantId, actor := some actor }

inductive BillingCall where
  | ensureBilling (tenantId : Int) (opts : EnsureBillingOpts)
  | meterQualifiedLead (tenantId leadId : Int) (actor : String)
  | grantCredits (tenantId amount : Int) (reason : GrantReason) (actor : String)
  | setPlan (tenantId : Int) (planKey : PlanKey) (actor : String)
  | setBillingState (tenantId : Int) (target : BillingState) (actor : String)
  | resetBillingCycle (tenantId : Int) (allowRollover : Bool) (cycleStart cycleEnd : Int)
      (actor : String)

def act (db : BillingDb) : BillingCall → BillingDb
  | .ensureBilling tenantId opts => ensureBilling db tenantId opts
  | .meterQualifiedLead tenantId leadId actor => (meterQualifiedLead db tenantId leadId actor).1
  | .grantCredits tenantId amount reason actor => grantCredits db tenantId amount reason actor
  | .setPlan tenantId planKey actor => setPlan db tenantId planKey actor
  | .setBillingState tenantId target actor => (setBillingState db tenantId target actor).1
  | .resetBillingCycle tenantId allowRollover cycleStart cycleEnd actor =>
    resetBillingCycle db tenantId allowRollover cycleStart cycleEnd actor

variable {db : BillingDb} {tenantId other : Int}

@[simp] theorem getBilling_appendLedger (row : LedgerRow) :
    getBilling (appendLedger db row) tenantId = getBilling db tenantId := rfl

@[simp] theorem appendLedger_ledger (row : LedgerRow) :
    (appendLedger db row).ledger = db.ledger ++ [row] := rfl

@[simp] theorem updateBilling_ledger (set : BillingRow → BillingRow) :
    (updateBilling db tenantId set).ledger = db.ledger := rfl

theorem getBilling_updateBilling {set : BillingRow → BillingRow}
    (hset : ∀ r, (set r).tenantId = r.tenantId) :
    getBilling (updateBilling db tenantId set) other =
      (getBilling db other).map fun r => if other = tenantId then set r else r := by
  have hkey : ∀ r : BillingRow,
      (if r.tenantId = tenantId then set r else r).tenantId = r.tenantId := by
    intro r
    split
    · exact hset r
    · rfl
  unfold getBilling updateBilling
  rw [List.find?_map]
  have hpred : (fun r : BillingRow => decide (r.tenantId = other)) ∘
      (fun r => if r.tenantId = tenantId then set r else r) = fun r => decide (r.tenantId = other) := by
    funext r
    exact decide_eq_decide.mpr (by rw [hkey r])
  rw [hpred]
  cases hfound : db.billing.find? (fun r => decide (r.tenantId = other)) with
  | none => rfl
  | some r =>
    have hr : r.tenantId = other := by simpa using List.find?_some hfound
    rw [Option.map_some, Option.map_some, hr]

end HomefrontFiber.Billing
