import HomefrontFiber.Billing.Store

/-!
# Stripe events

An event is classified into an intent, the intent is matched to a tenant, and the intent's change
is applied to the tenant's billing row unless the event is older than the last one applied. The
webhook records each matched event, so that a redelivery changes nothing. An event has the fields
that the classification reads; its instants are Unix seconds.
-/

namespace HomefrontFiber.Billing

inductive StripeEventType where
  | checkoutSessionCompleted
  | subscriptionCreated
  | subscriptionUpdated
  | subscriptionDeleted
  | invoicePaymentSucceeded
  | invoicePaid
  | invoicePaymentFailed
  | other (type : String)

structure StripeMetadata where
  tenantId : Option Int := none
  planKey : Option PlanKey := none
  priceId : Option String := none

structure StripePeriod where
  start : Option Int := none
  finish : Option Int := none

structure StripeLine where
  period : Option StripePeriod := none
  metadata : StripeMetadata := {}
  priceId : Option String := none
  planId : Option String := none

structure StripeObject where
  id : Option String := none
  mode : Option String := none
  paymentStatus : Option String := none
  clientReferenceId : Option Int := none
  metadata : StripeMetadata := {}
  customer : Option String := none
  subscription : Option String := none
  status : String := ""
  /-- `items.data[0].price.id`. -/
  itemPriceId : Option String := none
  /-- `plan.id`. -/
  planId : Option String := none
  line : StripeLine := {}
  period : Option StripePeriod := none

structure StripeEvent where
  id : String
  type : StripeEventType
  created : Option Int
  object : StripeObject

inductive StripeIntentKind where
  | activate | renew | pastDue | canceled | planChange | ignore
  deriving DecidableEq

structure StripeRef where
  tenantId : Option Int := none
  customerId : Option String := none
  subscriptionId : Option String := none

structure StripeIntent where
  kind : StripeIntentKind
  eventId : String
  ref : StripeRef := {}
  planKey : Option PlanKey := none
  periodStart : Option Int := none
  periodEnd : Option Int := none
  eventCreated : Option Int := none
  reason : Option String := none

abbrev PriceMap := String → Option PlanKey

def resolvePlan (priceId : Option String) (priceMap : PriceMap) : Option PlanKey :=
  (priceId.filter (· ≠ "")).bind priceMap

/-- Unix seconds as milliseconds, when they name an instant after 1970. -/
def toIso (unixSeconds : Option Int) : Option Int :=
  (unixSeconds.filter (0 < ·)).map (· * 1000)

def parseTenantId (v : Option Int) : Option Int := v.filter (0 < ·)

def isSet (text : Option String) : Bool := text.isSome && text ≠ some ""

def ignoreIntent (eventId reason : String) : StripeIntent :=
  { kind := .ignore, eventId, reason := some reason }

def classifyInner (event : StripeEvent) (priceMap : PriceMap) : StripeIntent :=
  let obj := event.object
  let eventId := event.id
  match event.type with
  | .checkoutSessionCompleted =>
    if isSet obj.mode && obj.mode ≠ some "subscription" then
      ignoreIntent eventId ("checkout mode " ++ obj.mode.getD "")
    else if isSet obj.paymentStatus && obj.paymentStatus ≠ some "paid" &&
        obj.paymentStatus ≠ some "no_payment_required" then
      ignoreIntent eventId ("checkout payment_status " ++ obj.paymentStatus.getD "")
    else
      { kind := .activate
        eventId
        ref :=
          { tenantId :=
              (parseTenantId obj.clientReferenceId).or (parseTenantId obj.metadata.tenantId)
            customerId := obj.customer
            subscriptionId := obj.subscription }
        planKey := obj.metadata.planKey.or (resolvePlan obj.metadata.priceId priceMap) }
  | .subscriptionCreated | .subscriptionUpdated =>
    let ref : StripeRef :=
      { tenantId := parseTenantId obj.metadata.tenantId
        customerId := obj.customer
        subscriptionId := obj.id }
    let planKey := resolvePlan (obj.itemPriceId.or obj.planId) priceMap
    if obj.status = "active" || obj.status = "trialing" then
      { kind := .activate, eventId, ref, planKey }
    else if obj.status = "past_due" || obj.status = "unpaid" then { kind := .pastDue, eventId, ref }
    else if obj.status = "canceled" || obj.status = "incomplete_expired" then
      { kind := .canceled, eventId, ref }
    else if planKey.isSome then { kind := .planChange, eventId, ref, planKey }
    else ignoreIntent eventId ("subscription status " ++ obj.status)
  | .invoicePaymentSucceeded => ignoreIntent eventId "duplicate of invoice.paid"
  | .invoicePaid =>
    let line := obj.line
    let period := (line.period.or obj.period).getD {}
    { kind := .renew
      eventId
      ref :=
        { tenantId := (parseTenantId obj.metadata.tenantId).or (parseTenantId line.metadata.tenantId)
          customerId := obj.customer
          subscriptionId := obj.subscription }
      planKey := resolvePlan (line.priceId.or line.planId) priceMap
      periodStart := toIso period.start
      periodEnd := toIso period.finish }
  | .invoicePaymentFailed =>
    { kind := .pastDue
      eventId
      ref :=
        { tenantId := parseTenantId obj.metadata.tenantId
          customerId := obj.customer
          subscriptionId := obj.subscription } }
  | .subscriptionDeleted =>
    { kind := .canceled
      eventId
      ref :=
        { tenantId := parseTenantId obj.metadata.tenantId
          customerId := obj.customer
          subscriptionId := obj.id } }
  | .other type => ignoreIntent eventId ("unhandled type " ++ type)

def classifyStripeEvent (event : StripeEvent) (priceMap : PriceMap) : StripeIntent :=
  { classifyInner event priceMap with eventCreated := toIso event.created }

structure BillingEvent where
  eventId : String
  provider : String
  type : StripeEventType
  tenantId : Option Int
  intent : StripeIntentKind

structure WebhookDb where
  books : BillingDb
  events : List BillingEvent
  tenants : List Int

def wasEventProcessed (db : WebhookDb) (eventId : String) : Bool :=
  eventId ≠ "" && db.events.any (·.eventId = eventId)

/-- `INSERT OR IGNORE INTO billing_events`. -/
def recordEvent (db : WebhookDb) (row : BillingEvent) : WebhookDb :=
  if row.eventId = "" || db.events.any (·.eventId = row.eventId) then db
  else { db with events := db.events ++ [row] }

def getBillingByStripeSubscription (db : BillingDb) (subscriptionId : String) : Option BillingRow :=
  db.billing.find? (·.providerSubscriptionId = some subscriptionId)

def getBillingByStripeCustomer (db : BillingDb) (customerId : String) : Option BillingRow :=
  db.billing.find? (·.providerCustomerId = some customerId)

def setProvider (db : BillingDb) (tenantId : Int) (provider customerId subscriptionId : Option String) :
    BillingDb :=
  updateBilling db tenantId fun r => { r with
    provider := provider.or r.provider
    providerCustomerId := customerId.or r.providerCustomerId
    providerSubscriptionId := subscriptionId.or r.providerSubscriptionId }

def tenantExists (db : WebhookDb) (id : Int) : Bool := db.tenants.contains id

/-- The tenant of an intent: the explicit one, else by subscription, else by customer. -/
def resolveTenantFromRef (db : WebhookDb) (ref : StripeRef) : Option Int :=
  let explicit := ref.tenantId.filter fun id => (getBilling db.books id).isSome || tenantExists db id
  let bySubscription := (ref.subscriptionId.filter (· ≠ "")).bind fun id =>
    (getBillingByStripeSubscription db.books id).map (·.tenantId)
  let byCustomer := (ref.customerId.filter (· ≠ "")).bind fun id =>
    (getBillingByStripeCustomer db.books id).map (·.tenantId)
  explicit.or (bySubscription.or byCustomer)

/-- The event is older than the last one applied for the tenant. -/
def isStaleEvent (db : BillingDb) (tenantId : Int) (eventCreated : Option Int) : Bool :=
  match eventCreated, (getBilling db tenantId).bind (·.lastEventAt) with
  | some created, some last => created < last
  | _, _ => false

def bumpLastEvent (db : BillingDb) (tenantId : Int) (eventCreated : Option Int) : BillingDb :=
  match eventCreated with
  | none => db
  | some created => updateBilling db tenantId fun r =>
    if r.lastEventAt.all (· < created) then { r with lastEventAt := some created } else r

def activateFromStripe (db : BillingDb) (tenantId : Int) (planKey : Option PlanKey)
    (customerId subscriptionId : Option String) : BillingDb :=
  let ensured := match getBilling db tenantId with
    | some _ => db
    | none => ensureBilling db tenantId
      { planKey := some (planKey.getD .starter), state := some .trial, provider := some "stripe" }
  let planned := match planKey with
    | some key => setPlan ensured tenantId key "stripe"
    | none => ensured
  let provided := setProvider planned tenantId (some "stripe") customerId subscriptionId
  (setBillingState provided tenantId .active "stripe:webhook").1

def renewFromStripe (db : BillingDb) (tenantId : Int) (planKey : Option PlanKey)
    (cycleStart cycleEnd : Int) (allowRollover : Bool) : BillingDb :=
  match getBilling db tenantId with
  | none => db
  | some row =>
    -- a trailing invoice does not resurrect a canceled subscription
    if row.state = .canceled then db
    -- the cycle was started for this window already
    else if row.cycleStart = some cycleStart then db
    else
      let planned := match planKey with
        | some key => setPlan db tenantId key "stripe"
        | none => db
      let paid := (setBillingState planned tenantId .active "stripe:webhook").1
      resetBillingCycle paid tenantId allowRollover cycleStart cycleEnd "stripe:webhook"

def markPastDueFromStripe (db : BillingDb) (tenantId graceEndsAt : Int) : BillingDb :=
  let prev := (getBilling db tenantId).map (·.state)
  let (next, r) := setBillingState db tenantId .pastDue "stripe:webhook"
  if r.ok && prev ≠ some .pastDue then
    updateBilling next tenantId fun r => { r with graceEndsAt := some graceEndsAt }
  else next

def cancelFromStripe (db : BillingDb) (tenantId : Int) : BillingDb :=
  (setBillingState db tenantId .canceled "stripe:webhook").1

def changePlanFromStripe (db : BillingDb) (tenantId : Int) (planKey : PlanKey) : BillingDb :=
  if (getBilling db tenantId).isSome then setPlan db tenantId planKey "stripe" else db

def DAY_MS : Int := 86400000

def applyIntent (db : BillingDb) (tenantId : Int) (intent : StripeIntent) (nowMs : Int) : BillingDb :=
  match intent.kind with
  | .activate =>
    activateFromStripe db tenantId intent.planKey intent.ref.customerId intent.ref.subscriptionId
  | .renew =>
    let start := intent.periodStart.getD nowMs
    let finish := intent.periodEnd.getD (nowMs + 30 * DAY_MS)
    let provided :=
      setProvider db tenantId (some "stripe") intent.ref.customerId intent.ref.subscriptionId
    renewFromStripe provided tenantId intent.planKey start finish false
  | .pastDue => markPastDueFromStripe db tenantId (nowMs + DUNNING_GRACE_DAYS * DAY_MS)
  | .canceled => cancelFromStripe db tenantId
  | .planChange =>
    match intent.planKey with
    | some key => changePlanFromStripe db tenantId key
    | none => db
  | .ignore => db

structure ApplyResult where
  applied : Bool
  kind : StripeIntentKind
  tenantId : Option Int
  reason : Option String := none

def handleStripeEvent (priceMap : PriceMap) (db : WebhookDb) (event : StripeEvent) (nowMs : Int) :
    WebhookDb × ApplyResult :=
  let intent := classifyStripeEvent event priceMap
  if intent.kind = .ignore then (db, ⟨false, .ignore, none, intent.reason⟩)
  else match resolveTenantFromRef db intent.ref with
    | none => (db, ⟨false, intent.kind, none, some "no tenant match"⟩)
    | some tenantId =>
      if isStaleEvent db.books tenantId intent.eventCreated then
        (db, ⟨false, intent.kind, some tenantId, some "stale event"⟩)
      else
        let books := applyIntent db.books tenantId intent nowMs
        ({ db with books := bumpLastEvent books tenantId intent.eventCreated },
          ⟨true, intent.kind, some tenantId, none⟩)

structure ProcessResult where
  result : Option ApplyResult
  duplicate : Bool
  retriable : Bool

/-- One delivery: a processed event changes nothing, and an event that matches no tenant is not
recorded. -/
def processWebhookEvent (priceMap : PriceMap) (db : WebhookDb) (event : StripeEvent) (nowMs : Int) :
    WebhookDb × ProcessResult :=
  if wasEventProcessed db event.id then (db, ⟨none, true, false⟩)
  else
    let (handled, r) := handleStripeEvent priceMap db event nowMs
    let unmatched := !r.applied && r.reason = some "no tenant match"
    let recorded := if unmatched then handled
      else recordEvent handled ⟨event.id, "stripe", event.type, r.tenantId, r.kind⟩
    (recorded, ⟨some r, false, unmatched⟩)

end HomefrontFiber.Billing
