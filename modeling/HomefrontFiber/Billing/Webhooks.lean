import HomefrontFiber.Billing.Stripe
import Mathlib.Data.List.Sort

/-!
# Webhooks in any order

Stripe delivers events in any order and more than once. The webhook applies an event at its first
delivery unless it is older than the newest event applied before, so what it applies arrives in
order of creation: the books after any deliveries are those that the applied events leave when each
is delivered once in that order.
-/

namespace HomefrontFiber.Billing

open Option

structure Delivery where
  event : StripeEvent
  nowMs : Int

variable (priceMap : PriceMap) (tenantId : Int)

def deliver (db : WebhookDb) (d : Delivery) : WebhookDb :=
  (processWebhookEvent priceMap db d.event d.nowMs).1

def intentOf (d : Delivery) : StripeIntent := classifyStripeEvent d.event priceMap

def createdAt (d : Delivery) : Int := (toIso d.event.created).getD 0

/-- A first delivery of an event that is not ignored and not older than the last one applied. -/
structure Accepted (db : WebhookDb) (d : Delivery) : Prop where
  first : wasEventProcessed db d.event.id = false
  acted : (intentOf priceMap d).kind ≠ .ignore
  newest : isStaleEvent db.books tenantId (toIso d.event.created) = false

instance (db : WebhookDb) (d : Delivery) : Decidable (Accepted priceMap tenantId db d) :=
  decidable_of_iff (wasEventProcessed db d.event.id = false ∧ (intentOf priceMap d).kind ≠ .ignore ∧
      isStaleEvent db.books tenantId (toIso d.event.created) = false)
    ⟨fun h => ⟨h.1, h.2.1, h.2.2⟩, fun h => ⟨h.first, h.acted, h.newest⟩⟩

def accepted : WebhookDb → List Delivery → List Delivery
  | _, [] => []
  | db, d :: ds =>
    if Accepted priceMap tenantId db d then d :: accepted (deliver priceMap db d) ds
    else accepted (deliver priceMap db d) ds

def inOrder (ds : List Delivery) : List Delivery :=
  ds.insertionSort fun a b => createdAt a ≤ createdAt b

/-- A named and dated event that is matched to the tenant, which has a row unless the event
activates it. -/
structure Matched (db : WebhookDb) (d : Delivery) : Prop where
  named : d.event.id ≠ ""
  dated : (toIso d.event.created).isSome = true
  tenant : (intentOf priceMap d).kind ≠ .ignore →
    resolveTenantFromRef db (intentOf priceMap d).ref = some tenantId
  billed : (intentOf priceMap d).kind ≠ .ignore → (intentOf priceMap d).kind ≠ .activate →
    (getBilling db.books tenantId).isSome = true

instance (db : WebhookDb) (d : Delivery) : Decidable (Matched priceMap tenantId db d) :=
  decidable_of_iff (d.event.id ≠ "" ∧ (toIso d.event.created).isSome = true ∧
      ((intentOf priceMap d).kind ≠ .ignore →
        resolveTenantFromRef db (intentOf priceMap d).ref = some tenantId) ∧
      ((intentOf priceMap d).kind ≠ .ignore → (intentOf priceMap d).kind ≠ .activate →
        (getBilling db.books tenantId).isSome = true))
    ⟨fun h => ⟨h.1, h.2.1, h.2.2.1, h.2.2.2⟩, fun h => ⟨h.named, h.dated, h.tenant, h.billed⟩⟩

def stamp (db : BillingDb) : Option (Option Int) := (getBilling db tenantId).map (·.lastEventAt)

variable {priceMap} {tenantId} {db : BillingDb}

theorem stamp_updateBilling {set : BillingRow → BillingRow}
    (hset : ∀ r, (set r).tenantId = r.tenantId) (hlast : ∀ r, (set r).lastEventAt = r.lastEventAt) :
    stamp tenantId (updateBilling db tenantId set) = stamp tenantId db := by
  unfold stamp
  rw [getBilling_updateBilling hset, map_map]
  congr 1
  funext r
  simp [hlast]

theorem stamp_setPlan (planKey : PlanKey) (actor : String) :
    stamp tenantId (setPlan db tenantId planKey actor) = stamp tenantId db := by
  unfold setPlan
  cases hrow : getBilling db tenantId with
  | none => rfl
  | some row => exact stamp_updateBilling (by exact fun _ => rfl) (by exact fun _ => rfl)

theorem stamp_setProvider (provider customerId subscriptionId : Option String) :
    stamp tenantId (setProvider db tenantId provider customerId subscriptionId) = stamp tenantId db :=
  stamp_updateBilling (by exact fun _ => rfl) (by exact fun _ => rfl)

theorem stamp_setBillingState (target : BillingState) (actor : String) :
    stamp tenantId (setBillingState db tenantId target actor).1 = stamp tenantId db := by
  unfold setBillingState
  cases hrow : getBilling db tenantId with
  | none => rfl
  | some row =>
    dsimp only
    split
    · rfl
    · split
      · rfl
      · exact stamp_updateBilling (by exact fun _ => rfl) (by exact fun _ => rfl)

theorem stamp_resetBillingCycle (allowRollover : Bool) (cycleStart cycleEnd : Int) (actor : String) :
    stamp tenantId (resetBillingCycle db tenantId allowRollover cycleStart cycleEnd actor) =
      stamp tenantId db := by
  unfold resetBillingCycle
  cases hrow : getBilling db tenantId with
  | none => rfl
  | some row => exact stamp_updateBilling (by exact fun _ => rfl) (by exact fun _ => rfl)

theorem stamp_ensureBilling (opts : EnsureBillingOpts) :
    stamp tenantId (ensureBilling db tenantId opts) = some (stamp tenantId db).join := by
  unfold ensureBilling stamp
  cases hrow : getBilling db tenantId with
  | some row =>
    rw [hrow]
    rfl
  | none =>
    unfold getBilling at hrow ⊢
    unfold appendLedger
    rw [List.find?_append, hrow, none_or]
    simp [provisionedRow]

theorem stamp_activateFromStripe (planKey : Option PlanKey) (customerId subscriptionId : Option String) :
    stamp tenantId (activateFromStripe db tenantId planKey customerId subscriptionId) =
      some (stamp tenantId db).join := by
  unfold activateFromStripe
  rw [stamp_setBillingState, stamp_setProvider]
  cases hrow : getBilling db tenantId with
  | some row =>
    have hkept : stamp tenantId db = some (stamp tenantId db).join := by
      unfold stamp
      rw [hrow]
      rfl
    cases planKey with
    | none => exact hkept
    | some key => exact (stamp_setPlan key "stripe").trans hkept
  | none =>
    cases planKey with
    | none => exact stamp_ensureBilling _
    | some key => exact (stamp_setPlan key "stripe").trans (stamp_ensureBilling _)

theorem stamp_renewFromStripe (planKey : Option PlanKey) (cycleStart cycleEnd : Int)
    (allowRollover : Bool) :
    stamp tenantId (renewFromStripe db tenantId planKey cycleStart cycleEnd allowRollover) =
      stamp tenantId db := by
  unfold renewFromStripe
  cases hrow : getBilling db tenantId with
  | none => rfl
  | some row =>
    dsimp only
    split
    · rfl
    · split
      · rfl
      · rw [stamp_resetBillingCycle, stamp_setBillingState]
        cases planKey with
        | none => rfl
        | some key => exact stamp_setPlan key "stripe"

theorem stamp_markPastDueFromStripe (graceEndsAt : Int) :
    stamp tenantId (markPastDueFromStripe db tenantId graceEndsAt) = stamp tenantId db := by
  unfold markPastDueFromStripe
  dsimp only
  split
  · rw [stamp_updateBilling (by exact fun _ => rfl) (by exact fun _ => rfl), stamp_setBillingState]
  · exact stamp_setBillingState .pastDue "stripe:webhook"

theorem stamp_applyIntent {intent : StripeIntent} (nowMs : Int) (hacted : intent.kind ≠ .ignore)
    (hbilled : intent.kind ≠ .activate → (getBilling db tenantId).isSome = true) :
    stamp tenantId (applyIntent db tenantId intent nowMs) = some (stamp tenantId db).join := by
  have hrow : intent.kind ≠ .activate → stamp tenantId db = some (stamp tenantId db).join := by
    intro hkind
    obtain ⟨row, hrow⟩ := isSome_iff_exists.mp (hbilled hkind)
    unfold stamp
    rw [hrow]
    rfl
  unfold applyIntent
  cases hkind : intent.kind with
  | activate =>
    exact stamp_activateFromStripe intent.planKey intent.ref.customerId intent.ref.subscriptionId
  | renew =>
    rw [← hrow (by simp [hkind])]
    exact (stamp_renewFromStripe _ _ _ _).trans (stamp_setProvider _ _ _)
  | pastDue =>
    rw [← hrow (by simp [hkind])]
    exact stamp_markPastDueFromStripe _
  | canceled =>
    rw [← hrow (by simp [hkind])]
    exact stamp_setBillingState .canceled "stripe:webhook"
  | planChange =>
    rw [← hrow (by simp [hkind])]
    cases intent.planKey with
    | none => rfl
    | some key =>
      unfold changePlanFromStripe
      dsimp only
      split
      · exact stamp_setPlan key "stripe"
      · rfl
  | ignore => exact absurd hkind hacted

theorem stamp_bumpLastEvent {created : Int} {last : Option Int} (hstamp : stamp tenantId db = some last)
    (hnewest : ∀ l ∈ last, l ≤ created) :
    stamp tenantId (bumpLastEvent db tenantId (some created)) = some (some created) := by
  obtain ⟨row, hrow, hlast⟩ := map_eq_some_iff.mp hstamp
  unfold bumpLastEvent stamp
  have hkey : ∀ r : BillingRow, (if r.lastEventAt.all (· < created) then
      { r with lastEventAt := some created } else r).tenantId = r.tenantId := by
    intro r
    split <;> rfl
  rw [getBilling_updateBilling hkey, hrow, map_some, map_some, if_pos rfl]
  cases hcase : row.lastEventAt with
  | none => simp
  | some l =>
    have hle : l ≤ created := hnewest l (by rw [← hlast, hcase]; rfl)
    by_cases hlt : l < created
    · simp [hlt]
    · have heq : l = created := by omega
      simp [heq, hcase]

theorem isStaleEvent_eq_false {created : Int} (h : isStaleEvent db tenantId (some created) = false) :
    ∀ l ∈ (stamp tenantId db).join, l ≤ created := by
  intro l hl
  have hlast : (getBilling db tenantId).bind (·.lastEventAt) = some l := by
    unfold stamp at hl
    cases hrow : getBilling db tenantId with
    | none =>
      rw [hrow] at hl
      cases hl
    | some row =>
      rw [hrow] at hl
      exact hl
  unfold isStaleEvent at h
  rw [hlast] at h
  simpa using h

def appliedBooks (priceMap : PriceMap) (tenantId : Int) (books : BillingDb) (d : Delivery) :
    BillingDb :=
  bumpLastEvent (applyIntent books tenantId (intentOf priceMap d) d.nowMs) tenantId
    (toIso d.event.created)

section Step

variable {db : WebhookDb} {d : Delivery}

theorem any_eventId_append (events : List BillingEvent) (row : BillingEvent) (id : String) :
    (events ++ [row]).any (·.eventId = id) = (events.any (·.eventId = id) || row.eventId = id) := by
  simp

theorem recordEvent_books (row : BillingEvent) : (recordEvent db row).books = db.books := by
  unfold recordEvent
  split <;> rfl

theorem recordEvent_tenants (row : BillingEvent) : (recordEvent db row).tenants = db.tenants := by
  unfold recordEvent
  split <;> rfl

theorem wasEventProcessed_recordEvent (row : BillingEvent) (id : String) :
    wasEventProcessed (recordEvent db row) id =
      (wasEventProcessed db id || (id ≠ "" && row.eventId = id)) := by
  unfold wasEventProcessed recordEvent
  by_cases hknown : (row.eventId = "" || db.events.any (·.eventId = row.eventId)) = true
  · rw [if_pos hknown]
    by_cases hid : row.eventId = id
    · subst hid
      rw [Bool.or_eq_true, decide_eq_true_eq] at hknown
      obtain hempty | hold := hknown
      · simp [hempty]
      · rw [hold]
        simp
    · simp [hid]
  · rw [if_neg hknown, any_eventId_append]
    cases decide (id ≠ "") <;> simp

section

variable (hmatched : Matched priceMap tenantId db d)
include hmatched

theorem handleStripeEvent_of_accepted (haccepted : Accepted priceMap tenantId db d) :
    handleStripeEvent priceMap db d.event d.nowMs =
      ({ db with books := appliedBooks priceMap tenantId db.books d },
        ⟨true, (intentOf priceMap d).kind, some tenantId, none⟩) := by
  have hintent : classifyStripeEvent d.event priceMap = intentOf priceMap d := rfl
  have hcreated : (intentOf priceMap d).eventCreated = toIso d.event.created := rfl
  unfold handleStripeEvent
  rw [hintent]
  rw [if_neg haccepted.acted, hmatched.tenant haccepted.acted, hcreated]
  dsimp only
  rw [if_neg (by simp [haccepted.newest])]
  rfl

theorem handleStripeEvent_of_not_accepted (hfirst : wasEventProcessed db d.event.id = false)
    (hrejected : ¬ Accepted priceMap tenantId db d) :
    (handleStripeEvent priceMap db d.event d.nowMs).1 = db := by
  have hintent : classifyStripeEvent d.event priceMap = intentOf priceMap d := rfl
  have hcreated : (intentOf priceMap d).eventCreated = toIso d.event.created := rfl
  unfold handleStripeEvent
  rw [hintent]
  by_cases hacted : (intentOf priceMap d).kind = .ignore
  · rw [if_pos hacted]
  · rw [if_neg hacted, hmatched.tenant hacted, hcreated]
    dsimp only
    have hstale : isStaleEvent db.books tenantId (toIso d.event.created) = true := by
      by_contra hnewest
      exact hrejected ⟨hfirst, hacted, by simpa using hnewest⟩
    rw [if_pos hstale]

theorem deliver_of_accepted (haccepted : Accepted priceMap tenantId db d) :
    (deliver priceMap db d).books = appliedBooks priceMap tenantId db.books d ∧
      (deliver priceMap db d).tenants = db.tenants ∧
      ∀ id, wasEventProcessed (deliver priceMap db d) id =
        (wasEventProcessed db id || (id ≠ "" && d.event.id = id)) := by
  unfold deliver processWebhookEvent
  rw [if_neg (by simp [haccepted.first]), handleStripeEvent_of_accepted hmatched haccepted]
  refine ⟨recordEvent_books _, recordEvent_tenants _, ?_⟩
  intro id
  exact wasEventProcessed_recordEvent _ id

theorem deliver_of_not_accepted (hrejected : ¬ Accepted priceMap tenantId db d) :
    (deliver priceMap db d).books = db.books ∧ (deliver priceMap db d).tenants = db.tenants ∧
      ∀ id, wasEventProcessed db id = true →
        wasEventProcessed (deliver priceMap db d) id = true := by
  unfold deliver processWebhookEvent
  by_cases hfirst : wasEventProcessed db d.event.id = true
  · rw [if_pos hfirst]
    exact ⟨rfl, rfl, fun _ hid => hid⟩
  · have hhandled := handleStripeEvent_of_not_accepted hmatched (by simpa using hfirst) hrejected
    rw [if_neg hfirst]
    dsimp only
    rw [hhandled]
    split
    · exact ⟨rfl, rfl, fun _ hid => hid⟩
    · refine ⟨recordEvent_books _, recordEvent_tenants _, ?_⟩
      intro id hid
      rw [wasEventProcessed_recordEvent, hid, Bool.true_or]

theorem deliver_processed {id : String}
    (hid : wasEventProcessed db id = true) : wasEventProcessed (deliver priceMap db d) id = true := by
  by_cases haccepted : Accepted priceMap tenantId db d
  · rw [(deliver_of_accepted hmatched haccepted).2.2, hid, Bool.true_or]
  · exact (deliver_of_not_accepted hmatched haccepted).2.2 id hid

theorem stamp_deliver (haccepted : Accepted priceMap tenantId db d) :
    stamp tenantId (deliver priceMap db d).books = some (some (createdAt d)) := by
  obtain ⟨created, hcreated⟩ := isSome_iff_exists.mp hmatched.dated
  have happlied := stamp_applyIntent d.nowMs haccepted.acted (hmatched.billed haccepted.acted)
  have hnewest := haccepted.newest
  rw [hcreated] at hnewest
  rw [(deliver_of_accepted hmatched haccepted).1, appliedBooks, hcreated,
    stamp_bumpLastEvent happlied (isStaleEvent_eq_false hnewest), createdAt, hcreated]
  rfl

theorem createdAt_ge (haccepted : Accepted priceMap tenantId db d) {last : Int}
    (hstamp : stamp tenantId db.books = some (some last)) : last ≤ createdAt d := by
  obtain ⟨created, hcreated⟩ := isSome_iff_exists.mp hmatched.dated
  have hnewest := haccepted.newest
  rw [hcreated] at hnewest
  rw [createdAt, hcreated]
  exact isStaleEvent_eq_false hnewest last (by rw [hstamp]; rfl)

end

end Step

section Renewal

variable {db : BillingDb}

def cycleStartOf (tenantId : Int) (db : BillingDb) : Option Int :=
  (getBilling db tenantId).bind (·.cycleStart)

theorem cycleStartOf_updateBilling {set : BillingRow → BillingRow}
    (hset : ∀ r, (set r).tenantId = r.tenantId) (hcycle : ∀ r, (set r).cycleStart = r.cycleStart) :
    cycleStartOf tenantId (updateBilling db tenantId set) = cycleStartOf tenantId db := by
  unfold cycleStartOf
  rw [getBilling_updateBilling hset]
  cases getBilling db tenantId with
  | none => rfl
  | some row => simp [hcycle]

theorem cycleStartOf_resetBillingCycle (hstamp : (stamp tenantId db).isSome = true)
    (allowRollover : Bool) (cycleStart cycleEnd : Int) (actor : String) :
    cycleStartOf tenantId (resetBillingCycle db tenantId allowRollover cycleStart cycleEnd actor) =
      some cycleStart := by
  unfold stamp at hstamp
  unfold cycleStartOf resetBillingCycle
  cases hrow : getBilling db tenantId with
  | none =>
    rw [hrow] at hstamp
    cases hstamp
  | some row =>
    rw [getBilling_appendLedger, getBilling_updateBilling (by exact fun _ => rfl), hrow]
    simp

theorem cycleStartOf_renewFromStripe {row : BillingRow} (hrow : getBilling db tenantId = some row)
    (hstate : row.state ≠ .canceled) (planKey : Option PlanKey) (cycleStart cycleEnd : Int)
    (allowRollover : Bool) :
    cycleStartOf tenantId (renewFromStripe db tenantId planKey cycleStart cycleEnd allowRollover) =
      some cycleStart := by
  have hstamp : (stamp tenantId db).isSome = true := by simp [stamp, hrow]
  unfold renewFromStripe
  rw [hrow]
  dsimp only
  rw [if_neg hstate]
  split
  · unfold cycleStartOf
    rw [hrow]
    assumption
  · apply cycleStartOf_resetBillingCycle
    rw [stamp_setBillingState]
    cases planKey with
    | none => exact hstamp
    | some key => rw [stamp_setPlan]; exact hstamp

theorem cycleStartOf_bumpLastEvent (eventCreated : Option Int) :
    cycleStartOf tenantId (bumpLastEvent db tenantId eventCreated) = cycleStartOf tenantId db := by
  unfold bumpLastEvent
  cases eventCreated with
  | none => rfl
  | some created =>
    apply cycleStartOf_updateBilling
    · intro r
      split <;> rfl
    · intro r
      split <;> rfl

end Renewal

theorem renewal_starts {db : WebhookDb} {d : Delivery} (hmatched : Matched priceMap tenantId db d)
    (haccepted : Accepted priceMap tenantId db d) (hkind : (intentOf priceMap d).kind = .renew)
    {row : BillingRow} (hrow : getBilling db.books tenantId = some row)
    (hstate : row.state ≠ .canceled) :
    cycleStartOf tenantId (deliver priceMap db d).books =
      some ((intentOf priceMap d).periodStart.getD d.nowMs) := by
  rw [(deliver_of_accepted hmatched haccepted).1, appliedBooks, cycleStartOf_bumpLastEvent]
  unfold applyIntent
  rw [hkind]
  have hprovided : getBilling (setProvider db.books tenantId (some "stripe")
      (intentOf priceMap d).ref.customerId (intentOf priceMap d).ref.subscriptionId) tenantId =
        some { row with
          provider := some "stripe"
          providerCustomerId := (intentOf priceMap d).ref.customerId.or row.providerCustomerId
          providerSubscriptionId :=
            (intentOf priceMap d).ref.subscriptionId.or row.providerSubscriptionId } := by
    unfold setProvider
    rw [getBilling_updateBilling (by exact fun _ => rfl), hrow, map_some, if_pos rfl]
    rfl
  exact cycleStartOf_renewFromStripe hprovided hstate _ _ _ _

section Runs

theorem accepted_cons_pos {db : WebhookDb} {d : Delivery} (ds : List Delivery)
    (h : Accepted priceMap tenantId db d) : accepted priceMap tenantId db (d :: ds) =
      d :: accepted priceMap tenantId (deliver priceMap db d) ds := if_pos h

theorem accepted_cons_neg {db : WebhookDb} {d : Delivery} (ds : List Delivery)
    (h : ¬ Accepted priceMap tenantId db d) : accepted priceMap tenantId db (d :: ds) =
      accepted priceMap tenantId (deliver priceMap db d) ds := if_neg h

theorem accepted_sublist (db : WebhookDb) (ds : List Delivery) :
    (accepted priceMap tenantId db ds).Sublist ds := by
  induction ds generalizing db with
  | nil => exact List.Sublist.refl []
  | cons d ds ih =>
    by_cases haccepted : Accepted priceMap tenantId db d
    · rw [accepted_cons_pos ds haccepted]
      exact (ih _).cons_cons d
    · rw [accepted_cons_neg ds haccepted]
      exact (ih _).cons d

variable {ds : List Delivery} {mirror : WebhookDb}

theorem accepted_once {db : WebhookDb}
    (h : Along (deliver priceMap) (Matched priceMap tenantId) db ds) :
    (∀ d ∈ accepted priceMap tenantId db ds, wasEventProcessed db d.event.id = false) ∧
      ((accepted priceMap tenantId db ds).map (·.event.id)).Nodup := by
  induction ds generalizing db with
  | nil => exact ⟨fun d hd => absurd hd List.not_mem_nil, List.nodup_nil⟩
  | cons d ds ih =>
    obtain ⟨hfresh, hnodup⟩ := ih h.2
    have hold : ∀ a ∈ accepted priceMap tenantId (deliver priceMap db d) ds,
        wasEventProcessed db a.event.id = false := by
      intro a ha
      by_contra hprocessed
      have hkept := deliver_processed h.1 (by simpa using hprocessed)
      rw [hfresh a ha] at hkept
      cases hkept
    by_cases haccepted : Accepted priceMap tenantId db d
    · rw [accepted_cons_pos ds haccepted]
      refine ⟨?_, ?_⟩
      · intro a ha
        obtain rfl | htail := List.mem_cons.mp ha
        · exact haccepted.first
        · exact hold a htail
      · rw [List.map_cons, List.nodup_cons]
        refine ⟨?_, hnodup⟩
        intro hmem
        obtain ⟨a, ha, hsame⟩ := List.mem_map.mp hmem
        have hprocessed := (deliver_of_accepted h.1 haccepted).2.2 a.event.id
        rw [hfresh a ha, hsame] at hprocessed
        simp [h.1.named] at hprocessed
    · rw [accepted_cons_neg ds haccepted]
      exact ⟨hold, hnodup⟩

theorem accepted_sorted {db : WebhookDb}
    (h : Along (deliver priceMap) (Matched priceMap tenantId) db ds) :
    (∀ last, stamp tenantId db.books = some (some last) →
      ∀ d ∈ accepted priceMap tenantId db ds, last ≤ createdAt d) ∧
    (accepted priceMap tenantId db ds).Pairwise (fun a b => createdAt a ≤ createdAt b) := by
  induction ds generalizing db with
  | nil => exact ⟨fun last hlast d hd => absurd hd List.not_mem_nil, List.Pairwise.nil⟩
  | cons d ds ih =>
    obtain ⟨hlater, hsorted⟩ := ih h.2
    by_cases haccepted : Accepted priceMap tenantId db d
    · rw [accepted_cons_pos ds haccepted]
      have htail := hlater _ (stamp_deliver h.1 haccepted)
      refine ⟨?_, List.pairwise_cons.mpr ⟨htail, hsorted⟩⟩
      intro last hlast a ha
      have hhead := createdAt_ge h.1 haccepted hlast
      obtain rfl | hrest := List.mem_cons.mp ha
      · exact hhead
      · exact le_trans hhead (htail a hrest)
    · rw [accepted_cons_neg ds haccepted]
      have hbooks := (deliver_of_not_accepted h.1 haccepted).1
      refine ⟨?_, hsorted⟩
      intro last hlast a ha
      exact hlater last (by rw [hbooks]; exact hlast) a ha

/-- The second database has the books of the first and processed no more events. -/
structure Mirrors (db mirror : WebhookDb) : Prop where
  books : mirror.books = db.books
  tenants : mirror.tenants = db.tenants
  processed : ∀ id, wasEventProcessed mirror id = true → wasEventProcessed db id = true

theorem resolveTenantFromRef_congr {db : WebhookDb} (h : Mirrors db mirror) (ref : StripeRef) :
    resolveTenantFromRef mirror ref = resolveTenantFromRef db ref := by
  unfold resolveTenantFromRef tenantExists
  rw [h.books, h.tenants]

theorem Mirrors.accepted {db : WebhookDb} (h : Mirrors db mirror) {d : Delivery}
    (hmatched : Matched priceMap tenantId db d) (haccepted : Accepted priceMap tenantId db d) :
    Matched priceMap tenantId mirror d ∧ Accepted priceMap tenantId mirror d := by
  refine ⟨⟨hmatched.named, hmatched.dated, ?_, ?_⟩, ?_, haccepted.acted, ?_⟩
  · rw [resolveTenantFromRef_congr h]
    exact hmatched.tenant
  · rw [h.books]
    exact hmatched.billed
  · by_contra hprocessed
    have hdb := h.processed d.event.id (by simpa using hprocessed)
    rw [haccepted.first] at hdb
    cases hdb
  · rw [h.books]
    exact haccepted.newest

theorem Mirrors.deliver {db : WebhookDb} (h : Mirrors db mirror) {d : Delivery}
    (hmatched : Matched priceMap tenantId db d) (haccepted : Accepted priceMap tenantId db d) :
    Mirrors (Billing.deliver priceMap db d) (Billing.deliver priceMap mirror d) := by
  obtain ⟨hmatched', haccepted'⟩ := h.accepted hmatched haccepted
  obtain ⟨hbooks, htenants, hprocessed⟩ := deliver_of_accepted hmatched haccepted
  obtain ⟨hbooks', htenants', hprocessed'⟩ := deliver_of_accepted hmatched' haccepted'
  refine ⟨?_, ?_, ?_⟩
  · rw [hbooks, hbooks', h.books]
  · rw [htenants, htenants', h.tenants]
  · intro id hid
    rw [hprocessed', Bool.or_eq_true] at hid
    rw [hprocessed, Bool.or_eq_true]
    exact hid.imp (h.processed id) (fun hnew => hnew)

theorem books_accepted {db : WebhookDb} (hmirrors : Mirrors db mirror)
    (h : Along (deliver priceMap) (Matched priceMap tenantId) db ds) :
    (run (deliver priceMap) mirror (accepted priceMap tenantId db ds)).books =
      (run (deliver priceMap) db ds).books := by
  induction ds generalizing db mirror with
  | nil => exact hmirrors.books
  | cons d ds ih =>
    by_cases haccepted : Accepted priceMap tenantId db d
    · rw [accepted_cons_pos ds haccepted, run_cons, run_cons]
      exact ih (hmirrors.deliver h.1 haccepted) h.2
    · obtain ⟨hbooks, htenants, hprocessed⟩ := deliver_of_not_accepted h.1 haccepted
      rw [accepted_cons_neg ds haccepted, run_cons]
      refine ih ⟨?_, ?_, ?_⟩ h.2
      · rw [hbooks, hmirrors.books]
      · rw [htenants, hmirrors.tenants]
      · intro id hid
        exact hprocessed id (hmirrors.processed id hid)

end Runs

/-- In any order and with any repetition, the deliveries leave the books that the accepted ones
leave when each is delivered once in order of creation. The others change nothing, and an accepted
renewal starts its cycle unless the subscription is canceled. -/
theorem webhooks_converge (priceMap : PriceMap) (tenantId : Int) (db : WebhookDb)
    (ds : List Delivery) (h : Along (deliver priceMap) (Matched priceMap tenantId) db ds) :
    (run (deliver priceMap) db ds).books =
        (run (deliver priceMap) db (inOrder (accepted priceMap tenantId db ds))).books ∧
      (accepted priceMap tenantId db ds).Sublist ds ∧
      ((accepted priceMap tenantId db ds).map (·.event.id)).Nodup ∧
      Along (deliver priceMap) (fun db d => ¬ Accepted priceMap tenantId db d →
        (deliver priceMap db d).books = db.books) db ds ∧
      Along (deliver priceMap) (fun db d => Accepted priceMap tenantId db d →
        (intentOf priceMap d).kind = .renew → ∀ row ∈ getBilling db.books tenantId,
          row.state ≠ .canceled → cycleStartOf tenantId (deliver priceMap db d).books =
            some ((intentOf priceMap d).periodStart.getD d.nowMs)) db ds := by
  have hsorted : inOrder (accepted priceMap tenantId db ds) = accepted priceMap tenantId db ds :=
    (accepted_sorted h).2.insertionSort_eq
  have hself : Mirrors db db := ⟨rfl, rfl, fun _ hid => hid⟩
  refine ⟨?_, accepted_sublist db ds, (accepted_once h).2, ?_, ?_⟩
  · rw [hsorted, books_accepted hself h]
  · exact h.mono fun db d hmatched hrejected => (deliver_of_not_accepted hmatched hrejected).1
  · apply h.mono
    intro db d hmatched haccepted hkind row hrow hstate
    exact renewal_starts hmatched haccepted hkind hrow hstate

def samplePrices : PriceMap := fun priceId =>
  if priceId = "price_growth" then some .growth else none

def sampleTenant : WebhookDb := ⟨⟨[], []⟩, [], [7]⟩

def checkout : Delivery where
  nowMs := 0
  event :=
    { id := "evt_checkout", type := .checkoutSessionCompleted, created := some 100
      object :=
        { mode := some "subscription", paymentStatus := some "paid", clientReferenceId := some 7
          metadata := { planKey := some .growth }
          customer := some "cus_7", subscription := some "sub_7" } }

def renewal : Delivery where
  nowMs := 0
  event :=
    { id := "evt_renewal", type := .invoicePaid, created := some 200
      object :=
        { customer := some "cus_7", subscription := some "sub_7"
          line := { period := some ⟨some 190, some 290⟩, priceId := some "price_growth" } } }

def subscriptionUpdate : Delivery where
  nowMs := 0
  event :=
    { id := "evt_updated", type := .subscriptionUpdated, created := some 300
      object :=
        { id := some "sub_7", customer := some "cus_7", status := "active"
          itemPriceId := some "price_growth" } }

/-- The renewal arrives after the newer update of the subscription, and twice. -/
def lateRenewal : List Delivery := [checkout, subscriptionUpdate, renewal, renewal]

theorem webhooks_converge_lateRenewal :
    (run (deliver samplePrices) sampleTenant lateRenewal).books =
      (run (deliver samplePrices) sampleTenant
        (inOrder (accepted samplePrices 7 sampleTenant lateRenewal))).books :=
  (webhooks_converge samplePrices 7 sampleTenant lateRenewal (by decide +kernel)).1

/-- Its billing cycle never starts, where in order of creation it does. -/
theorem lateRenewal_diverges :
    cycleStartOf 7 (run (deliver samplePrices) sampleTenant lateRenewal).books ≠
      cycleStartOf 7 (run (deliver samplePrices) sampleTenant
        [checkout, renewal, subscriptionUpdate]).books := by
  decide +kernel

end HomefrontFiber.Billing
