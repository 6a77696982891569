import HomefrontFiber.Billing.Store

/-!
# The credits of a tenant match its ledger

The counters of the billing row are rewritten by each call while the ledger only grows. In every run
the counters of a tenant are the counts of its deliveries since its last cycle reset, and no lead is
charged twice.
-/

namespace HomefrontFiber.Billing

open List Option

def entriesOf (tenantId : Int) (db : BillingDb) : List LedgerRow :=
  db.ledger.filter (·.tenantId = tenantId)

def sinceReset (entries : List LedgerRow) : List LedgerRow :=
  entries.foldl (fun cycle e => if e.reason = .cycleReset then [] else cycle ++ [e]) []

def LedgerRow.delivery (e : LedgerRow) : Bool := e.reason = .leadDelivered

def deliveries (tenantId : Int) (db : BillingDb) : List LedgerRow :=
  (sinceReset (entriesOf tenantId db)).filter LedgerRow.delivery

theorem sinceReset_snoc (entries : List LedgerRow) (e : LedgerRow) : sinceReset (entries ++ [e]) =
    if e.reason = .cycleReset then [] else sinceReset entries ++ [e] := by
  unfold sinceReset
  rw [foldl_append]
  rfl

theorem entriesOf_append {db db' : BillingDb} {e : LedgerRow} (h : db'.ledger = db.ledger ++ [e])
    (tenantId : Int) : entriesOf tenantId db' =
      entriesOf tenantId db ++ if e.tenantId = tenantId then [e] else [] := by
  unfold entriesOf
  rw [h, filter_append]
  by_cases hown : e.tenantId = tenantId
  · simp [hown]
  · simp [hown]

def chargesOf (tenantId leadId : Int) (db : BillingDb) : List LedgerRow :=
  (entriesOf tenantId db).filter fun e => e.delivery && e.leadId = some leadId

/-- What a call does to the row and to the ledger of its tenant. -/
inductive Effect (tenantId : Int) (db : BillingDb) : BillingDb → Prop
  | none : Effect tenantId db db
  | provisioned (row : BillingRow) (e : LedgerRow) (hdark : getBilling db tenantId = Option.none)
      (hrow : row.tenantId = tenantId)
      (hzero : row.creditsUsed = 0 ∧ row.overageUsed = 0 ∧ row.creditsRollover = 0)
      (hown : e.tenantId = tenantId) (hreason : e.reason = .grant) :
      Effect tenantId db (appendLedger { db with billing := db.billing ++ [row] } e)
  | noted (set : BillingRow → BillingRow) (row : BillingRow) (e : LedgerRow)
      (hset : ∀ r, (set r).tenantId = r.tenantId) (hbefore : getBilling db tenantId = some row)
      (hsame : (set row).creditsUsed = row.creditsUsed ∧ (set row).overageUsed = row.overageUsed ∧
        (set row).creditsRollover = row.creditsRollover)
      (hown : e.tenantId = tenantId)
      (hreason : e.reason ≠ .leadDelivered ∧ e.reason ≠ .cycleReset) :
      Effect tenantId db (appendLedger (updateBilling db tenantId set) e)
  | charged (set : BillingRow → BillingRow) (row : BillingRow) (e : LedgerRow) (leadId : Int)
      (hset : ∀ r, (set r).tenantId = r.tenantId) (hbefore : getBilling db tenantId = some row)
      (hdelivers : Delivers (toCreditState row) e.overage)
      (hcount : (set row).creditsUsed = row.creditsUsed + 1 ∧
        (set row).overageUsed = row.overageUsed + (if e.overage then 1 else 0) ∧
        (set row).creditsRollover = row.creditsRollover)
      (hown : e.tenantId = tenantId) (hreason : e.reason = .leadDelivered)
      (hlead : e.leadId = some leadId) (hkey : e.dedupeKey = some (dedupeKey tenantId leadId))
      (hfresh : ∀ prior ∈ db.ledger, prior.dedupeKey ≠ some (dedupeKey tenantId leadId)) :
      Effect tenantId db (appendLedger (updateBilling db tenantId set) e)
  | reset (set : BillingRow → BillingRow) (row : BillingRow) (e : LedgerRow) (allowRollover : Bool)
      (hset : ∀ r, (set r).tenantId = r.tenantId) (hbefore : getBilling db tenantId = some row)
      (hzero : (set row).creditsUsed = 0 ∧ (set row).overageUsed = 0)
      (hcarried :
        (set row).creditsRollover = (resetCycle (toCreditState row) allowRollover).rollover)
      (hown : e.tenantId = tenantId) (hreason : e.reason = .cycleReset) :
      Effect tenantId db (appendLedger (updateBilling db tenantId set) e)

variable {db : BillingDb} {tenantId : Int}

theorem effect_ensureBilling (opts : EnsureBillingOpts) :
    Effect tenantId db (ensureBilling db tenantId opts) := by
  unfold ensureBilling
  cases hrow : getBilling db tenantId with
  | some row => exact .none
  | none =>
    exact .provisioned (provisionedRow tenantId opts) _ hrow rfl ⟨rfl, rfl, rfl⟩ rfl rfl

theorem effect_meterQualifiedLead (leadId : Int) (actor : String) :
    Effect tenantId db (meterQualifiedLead db tenantId leadId actor).1 := by
  unfold meterQualifiedLead
  cases hrow : getBilling db tenantId with
  | none => exact .none
  | some row =>
    dsimp only
    cases hprior : db.ledger.find? (·.dedupeKey = some (dedupeKey tenantId leadId)) with
    | some prior => exact .none
    | none =>
      dsimp only
      obtain hrefused | ⟨overage, hdelivers, hconsume⟩ := consumeCredit_cases (toCreditState row)
      · rw [if_neg (by simp [hrefused])]
        exact .none
      · rw [hconsume, if_pos rfl]
        have hfresh : ∀ prior ∈ db.ledger,
            prior.dedupeKey ≠ some (dedupeKey tenantId leadId) := by
          intro prior hmem
          have hno := find?_eq_none.mp hprior prior hmem
          simpa using hno
        let charge (r : BillingRow) : BillingRow := { r with
          creditsUsed := row.creditsUsed + 1
          creditsRollover := row.creditsRollover
          creditsPurchased := row.creditsPurchased
          overageUsed := row.overageUsed + if overage then 1 else 0 }
        exact .charged charge row _ leadId (fun _ => rfl) hrow hdelivers ⟨rfl, rfl, rfl⟩ rfl rfl rfl
          rfl hfresh

theorem effect_grantCredits (amount : Int) (reason : GrantReason) (actor : String) :
    Effect tenantId db (grantCredits db tenantId amount reason actor) := by
  unfold grantCredits
  cases hrow : getBilling db tenantId with
  | none => exact .none
  | some row =>
    by_cases hamount : amount ≤ 0
    · rw [if_pos hamount]
      exact .none
    · rw [if_neg hamount]
      have hreason : reason.ledger ≠ .leadDelivered ∧ reason.ledger ≠ .cycleReset := by
        cases reason <;> decide
      exact .noted _ row _ (by exact fun _ => rfl) hrow ⟨rfl, rfl, rfl⟩ rfl hreason

theorem effect_setPlan (planKey : PlanKey) (actor : String) :
    Effect tenantId db (setPlan db tenantId planKey actor) := by
  unfold setPlan
  cases hrow : getBilling db tenantId with
  | none => exact .none
  | some row =>
    have hreason : LedgerReason.planChange ≠ .leadDelivered ∧
        LedgerReason.planChange ≠ .cycleReset := by decide
    exact .noted _ row _ (by exact fun _ => rfl) hrow ⟨rfl, rfl, rfl⟩ rfl hreason

theorem effect_setBillingState (target : BillingState) (actor : String) :
    Effect tenantId db (setBillingState db tenantId target actor).1 := by
  unfold setBillingState
  cases hrow : getBilling db tenantId with
  | none => exact .none
  | some row =>
    dsimp only
    by_cases hself : row.state = target
    · rw [if_pos hself]
      exact .none
    · rw [if_neg hself]
      by_cases hlegal : canTransition row.state target = true
      · rw [if_neg (by simp [hlegal])]
        have hreason : LedgerReason.stateChange ≠ .leadDelivered ∧
            LedgerReason.stateChange ≠ .cycleReset := by decide
        exact .noted _ row _ (by exact fun _ => rfl) hrow ⟨rfl, rfl, rfl⟩ rfl hreason
      · rw [if_pos (by simpa using hlegal)]
        exact .none

theorem effect_resetBillingCycle (allowRollover : Bool) (cycleStart cycleEnd : Int)
    (actor : String) :
    Effect tenantId db (resetBillingCycle db tenantId allowRollover cycleStart cycleEnd actor) := by
  unfold resetBillingCycle
  cases hrow : getBilling db tenantId with
  | none => exact .none
  | some row =>
    exact .reset _ row _ allowRollover (by exact fun _ => rfl) hrow ⟨rfl, rfl⟩ rfl rfl rfl

def BillingCall.tenant : BillingCall → Int
  | .ensureBilling tenantId _ | .meterQualifiedLead tenantId _ _ | .grantCredits tenantId _ _ _
  | .setPlan tenantId _ _ | .setBillingState tenantId _ _ | .resetBillingCycle tenantId _ _ _ _ =>
    tenantId

theorem effect_act (call : BillingCall) : Effect call.tenant db (act db call) := by
  cases call with
  | ensureBilling _ opts => exact effect_ensureBilling opts
  | meterQualifiedLead _ leadId actor => exact effect_meterQualifiedLead leadId actor
  | grantCredits _ amount reason actor => exact effect_grantCredits amount reason actor
  | setPlan _ planKey actor => exact effect_setPlan planKey actor
  | setBillingState _ target actor => exact effect_setBillingState target actor
  | resetBillingCycle _ allowRollover cycleStart cycleEnd actor =>
    exact effect_resetBillingCycle allowRollover cycleStart cycleEnd actor

theorem getBilling_updateBilling_own {set : BillingRow → BillingRow}
    (hset : ∀ r, (set r).tenantId = r.tenantId) {row : BillingRow}
    (hrow : getBilling db tenantId = some row) :
    getBilling (updateBilling db tenantId set) tenantId = some (set row) := by
  rw [getBilling_updateBilling hset, hrow, map_some, if_pos rfl]

theorem getBilling_updateBilling_other {set : BillingRow → BillingRow}
    (hset : ∀ r, (set r).tenantId = r.tenantId) {other : Int} (hother : other ≠ tenantId) :
    getBilling (updateBilling db tenantId set) other = getBilling db other := by
  rw [getBilling_updateBilling hset]
  simp [hother]

theorem getBilling_insert (row : BillingRow) (e : LedgerRow) (other : Int) :
    getBilling (appendLedger { db with billing := db.billing ++ [row] } e) other =
      (getBilling db other).or (if row.tenantId = other then some row else none) := by
  unfold getBilling appendLedger
  rw [find?_append]
  by_cases hrow : row.tenantId = other
  · simp [hrow]
  · simp [hrow]

theorem Effect.other {db' : BillingDb} (h : Effect tenantId db db') {other : Int}
    (hother : other ≠ tenantId) :
    getBilling db' other = getBilling db other ∧ entriesOf other db' = entriesOf other db := by
  have hentries : ∀ {db' : BillingDb} (e : LedgerRow), db'.ledger = db.ledger ++ [e] →
      e.tenantId = tenantId → entriesOf other db' = entriesOf other db := by
    intro db' e hledger hown
    rw [entriesOf_append hledger, if_neg (by rw [hown]; exact hother.symm), append_nil]
  cases h with
  | none => exact ⟨rfl, rfl⟩
  | provisioned row e hdark hrow hzero hown hreason =>
    refine ⟨?_, hentries e rfl hown⟩
    rw [getBilling_insert, if_neg (by rw [hrow]; exact hother.symm), or_none]
  | noted set row e hset hbefore hsame hown hreason =>
    exact ⟨getBilling_updateBilling_other hset hother, hentries e rfl hown⟩
  | charged set row e leadId hset hbefore hdelivers hcount hown hreason hlead hkey hfresh =>
    exact ⟨getBilling_updateBilling_other hset hother, hentries e rfl hown⟩
  | reset set row e allowRollover hset hbefore hzero hcarried hown hreason =>
    exact ⟨getBilling_updateBilling_other hset hother, hentries e rfl hown⟩

structure MatchesLedger (tenantId : Int) (db : BillingDb) : Prop where
  once : ∀ leadId, (chargesOf tenantId leadId db).length ≤ 1
  used : ∀ row ∈ getBilling db tenantId, row.creditsUsed = (deliveries tenantId db).length
  overage : ∀ row ∈ getBilling db tenantId,
    row.overageUsed = ((deliveries tenantId db).filter (·.overage)).length
  rollover : ∀ row ∈ getBilling db tenantId, 0 ≤ row.creditsRollover

/-- What else every call keeps: a dark tenant has no entries, and a delivery has its lead's key. -/
structure Counted (tenantId : Int) (db : BillingDb) : Prop extends MatchesLedger tenantId db where
  dark : getBilling db tenantId = none → entriesOf tenantId db = []
  keyed : ∀ e ∈ entriesOf tenantId db, e.delivery = true → ∀ leadId, e.leadId = some leadId →
    e.dedupeKey = some (dedupeKey tenantId leadId)

theorem Counted.congr {db' : BillingDb} (h : Counted tenantId db)
    (hrow : getBilling db' tenantId = getBilling db tenantId)
    (hentries : entriesOf tenantId db' = entriesOf tenantId db) : Counted tenantId db' where
  once := by
    unfold chargesOf
    rw [hentries]
    exact h.once
  used := by
    unfold deliveries
    rw [hrow, hentries]
    exact h.used
  overage := by
    unfold deliveries
    rw [hrow, hentries]
    exact h.overage
  rollover := by
    rw [hrow]
    exact h.rollover
  dark := by
    rw [hrow, hentries]
    exact h.dark
  keyed := by
    rw [hentries]
    exact h.keyed

section Snoc

variable {db' : BillingDb} {e : LedgerRow}

theorem entriesOf_own (hledger : db'.ledger = db.ledger ++ [e]) (hown : e.tenantId = tenantId) :
    entriesOf tenantId db' = entriesOf tenantId db ++ [e] := by
  rw [entriesOf_append hledger, if_pos hown]

theorem deliveries_of_reset (hledger : db'.ledger = db.ledger ++ [e]) (hown : e.tenantId = tenantId)
    (hreason : e.reason = .cycleReset) : deliveries tenantId db' = [] := by
  unfold deliveries
  rw [entriesOf_own hledger hown, sinceReset_snoc, if_pos hreason]
  rfl

theorem deliveries_of_noted (hledger : db'.ledger = db.ledger ++ [e]) (hown : e.tenantId = tenantId)
    (hreason : e.reason ≠ .leadDelivered ∧ e.reason ≠ .cycleReset) :
    deliveries tenantId db' = deliveries tenantId db := by
  unfold deliveries
  rw [entriesOf_own hledger hown, sinceReset_snoc, if_neg hreason.2, filter_append]
  have hskip : [e].filter LedgerRow.delivery = [] := by simp [LedgerRow.delivery, hreason.1]
  rw [hskip, append_nil]

theorem deliveries_of_charged (hledger : db'.ledger = db.ledger ++ [e])
    (hown : e.tenantId = tenantId) (hreason : e.reason = .leadDelivered) :
    deliveries tenantId db' = deliveries tenantId db ++ [e] := by
  unfold deliveries
  have hnoreset : e.reason ≠ .cycleReset := by simp [hreason]
  rw [entriesOf_own hledger hown, sinceReset_snoc, if_neg hnoreset, filter_append]
  have hkeep : [e].filter LedgerRow.delivery = [e] := by simp [LedgerRow.delivery, hreason]
  rw [hkeep]

theorem chargesOf_of_noted (hledger : db'.ledger = db.ledger ++ [e]) (hown : e.tenantId = tenantId)
    (hreason : e.reason ≠ .leadDelivered) (leadId : Int) :
    chargesOf tenantId leadId db' = chargesOf tenantId leadId db := by
  unfold chargesOf
  rw [entriesOf_own hledger hown, filter_append]
  have hskip : [e].filter (fun e => e.delivery && e.leadId = some leadId) = [] := by
    simp [LedgerRow.delivery, hreason]
  rw [hskip, append_nil]

theorem keyed_snoc (h : Counted tenantId db) (hledger : db'.ledger = db.ledger ++ [e])
    (hown : e.tenantId = tenantId) (hkey : e.delivery = true → ∀ leadId, e.leadId = some leadId →
      e.dedupeKey = some (dedupeKey tenantId leadId)) :
    ∀ a ∈ entriesOf tenantId db', a.delivery = true → ∀ leadId, a.leadId = some leadId →
      a.dedupeKey = some (dedupeKey tenantId leadId) := by
  intro a hmem
  rw [entriesOf_own hledger hown, mem_append, mem_singleton] at hmem
  obtain hold | rfl := hmem
  · exact h.keyed a hold
  · exact hkey

theorem chargesOf_of_fresh (h : Counted tenantId db) {leadId : Int}
    (hfresh : ∀ prior ∈ db.ledger, prior.dedupeKey ≠ some (dedupeKey tenantId leadId)) :
    chargesOf tenantId leadId db = [] := by
  unfold chargesOf
  rw [filter_eq_nil_iff]
  intro a hmem hcharge
  rw [Bool.and_eq_true, decide_eq_true_eq] at hcharge
  have hkey := h.keyed a hmem hcharge.1 leadId hcharge.2
  exact hfresh a (mem_filter.mp hmem).1 hkey

end Snoc

theorem Counted.of_row {row : BillingRow} (hrow : getBilling db tenantId = some row)
    (once : ∀ leadId, (chargesOf tenantId leadId db).length ≤ 1)
    (used : row.creditsUsed = (deliveries tenantId db).length)
    (overage : row.overageUsed = ((deliveries tenantId db).filter (·.overage)).length)
    (rollover : 0 ≤ row.creditsRollover)
    (keyed : ∀ e ∈ entriesOf tenantId db, e.delivery = true → ∀ leadId, e.leadId = some leadId →
      e.dedupeKey = some (dedupeKey tenantId leadId)) : Counted tenantId db where
  once := once
  used := by simpa [hrow] using used
  overage := by simpa [hrow] using overage
  rollover := by simpa [hrow] using rollover
  dark hnone := by simp [hrow] at hnone
  keyed := keyed

/-- An entry that delivers no lead adds nothing to the charges. -/
theorem Counted.undelivered {db' : BillingDb} (h : Counted tenantId db) {row : BillingRow}
    {e : LedgerRow} (hledger : db'.ledger = db.ledger ++ [e]) (hown : e.tenantId = tenantId)
    (hreason : e.reason ≠ .leadDelivered) (hrow : getBilling db' tenantId = some row)
    (used : row.creditsUsed = (deliveries tenantId db').length)
    (overage : row.overageUsed = ((deliveries tenantId db').filter (·.overage)).length)
    (rollover : 0 ≤ row.creditsRollover) : Counted tenantId db' := by
  refine .of_row hrow ?_ used overage rollover (keyed_snoc h hledger hown ?_)
  · intro leadId
    rw [chargesOf_of_noted hledger hown hreason]
    exact h.once leadId
  · intro hdelivery
    simp [LedgerRow.delivery, hreason] at hdelivery

theorem Counted.effect {db' : BillingDb} (h : Counted tenantId db) (heffect : Effect tenantId db db') :
    Counted tenantId db' := by
  have hupdated : ∀ (set : BillingRow → BillingRow) (row : BillingRow) (e : LedgerRow),
      (∀ r, (set r).tenantId = r.tenantId) → getBilling db tenantId = some row →
      getBilling (appendLedger (updateBilling db tenantId set) e) tenantId = some (set row) := by
    intro set row e hset hbefore
    rw [getBilling_appendLedger, getBilling_updateBilling_own hset hbefore]
  cases heffect with
  | none => exact h
  | provisioned row e hdark htenant hzero hown hreason =>
    have hrow := @getBilling_insert db row e tenantId
    rw [hdark, htenant, if_pos rfl, none_or] at hrow
    have hnone : deliveries tenantId
        (appendLedger { db with billing := db.billing ++ [row] } e) = [] := by
      rw [@deliveries_of_noted db _ _ _ rfl hown (by simp [hreason]), deliveries, h.dark hdark]
      rfl
    refine h.undelivered rfl hown (by simp [hreason]) hrow ?_ ?_ hzero.2.2.ge
    · rw [hnone, hzero.1]
      rfl
    · rw [hnone, hzero.2.1]
      rfl
  | noted set row e hset hbefore hsame hown hreason =>
    refine h.undelivered rfl hown hreason.1 (hupdated set row e hset hbefore) ?_ ?_ ?_
    · rw [deliveries_of_noted rfl hown hreason, hsame.1]
      exact h.used row hbefore
    · rw [deliveries_of_noted rfl hown hreason, hsame.2.1]
      exact h.overage row hbefore
    · rw [hsame.2.2]
      exact h.rollover row hbefore
  | charged set row e leadId hset hbefore hdelivers hcount hown hreason hlead hkey hfresh =>
    have hledger : (appendLedger (updateBilling db tenantId set) e).ledger = db.ledger ++ [e] := rfl
    have hdeliveries := deliveries_of_charged hledger hown hreason
    refine .of_row (hupdated set row e hset hbefore) ?_ ?_ ?_ ?_ (keyed_snoc h hledger hown ?_)
    · intro other
      have hentries := entriesOf_own hledger hown
      by_cases hsame : other = leadId
      · have hnever := chargesOf_of_fresh h hfresh
        unfold chargesOf at hnever ⊢
        rw [hentries, hsame, filter_append, hnever, nil_append]
        exact length_filter_le _ _
      · have hskip : [e].filter (fun e => e.delivery && e.leadId = some other) = [] := by
          simp [hlead, Ne.symm hsame]
        have hold := h.once other
        unfold chargesOf at hold ⊢
        rw [hentries, filter_append, hskip, append_nil]
        exact hold
    · rw [hdeliveries, hcount.1, h.used row hbefore, length_append]
      rfl
    · rw [hdeliveries, hcount.2.1, h.overage row hbefore, filter_append, length_append]
      cases hoverage : e.overage <;> simp [hoverage]
    · rw [hcount.2.2]
      exact h.rollover row hbefore
    · intro _ other hother
      rw [hlead, Option.some.injEq] at hother
      rw [hkey, hother]
  | reset set row e allowRollover hset hbefore hzero hcarried hown hreason =>
    refine h.undelivered rfl hown (by simp [hreason]) (hupdated set row e hset hbefore) ?_ ?_ ?_
    · rw [deliveries_of_reset rfl hown hreason, hzero.1]
      rfl
    · rw [deliveries_of_reset rfl hown hreason, hzero.2]
      rfl
    · rw [hcarried]
      exact resetCycle_rollover_nonneg allowRollover

theorem counted_act (h : Counted tenantId db) (call : BillingCall) :
    Counted tenantId (act db call) := by
  by_cases hown : tenantId = call.tenant
  · subst hown
    exact h.effect (effect_act call)
  · obtain ⟨hrow, hentries⟩ := (effect_act call).other hown
    exact h.congr hrow hentries

def darkDb : BillingDb := ⟨[], []⟩

theorem counted_dark (tenantId : Int) : Counted tenantId darkDb where
  once _ := Nat.zero_le 1
  used row hrow := by cases hrow
  overage row hrow := by cases hrow
  rollover row hrow := by cases hrow
  dark _ := rfl
  keyed e he := by cases he

/-- One call appends to the ledger, charges only where a credit may be delivered, and carries over
what was left. -/
structure ChargesRight (tenantId : Int) (db : BillingDb) (call : BillingCall) : Prop where
  appends : db.ledger <+: (act db call).ledger
  delivers : ∀ e ∈ (act db call).ledger.drop db.ledger.length, e.tenantId = tenantId →
    e.delivery = true → ∃ row ∈ getBilling db tenantId, Delivers (toCreditState row) e.overage
  carried : ∀ allowRollover cycleStart cycleEnd actor,
    call = .resetBillingCycle tenantId allowRollover cycleStart cycleEnd actor →
      ∀ row ∈ getBilling db tenantId, ∀ row' ∈ getBilling (act db call) tenantId,
        row'.creditsRollover = if allowRollover = true ∧ row.unlimited = false then
          max 0 (row.creditsIncluded + row.creditsRollover + row.creditsPurchased - row.creditsUsed)
        else 0

theorem Effect.appends {db' : BillingDb} (h : Effect tenantId db db') : db.ledger <+: db'.ledger := by
  cases h with
  | none => exact prefix_refl _
  | provisioned row e | noted set row e | charged set row e | reset set row e =>
    exact prefix_append _ _

theorem Effect.delivers {db' : BillingDb} (h : Effect tenantId db db') {e : LedgerRow}
    (he : e ∈ db'.ledger.drop db.ledger.length) (hdelivery : e.delivery = true) :
    e.tenantId = tenantId ∧
      ∃ row ∈ getBilling db tenantId, Delivers (toCreditState row) e.overage := by
  have hreason : e.reason = .leadDelivered := by simpa [LedgerRow.delivery] using hdelivery
  cases h with
  | none =>
    rw [drop_length] at he
    cases he
  | provisioned row e' hdark hrow hzero hown hgrant =>
    rw [appendLedger_ledger, drop_left, mem_singleton] at he
    subst he
    rw [hgrant] at hreason
    cases hreason
  | noted set row e' hset hbefore hsame hown hnoted =>
    rw [appendLedger_ledger, updateBilling_ledger, drop_left, mem_singleton] at he
    subst he
    exact absurd hreason hnoted.1
  | charged set row e' leadId hset hbefore hdelivers hcount hown =>
    rw [appendLedger_ledger, updateBilling_ledger, drop_left, mem_singleton] at he
    subst he
    exact ⟨hown, row, hbefore, hdelivers⟩
  | reset set row e' allowRollover hset hbefore hzero hcarried hown hreset =>
    rw [appendLedger_ledger, updateBilling_ledger, drop_left, mem_singleton] at he
    subst he
    rw [hreset] at hreason
    cases hreason

theorem resetCycle_rollover (c : CreditState) (allowRollover : Bool) :
    (resetCycle c allowRollover).rollover = if allowRollover = true ∧ c.unlimited = false then
      max 0 (c.included + c.rollover + c.purchased - c.used) else 0 := by
  unfold resetCycle
  cases hunlimited : c.unlimited with
  | true => simp [creditsRemaining_of_unlimited hunlimited]
  | false => simp [creditsRemaining_of_limited hunlimited]

theorem getBilling_resetBillingCycle {row : BillingRow} (hrow : getBilling db tenantId = some row)
    (allowRollover : Bool) (cycleStart cycleEnd : Int) (actor : String) :
    getBilling (resetBillingCycle db tenantId allowRollover cycleStart cycleEnd actor) tenantId =
      some { row with
        creditsIncluded := (resetCycle (toCreditState row) allowRollover).included
        creditsUsed := 0
        creditsPurchased := 0
        overageUsed := 0
        creditsRollover := (resetCycle (toCreditState row) allowRollover).rollover
        cycleStart := some cycleStart
        cycleEnd := some cycleEnd } := by
  unfold resetBillingCycle
  rw [hrow]
  rw [getBilling_appendLedger, getBilling_updateBilling_own (by exact fun _ => rfl) hrow]

theorem chargesRight (tenantId : Int) (db : BillingDb) (call : BillingCall) :
    ChargesRight tenantId db call where
  appends := (effect_act call).appends
  delivers e he htenant hdelivery := by
    obtain ⟨hown, hrow⟩ := (effect_act call).delivers he hdelivery
    rw [← htenant, hown]
    exact hrow
  carried allowRollover cycleStart cycleEnd actor hcall row hrow row' hrow' := by
    subst hcall
    have hafter := getBilling_resetBillingCycle hrow allowRollover cycleStart cycleEnd actor
    have heq := some.inj (hrow'.symm.trans hafter)
    rw [heq]
    exact resetCycle_rollover (toCreditState row) allowRollover

/-- In every run the counters are the counts of the ledger and every call charges right. -/
theorem credits_match (calls : List BillingCall) (tenantId : Int) :
    MatchesLedger tenantId (run act darkDb calls) ∧
      ∀ call, ChargesRight tenantId (run act darkDb calls) call := by
  have hstep : ∀ db call, Counted tenantId db → Counted tenantId (act db call) :=
    fun _ call h => counted_act h call
  have hcounted := run_invariant_all hstep calls (counted_dark tenantId)
  exact ⟨hcounted.toMatchesLedger, chargesRight tenantId _⟩

/-- A lead that is metered again after a cycle reset stays charged once. -/
example : let db := run act darkDb [.ensureBilling 7 {}, .meterQualifiedLead 7 111 "scan",
      .resetBillingCycle 7 true 0 1 "stripe", .meterQualifiedLead 7 111 "scan"]
    (getBilling db 7).map (·.creditsUsed) = some 0 ∧ (chargesOf 7 111 db).length = 1 := by
  decide +kernel

end HomefrontFiber.Billing
