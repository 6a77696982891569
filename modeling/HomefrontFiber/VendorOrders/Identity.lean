import HomefrontFiber.VendorOrders.Import

/-!
# One order a row

A row whose order key is unknown falls back to the order with its transaction key, then to the
order with its account number, whatever order key that one has. The rows that an order takes in
agree on their order key exactly while no fallback lands on an order with another key.
-/

namespace HomefrontFiber.VendorOrders

open List Option

variable (sha256Hex : String → String) (scan : Scan)

/-- The order key of a row that a step folds, with the order that takes it in. A restatement
writes nothing of its row. -/
def foldedKey (store : OrderStore) (step : ImportStep) : List (String × Nat) :=
  match foldOf scan store step with
  | none => []
  | some (_, result) =>
    if result.changed then
      ((orderIdentityKeys step.input.normalized).orderKey.map (·, result.vendorOrderId)).toList
    else []

def foldedKeys (store : OrderStore) : List ImportStep → List (String × Nat)
  | [] => []
  | step :: steps =>
    foldedKey scan store step ++ foldedKeys (importOneRow sha256Hex scan store step) steps

def OneKeyEach (folds : List (String × Nat)) : Prop :=
  ∀ f ∈ folds, ∀ g ∈ folds, f.2 = g.2 → f.1 = g.1

/-- A row with an order key is folded into an order that has this key or none. -/
def LandsOnOwnKey (store : OrderStore) (step : ImportStep) : Prop :=
  (foldOf scan store step).isSome = true →
    ∀ o ∈ findOrderByIdentity scan store step.input.tenantId
        (orderIdentityKeys step.input.normalized),
      o.currentRowHash ≠ step.input.normalized.rawRowHash →
        ∀ k ∈ (orderIdentityKeys step.input.normalized).orderKey,
          ∀ k' ∈ o.externalOrderKey, k' = k

structure Keyed (store : OrderStore) (folds : List (String × Nat)) : Prop where
  numbered : Numbered (·.id) store.orders
  folded : ∀ o ∈ store.orders, ∀ k ∈ o.externalOrderKey, (k, o.id) ∈ folds
  held : ∀ f ∈ folds, ∃ o ∈ store.orders, o.id = f.2 ∧ o.externalOrderKey = some f.1

section Steps

variable {scan} {store : OrderStore} {step : ImportStep} {folds : List (String × Nat)}

theorem Keyed.oneKeyEach (h : Keyed store folds) : OneKeyEach folds := by
  intro f hf g hg hid
  obtain ⟨o, ho, hoid, hkey⟩ := h.held f hf
  obtain ⟨o', ho', hoid', hkey'⟩ := h.held g hg
  have heq : o = o' := h.numbered.eq_of_key ho ho' ((hoid.trans hid).trans hoid'.symm)
  subst heq
  exact some_inj.mp (hkey.symm.trans hkey')

theorem numbered_setOrder (h : Numbered (·.id) store.orders) (order : VendorOrder) :
    Numbered (·.id) (store.setOrder order).orders := by
  apply h.map
  intro o _
  split
  · rename_i hid
    exact hid.symm
  · rfl

theorem mem_setOrder {order o : VendorOrder} (h : o ∈ (store.setOrder order).orders) :
    o = order ∨ o ∈ store.orders ∧ o.id ≠ order.id := by
  obtain ⟨old, hold, rfl⟩ := mem_map.mp h
  split
  · exact Or.inl rfl
  · rename_i hid
    exact Or.inr ⟨hold, hid⟩

theorem setOrder_mem {order old : VendorOrder} (h : old ∈ store.orders) (hid : old.id = order.id) :
    order ∈ (store.setOrder order).orders := by
  have hmem := mem_map_of_mem (f := fun o => if o.id = order.id then order else o) h
  rwa [if_pos hid] at hmem

theorem mem_setOrder_of_ne {order o : VendorOrder} (h : o ∈ store.orders) (hid : o.id ≠ order.id) :
    o ∈ (store.setOrder order).orders := by
  have hmem := mem_map_of_mem (f := fun o => if o.id = order.id then order else o) h
  rwa [if_neg hid] at hmem

theorem Keyed.setOrder_same (h : Keyed store folds) {order old : VendorOrder}
    (hold : old ∈ store.orders) (hid : order.id = old.id)
    (hkey : order.externalOrderKey = old.externalOrderKey) :
    Keyed (store.setOrder order) folds := by
  refine ⟨numbered_setOrder h.numbered order, ?_, ?_⟩
  · intro o ho k hk
    rcases mem_setOrder ho with rfl | ⟨ho, -⟩
    · rw [hid]
      exact h.folded old hold k (hkey ▸ hk)
    · exact h.folded o ho k hk
  · intro f hf
    obtain ⟨o, ho, hoid, hokey⟩ := h.held f hf
    by_cases hsame : o.id = order.id
    · have heq : o = old := h.numbered.eq_of_key ho hold (hsame.trans hid)
      subst heq
      exact ⟨order, setOrder_mem ho hsame, hsame.symm.trans hoid, hkey.trans hokey⟩
    · exact ⟨o, mem_setOrder_of_ne ho hsame, hoid, hokey⟩

theorem Keyed.setOrder_key (h : Keyed store folds) {order old : VendorOrder} {k : String}
    (hold : old ∈ store.orders) (hid : order.id = old.id) (hkey : order.externalOrderKey = some k)
    (hown : ∀ k' ∈ old.externalOrderKey, k' = k) :
    Keyed (store.setOrder order) (folds ++ [(k, order.id)]) := by
  refine ⟨numbered_setOrder h.numbered order, ?_, ?_⟩
  · intro o ho k' hk'
    rcases mem_setOrder ho with rfl | ⟨ho, -⟩
    · have hk : k' = k := some_inj.mp (hk'.symm.trans hkey)
      simp [hk]
    · exact mem_append_left _ (h.folded o ho k' hk')
  · intro f hf
    rcases mem_append.mp hf with hf | hf
    · obtain ⟨o, ho, hoid, hokey⟩ := h.held f hf
      by_cases hsame : o.id = order.id
      · have heq : o = old := h.numbered.eq_of_key ho hold (hsame.trans hid)
        subst heq
        have hk : f.1 = k := hown f.1 hokey
        exact ⟨order, setOrder_mem ho hsame, hsame.symm.trans hoid, hk ▸ hkey⟩
      · exact ⟨o, mem_setOrder_of_ne ho hsame, hoid, hokey⟩
    · obtain rfl := mem_singleton.mp hf
      exact ⟨order, setOrder_mem hold hid.symm, rfl, hkey⟩

theorem Keyed.snoc (h : Keyed store folds) {order : VendorOrder}
    (hid : order.id = store.orders.length + 1) :
    Keyed { store with orders := store.orders ++ [order] }
      (folds ++ (order.externalOrderKey.map (·, order.id)).toList) := by
  refine ⟨h.numbered.snoc hid, ?_, ?_⟩
  · intro o ho k hk
    rcases mem_append.mp ho with ho | ho
    · exact mem_append_left _ (h.folded o ho k hk)
    · obtain rfl := mem_singleton.mp ho
      apply mem_append_right
      rw [mem_toList]
      exact map_eq_some_iff.mpr ⟨k, hk, rfl⟩
  · intro f hf
    rcases mem_append.mp hf with hf | hf
    · obtain ⟨o, ho, hoid, hkey⟩ := h.held f hf
      exact ⟨o, mem_append_left _ ho, hoid, hkey⟩
    · rw [mem_toList] at hf
      obtain ⟨k, hk, rfl⟩ := map_eq_some_iff.mp hf
      exact ⟨order, mem_append_right _ (mem_singleton.mpr rfl), rfl, hk⟩

theorem Keyed.congr (h : Keyed store folds) {store' : OrderStore}
    (horders : store'.orders = store.orders) : Keyed store' folds :=
  ⟨horders ▸ h.numbered, horders ▸ h.folded, horders ▸ h.held⟩

theorem keyed_importOneRow (sha256Hex : String → String) (h : Keyed store folds)
    (hown : LandsOnOwnKey scan store step) :
    Keyed (importOneRow sha256Hex scan store step) (folds ++ foldedKey scan store step) := by
  unfold foldedKey
  cases hfold : foldOf scan store step with
  | none =>
    have hsame := (importOneRow_of_foldOf_none sha256Hex hfold).1
    simpa using h.congr hsame
  | some pair =>
    obtain ⟨after, result⟩ := pair
    have horders := importOneRow_orders sha256Hex hfold
    have hrecorded : Keyed (recordRow store step.input) folds :=
      h.congr (recordRow_orders store step.input)
    obtain ⟨-, hfolded⟩ := foldOf_folded hfold
    refine Keyed.congr ?_ horders
    cases hfolded with
    | created hmissing =>
      exact hrecorded.snoc rfl
    | synced existing hfound hhash =>
      have hmem := (findOrderByIdentity_mem hfound).1
      have hkept : Keyed ((recordRow store step.input).setOrder (step.input.syncedOrder existing))
          folds := hrecorded.setOrder_same hmem rfl rfl
      simpa using hkept
    | updated existing hfound hhash hadmitted =>
      have hmem := (findOrderByIdentity_mem hfound).1
      cases hkey : (orderIdentityKeys step.input.normalized).orderKey with
      | none =>
        have hsame : (step.input.updatedOrder existing).externalOrderKey =
            existing.externalOrderKey := by simp [ImportInput.updatedOrder, hkey]
        have hkept : Keyed
            ((recordRow store step.input).setOrder (step.input.updatedOrder existing)) folds :=
          hrecorded.setOrder_same hmem rfl hsame
        simpa using hkept
      | some k =>
        have hnew : (step.input.updatedOrder existing).externalOrderKey = some k := by
          simp [ImportInput.updatedOrder, hkey]
        have hfound' := findOrderByIdentity_recordRow store step.input _ ▸ hfound
        have hk := hown (by rw [hfold]; rfl) existing hfound' hhash k hkey
        exact hrecorded.setOrder_key hmem rfl hnew hk

theorem not_oneKeyEach_of_step (h : Keyed store folds) (hother : ¬LandsOnOwnKey scan store step) :
    ¬OneKeyEach (folds ++ foldedKey scan store step) := by
  unfold LandsOnOwnKey at hother
  push Not at hother
  obtain ⟨hsome, o, hfound, hhash, k, hk, k', hk', hne⟩ := hother
  obtain ⟨⟨after, result⟩, hfold⟩ := isSome_iff_exists.mp hsome
  obtain ⟨-, hfolded⟩ := foldOf_folded hfold
  have hmem : o ∈ store.orders := (findOrderByIdentity_mem hfound).1
  have hold : (k', o.id) ∈ folds := h.folded o hmem k' hk'
  intro hone
  have hnew : (k, o.id) ∈ foldedKey scan store step := by
    unfold foldedKey
    rw [hfold]
    cases hfolded with
    | created hmissing =>
      rw [findOrderByIdentity_recordRow, hfound] at hmissing
      cases hmissing
    | synced existing hfound' hsame =>
      rw [findOrderByIdentity_recordRow, hfound] at hfound'
      cases hfound'
      exact absurd hsame hhash
    | updated existing hfound' _ _ =>
      rw [findOrderByIdentity_recordRow, hfound] at hfound'
      cases hfound'
      have hkey : (orderIdentityKeys step.input.normalized).orderKey = some k := hk
      simp [hkey]
  exact hne (hone _ (mem_append_left _ hold) _ (mem_append_right _ hnew) rfl)

theorem oneKeyEach_append_iff (sha256Hex : String → String) (steps : List ImportStep)
    (h : Keyed store folds) :
    OneKeyEach (folds ++ foldedKeys sha256Hex scan store steps) ↔
      Along (importOneRow sha256Hex scan) (LandsOnOwnKey scan) store steps := by
  induction steps generalizing store folds with
  | nil => simpa [foldedKeys] using h.oneKeyEach
  | cons step steps ih =>
    rw [foldedKeys, ← append_assoc, along_cons]
    by_cases hown : LandsOnOwnKey scan store step
    · have hnext := keyed_importOneRow sha256Hex h hown
      rw [ih hnext]
      exact (and_iff_right hown).symm
    · have hnot := not_oneKeyEach_of_step h hown
      refine iff_of_false (fun hone => hnot fun f hf g hg => ?_) fun halong => hown halong.1
      exact hone f (mem_append_left _ hf) g (mem_append_left _ hg)

end Steps

def returningSubscriber : List ImportStep :=
  [importRow 1 (reportRow (some "A-100") (some "X9") .installed "h1"),
    importRow 2 (reportRow (some "B-200") (some "X9") .submitted "h2")]

end HomefrontFiber.VendorOrders

/-!
## The status timeline

Replaying the events of an order in the order of their insertion follows its status from nothing to
the present one. The order is written before its event, though, and the event is dropped when its
key is recorded already, so the timeline tells the story exactly while each status that an order
takes is recorded under a new key before the process stops.
-/

namespace HomefrontFiber.VendorOrders

open List

variable (sha256Hex : String → String) (scan : Scan)

def OrderStore.timeline (store : OrderStore) (orderId : Nat) : List VendorOrderEvent :=
  store.events.filter (·.vendorOrderId = orderId)

/-- The status after an event, if the event starts from the status before it. -/
def VendorOrderEvent.follow (status : Option NormalizedOrderStatus) (event : VendorOrderEvent) :
    Option (Option NormalizedOrderStatus) :=
  if event.oldStatus = status then some (some event.newStatus) else none

def replay (events : List VendorOrderEvent) : Option (Option NormalizedOrderStatus) :=
  events.foldlM VendorOrderEvent.follow none

/-- The events of every order chain from nothing to its present status. -/
def TimelineTrue (store : OrderStore) : Prop :=
  ∀ o ∈ store.orders, replay (store.timeline o.id) = some (some o.normalizedStatus)

/-- The transition of a step that moves a status is recorded under a key of its own. -/
def RecordsTransition (store : OrderStore) (step : ImportStep) : Prop :=
  ∀ p ∈ foldOf scan store step, statusMoved step.input p.2 = true →
    step.stop = none ∧
      keyRecorded store (transitionEvent sha256Hex step.input
        (insertImportRow store step.input).2 p.2) = false

structure Storied (store : OrderStore) : Prop where
  numbered : Numbered (·.id) store.orders
  known : ∀ e ∈ store.events, e.vendorOrderId ≤ store.orders.length
  told : TimelineTrue store

section Replay

variable {store after : OrderStore} {order old : VendorOrder} {event : VendorOrderEvent}

theorem replay_snoc (events : List VendorOrderEvent) (event : VendorOrderEvent) :
    replay (events ++ [event]) = (replay events).bind fun status => event.follow status := by
  unfold replay
  rw [foldlM_append]
  cases List.foldlM (fun status e => VendorOrderEvent.follow status e) none events with
  | none => rfl
  | some status => simp

theorem timeline_snoc (h : after.events = store.events ++ [event]) (orderId : Nat) :
    after.timeline orderId =
      store.timeline orderId ++ if event.vendorOrderId = orderId then [event] else [] := by
  unfold OrderStore.timeline
  rw [h, filter_append]
  by_cases hid : event.vendorOrderId = orderId <;> simp [hid]

theorem timeline_congr (h : after.events = store.events) (orderId : Nat) :
    after.timeline orderId = store.timeline orderId := by
  unfold OrderStore.timeline
  rw [h]

theorem Storied.timeline_new (h : Storied store) :
    store.timeline (store.orders.length + 1) = [] := by
  apply filter_eq_nil_iff.mpr
  intro e he
  have hle := h.known e he
  simp only [decide_eq_true_eq]
  omega

/-- Without an event, the timeline stays true exactly when the order keeps its status. -/
theorem told_setOrder_iff (h : Storied store) (hold : old ∈ store.orders)
    (horders : after.orders = (store.setOrder order).orders) (hid : order.id = old.id)
    (hevents : after.events = store.events) :
    TimelineTrue after ↔ order.normalizedStatus = old.normalizedStatus := by
  have htold := h.told old hold
  constructor
  · intro hafter
    have hmem : order ∈ after.orders := horders ▸ setOrder_mem hold hid.symm
    have htimeline := hafter order hmem
    rw [timeline_congr hevents, hid, htold] at htimeline
    injection htimeline with hstatus
    injection hstatus with hstatus
    exact hstatus.symm
  · intro hstatus o ho
    rw [horders] at ho
    rw [timeline_congr hevents]
    rcases mem_setOrder ho with rfl | ⟨ho, -⟩
    · rw [hid, hstatus]
      exact htold
    · exact h.told o ho

theorem told_setOrder_event (h : Storied store) (hold : old ∈ store.orders)
    (horders : after.orders = (store.setOrder order).orders) (hid : order.id = old.id)
    (hevents : after.events = store.events ++ [event]) (heid : event.vendorOrderId = order.id)
    (hfrom : event.oldStatus = some old.normalizedStatus)
    (hnew : event.newStatus = order.normalizedStatus) : TimelineTrue after := by
  intro o ho
  rw [horders] at ho
  rw [timeline_snoc hevents]
  rcases mem_setOrder ho with rfl | ⟨ho, hne⟩
  · rw [if_pos heid, replay_snoc, hid, h.told old hold, Option.bind_some, VendorOrderEvent.follow,
      if_pos hfrom, hnew]
  · have hother : event.vendorOrderId ≠ o.id := fun heq => hne (heq.symm.trans heid)
    rw [if_neg hother, append_nil]
    exact h.told o ho

theorem not_told_snoc (h : Storied store) (hid : order.id = store.orders.length + 1)
    (horders : after.orders = store.orders ++ [order]) (hevents : after.events = store.events) :
    ¬TimelineTrue after := by
  intro hafter
  have hmem : order ∈ after.orders := horders ▸ mem_append_right _ (mem_singleton.mpr rfl)
  have htimeline := hafter order hmem
  rw [timeline_congr hevents, hid, h.timeline_new] at htimeline
  cases htimeline

theorem told_snoc_event (h : Storied store) (hid : order.id = store.orders.length + 1)
    (horders : after.orders = store.orders ++ [order])
    (hevents : after.events = store.events ++ [event]) (heid : event.vendorOrderId = order.id)
    (hfrom : event.oldStatus = none) (hnew : event.newStatus = order.normalizedStatus) :
    TimelineTrue after := by
  intro o ho
  rw [horders] at ho
  rw [timeline_snoc hevents]
  rcases mem_append.mp ho with ho | ho
  · have hle := h.numbered.le_length ho
    have hother : event.vendorOrderId ≠ o.id := by omega
    rw [if_neg hother, append_nil]
    exact h.told o ho
  · obtain rfl := mem_singleton.mp ho
    rw [if_pos heid, hid, h.timeline_new, nil_append]
    simp [replay, VendorOrderEvent.follow, hfrom, hnew]

end Replay

section Steps

variable {sha256Hex} {scan} {store : OrderStore} {step : ImportStep} {folded : OrderStore}
  {result : UpsertOrderResult}

theorem folded_events {input : ImportInput} (h : Folded scan store input folded result) :
    folded.events = store.events := by
  cases h <;> rfl

def stepEvent (sha256Hex : String → String) (store : OrderStore) (step : ImportStep)
    (result : UpsertOrderResult) : VendorOrderEvent :=
  transitionEvent sha256Hex step.input (insertImportRow store step.input).2 result

/-- A step appends its event when its status moves, it does not stop and the key is new. -/
theorem importOneRow_events (sha256Hex : String → String)
    (h : foldOf scan store step = some (folded, result)) :
    (importOneRow sha256Hex scan store step).events =
      if statusMoved step.input result = true ∧ step.stop = none ∧
          keyRecorded store (stepEvent sha256Hex store step result) = false then
        store.events ++ [stepEvent sha256Hex store step result]
      else store.events := by
  obtain ⟨hstop, hfolded⟩ := foldOf_folded h
  have hevents : folded.events = store.events :=
    (folded_events hfolded).trans (recordRow_events store step.input)
  rw [importOneRow_of_foldOf_some sha256Hex h]
  cases hs : step.stop with
  | some stop =>
    cases stop with
    | beforeOrder => exact absurd hs hstop
    | beforeEvent => simp [hevents]
  | none =>
    set counted := bumpImportCounters (setRowMatch folded (insertImportRow store step.input).2
      step.input.verdict.status result.vendorOrderId) step.input.importId
      (countOutcome step.input result) with hcounted
    have hsame : counted.events = store.events := hevents
    have hkey : ∀ event, keyRecorded counted event = keyRecorded store event := by
      intro event
      unfold keyRecorded
      rw [hsame]
    cases hmoved : statusMoved step.input result with
    | false => simp [afterFold, hmoved, ← hcounted, hsame]
    | true =>
      unfold stepEvent
      simp only [reduceCtorEq, if_false, afterFold, hmoved, if_true, ← hcounted, appendOrderEvent,
        hkey, true_and]
      cases keyRecorded store (transitionEvent sha256Hex step.input
          (insertImportRow store step.input).2 result) <;> simp [hsame]

theorem Storied.congr {after : OrderStore} (h : Storied store)
    (horders : after.orders = store.orders)
    (hevents : after.events = store.events) : Storied after := by
  refine ⟨horders ▸ h.numbered, ?_, ?_⟩
  · rw [hevents, horders]
    exact h.known
  · intro o ho
    rw [horders] at ho
    rw [timeline_congr hevents]
    exact h.told o ho

/-- A step keeps the timelines true exactly when it records the transition that it makes. -/
theorem told_importOneRow_iff (sha256Hex : String → String) (scan : Scan) (step : ImportStep)
    (h : Storied store) :
    TimelineTrue (importOneRow sha256Hex scan store step) ↔
      RecordsTransition sha256Hex scan store step := by
  unfold RecordsTransition
  cases hfold : foldOf scan store step with
  | none =>
    obtain ⟨horders, hevents⟩ := importOneRow_of_foldOf_none sha256Hex hfold
    exact iff_of_true (h.congr horders hevents).told fun p hp => absurd hp (by simp)
  | some pair =>
    obtain ⟨folded, result⟩ := pair
    have horders := importOneRow_orders sha256Hex hfold
    have hevents := importOneRow_events sha256Hex hfold
    have hrecorded : Storied (recordRow store step.input) :=
      h.congr (recordRow_orders store step.input) (recordRow_events store step.input)
    rw [← recordRow_events store step.input] at hevents
    have hiff : (∀ p ∈ some (folded, result), statusMoved step.input p.2 = true →
        step.stop = none ∧ keyRecorded store (transitionEvent sha256Hex step.input
          (insertImportRow store step.input).2 p.2) = false) ↔
        (statusMoved step.input result = true →
          step.stop = none ∧ keyRecorded store (stepEvent sha256Hex store step result) = false) := by
      simp [stepEvent]
    rw [hiff]
    obtain ⟨-, hfolded⟩ := foldOf_folded hfold
    by_cases happended : statusMoved step.input result = true ∧ step.stop = none ∧
        keyRecorded store (stepEvent sha256Hex store step result) = false
    · rw [if_pos happended] at hevents
      refine iff_of_true ?_ fun _ => happended.2
      cases hfolded with
      | created hmissing =>
        exact told_snoc_event hrecorded rfl horders hevents rfl rfl rfl
      | synced existing hfound hsame => exact absurd happended.1 (by simp [statusMoved])
      | updated existing hfound hdiffers hadmitted =>
        have hmem := (findOrderByIdentity_mem hfound).1
        exact told_setOrder_event hrecorded hmem horders rfl hevents rfl rfl rfl
    · rw [if_neg happended] at hevents
      have hquiet : (statusMoved step.input result = true → step.stop = none ∧
          keyRecorded store (stepEvent sha256Hex store step result) = false) ↔
          statusMoved step.input result = false := by
        constructor
        · intro himp
          by_contra hmoved
          have hmoved' : statusMoved step.input result = true := by simpa using hmoved
          exact happended ⟨hmoved', himp hmoved'⟩
        · intro hno hmoved
          exact absurd hmoved (by simp [hno])
      rw [hquiet]
      cases hfolded with
      | created hmissing =>
        have hnot := not_told_snoc hrecorded rfl horders hevents
        exact iff_of_false hnot (by simp [statusMoved])
      | synced existing hfound hsame =>
        have hmem := (findOrderByIdentity_mem hfound).1
        rw [told_setOrder_iff hrecorded hmem horders rfl hevents]
        simp [statusMoved, ImportInput.syncedOrder]
      | updated existing hfound hdiffers hadmitted =>
        have hmem := (findOrderByIdentity_mem hfound).1
        rw [told_setOrder_iff hrecorded hmem horders rfl hevents]
        simp only [statusMoved, ImportInput.updatedOrder, Bool.false_or, Bool.true_and,
          ne_eq, decide_not, Bool.not_eq_false', decide_eq_true_eq, Option.some.injEq]
        exact eq_comm

theorem folded_numbered {input : ImportInput} (h : Folded scan store input folded result)
    (hnum : Numbered (·.id) store.orders) : Numbered (·.id) folded.orders ∧
      store.orders.length ≤ folded.orders.length ∧
      result.vendorOrderId ≤ folded.orders.length := by
  cases h with
  | created hmissing =>
    refine ⟨hnum.snoc rfl, ?_, ?_⟩ <;> simp
  | synced existing hfound hsame =>
    have hle := hnum.le_length (findOrderByIdentity_mem hfound).1
    exact ⟨numbered_setOrder hnum _, by simp [OrderStore.setOrder], by
      simpa [OrderStore.setOrder] using hle⟩
  | updated existing hfound hdiffers hadmitted =>
    have hle := hnum.le_length (findOrderByIdentity_mem hfound).1
    exact ⟨numbered_setOrder hnum _, by simp [OrderStore.setOrder], by
      simpa [OrderStore.setOrder] using hle⟩

theorem storied_importOneRow (h : Storied store)
    (hkeeps : RecordsTransition sha256Hex scan store step) :
    Storied (importOneRow sha256Hex scan store step) := by
  have htold := told_importOneRow_iff sha256Hex scan step h
  cases hfold : foldOf scan store step with
  | none =>
    obtain ⟨horders, hevents⟩ := importOneRow_of_foldOf_none sha256Hex hfold
    exact h.congr horders hevents
  | some pair =>
    obtain ⟨folded, result⟩ := pair
    have horders := importOneRow_orders sha256Hex hfold
    have hevents := importOneRow_events sha256Hex hfold
    obtain ⟨-, hfolded⟩ := foldOf_folded hfold
    have hrecorded : Numbered (·.id) (recordRow store step.input).orders :=
      (recordRow_orders store step.input).symm ▸ h.numbered
    obtain ⟨hnum, hgrow, hid⟩ := folded_numbered hfolded hrecorded
    rw [recordRow_orders] at hgrow
    refine ⟨horders ▸ hnum, ?_, htold.mpr hkeeps⟩
    intro e he
    rw [horders]
    rw [hevents] at he
    split_ifs at he
    · rcases mem_append.mp he with he | he
      · exact (h.known e he).trans hgrow
      · obtain rfl := mem_singleton.mp he
        exact hid
    · exact (h.known e he).trans hgrow

end Steps

def juneFile (importId : Nat) : ImportStep :=
  importRow importId (reportRow (some "A-100") none .submitted "june")

def julyFile (importId : Nat) : ImportStep :=
  importRow importId (reportRow (some "A-100") none .installed "july")

end HomefrontFiber.VendorOrders
