import HomefrontFiber.Foundation.Runs
import HomefrontFiber.VendorOrders.Schema

/-!
# Importing a row

A row is recorded as evidence, folded into the order that its identity resolves to, and its status
transition is appended as an event. Each of these is a write of its own: a unique index may refuse
the order, and the process may stop between two of them. The hash and the choice among several
rows that answer a query are parameters.
-/

namespace HomefrontFiber.VendorOrders

/-- Which row a query without an order returns, of those that answer it. -/
structure Scan where
  first : List VendorOrder → Option VendorOrder
  mem : ∀ {l : List VendorOrder} {o : VendorOrder}, first l = some o → o ∈ l
  isSome : ∀ {l : List VendorOrder}, l ≠ [] → (first l).isSome = true

def Scan.inOrder : Scan where
  first := List.head?
  mem := List.mem_of_mem_head?
  isSome {l} h := by
    cases l with
    | nil => exact absurd rfl h
    | cons o l => rfl

variable (sha256Hex : String → String) (scan : Scan)

def OrderStore.withKey (store : OrderStore) (tenantId : Nat) (key : VendorOrder → Option String)
    (value : String) : List VendorOrder :=
  store.orders.filter fun o => o.tenantId = tenantId && key o = some value

def lookup (store : OrderStore) (tenantId : Nat) (key : VendorOrder → Option String)
    (value : Option String) : Option VendorOrder :=
  value.bind fun v => scan.first (store.withKey tenantId key v)

def findOrderByIdentity (store : OrderStore) (tenantId : Nat) (keys : IdentityKeys) :
    Option VendorOrder :=
  (lookup scan store tenantId (·.externalOrderKey) keys.orderKey).or <|
    (lookup scan store tenantId (·.externalTransactionKey) keys.transactionKey).or <|
      lookup scan store tenantId (·.accountKey) keys.accountKey

structure ImportInput where
  tenantId : Nat
  importId : Nat
  sourceRowNumber : Nat
  normalized : NormalizedVendorOrder
  verdict : MatchVerdict
  nowMs : Int

structure UpsertOrderResult where
  vendorOrderId : Nat
  created : Bool
  changed : Bool
  previousStatus : Option NormalizedOrderStatus
  duplicate : Bool

def ImportInput.insertedOrder (input : ImportInput) (id : Nat) : VendorOrder :=
  let order := input.normalized
  let keys := orderIdentityKeys order
  { id := id
    tenantId := input.tenantId
    externalOrderId := order.externalOrderId
    externalTransactionId := order.externalTransactionId
    customerAccountNumber := order.customerAccountNumber
    externalOrderKey := keys.orderKey
    externalTransactionKey := keys.transactionKey
    accountKey := keys.accountKey
    saleId := input.verdict.links input.verdict.saleId
    leadId := input.verdict.links input.verdict.leadId
    repId := input.verdict.links input.verdict.repId
    details := order.details
    normalizedStatus := order.normalizedStatus
    sourceStatus := order.sourceStatus
    failureReason := order.failureReason
    requiredCustomerAction := order.requiredCustomerAction
    matchStatus := input.verdict.status
    matchConfidenceScore := input.verdict.confidence
    lastVendorUpdatedAt := order.sourceLastUpdatedAt
    lastSyncedAt := input.nowMs
    currentSourceImportId := input.importId
    currentRowHash := order.rawRowHash
    updatedAt := input.nowMs }

def ImportInput.updatedOrder (input : ImportInput) (old : VendorOrder) : VendorOrder :=
  let order := input.normalized
  let keys := orderIdentityKeys order
  { old with
    externalOrderId := order.externalOrderId.or old.externalOrderId
    externalTransactionId := order.externalTransactionId.or old.externalTransactionId
    customerAccountNumber := order.customerAccountNumber.or old.customerAccountNumber
    externalOrderKey := keys.orderKey.or old.externalOrderKey
    externalTransactionKey := keys.transactionKey.or old.externalTransactionKey
    accountKey := keys.accountKey.or old.accountKey
    saleId := (input.verdict.links input.verdict.saleId).or old.saleId
    leadId := (input.verdict.links input.verdict.leadId).or old.leadId
    repId := (input.verdict.links input.verdict.repId).or old.repId
    details := order.details.over old.details
    normalizedStatus := order.normalizedStatus
    sourceStatus := order.sourceStatus
    failureReason := order.failureReason
    requiredCustomerAction := order.requiredCustomerAction
    matchStatus := input.verdict.status
    matchConfidenceScore := input.verdict.confidence
    lastVendorUpdatedAt := order.sourceLastUpdatedAt.or old.lastVendorUpdatedAt
    lastSyncedAt := input.nowMs
    currentSourceImportId := input.importId
    currentRowHash := order.rawRowHash
    updatedAt := input.nowMs }

def ImportInput.syncedOrder (input : ImportInput) (old : VendorOrder) : VendorOrder :=
  { old with lastSyncedAt := input.nowMs, currentSourceImportId := input.importId }

/-- The three partial unique indexes. The one on the account key holds id-less orders only. -/
def identityRefused (store : OrderStore) (row : VendorOrder) : Bool :=
  store.orders.any fun o => o.id ≠ row.id && o.tenantId = row.tenantId &&
    (row.externalOrderKey.isSome && o.externalOrderKey = row.externalOrderKey ||
      row.externalTransactionKey.isSome && o.externalTransactionKey = row.externalTransactionKey ||
      row.accountKey.isSome && o.accountKey = row.accountKey &&
        row.externalOrderKey = none && o.externalOrderKey = none &&
        row.externalTransactionKey = none && o.externalTransactionKey = none)

def OrderStore.setOrder (store : OrderStore) (order : VendorOrder) : OrderStore :=
  { store with orders := store.orders.map fun o => if o.id = order.id then order else o }

/-- The fold of a row into its order, or the refusal of a unique index. -/
def upsertOrder (store : OrderStore) (input : ImportInput) :
    Option (OrderStore × UpsertOrderResult) :=
  let order := input.normalized
  match findOrderByIdentity scan store input.tenantId (orderIdentityKeys order) with
  | none =>
    let row := input.insertedOrder (store.orders.length + 1)
    if identityRefused store row then none
    else some ({ store with orders := store.orders ++ [row] },
      { vendorOrderId := row.id
        created := true
        changed := true
        previousStatus := none
        duplicate := false })
  | some existing =>
    if existing.currentRowHash = order.rawRowHash then
      some (store.setOrder (input.syncedOrder existing),
        { vendorOrderId := existing.id
          created := false
          changed := false
          previousStatus := some existing.normalizedStatus
          duplicate := true })
    else
      let row := input.updatedOrder existing
      if identityRefused store row then none
      else some (store.setOrder row,
        { vendorOrderId := existing.id
          created := false
          changed := true
          previousStatus := some existing.normalizedStatus
          duplicate := false })

def insertImportRow (store : OrderStore) (input : ImportInput) : OrderStore × Nat :=
  match store.rows.find? fun r =>
      r.importId = input.importId ∧ r.sourceRowNumber = input.sourceRowNumber with
  | some old =>
    ({ store with
        rows := store.rows.map fun r =>
          if r.id = old.id then
            { r with
              rawRowHash := input.normalized.rawRowHash
              normalizedStatus := input.normalized.normalizedStatus }
          else r }, old.id)
  | none =>
    let id := store.rows.length + 1
    ({ store with
        rows := store.rows ++ [
          { id := id
            importId := input.importId
            sourceRowNumber := input.sourceRowNumber
            rawRowHash := input.normalized.rawRowHash
            normalizedStatus := input.normalized.normalizedStatus
            matchStatus := .unmatched
            vendorOrderId := none }] }, id)

def setRowMatch (store : OrderStore) (rowId : Nat) (status : MatchStatus) (vendorOrderId : Nat) :
    OrderStore :=
  { store with
    rows := store.rows.map fun r =>
      if r.id = rowId then { r with matchStatus := status, vendorOrderId := some vendorOrderId }
      else r }

def bumpImportCounters (store : OrderStore) (importId : Nat)
    (f : VendorOrderImport → VendorOrderImport) : OrderStore :=
  { store with imports := store.imports.map fun i => if i.id = importId then f i else i }

def countOutcome (input : ImportInput) (result : UpsertOrderResult) (i : VendorOrderImport) :
    VendorOrderImport :=
  { i with
    insertedRows := i.insertedRows + if result.created then 1 else 0
    updatedRows := i.updatedRows + if !result.created && result.changed then 1 else 0
    duplicateRows := i.duplicateRows + if result.duplicate then 1 else 0
    matchedRows := i.matchedRows + if input.verdict.actionable then 1 else 0
    unmatchedRows := i.unmatchedRows + if input.verdict.actionable then 0 else 1 }

def effectiveAt (input : ImportInput) : String :=
  let order := input.normalized
  String.ofList <| toISOString <|
    (order.sourceLastUpdatedAt.or (order.details.installDate.or order.details.submittedDate)).getD
      input.nowMs

def transitionEvent (input : ImportInput) (rowId : Nat) (result : UpsertOrderResult) :
    VendorOrderEvent :=
  let order := input.normalized
  let eventType : OrderEventType := if result.created then .orderImported else .statusChanged
  { tenantId := input.tenantId
    vendorOrderId := result.vendorOrderId
    sourceImportId := input.importId
    sourceImportRowId := rowId
    eventType := eventType
    oldStatus := result.previousStatus
    newStatus := order.normalizedStatus
    sourceStatus := order.sourceStatus
    effectiveAt := effectiveAt input
    failureReason := order.failureReason
    requiredCustomerAction := order.requiredCustomerAction
    idempotencyKey := sha256Hex <| String.intercalate "|"
      [toString input.tenantId, toString result.vendorOrderId, eventType.text,
        (result.previousStatus.map (·.text)).getD "", order.normalizedStatus.text,
        effectiveAt input, order.rawRowHash] }

def keyRecorded (store : OrderStore) (event : VendorOrderEvent) : Bool :=
  store.events.any fun e =>
    e.tenantId = event.tenantId && e.idempotencyKey = event.idempotencyKey

def appendOrderEvent (store : OrderStore) (event : VendorOrderEvent) : OrderStore :=
  if keyRecorded store event then store else { store with events := store.events ++ [event] }

def statusMoved (input : ImportInput) (result : UpsertOrderResult) : Bool :=
  result.created ||
    result.changed && result.previousStatus ≠ some input.normalized.normalizedStatus

inductive Stop where
  | beforeOrder | beforeEvent
deriving DecidableEq

structure ImportStep where
  input : ImportInput
  stop : Option Stop := none

/-- The evidence of the row, which is written before everything else. -/
def recordRow (store : OrderStore) (input : ImportInput) : OrderStore :=
  bumpImportCounters (insertImportRow store input).1 input.importId fun i =>
    { i with validRows := i.validRows + 1 }

def afterFold (store : OrderStore) (input : ImportInput) (rowId : Nat)
    (result : UpsertOrderResult) : OrderStore :=
  let matched := setRowMatch store rowId input.verdict.status result.vendorOrderId
  let counted := bumpImportCounters matched input.importId (countOutcome input result)
  if statusMoved input result then
    appendOrderEvent counted (transitionEvent sha256Hex input rowId result)
  else counted

/-- A refused row is counted as an error and the import goes on with the next. -/
def importOneRow (store : OrderStore) (step : ImportStep) : OrderStore :=
  let input := step.input
  let recorded := recordRow store input
  if step.stop = some .beforeOrder then recorded
  else
    match upsertOrder scan recorded input with
    | none =>
      bumpImportCounters recorded input.importId fun i => { i with errorRows := i.errorRows + 1 }
    | some (folded, result) =>
      if step.stop = some .beforeEvent then folded
      else afterFold sha256Hex folded input (insertImportRow store input).2 result

section Effects

variable {scan} {store : OrderStore} {input : ImportInput} {tenantId : Nat}

theorem lookup_mem {key : VendorOrder → Option String} {value : Option String} {o : VendorOrder}
    (h : lookup scan store tenantId key value = some o) :
    o ∈ store.orders ∧ o.tenantId = tenantId ∧ key o = value := by
  obtain ⟨v, hv, hfirst⟩ := Option.bind_eq_some_iff.mp h
  obtain ⟨hmem, hkey⟩ := List.mem_filter.mp (scan.mem hfirst)
  simp only [Bool.and_eq_true, decide_eq_true_eq] at hkey
  exact ⟨hmem, hkey.1, hkey.2.trans hv.symm⟩

theorem findOrderByIdentity_mem {keys : IdentityKeys} {o : VendorOrder}
    (h : findOrderByIdentity scan store tenantId keys = some o) :
    o ∈ store.orders ∧ o.tenantId = tenantId := by
  unfold findOrderByIdentity at h
  rcases Option.or_eq_some_iff.mp h with h | ⟨-, h⟩
  · exact ⟨(lookup_mem h).1, (lookup_mem h).2.1⟩
  · rcases Option.or_eq_some_iff.mp h with h | ⟨-, h⟩ <;>
      exact ⟨(lookup_mem h).1, (lookup_mem h).2.1⟩

inductive Folded (scan : Scan) (store : OrderStore) (input : ImportInput) :
    OrderStore → UpsertOrderResult → Prop where
  | created
      (missing : findOrderByIdentity scan store input.tenantId
        (orderIdentityKeys input.normalized) = none) :
      Folded scan store input
        { store with orders := store.orders ++ [input.insertedOrder (store.orders.length + 1)] }
        { vendorOrderId := store.orders.length + 1, created := true, changed := true
          previousStatus := none, duplicate := false }
  | synced (existing : VendorOrder)
      (found : findOrderByIdentity scan store input.tenantId
        (orderIdentityKeys input.normalized) = some existing)
      (same : existing.currentRowHash = input.normalized.rawRowHash) :
      Folded scan store input (store.setOrder (input.syncedOrder existing))
        { vendorOrderId := existing.id, created := false, changed := false
          previousStatus := some existing.normalizedStatus, duplicate := true }
  | updated (existing : VendorOrder)
      (found : findOrderByIdentity scan store input.tenantId
        (orderIdentityKeys input.normalized) = some existing)
      (differs : existing.currentRowHash ≠ input.normalized.rawRowHash)
      (admitted : identityRefused store (input.updatedOrder existing) = false) :
      Folded scan store input (store.setOrder (input.updatedOrder existing))
        { vendorOrderId := existing.id, created := false, changed := true
          previousStatus := some existing.normalizedStatus, duplicate := false }

theorem upsertOrder_folded {after : OrderStore} {result : UpsertOrderResult}
    (h : upsertOrder scan store input = some (after, result)) :
    Folded scan store input after result := by
  unfold upsertOrder at h
  cases hfind : findOrderByIdentity scan store input.tenantId
    (orderIdentityKeys input.normalized) with
  | none =>
    simp only [hfind] at h
    split_ifs at h with hrefused
    cases h
    exact .created hfind
  | some existing =>
    simp only [hfind] at h
    split_ifs at h with hsame hrefused
    · cases h
      exact .synced existing hfind hsame
    · cases h
      exact .updated existing hfind hsame (by simpa using hrefused)

theorem insertImportRow_orders (store : OrderStore) (input : ImportInput) :
    (insertImportRow store input).1.orders = store.orders := by
  unfold insertImportRow
  split <;> rfl

theorem insertImportRow_events (store : OrderStore) (input : ImportInput) :
    (insertImportRow store input).1.events = store.events := by
  unfold insertImportRow
  split <;> rfl

@[simp] theorem recordRow_orders (store : OrderStore) (input : ImportInput) :
    (recordRow store input).orders = store.orders := insertImportRow_orders store input

@[simp] theorem recordRow_events (store : OrderStore) (input : ImportInput) :
    (recordRow store input).events = store.events := insertImportRow_events store input

@[simp] theorem findOrderByIdentity_recordRow (store : OrderStore) (input : ImportInput)
    (keys : IdentityKeys) : findOrderByIdentity scan (recordRow store input) tenantId keys =
      findOrderByIdentity scan store tenantId keys := by
  simp [findOrderByIdentity, lookup, OrderStore.withKey]

@[simp] theorem appendOrderEvent_orders (store : OrderStore) (event : VendorOrderEvent) :
    (appendOrderEvent store event).orders = store.orders := by
  unfold appendOrderEvent
  split <;> rfl

@[simp] theorem afterFold_orders (store : OrderStore) (input : ImportInput) (rowId : Nat)
    (result : UpsertOrderResult) :
    (afterFold sha256Hex store input rowId result).orders = store.orders := by
  unfold afterFold
  simp only []
  split
  · rw [appendOrderEvent_orders]
    rfl
  · rfl

/-- The fold that a step makes, unless it stops before it or is refused. -/
def foldOf (scan : Scan) (store : OrderStore) (step : ImportStep) :
    Option (OrderStore × UpsertOrderResult) :=
  if step.stop = some .beforeOrder then none
  else upsertOrder scan (recordRow store step.input) step.input

theorem importOneRow_of_foldOf_none {step : ImportStep} (h : foldOf scan store step = none) :
    (importOneRow sha256Hex scan store step).orders = store.orders ∧
      (importOneRow sha256Hex scan store step).events = store.events := by
  unfold foldOf at h
  unfold importOneRow
  by_cases hstop : step.stop = some .beforeOrder
  · simp only [if_pos hstop, recordRow_orders, recordRow_events, and_self]
  · rw [if_neg hstop] at h
    simp only [if_neg hstop, h]
    exact ⟨recordRow_orders store step.input, recordRow_events store step.input⟩

theorem importOneRow_of_foldOf_some {step : ImportStep} {folded : OrderStore}
    {result : UpsertOrderResult} (h : foldOf scan store step = some (folded, result)) :
    importOneRow sha256Hex scan store step =
      if step.stop = some .beforeEvent then folded
      else afterFold sha256Hex folded step.input (insertImportRow store step.input).2 result := by
  unfold foldOf at h
  unfold importOneRow
  by_cases hstop : step.stop = some .beforeOrder
  · rw [if_pos hstop] at h
    cases h
  · rw [if_neg hstop] at h
    simp only [if_neg hstop, h]

theorem importOneRow_orders {step : ImportStep} {folded : OrderStore} {result : UpsertOrderResult}
    (h : foldOf scan store step = some (folded, result)) :
    (importOneRow sha256Hex scan store step).orders = folded.orders := by
  rw [importOneRow_of_foldOf_some sha256Hex h]
  split_ifs
  · rfl
  · exact afterFold_orders sha256Hex folded step.input _ result

theorem foldOf_folded {step : ImportStep} {folded : OrderStore} {result : UpsertOrderResult}
    (h : foldOf scan store step = some (folded, result)) :
    step.stop ≠ some .beforeOrder ∧
      Folded scan (recordRow store step.input) step.input folded result := by
  unfold foldOf at h
  split_ifs at h with hstop
  exact ⟨hstop, upsertOrder_folded h⟩

end Effects

def reportRow (orderId account : Option String) (status : NormalizedOrderStatus)
    (rawRowHash : String) : NormalizedVendorOrder where
  sourceReportId := none
  sourceRowId := none
  sourceLastUpdatedAt := none
  externalOrderId := orderId
  externalTransactionId := none
  customerAccountNumber := account
  details := { submittedDate := some 1750000000000 }
  sourceStatus := none
  normalizedStatus := status
  failureReason := none
  requiredCustomerAction := none
  rawRowHash := rawRowHash

def importRow (importId : Nat) (row : NormalizedVendorOrder) : ImportStep where
  input :=
    { tenantId := 1
      importId := importId
      sourceRowNumber := 1
      normalized := row
      verdict :=
        { status := .unmatched
          actionable := false
          saleId := none
          leadId := none
          repId := none
          confidence := none }
      nowMs := 1750100000000 }

end HomefrontFiber.VendorOrders
