import HomefrontFiber.Foundation.IsoText
import HomefrontFiber.Foundation.Table

/-!
# Provider orders

A row of a provider report, after mapping and normalization, and the tables that it lands in: the
imports with their counters, the rows of each import, the orders and the append-only events. Every
order has the one provider that this build knows. A contact is kept in the clear here; the source
keeps a mask and a keyed hash of it, which are functions of it.
-/

namespace HomefrontFiber.VendorOrders

inductive NormalizedOrderStatus where
  | submitted | accepted | pendingCustomerAction | pendingDocuments | installScheduled | installed
  | failedInstall | missedAppointment | canceled | rejected | onHold | unknown
deriving DecidableEq

def NormalizedOrderStatus.text : NormalizedOrderStatus → String
  | .submitted => "submitted"
  | .accepted => "accepted"
  | .pendingCustomerAction => "pending_customer_action"
  | .pendingDocuments => "pending_documents"
  | .installScheduled => "install_scheduled"
  | .installed => "installed"
  | .failedInstall => "failed_install"
  | .missedAppointment => "missed_appointment"
  | .canceled => "canceled"
  | .rejected => "rejected"
  | .onHold => "on_hold"
  | .unknown => "unknown"

inductive MatchStatus where
  | matched | matchedLowConfidence | unmatched | exception | ignored
deriving DecidableEq

/-- `/^(n\/?a|none|null|undefined|-{1,3}|#n\/a)$/i` -/
def placeholders : List String :=
  ["n/a", "na", "none", "null", "undefined", "-", "--", "---", "#n/a"]

def lowercase (text : List Char) : List Char := text.map Char.toLower

/-- The words of a cell, joined by single blanks; an empty cell and a placeholder are no text. -/
def cleanText (cell : Option String) : Option String :=
  let words := ((cell.getD "").toList.splitBy fun a b => a.isWhitespace = b.isWhitespace).filter
    fun w => w.any fun c => !c.isWhitespace
  let text := List.intercalate [' '] words
  if text = [] || (placeholders.map String.toList).contains (lowercase text) then none
  else some (String.ofList text)

/-- An external identity without separators and case, by which a provider may reformat it. -/
def normalizeExternalId (cell : Option String) : Option String :=
  match cleanText cell with
  | none => none
  | some text =>
    let compact := (text.toList.filter fun c => !(c.isWhitespace || c ∈ ['.', '_', '-'])).map
      Char.toUpper
    if compact = [] then none else some (String.ofList compact)

structure IdentityKeys where
  orderKey : Option String
  transactionKey : Option String
  accountKey : Option String

/-- The columns of an order that a later row overwrites only where it has a value. -/
structure OrderDetails where
  customerName : Option String := none
  customerPhone : Option String := none
  customerEmail : Option String := none
  serviceAddress : Option String := none
  normalizedServiceAddress : Option String := none
  carrier : Option String := none
  productSold : Option String := none
  program : Option String := none
  repExternalName : Option String := none
  repExternalId : Option String := none
  managerExternalName : Option String := none
  saleDate : Option Int := none
  submittedDate : Option Int := none
  installScheduledAt : Option Int := none
  installDate : Option Int := none
  cancellationDate : Option Int := none

/-- `COALESCE(?, column)` on each column. -/
def OrderDetails.over (new old : OrderDetails) : OrderDetails where
  customerName := new.customerName.or old.customerName
  customerPhone := new.customerPhone.or old.customerPhone
  customerEmail := new.customerEmail.or old.customerEmail
  serviceAddress := new.serviceAddress.or old.serviceAddress
  normalizedServiceAddress := new.normalizedServiceAddress.or old.normalizedServiceAddress
  carrier := new.carrier.or old.carrier
  productSold := new.productSold.or old.productSold
  program := new.program.or old.program
  repExternalName := new.repExternalName.or old.repExternalName
  repExternalId := new.repExternalId.or old.repExternalId
  managerExternalName := new.managerExternalName.or old.managerExternalName
  saleDate := new.saleDate.or old.saleDate
  submittedDate := new.submittedDate.or old.submittedDate
  installScheduledAt := new.installScheduledAt.or old.installScheduledAt
  installDate := new.installDate.or old.installDate
  cancellationDate := new.cancellationDate.or old.cancellationDate

/-- Dates are instants in milliseconds, as the store writes their ISO form and nothing else. -/
structure NormalizedVendorOrder where
  sourceReportId : Option String
  sourceRowId : Option String
  sourceLastUpdatedAt : Option Int
  externalOrderId : Option String
  externalTransactionId : Option String
  customerAccountNumber : Option String
  details : OrderDetails
  sourceStatus : Option String
  normalizedStatus : NormalizedOrderStatus
  failureReason : Option String
  requiredCustomerAction : Option String
  rawRowHash : String

def orderIdentityKeys (row : NormalizedVendorOrder) : IdentityKeys where
  orderKey := normalizeExternalId row.externalOrderId
  transactionKey := normalizeExternalId row.externalTransactionId
  accountKey := normalizeExternalId row.customerAccountNumber

structure MatchVerdict where
  status : MatchStatus
  actionable : Bool
  saleId : Option Nat
  leadId : Option Nat
  repId : Option Nat
  confidence : Option Nat

def MatchVerdict.links (verdict : MatchVerdict) (id : Option Nat) : Option Nat :=
  if verdict.actionable then id else none

structure VendorOrder where
  id : Nat
  tenantId : Nat
  externalOrderId : Option String
  externalTransactionId : Option String
  customerAccountNumber : Option String
  externalOrderKey : Option String
  externalTransactionKey : Option String
  accountKey : Option String
  saleId : Option Nat
  leadId : Option Nat
  repId : Option Nat
  details : OrderDetails
  normalizedStatus : NormalizedOrderStatus
  sourceStatus : Option String
  failureReason : Option String
  requiredCustomerAction : Option String
  matchStatus : MatchStatus
  matchConfidenceScore : Option Nat
  lastVendorUpdatedAt : Option Int
  lastSyncedAt : Int
  currentSourceImportId : Nat
  currentRowHash : String
  updatedAt : Int

structure VendorOrderImport where
  id : Nat
  tenantId : Nat
  validRows : Nat := 0
  insertedRows : Nat := 0
  updatedRows : Nat := 0
  duplicateRows : Nat := 0
  matchedRows : Nat := 0
  unmatchedRows : Nat := 0
  errorRows : Nat := 0

structure VendorOrderImportRow where
  id : Nat
  importId : Nat
  sourceRowNumber : Nat
  rawRowHash : String
  normalizedStatus : NormalizedOrderStatus
  matchStatus : MatchStatus
  vendorOrderId : Option Nat

inductive OrderEventType where
  | orderImported | statusChanged

def OrderEventType.text : OrderEventType → String
  | .orderImported => "order_imported"
  | .statusChanged => "status_changed"

structure VendorOrderEvent where
  tenantId : Nat
  vendorOrderId : Nat
  sourceImportId : Nat
  sourceImportRowId : Nat
  eventType : OrderEventType
  oldStatus : Option NormalizedOrderStatus
  newStatus : NormalizedOrderStatus
  sourceStatus : Option String
  effectiveAt : String
  failureReason : Option String
  requiredCustomerAction : Option String
  idempotencyKey : String

structure OrderStore where
  imports : List VendorOrderImport
  rows : List VendorOrderImportRow
  orders : List VendorOrder
  events : List VendorOrderEvent

def OrderStore.empty : OrderStore := { imports := [], rows := [], orders := [], events := [] }

end HomefrontFiber.VendorOrders

/-!
## From a cell to a row

A saved mapping binds each field to a header of the report. The hash of a row is taken over its
fields in a fixed order, and with them over the file that the row came from and its place in it.
The readers of dates, contacts, addresses and statuses are parameters: nothing here depends on
what they make of a cell.
-/

namespace HomefrontFiber.VendorOrders

inductive MappableOrderField where
  | externalOrderId | externalTransactionId | customerAccountNumber
  | customerName | customerEmail | customerPhone | serviceAddress
  | carrier | productSold | program
  | repExternalName | repExternalId | managerExternalName
  | saleDate | submittedDate | installScheduledAt | installDate | cancellationDate
  | sourceStatus | failureReason | requiredCustomerAction
  | sourceLastUpdatedAt | sourceRowId

structure OrderColumnMapping where
  columns : MappableOrderField → Option String
  statusOverrides : List (String × NormalizedOrderStatus)
  timeZone : String
  carrier : Option String
  program : Option String
  productSold : Option String

/-- `parseVendorDate` in a zone, `normalizeEmailOrNull`, `normalizePhoneE164`,
`normalizeServiceAddress` and `normalizeOrderStatus`. -/
structure CellReaders where
  date : String → String → Option Int
  email : Option String → Option String
  phone : Option String → Option String
  address : Option String → Option String
  status : String → NormalizedOrderStatus

/-- The SHA-256 of an uploaded file, as hexadecimal digits. -/
structure FileChecksum where
  digits : String
  hex : ∀ c ∈ digits.toList, c ∈ "0123456789abcdef".toList
  nonempty : digits.toList ≠ []

/-- The identity of the report that a row came from: the head of the checksum. -/
def sourceReportId (file : Option FileChecksum) : Option String :=
  file.map fun f => String.ofList (f.digits.toList.take 16)

section Apply

variable (readers : CellReaders) (mapping : OrderColumnMapping) (cells : String → Option String)

def rawCell (field : MappableOrderField) : Option String := (mapping.columns field).bind cells

def textCell (field : MappableOrderField) : Option String := cleanText (rawCell mapping cells field)

def dateCell (field : MappableOrderField) : Option Int :=
  (rawCell mapping cells field).bind fun raw => readers.date raw mapping.timeZone

def resolveStatus (sourceStatus : Option String) : NormalizedOrderStatus :=
  match sourceStatus with
  | none => .unknown
  | some text =>
    let override (key : String) := (mapping.statusOverrides.find? (·.1 = key)).map (·.2)
    ((override (String.ofList (lowercase text.toList))).or (override text)).getD
      (readers.status text)

/-- The identity of a row in its report: its own, or else its number. -/
def sourceRowId (rowNumber : Nat) : String :=
  (textCell mapping cells .sourceRowId).getD (toString rowNumber)

def applyOrderMapping (reportId : Option String) (rowNumber : Nat) : NormalizedVendorOrder :=
  let text := textCell mapping cells
  let date := dateCell readers mapping cells
  { sourceReportId := reportId
    sourceRowId := some (sourceRowId mapping cells rowNumber)
    sourceLastUpdatedAt := date .sourceLastUpdatedAt
    externalOrderId := text .externalOrderId
    externalTransactionId := text .externalTransactionId
    customerAccountNumber := text .customerAccountNumber
    details :=
      { customerName := text .customerName
        customerPhone := readers.phone (text .customerPhone)
        customerEmail := readers.email (text .customerEmail)
        serviceAddress := text .serviceAddress
        normalizedServiceAddress := readers.address (text .serviceAddress)
        carrier := (text .carrier).or mapping.carrier
        productSold := (text .productSold).or mapping.productSold
        program := (text .program).or mapping.program
        repExternalName := text .repExternalName
        repExternalId := text .repExternalId
        managerExternalName := text .managerExternalName
        saleDate := date .saleDate
        submittedDate := (date .submittedDate).or (date .saleDate)
        installScheduledAt := date .installScheduledAt
        installDate := date .installDate
        cancellationDate := date .cancellationDate }
    sourceStatus := text .sourceStatus
    normalizedStatus := resolveStatus readers mapping (text .sourceStatus)
    failureReason := text .failureReason
    requiredCustomerAction := text .requiredCustomerAction
    rawRowHash := "" }

end Apply

def fieldPart (name : String) (value : Option String) : Text :=
  name.toList ++ '=' :: (value.getD "").toList

def datePart (name : String) (value : Option Int) : Text :=
  name.toList ++ '=' :: (value.map toISOString).getD []

/-- The parts of a row that its cells decide, whatever file it is in. -/
def contentParts (row : NormalizedVendorOrder) : List Text :=
  let d := row.details
  [fieldPart "externalOrderId" row.externalOrderId,
    fieldPart "externalTransactionId" row.externalTransactionId,
    fieldPart "customerAccountNumber" row.customerAccountNumber,
    fieldPart "customerName" d.customerName,
    fieldPart "customerEmail" d.customerEmail,
    fieldPart "customerPhone" d.customerPhone,
    fieldPart "normalizedServiceAddress" d.normalizedServiceAddress,
    fieldPart "carrier" d.carrier,
    fieldPart "productSold" d.productSold,
    fieldPart "program" d.program,
    fieldPart "repExternalName" d.repExternalName,
    fieldPart "repExternalId" d.repExternalId,
    fieldPart "managerExternalName" d.managerExternalName,
    datePart "saleDate" d.saleDate,
    datePart "submittedDate" d.submittedDate,
    datePart "installScheduledAt" d.installScheduledAt,
    datePart "installDate" d.installDate,
    datePart "cancellationDate" d.cancellationDate,
    fieldPart "normalizedStatus" (some row.normalizedStatus.text),
    fieldPart "sourceStatus" row.sourceStatus,
    fieldPart "failureReason" row.failureReason,
    fieldPart "requiredCustomerAction" row.requiredCustomerAction]

def unitSeparator : Char := '\x1f'

/-- `HASH_FIELDS`, of which the first two say where the row came from. -/
def hashParts (row : NormalizedVendorOrder) : List Text :=
  fieldPart "sourceReportId" row.sourceReportId :: fieldPart "sourceRowId" row.sourceRowId ::
    contentParts row

def canonicalOrderRowString (row : NormalizedVendorOrder) : String :=
  String.ofList (List.intercalate [unitSeparator] (hashParts row))

def withRowHash (sha256Hex : String → String) (row : NormalizedVendorOrder) :
    NormalizedVendorOrder :=
  { row with rawRowHash := sha256Hex (canonicalOrderRowString row) }

def normalizeOrderRow (sha256Hex : String → String) (readers : CellReaders)
    (mapping : OrderColumnMapping) (cells : String → Option String) (file : Option FileChecksum)
    (rowNumber : Nat) : NormalizedVendorOrder :=
  withRowHash sha256Hex (applyOrderMapping readers mapping cells (sourceReportId file) rowNumber)

end HomefrontFiber.VendorOrders
