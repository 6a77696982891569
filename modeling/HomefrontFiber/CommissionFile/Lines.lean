import Mathlib.Data.Prod.Lex
import HomefrontFiber.Foundation.IsoText
import HomefrontFiber.Foundation.Runs
import HomefrontFiber.Foundation.Table

/-!
# Commission lines

A row of the provider's commission file states what a line is worth. A line is restated in one
weekly file after another, and the store folds each restatement into the one row of the line, the
newest upload first. Rows arrive here normalized; the hash of a row is a parameter.
-/

namespace HomefrontFiber.CommissionFile

inductive CommissionCategory where
  | activation | chargeback | manualPayment | paymentBatch | unknown
deriving DecidableEq

def CommissionCategory.text : CommissionCategory → String
  | .activation => "activation"
  | .chargeback => "chargeback"
  | .manualPayment => "manual_payment"
  | .paymentBatch => "payment_batch"
  | .unknown => "unknown"

inductive CommissionLineStatus where
  | opened | closed | unknown
deriving DecidableEq

def CommissionLineStatus.text : CommissionLineStatus → String
  | .opened => "open"
  | .closed => "closed"
  | .unknown => "unknown"

inductive CommissionProductFamily where
  | internet | security | techSupport | video | voice | spiff | other
deriving DecidableEq

/-- The columns that a later restatement overwrites only where it has a value. -/
structure LineTexts where
  accountNumber : Option String := none
  documentNumber : Option String := none
  accountKey : Option String := none
  documentKey : Option String := none
  product : Option String := none
  productKey : Option String := none
  productFamily : Option CommissionProductFamily := none
  program : Option String := none
  customerName : Option String := none
  salesAgentName : Option String := none
  comments : Option String := none
deriving DecidableEq

/-- The columns that say what a line is worth. Dates are instants in milliseconds. -/
structure LineMoney where
  category : CommissionCategory
  lineStatus : CommissionLineStatus
  pendingAmountCents : Option Int := none
  paidAmountCents : Option Int := none
  actDeactDate : Option Int := none
  uploadDate : Option Int := none
  paymentDate : Option Int := none
deriving DecidableEq

structure NormalizedCommissionLine where
  texts : LineTexts := {}
  money : LineMoney
  firstChargeback : Bool := false
deriving DecidableEq

def isoDay (date : Option Int) : Option Text := date.map fun ms => (toISOString ms).take 10

def upperAlphanumeric (name : String) : String :=
  String.ofList ((name.toList.map Char.toUpper).filter fun c => c.isUpper || c.isDigit)

def commissionLineKey (line : NormalizedCommissionLine) : String :=
  let texts := line.texts
  let money := line.money
  let day (date : Option Int) : Option String := (isoDay date).map String.ofList
  if texts.accountKey.getD "" ≠ "" ∨ texts.documentKey.getD "" ≠ "" then
    String.intercalate ":" [texts.accountKey.getD "-", texts.documentKey.getD "-",
      texts.productKey.getD "-", money.category.text]
  else if money.category = .paymentBatch then
    String.intercalate ":" ["payment_batch",
      ((day money.uploadDate).or (day money.paymentDate)).getD "-",
      toString (money.paidAmountCents.getD 0)]
  else
    let name := upperAlphanumeric (texts.customerName.getD "")
    String.intercalate ":" [money.category.text, if name = "" then "-" else name,
      texts.productKey.getD "-", ((day money.actDeactDate).or (day money.uploadDate)).getD "-"]

/-- The parts of the string that a row's hash is taken over, which follow one another without a
separator. -/
def canonicalCommissionRowString (line : NormalizedCommissionLine) : String :=
  let texts := line.texts
  let money := line.money
  let text (value : Option String) : String := value.getD ""
  let cents (value : Option Int) : String := (value.map toString).getD ""
  let date (value : Option Int) : String :=
    (value.map fun ms => String.ofList (toISOString ms)).getD ""
  String.join ["accountNumber=", text texts.accountNumber,
    "documentNumber=", text texts.documentNumber,
    "product=", text texts.product,
    "category=", money.category.text,
    "lineStatus=", money.lineStatus.text,
    "program=", text texts.program,
    "customerName=", text texts.customerName,
    "salesAgentName=", text texts.salesAgentName,
    "comments=", text texts.comments,
    "pendingAmountCents=", cents money.pendingAmountCents,
    "paidAmountCents=", cents money.paidAmountCents,
    "actDeactDate=", date money.actDeactDate,
    "uploadDate=", date money.uploadDate,
    "paymentDate=", date money.paymentDate]

variable (sha256Hex : String → String)

def rawRowHash (line : NormalizedCommissionLine) : String :=
  sha256Hex (canonicalCommissionRowString line)

inductive CommissionLinkStatus where
  | pending | paid | chargeback

structure CommissionLinkFacts where
  status : CommissionLinkStatus
  amountCents : Int
  effectiveAt : Option Int
  periodLabel : Option Text

/-- What a line means for its order; a batch total and an unknown row are no order money. -/
def commissionLinkFacts (line : LineMoney) : Option CommissionLinkFacts :=
  if line.category = .paymentBatch ∨ line.category = .unknown then none
  else
    let effectiveAt := line.actDeactDate.or (line.paymentDate.or line.uploadDate)
    let paid := line.paidAmountCents.getD 0
    let pending := line.pendingAmountCents.getD 0
    if line.category = .chargeback then
      some
        { status := .chargeback
          amountCents := if paid ≠ 0 then paid else -|pending|
          effectiveAt := effectiveAt
          periodLabel := (isoDay line.paymentDate).or (isoDay line.uploadDate) }
    else if line.lineStatus = .closed then
      some
        { status := .paid
          amountCents := paid
          effectiveAt := effectiveAt
          periodLabel := (isoDay line.paymentDate).or (isoDay line.uploadDate) }
    else
      some
        { status := .pending
          amountCents := pending
          effectiveAt := effectiveAt
          periodLabel := isoDay line.uploadDate }

def closedScore (line : LineMoney) : Nat := if line.lineStatus = .closed then 1 else 0

def paymentScore (line : LineMoney) : Nat := if line.paymentDate.isSome then 1 else 0

/-- The newest upload, then a closed line over an open one, then a known payment date. -/
def score (line : LineMoney) : Int ×ₗ Nat ×ₗ Nat :=
  toLex (line.uploadDate.getD 0, toLex (closedScore line, paymentScore line))

def commissionRestatementSupersedes (a b : LineMoney) : Bool := score b < score a

structure CommissionLine where
  id : Nat
  tenantId : Nat
  lineKey : String
  texts : LineTexts
  money : LineMoney
  firstChargeback : Bool
  currentRowHash : String
  firstImportId : Nat
  lastImportId : Nat
  lastSeenAt : Int
  updatedAt : Int

structure LineImport where
  tenantId : Nat
  importId : Nat
  line : NormalizedCommissionLine
  nowMs : Int

structure UpsertLineResult where
  lineId : Nat
  created : Bool := false
  applied : Bool := false
  duplicate : Bool := false
  stale : Bool := false

/-- `COALESCE(?, column)` on each column. -/
def LineTexts.over (new old : LineTexts) : LineTexts where
  accountNumber := new.accountNumber.or old.accountNumber
  documentNumber := new.documentNumber.or old.documentNumber
  accountKey := new.accountKey.or old.accountKey
  documentKey := new.documentKey.or old.documentKey
  product := new.product.or old.product
  productKey := new.productKey.or old.productKey
  productFamily := new.productFamily.or old.productFamily
  program := new.program.or old.program
  customerName := new.customerName.or old.customerName
  salesAgentName := new.salesAgentName.or old.salesAgentName
  comments := new.comments.or old.comments

def LineMoney.over (new old : LineMoney) : LineMoney :=
  { new with
    actDeactDate := new.actDeactDate.or old.actDeactDate
    uploadDate := new.uploadDate.or old.uploadDate
    paymentDate := new.paymentDate.or old.paymentDate }

def findLineByKey (lines : List CommissionLine) (tenantId : Nat) (lineKey : String) :
    Option CommissionLine :=
  lines.find? fun l => l.tenantId = tenantId ∧ l.lineKey = lineKey

def LineImport.insertedLine (input : LineImport) (id : Nat) : CommissionLine where
  id := id
  tenantId := input.tenantId
  lineKey := commissionLineKey input.line
  texts := input.line.texts
  money := input.line.money
  firstChargeback := input.line.firstChargeback
  currentRowHash := rawRowHash sha256Hex input.line
  firstImportId := input.importId
  lastImportId := input.importId
  lastSeenAt := input.nowMs
  updatedAt := input.nowMs

def LineImport.appliedLine (input : LineImport) (old : CommissionLine) : CommissionLine :=
  { old with
    texts := input.line.texts.over old.texts
    money := input.line.money.over old.money
    firstChargeback := input.line.firstChargeback || old.firstChargeback
    currentRowHash := rawRowHash sha256Hex input.line
    lastImportId := input.importId
    lastSeenAt := input.nowMs
    updatedAt := input.nowMs }

def setLine (lines : List CommissionLine) (line : CommissionLine) : List CommissionLine :=
  lines.map fun l => if l.id = line.id then line else l

/-- The fold of a row into its line. A restatement applies unless what the line holds supersedes
it; an older one only says that the line was seen. -/
def upsertLineFromRow (lines : List CommissionLine) (input : LineImport) :
    List CommissionLine × UpsertLineResult :=
  match findLineByKey lines input.tenantId (commissionLineKey input.line) with
  | none =>
    let line := input.insertedLine sha256Hex (lines.length + 1)
    (lines ++ [line], { lineId := line.id, created := true, applied := true })
  | some existing =>
    if existing.currentRowHash = rawRowHash sha256Hex input.line then
      (setLine lines { existing with lastSeenAt := input.nowMs, lastImportId := input.importId },
        { lineId := existing.id, duplicate := true })
    else if commissionRestatementSupersedes existing.money input.line.money then
      (setLine lines { existing with lastSeenAt := input.nowMs },
        { lineId := existing.id, stale := true })
    else
      (setLine lines (input.appliedLine sha256Hex existing),
        { lineId := existing.id, applied := true })

def importLine (lines : List CommissionLine) (input : LineImport) : List CommissionLine :=
  (upsertLineFromRow sha256Hex lines input).1

end HomefrontFiber.CommissionFile
