import HomefrontFiber.Commission.Schema

/-!
# Effective dates

One place decides which timestamp a sale write records. Timestamps from an untrusted clock are
clamped into the correction window that ends at the server's receipt; a trusted caller's are
kept. A sale is placed in a pay week by the one column its basis names.
-/

namespace HomefrontFiber.Commission

structure DateFields (τ : Type) where
  soldAt : Option τ
  qualifiedAt : Option τ
  installedAt : Option τ
  activatedAt : Option τ

def DateFields.map {τ υ : Type} (f : τ → υ) (d : DateFields τ) : DateFields υ where
  soldAt := d.soldAt.map f
  qualifiedAt := d.qualifiedAt.map f
  installedAt := d.installedAt.map f
  activatedAt := d.activatedAt.map f

def DateFields.get {τ : Type} (d : DateFields τ) : QualificationBasis → Option τ
  | .soldAt => d.soldAt
  | .qualifiedAt => d.qualifiedAt
  | .installedAt => d.installedAt
  | .activatedAt => d.activatedAt

/-- A timestamp text as a client sends it. `ms` is what `Date.parse` makes of it, if anything. -/
structure RawStamp where
  text : Text
  ms : Option Int

/-- The timestamps of a sale write. Those of an HTTP caller come with the server's receipt time;
a trusted in-process caller books known dates. -/
inductive SaleDates
  | untrusted (serverReceivedAt : Int) (raw : DateFields RawStamp)
  | trusted (dates : DateFields Stamp)

def clampStamp (receivedMs : Int) (correctionWindowDays : Int) (raw : RawStamp) : Stamp :=
  let floorMs := receivedMs - max 0 correctionWindowDays * msPerDay
  match raw.ms with
  | none => Stamp.ofMs receivedMs
  | some rawMs =>
    if rawMs < floorMs then Stamp.ofMs floorMs
    else if receivedMs < rawMs then Stamp.ofMs receivedMs
    else { text := raw.text, ms := rawMs }

/-- The values that may be written. Every field is clamped, whatever the basis. -/
def resolveEffectiveDates (input : SaleDates) (correctionWindowDays : Int) : DateFields Stamp :=
  match input with
  | .untrusted receivedMs raw => raw.map (clampStamp receivedMs correctionWindowDays)
  | .trusted dates => dates

namespace Sale

def dates (s : Sale) : DateFields Stamp where
  soldAt := some s.soldAt
  qualifiedAt := s.qualifiedAt
  installedAt := s.installedAt
  activatedAt := s.activatedAt

/-- The column that a basis names, null when it is not stamped yet. -/
def basisColumn (s : Sale) (basis : QualificationBasis) : Option Stamp := s.dates.get basis

def basisOr (s : Sale) (fallback : QualificationBasis) : QualificationBasis :=
  s.qualificationBasis.getD fallback

/-- `basisTsExpr`: the SQL timestamp by which queries place the sale. -/
def basisTsExpr (s : Sale) (fallback : QualificationBasis) : Option Stamp :=
  s.basisColumn (s.basisOr fallback)

/-- `basisTsForSale`: as `basisTsExpr`, with `soldAt` as the last resort. -/
def basisTsForSale (s : Sale) (fallback : QualificationBasis) : Stamp :=
  (s.basisTsExpr fallback).getD s.soldAt

end Sale

end HomefrontFiber.Commission

/-!
## The install hold

Under a policy that requires an install confirmation, a sale with a pending legacy commission is
not payable until the install is confirmed and its hold has passed. The overlay is read off the
latest commission row of the sale's door and rep that is not superseded, at the moment of
counting.
-/

namespace HomefrontFiber.Commission

/-- `holdDays` is kept within a year. -/
def clampHoldDays (n : Int) : Int := min 365 (max 0 n)

/-- The install confirmation plus the hold days, as the server writes it. -/
def payableAfterFor (installConfirmedAt : Int) (holdDays : Int) : Stamp :=
  Stamp.ofMs (installConfirmedAt + clampHoldDays holdDays * msPerDay)

def latestCommission (commissions : List LegacyCommission) (leadId : Option Nat) (repId : Nat) :
    Option LegacyCommission :=
  leadId.bind fun lead =>
    (commissions.filter fun c => c.leadId = some lead ∧ c.repId = repId ∧
      c.status ≠ .superseded).getLast?

/-- The timestamp by which a sale is paid, null while the hold excludes it. -/
def effectiveTs (policy : PayPolicy) (commissions : List LegacyCommission)
    (basis : QualificationBasis) (now : Stamp) (sale : Sale) : Option Stamp :=
  if policy.requireInstallConfirm then
    match latestCommission commissions sale.leadId sale.repId with
    | none => sale.basisTsExpr basis
    | some cm =>
      if cm.status ≠ .pending then sale.basisTsExpr basis
      else cm.payableAfter.filter fun after => after.text ≤ now.text
  else sale.basisTsExpr basis

/-- A QUALIFIED sale of the rep that the statement of the week pays. -/
def CountsForPay (db : Db) (now : Stamp) (basis : QualificationBasis) (repId : Nat)
    (bounds : WeekBounds) (sale : Sale) : Prop :=
  sale.repId = repId ∧ sale.status = .qualified ∧
    ∃ ts ∈ effectiveTs db.org.payPolicy db.commissions basis now sale, bounds.Holds ts.text

instance (db : Db) (now : Stamp) (basis : QualificationBasis) (repId : Nat) (bounds : WeekBounds)
    (sale : Sale) : Decidable (CountsForPay db now basis repId bounds sale) :=
  inferInstanceAs (Decidable (_ ∧ _ ∧ ∃ ts ∈ effectiveTs _ _ _ _ _, _))

/-- `countQualifiedSales` with `forPay`, the count a statement is priced on. -/
def countQualifiedSales (db : Db) (now : Stamp) (basis : QualificationBasis) (repId : Nat)
    (bounds : WeekBounds) : Int :=
  (db.sales.filter fun s => CountsForPay db now basis repId bounds s).length

/-- The sale's install-hold verdict for its upline: held, and the end of the hold if known. -/
def installHoldFor (db : Db) (now : Stamp) (sale : Sale) : Bool × Option Stamp :=
  if db.org.payPolicy.requireInstallConfirm then
    match latestCommission db.commissions sale.leadId sale.repId with
    | none => (false, none)
    | some cm =>
      if cm.status ≠ .pending then (false, none)
      else
        match cm.payableAfter with
        | none => (true, none)
        | some after => (decide (now.text < after.text), some after)
  else (false, none)

end HomefrontFiber.Commission
