import HomefrontFiber.Workweek
import HomefrontFiber.Foundation.Service
import HomefrontFiber.Commission.Tiers

/-!
# The commission tables

One tenant's rows, as the commission service reads and writes them. A table is the list of its
rows in insertion order; the ids of a table whose rows are never deleted count its rows. `Org` is
what the service reads and other parts of the application write: configuration, roster, plans and
the clock. Instants written by the server are stamps of its own clock.
-/

namespace HomefrontFiber.Commission

inductive QualificationBasis
  | soldAt | qualifiedAt | installedAt | activatedAt
deriving DecidableEq

inductive OverrideBasis
  | flatPerSale | percentOfCommission
deriving DecidableEq

/-- `other` is any status text outside the lifecycle: the sales route stores what it is sent. -/
inductive SaleStatus
  | pending | qualified | reversed | disqualified | cancelled
  | other (label : String)
deriving DecidableEq

structure Sale where
  id : Nat
  repId : Nat
  externalId : String
  status : SaleStatus
  soldAt : Stamp
  qualifiedAt : Option Stamp
  installedAt : Option Stamp
  activatedAt : Option Stamp
  reversedAt : Option Stamp
  disqualificationReason : Option String
  leadId : Option Nat
  qualificationBasis : Option QualificationBasis
  createdAt : Stamp
  updatedAt : Stamp

inductive StatementStatus
  | open | review | finalized | paid
deriving DecidableEq

def StatementStatus.label : StatementStatus → String
  | .open => "OPEN"
  | .review => "REVIEW"
  | .finalized => "FINALIZED"
  | .paid => "PAID"

def StatementStatus.locked (s : StatementStatus) : Bool := s = .finalized || s = .paid

/-- The weekly hourly block, from the clock sessions and the punch corrections. -/
structure WeekHourlyPay where
  minutes : Int
  rateCents : Option Int
  payCents : Int
  openSessionCount : Nat

structure Statement where
  id : Nat
  repId : Nat
  weekStartUtc : Stamp
  nextWeekStartUtc : Stamp
  qualificationBasis : QualificationBasis
  commissionPlanId : Option Nat
  commissionPlanVersionId : Option Nat
  qualifiedSaleCount : Int
  tierId : Option Nat
  tierLabel : Option String
  rateCents : Int
  grossCommissionCents : Int
  adjustmentCents : Int
  finalCommissionCents : Int
  hourlyMinutes : Int
  hourlyRateCents : Option Int
  hourlyPayCents : Int
  overridePayCents : Int
  overrideItemCount : Nat
  calculationVersion : Nat
  status : StatementStatus
  updatedAt : Stamp
deriving DecidableEq

inductive AdjustmentStatus
  | pending | approved | rejected
deriving DecidableEq

def AdjustmentStatus.label : AdjustmentStatus → String
  | .pending => "PENDING"
  | .approved => "APPROVED"
  | .rejected => "REJECTED"

structure Adjustment where
  id : Nat
  statementId : Nat
  repId : Nat
  amountCents : Int
  type : String
  reason : Text
  relatedSaleId : Option Nat
  status : AdjustmentStatus

inductive MemberRole
  | rep | teamLead | manager
  | other (name : String)
deriving DecidableEq

/-- A row of `team_members`, with the per-hire override rates of a seller. -/
structure Member where
  id : Nat
  role : MemberRole
  reportsToId : Option Nat
  active : Bool
  overrideTeamLeadCents : Option Int
  overrideManagerCents : Option Int

inductive SlotRole
  | teamLead | manager
deriving DecidableEq

structure OverrideRates where
  basis : OverrideBasis
  teamLeadCents : Int
  managerCents : Int
deriving DecidableEq

structure UplineChainNode where
  repId : Nat
  role : MemberRole
  level : Nat
  active : Bool
deriving DecidableEq

inductive SkipReason
  | slotFilled | notASlotRole | zeroRate
deriving DecidableEq

structure ChainSnapshotNode extends UplineChainNode where
  awardedCents : Int
  skipReason : Option SkipReason
deriving DecidableEq

inductive OverrideEntryType
  | earn | clawback
deriving DecidableEq

inductive OverrideLedgerStatus
  | payable | held | settled | exception | resolved
deriving DecidableEq

inductive OverrideReason
  | lockedWeekEarn | lockedWeekRelease | overrideReversedAfterFinalize
  | reversedWhileHeld | reversedBeforeResolution
deriving DecidableEq

/-- A row of `commission_overrides`. Its `source_ref` names the sale `saleId`. -/
structure OverrideRow where
  id : Nat
  saleId : Nat
  downlineRepId : Nat
  beneficiaryRepId : Nat
  beneficiaryRole : SlotRole
  level : Nat
  entryType : OverrideEntryType
  pairSeq : Nat
  basis : OverrideBasis
  amountCents : Int
  rateSnapshot : OverrideRates
  chainSnapshot : List ChainSnapshotNode
  earnedWeekStartUtc : Stamp
  status : OverrideLedgerStatus
  holdPayableAfter : Option Stamp
  settledStatementId : Option Nat
  resolvedAdjustmentId : Option Nat
  reason : Option OverrideReason
  updatedAt : Stamp
deriving DecidableEq

inductive LegacyStatus
  | pending | approved | paid | disputed | superseded
deriving DecidableEq

structure LegacyCommission where
  id : Nat
  repId : Nat
  leadId : Option Nat
  knockId : Option Nat
  amountCents : Int
  status : LegacyStatus
  installConfirmedAt : Option Stamp
  payableAfter : Option Stamp

inductive PlanType
  | flat | tiered
deriving DecidableEq

structure CommissionPlan where
  id : Nat
  type : PlanType
  tierMode : String

structure PlanVersion where
  id : Nat
  commissionPlanId : Nat
  versionNumber : Nat
  flatRateCents : Option Int
  qualificationBasis : QualificationBasis
  tiers : List CommissionTier

/-- A row of `rep_commission_assignments`. Its dates are compared as `YYYY-MM-DD` text. -/
structure AssignmentRow where
  id : Nat
  repId : Nat
  commissionPlanVersionId : Nat
  effectiveFrom : Text
  effectiveTo : Option Text
deriving DecidableEq

structure PayPolicy where
  requireInstallConfirm : Bool
  holdDays : Int

/-- The policy of a tenant without a `tenant_pay_policy` row. -/
structure OrgCommissionConfig extends WorkweekConfig where
  qualificationBasis : QualificationBasis
  correctionWindowDays : Int
  overridesEnabled : Bool
  overrideBasis : OverrideBasis
  overrideTeamLeadCents : Int
  overrideManagerCents : Int

/-- What the commission service reads but never writes. `hourly` is the hourly block of a rep
between two instants, from the tables of the time clock. -/
structure Org where
  config : OrgCommissionConfig
  payPolicy : PayPolicy
  members : List Member
  plans : List CommissionPlan
  versions : List PlanVersion
  assignments : List AssignmentRow
  hourly : Nat → Stamp → Stamp → WeekHourlyPay

structure Db where
  org : Org
  commissions : List LegacyCommission
  sales : List Sale
  statements : List Statement
  adjustments : List Adjustment
  overrides : List OverrideRow

def Db.empty (org : Org) : Db where
  org := org
  commissions := []
  sales := []
  statements := []
  adjustments := []
  overrides := []

/-- `exceptionNotOpen` is the code of the override store's own error class. -/
inductive ErrorCode
  | invalidCommissionPlan | invalidTierConfiguration | unsupportedTierMode
  | noEffectivePlanAssignment | statementLocked | crossTenantAccess | invalidAdjustment
  | openClockSession | saleCreditLocked | exceptionNotOpen
deriving DecidableEq

structure CommissionError where
  code : ErrorCode
  message : String
  httpStatus : Nat := 400

abbrev CommissionService (α : Type) := Service Db CommissionError α

namespace Db

def saleById (db : Db) (id : Nat) : Option Sale := db.sales.find? (·.id = id)

def saleByExternalId (db : Db) (externalId : String) : Option Sale :=
  db.sales.find? (·.externalId = externalId)

def statementById (db : Db) (id : Nat) : Option Statement := db.statements.find? (·.id = id)

/-- The statement of a rep for the week that starts at `week`, unique by its index. -/
def statementFor (db : Db) (repId : Nat) (week : Stamp) : Option Statement :=
  db.statements.find? fun s => s.repId = repId ∧ s.weekStartUtc = week

def weekLocked (db : Db) (repId : Nat) (week : Stamp) : Bool :=
  (db.statementFor repId week).any (·.status.locked)

def memberById (db : Db) (id : Nat) : Option Member := db.org.members.find? (·.id = id)

def updateStatement (db : Db) (id : Nat) (f : Statement → Statement) : Db :=
  { db with statements := db.statements.map fun s => if s.id = id then f s else s }

def updateSale (db : Db) (id : Nat) (f : Sale → Sale) : Db :=
  { db with sales := db.sales.map fun s => if s.id = id then f s else s }

end Db

end HomefrontFiber.Commission
