import Mathlib.Data.List.Sort
import HomefrontFiber.Commission.Sales

/-!
# Knocks on a door

A knock is one disposition of a lead by a rep. Its row in `knock_log` is field history and stays;
the lead shows the latest outcome only, and a sold door carries a field sale and a legacy
commission beside it.
-/

namespace HomefrontFiber.Knocking

open Commission

inductive KnockOutcome
  | notHome | interested | sold | notInterested | followUp | goBack | alreadyCustomer
  | competitor | renter | moving | noSoliciting | callback | prospect | needsVerification
deriving DecidableEq

/-- `other` is a status text that no outcome sets. -/
inductive LeadStatus
  | prospect | contacted | interested | sold | notInterested | followUp
  | other (label : String)
deriving DecidableEq

/-- `OUTCOME_TO_STATUS`: the status that an outcome sets on its lead. -/
def KnockOutcome.leadStatus : KnockOutcome → LeadStatus
  | .notHome => .prospect
  | .interested => .interested
  | .sold => .sold
  | .notInterested => .notInterested
  | .followUp => .followUp
  | .goBack => .followUp
  | .alreadyCustomer => .notInterested
  | .competitor => .notInterested
  | .renter => .notInterested
  | .moving => .notInterested
  | .noSoliciting => .notInterested
  | .callback => .followUp
  | .prospect => .prospect
  | .needsVerification => .contacted

structure Lead where
  id : Nat
  tenantId : Option Nat
  leadStatus : LeadStatus
  lastOutcome : Option KnockOutcome
  lastOutcomeAt : Option Stamp
  doNotKnock : Bool
  updatedAt : Stamp

/-- A row of `knock_log`. -/
structure Knock where
  id : Nat
  leadId : Nat
  repId : Nat
  tenantId : Option Nat
  knockedAt : Stamp
  outcome : KnockOutcome
  clientId : Option String
  superseded : Bool

/-- A row of `spiffs`, one award for the sale of one knock. -/
structure Spiff where
  repId : Nat
  knockId : Nat
  amountCents : Nat

inductive CalcType
  | flat | percentage | tiered

structure Tier where
  minBasis : Int
  amountCents : Int

/-- A legacy commission structure, with its amounts in cents. -/
structure CommissionStructure where
  id : Nat
  version : Nat
  calcType : CalcType
  flatAmountCents : Int
  tiers : List Tier
  role : Option MemberRole
  repId : Option Nat
  effectiveFrom : Text
  effectiveTo : Option Text
  isActive : Bool

namespace CommissionStructure

def covers (s : CommissionStructure) (saleDate : Text) : Bool :=
  s.isActive && s.effectiveFrom ≤ saleDate && s.effectiveTo.all (saleDate ≤ ·)

/-- A rep's own structure beats that of a role, then the later start, then the higher version. -/
def better (cand : CommissionStructure) (cur : Option CommissionStructure) (repId : Nat) : Bool :=
  match cur with
  | none => true
  | some cur =>
    let candRep : Bool := cand.repId = some repId
    let curRep : Bool := cur.repId = some repId
    if candRep ≠ curRep then candRep
    else if cand.effectiveFrom ≠ cur.effectiveFrom then cur.effectiveFrom < cand.effectiveFrom
    else cur.version < cand.version

/-- It is meant for the rep: by name, or by role, or for everyone. -/
def isFor (s : CommissionStructure) (repId : Nat) (role : Option MemberRole) : Bool :=
  match s.repId with
  | some id => id = repId
  | none => s.role.all (some · = role)

end CommissionStructure

def pickActiveStructure (structures : List CommissionStructure) (repId : Nat)
    (role : Option MemberRole) (saleDate : Text) : Option CommissionStructure :=
  structures.foldl (fun best s =>
    if s.covers saleDate && s.isFor repId role && s.better best repId then some s else best) none

/-- `calcCommission` for the sale amount 0 that the server fixes. -/
def calcCommission (s : CommissionStructure) : Int :=
  match s.calcType with
  | .percentage => 0
  | .tiered =>
    let bands := s.tiers.insertionSort fun a b => b.minBasis ≤ a.minBasis
    ((bands.find? fun t => t.minBasis ≤ 0).map (·.amountCents)).getD 0
  | .flat => s.flatAmountCents

/-- One tenant's tables. `commissionSeq` is the last id given in `commissions`, whose rows may be
deleted. `applied` is a ghost: the knocks whose money bundle has committed as the lead's outcome. -/
structure KnockDb where
  commission : Db
  commissionSeq : Nat
  leads : List Lead
  knocks : List Knock
  rates : List CommissionStructure
  spiffs : List Spiff
  defaultTenantId : Option Nat
  applied : List Nat

namespace KnockDb

def leadById (s : KnockDb) (id : Nat) : Option Lead := s.leads.find? (·.id = id)

def knockByClientId (s : KnockDb) (clientId : String) : Option Knock :=
  s.knocks.find? (·.clientId = some clientId)

def updateLead (s : KnockDb) (id : Nat) (f : Lead → Lead) : KnockDb :=
  { s with leads := s.leads.map fun l => if l.id = id then f l else l }

def liveCommissionForLead (s : KnockDb) (leadId : Nat) : Option LegacyCommission :=
  s.commission.commissions.find? fun c =>
    c.leadId = some leadId ∧ (c.status = .pending ∨ c.status = .approved)

end KnockDb

end HomefrontFiber.Knocking
