import Mathlib.Algebra.BigOperators.Group.List.Basic
import Mathlib.Data.List.Basic
import HomefrontFiber.Foundation.Table

/-!
# The earnings ledger

One row for each thing a worker earned. A row is keyed by its source and its earning type, and a
second write under a key rewrites the row in place unless it is paid. The origin of a row is a
property of its source: a projected row mirrors money that another table owns, a native row is the
only record of its money.
-/

namespace HomefrontFiber.Earnings

open List

inductive EarningType where
  | personalCommission | teamLeadOverride | managerOverride | spiff | trainingBonus
  | referralBonus | mileageReimbursement | hourly | adjustment | clawback
deriving DecidableEq

inductive SourceType where
  | commissionStatement | commissionOverride | commissionAdjustment | hourlyBlock
  | spiff | mileageTrip | referral
deriving DecidableEq

inductive LedgerOrigin where
  | projected | native
deriving DecidableEq

def originOf : SourceType → LedgerOrigin
  | .commissionStatement | .commissionOverride | .commissionAdjustment | .hourlyBlock => .projected
  | .spiff | .mileageTrip | .referral => .native

inductive LedgerStatus where
  | pending | approved | paid | reversed
deriving DecidableEq

/-- The parts of the key text `source:id:type`, of which only the id is not a fixed word. -/
structure LedgerKey where
  sourceType : SourceType
  sourceId : Nat
  earningType : EarningType
deriving DecidableEq

structure EarningsLedgerRow where
  id : Nat
  tenantId : Nat
  recipientRepId : Nat
  sourceType : SourceType
  sourceId : Nat
  earningType : EarningType
  origin : LedgerOrigin
  grossCents : Int
  adjustmentCents : Int
  netCents : Int
  status : LedgerStatus
  /-- `YYYY-MM-DD` -/
  effectiveDate : String
  compensationPlanVersion : Option Nat
  idempotencyKey : LedgerKey

def EarningsLedgerRow.key (row : EarningsLedgerRow) : Nat × LedgerKey :=
  (row.tenantId, row.idempotencyKey)

structure RecordInput where
  tenantId : Nat
  recipientRepId : Nat
  sourceType : SourceType
  sourceId : Nat
  earningType : EarningType
  grossCents : Int
  adjustmentCents : Int := 0
  status : LedgerStatus := .pending
  effectiveDate : String
  compensationPlanVersion : Option Nat := none

def netOf (grossCents adjustmentCents : Int) : Int := grossCents + adjustmentCents

def ledgerKey (sourceType : SourceType) (sourceId : Nat) (earningType : EarningType) : LedgerKey :=
  { sourceType, sourceId, earningType }

def RecordInput.key (input : RecordInput) : LedgerKey :=
  ledgerKey input.sourceType input.sourceId input.earningType

/-- The row that the unique index on `(tenant_id, idempotency_key)` finds in the way of a write. -/
def RecordInput.Hits (input : RecordInput) (row : EarningsLedgerRow) : Prop :=
  row.tenantId = input.tenantId ∧ row.idempotencyKey = input.key

instance (input : RecordInput) (row : EarningsLedgerRow) : Decidable (input.Hits row) :=
  inferInstanceAs (Decidable (_ ∧ _))

def RecordInput.toRow (input : RecordInput) (id : Nat) : EarningsLedgerRow where
  id := id
  tenantId := input.tenantId
  recipientRepId := input.recipientRepId
  sourceType := input.sourceType
  sourceId := input.sourceId
  earningType := input.earningType
  origin := originOf input.sourceType
  grossCents := input.grossCents
  adjustmentCents := input.adjustmentCents
  netCents := netOf input.grossCents input.adjustmentCents
  status := input.status
  effectiveDate := input.effectiveDate
  compensationPlanVersion := input.compensationPlanVersion
  idempotencyKey := input.key

/-- The `DO UPDATE` of a conflicting write, which leaves a paid row alone. -/
def RecordInput.rewrite (input : RecordInput) (row : EarningsLedgerRow) : EarningsLedgerRow :=
  if input.Hits row ∧ row.status ≠ .paid then
    { row with
      grossCents := input.grossCents
      adjustmentCents := input.adjustmentCents
      netCents := netOf input.grossCents input.adjustmentCents
      status := input.status
      effectiveDate := input.effectiveDate }
  else row

def upsert (input : RecordInput) (ledger : List EarningsLedgerRow) : List EarningsLedgerRow :=
  if ledger.any (fun row => decide (input.Hits row)) then ledger.map input.rewrite
  else ledger ++ [input.toRow (ledger.length + 1)]

def recordNative (input : RecordInput) (ledger : List EarningsLedgerRow) :
    Except String (List EarningsLedgerRow) :=
  if originOf input.sourceType = .native then .ok (upsert input ledger)
  else .error "EARNINGS_NOT_NATIVE"

section Upsert

variable {input : RecordInput} {ledger : List EarningsLedgerRow} {row : EarningsLedgerRow}

theorem RecordInput.toRow_hits (input : RecordInput) (id : Nat) : input.Hits (input.toRow id) :=
  ⟨rfl, rfl⟩

theorem RecordInput.rewrite_of_not_hits (h : ¬input.Hits row) : input.rewrite row = row :=
  if_neg fun hrow => h hrow.1

@[simp] theorem RecordInput.rewrite_tenantId (input : RecordInput) (row : EarningsLedgerRow) :
    (input.rewrite row).tenantId = row.tenantId := by
  unfold RecordInput.rewrite
  split <;> rfl

@[simp] theorem RecordInput.rewrite_key (input : RecordInput) (row : EarningsLedgerRow) :
    (input.rewrite row).idempotencyKey = row.idempotencyKey := by
  unfold RecordInput.rewrite
  split <;> rfl

@[simp] theorem RecordInput.rewrite_sourceId (input : RecordInput) (row : EarningsLedgerRow) :
    (input.rewrite row).sourceId = row.sourceId := by
  unfold RecordInput.rewrite
  split <;> rfl

/-- What a write leaves behind: every old row, rewritten where it is in the way, and a new row
when none was. -/
theorem mem_upsert (h : row ∈ upsert input ledger) :
    (∃ old ∈ ledger, row = input.rewrite old) ∨
      (row = input.toRow (ledger.length + 1) ∧ ∀ old ∈ ledger, ¬input.Hits old) := by
  unfold upsert at h
  split at h
  · obtain ⟨old, hold, rfl⟩ := mem_map.mp h
    exact Or.inl ⟨old, hold, rfl⟩
  · rename_i hany
    have hfree : ∀ old ∈ ledger, ¬input.Hits old := by
      intro old hold hhits
      exact hany (any_eq_true.mpr ⟨old, hold, by simpa using hhits⟩)
    rcases mem_append.mp h with hold | hnew
    · left
      exact ⟨row, hold, (RecordInput.rewrite_of_not_hits (hfree row hold)).symm⟩
    · right
      exact ⟨mem_singleton.mp hnew, hfree⟩

theorem exists_upsert (input : RecordInput) (ledger : List EarningsLedgerRow) :
    ∃ row ∈ upsert input ledger, input.Hits row := by
  unfold upsert
  split
  · rename_i hany
    obtain ⟨old, hold, hhits⟩ := any_eq_true.mp hany
    have hrow : input.Hits old := by simpa using hhits
    refine ⟨input.rewrite old, mem_map_of_mem hold, ?_⟩
    exact ⟨(input.rewrite_tenantId old).trans hrow.1, (input.rewrite_key old).trans hrow.2⟩
  · exact ⟨_, mem_append_right _ (mem_singleton.mpr rfl), input.toRow_hits _⟩

theorem upsert_keeps (h : row ∈ ledger) : ∃ row' ∈ upsert input ledger,
    row'.tenantId = row.tenantId ∧ row'.idempotencyKey = row.idempotencyKey := by
  unfold upsert
  split
  · exact ⟨input.rewrite row, mem_map_of_mem h, input.rewrite_tenantId row,
      input.rewrite_key row⟩
  · exact ⟨row, mem_append_left _ h, rfl, rfl⟩

theorem nodup_upsert (h : (ledger.map EarningsLedgerRow.key).Nodup) :
    ((upsert input ledger).map EarningsLedgerRow.key).Nodup := by
  unfold upsert
  split
  · apply nodup_key_map h
    intro row
    exact Prod.ext (input.rewrite_tenantId row) (input.rewrite_key row)
  · rename_i hany
    apply nodup_key_snoc h
    rw [find?_eq_none]
    intro old hold hkey
    obtain ⟨htenant, hidempotency⟩ := Prod.mk.inj (of_decide_eq_true hkey)
    exact hany (any_eq_true.mpr ⟨old, hold, decide_eq_true ⟨htenant, hidempotency⟩⟩)

end Upsert

end HomefrontFiber.Earnings
