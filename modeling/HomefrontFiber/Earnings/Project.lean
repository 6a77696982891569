import HomefrontFiber.Commission.Steps
import HomefrontFiber.Earnings.Ledger

/-!
# Projection and reconciliation of a period

`projectPeriod` mirrors a statement into the earnings ledger, one write for each source row, and
`reconcilePeriod` compares the projected rows of its rep and date with the statement.
-/

namespace HomefrontFiber.Earnings

open Commission List

def dateOf (instant : Stamp) : String := String.ofList (instant.text.take 10)

/-- A finalized or paid week is settled money, a week still open is a claim. -/
def projectedStatus : StatementStatus → LedgerStatus
  | .paid => .paid
  | .finalized => .approved
  | .open | .review => .pending

def adjustmentEarningType (a : Adjustment) : EarningType :=
  if a.amountCents < 0 then .clawback else .adjustment

def overrideEarningType : SlotRole → EarningType
  | .manager => .managerOverride
  | .teamLead => .teamLeadOverride

/-- The part of a write that all rows of a statement share. `planVersionNumber` is a column of the
statement that only this ledger reads. -/
def periodInput (tenantId : Nat) (planVersionNumber : Option Nat) (s : Statement)
    (sourceType : SourceType) (sourceId : Nat) (earningType : EarningType) (grossCents : Int) :
    RecordInput where
  tenantId := tenantId
  recipientRepId := s.repId
  sourceType := sourceType
  sourceId := sourceId
  earningType := earningType
  grossCents := grossCents
  status := projectedStatus s.status
  effectiveDate := dateOf s.weekStartUtc
  compensationPlanVersion := planVersionNumber

def InWeekOf (s : Statement) (r : OverrideRow) : Prop :=
  r.beneficiaryRepId = s.repId ∧ r.earnedWeekStartUtc = s.weekStartUtc

instance (s : Statement) (r : OverrideRow) : Decidable (InWeekOf s r) :=
  inferInstanceAs (Decidable (_ ∧ _))

/-- The writes of a projection: the commission, the approved adjustments, the overrides. -/
def periodInputs (tenantId : Nat) (planVersionNumber : Option Nat) (db : Db) (s : Statement) :
    List RecordInput :=
  let input := periodInput tenantId planVersionNumber s
  input .commissionStatement s.id .personalCommission s.grossCommissionCents ::
    ((db.adjustments.filter fun a => a.statementId = s.id ∧ a.status = .approved).map fun a =>
        input .commissionAdjustment a.id (adjustmentEarningType a) a.amountCents) ++
      ((db.overrides.filter fun r => InWeekOf s r).map fun r =>
        input .commissionOverride r.id (overrideEarningType r.beneficiaryRole) r.amountCents)

structure Projection where
  ledger : List EarningsLedgerRow
  rows : List EarningsLedgerRow
  statementEarnedCents : Int

def projectRow (acc : List EarningsLedgerRow × List EarningsLedgerRow) (input : RecordInput) :
    List EarningsLedgerRow × List EarningsLedgerRow :=
  let ledger := upsert input acc.1
  (ledger, acc.2 ++ (ledger.find? fun row => input.Hits row).toList)

def statementOf (db : Db) (repId statementId : Nat) : Option Statement :=
  db.statements.find? fun s => s.id = statementId ∧ s.repId = repId

def projectPeriod (tenantId repId statementId : Nat) (planVersionNumber : Option Nat) (db : Db)
    (ledger : List EarningsLedgerRow) : Except String Projection :=
  match statementOf db repId statementId with
  | none => .error "EARNINGS_STATEMENT_NOT_FOUND"
  | some s =>
    let acc := (periodInputs tenantId planVersionNumber db s).foldl projectRow (ledger, [])
    .ok { ledger := acc.1, rows := acc.2, statementEarnedCents := s.finalCommissionCents }

structure ReconciliationResult where
  ok : Bool
  ledgerCents : Int
  statementCents : Int
  driftCents : Int
  byType : EarningType → Option Int

structure Tally where
  ledgerCents : Int
  byType : EarningType → Option Int

def Tally.add (t : Tally) (row : EarningsLedgerRow) : Tally :=
  if row.origin ≠ .projected then t
  else
    { ledgerCents := t.ledgerCents + row.netCents
      byType := Function.update t.byType row.earningType
        (some ((t.byType row.earningType).getD 0 + row.netCents)) }

def reconcile (rows : List EarningsLedgerRow) (statementEarnedCents : Int) :
    ReconciliationResult :=
  let t := rows.foldl Tally.add { ledgerCents := 0, byType := fun _ => none }
  let driftCents := t.ledgerCents - statementEarnedCents
  { ok := driftCents = 0
    ledgerCents := t.ledgerCents
    statementCents := statementEarnedCents
    driftCents := driftCents
    byType := t.byType }

def reconcilePeriod (tenantId repId statementId : Nat) (db : Db)
    (ledger : List EarningsLedgerRow) : Except String ReconciliationResult :=
  match statementOf db repId statementId with
  | none => .error "EARNINGS_STATEMENT_NOT_FOUND"
  | some s =>
    let rows := ledger.filter fun row => row.tenantId = tenantId ∧ row.recipientRepId = repId ∧
      row.effectiveDate = dateOf s.weekStartUtc
    .ok (reconcile rows s.finalCommissionCents)

def ReconciliationResult.cents (result : ReconciliationResult) (types : List EarningType) : Int :=
  (types.map fun t => (result.byType t).getD 0).sum

section Tallies

variable {rows : List EarningsLedgerRow}

theorem tally_ledgerCents (rows : List EarningsLedgerRow) (t : Tally) :
    (rows.foldl Tally.add t).ledgerCents =
      t.ledgerCents + (rows.map fun row => if row.origin = .projected then row.netCents else 0).sum := by
  induction rows generalizing t with
  | nil => simp
  | cons row rows ih =>
    rw [foldl_cons, ih, map_cons, sum_cons, ← Int.add_assoc]
    congr 1
    unfold Tally.add
    by_cases h : row.origin = .projected <;> simp [h]

theorem tally_byType (rows : List EarningsLedgerRow) (t : Tally) (type : EarningType) :
    ((rows.foldl Tally.add t).byType type).getD 0 = (t.byType type).getD 0 +
      (rows.map fun row =>
        if row.origin = .projected ∧ row.earningType = type then row.netCents else 0).sum := by
  induction rows generalizing t with
  | nil => simp
  | cons row rows ih =>
    rw [foldl_cons, ih, map_cons, sum_cons, ← Int.add_assoc]
    congr 1
    unfold Tally.add
    by_cases h : row.origin = .projected
    · by_cases htype : row.earningType = type
      · subst htype
        simp [h]
      · simp [h, htype, Function.update_of_ne (Ne.symm htype)]
    · simp [h]

theorem reconcile_ledgerCents (rows : List EarningsLedgerRow) (earned : Int) :
    (reconcile rows earned).ledgerCents =
      (rows.map fun row => if row.origin = .projected then row.netCents else 0).sum := by
  have h := tally_ledgerCents rows { ledgerCents := 0, byType := fun _ => none }
  rwa [Int.zero_add] at h

theorem reconcile_cents (rows : List EarningsLedgerRow) (earned : Int) {types : List EarningType}
    (hnd : types.Nodup) :
    (reconcile rows earned).cents types =
      (rows.map fun row =>
        if row.origin = .projected ∧ row.earningType ∈ types then row.netCents else 0).sum := by
  induction types with
  | nil => simp [ReconciliationResult.cents]
  | cons type types ih =>
    have htype : ((reconcile rows earned).byType type).getD 0 = (rows.map fun row =>
        if row.origin = .projected ∧ row.earningType = type then row.netCents else 0).sum := by
      have h := tally_byType rows { ledgerCents := 0, byType := fun _ => none } type
      rwa [Option.getD_none, Int.zero_add] at h
    obtain ⟨hnew, hnd⟩ := nodup_cons.mp hnd
    have hcons : (reconcile rows earned).cents (type :: types) =
        ((reconcile rows earned).byType type).getD 0 + (reconcile rows earned).cents types :=
      sum_cons
    rw [hcons, htype, ih hnd, ← sum_map_add]
    congr 1
    apply map_congr_left
    intro row _
    by_cases h : row.origin = .projected
    · by_cases he : row.earningType = type
      · simp [h, he, hnew]
      · simp [h, he]
    · simp [h]

end Tallies

def upsertAll (inputs : List RecordInput) (ledger : List EarningsLedgerRow) :
    List EarningsLedgerRow :=
  inputs.foldl (fun ledger input => upsert input ledger) ledger

theorem foldl_projectRow (inputs : List RecordInput)
    (acc : List EarningsLedgerRow × List EarningsLedgerRow) :
    (inputs.foldl projectRow acc).1 = upsertAll inputs acc.1 := by
  induction inputs generalizing acc with
  | nil => rfl
  | cons input inputs ih => exact ih _

def DistinctKeys (inputs : List RecordInput) : Prop :=
  inputs.Pairwise fun i j => i.tenantId = j.tenantId ∧ i.key ≠ j.key

def Written (input : RecordInput) (ledger : List EarningsLedgerRow) : Prop :=
  (∃ row ∈ ledger, input.Hits row) ∧ ∀ row ∈ ledger, input.rewrite row = row

section Batches

variable {input other : RecordInput} {inputs : List RecordInput}
  {ledger : List EarningsLedgerRow} {row : EarningsLedgerRow}

theorem RecordInput.hits_rewrite_iff (input other : RecordInput) (row : EarningsLedgerRow) :
    input.Hits (other.rewrite row) ↔ input.Hits row := by
  rw [RecordInput.Hits, RecordInput.Hits, RecordInput.rewrite_tenantId, RecordInput.rewrite_key]

theorem not_hits_of_hits (hne : input.key ≠ other.key) (h : input.Hits row) : ¬other.Hits row :=
  fun h' => hne (h.2.symm.trans h'.2)

theorem RecordInput.rewrite_toRow (input : RecordInput) (id : Nat) :
    input.rewrite (input.toRow id) = input.toRow id := by
  unfold RecordInput.rewrite
  split <;> rfl

theorem RecordInput.rewrite_rewrite (input : RecordInput) (row : EarningsLedgerRow) :
    input.rewrite (input.rewrite row) = input.rewrite row := by
  by_cases h : input.Hits row ∧ row.status ≠ .paid
  · have hrewrite : input.rewrite row = { row with
        grossCents := input.grossCents
        adjustmentCents := input.adjustmentCents
        netCents := netOf input.grossCents input.adjustmentCents
        status := input.status
        effectiveDate := input.effectiveDate } := if_pos h
    rw [hrewrite]
    unfold RecordInput.rewrite
    split <;> rfl
  · have hrewrite : input.rewrite row = row := if_neg h
    rw [hrewrite, hrewrite]

theorem written_upsert (input : RecordInput) (ledger : List EarningsLedgerRow) :
    Written input (upsert input ledger) := by
  refine ⟨exists_upsert input ledger, ?_⟩
  intro row hrow
  rcases mem_upsert hrow with ⟨old, _, rfl⟩ | ⟨rfl, _⟩
  · exact input.rewrite_rewrite old
  · exact input.rewrite_toRow _

theorem Written.upsert (h : Written input ledger) (hne : input.key ≠ other.key) :
    Written input (upsert other ledger) := by
  obtain ⟨⟨row, hrow, hhits⟩, hkept⟩ := h
  constructor
  · obtain ⟨row', hrow', htenant, hkey⟩ := @upsert_keeps other _ _ hrow
    exact ⟨row', hrow', htenant.trans hhits.1, hkey.trans hhits.2⟩
  · intro row' hrow'
    rcases mem_upsert hrow' with ⟨old, hold, rfl⟩ | ⟨rfl, _⟩
    · by_cases hother : other.Hits old
      · apply RecordInput.rewrite_of_not_hits
        rw [RecordInput.hits_rewrite_iff]
        exact not_hits_of_hits hne.symm hother
      · rw [RecordInput.rewrite_of_not_hits hother]
        exact hkept old hold
    · exact RecordInput.rewrite_of_not_hits (not_hits_of_hits hne.symm (other.toRow_hits _))

theorem Written.upsert_eq (h : Written input ledger) : Earnings.upsert input ledger = ledger := by
  obtain ⟨⟨row, hrow, hhits⟩, hkept⟩ := h
  have hany : ledger.any (fun row => decide (input.Hits row)) = true :=
    any_eq_true.mpr ⟨row, hrow, decide_eq_true hhits⟩
  rw [Earnings.upsert, if_pos hany]
  exact (map_congr_left hkept).trans (map_id ledger)

theorem Written.upsertAll (h : Written input ledger) (hne : ∀ j ∈ inputs, input.key ≠ j.key) :
    Written input (upsertAll inputs ledger) := by
  induction inputs generalizing ledger with
  | nil => exact h
  | cons other inputs ih =>
    obtain ⟨hother, hrest⟩ := forall_mem_cons.mp hne
    exact ih (h.upsert hother) hrest

theorem written_upsertAll (h : DistinctKeys inputs) (ledger : List EarningsLedgerRow) :
    ∀ input ∈ inputs, Written input (upsertAll inputs ledger) := by
  induction inputs generalizing ledger with
  | nil => exact fun _ hi => absurd hi not_mem_nil
  | cons first inputs ih =>
    obtain ⟨hfirst, hrest⟩ := pairwise_cons.mp h
    intro input hi
    rcases mem_cons.mp hi with rfl | hi
    · exact (written_upsert input ledger).upsertAll fun j hj => (hfirst j hj).2
    · exact ih hrest _ input hi

theorem upsertAll_of_written (h : ∀ input ∈ inputs, Written input ledger) :
    upsertAll inputs ledger = ledger := by
  induction inputs with
  | nil => rfl
  | cons input inputs ih =>
    obtain ⟨hfirst, hrest⟩ := forall_mem_cons.mp h
    have hnext : upsertAll (input :: inputs) ledger =
        upsertAll inputs (Earnings.upsert input ledger) := rfl
    rw [hnext, hfirst.upsert_eq, ih hrest]

theorem upsertAll_upsertAll (h : DistinctKeys inputs) (ledger : List EarningsLedgerRow) :
    upsertAll inputs (upsertAll inputs ledger) = upsertAll inputs ledger :=
  upsertAll_of_written (written_upsertAll h ledger)

/-- What holds of the rows of a ledger, and of what each write of a batch makes of a row. -/
theorem forall_mem_upsertAll {p : EarningsLedgerRow → Prop}
    (hold : ∀ input ∈ inputs, ∀ row, p row → p (input.rewrite row))
    (hnew : ∀ input ∈ inputs, ∀ id, p (input.toRow id)) (h : ∀ row ∈ ledger, p row) :
    ∀ row ∈ upsertAll inputs ledger, p row := by
  induction inputs generalizing ledger with
  | nil => exact h
  | cons input inputs ih =>
    obtain ⟨hfirst, hrest⟩ := forall_mem_cons.mp hold
    obtain ⟨hfresh, hlater⟩ := forall_mem_cons.mp hnew
    refine ih hrest hlater fun row hrow => ?_
    rcases mem_upsert hrow with ⟨old, hmem, rfl⟩ | ⟨rfl, _⟩
    · exact hfirst old (h old hmem)
    · exact hfresh _

theorem nodup_upsertAll (h : (ledger.map EarningsLedgerRow.key).Nodup) :
    ((upsertAll inputs ledger).map EarningsLedgerRow.key).Nodup := by
  induction inputs generalizing ledger with
  | nil => exact h
  | cons input inputs ih => exact ih (nodup_upsert h)

/-- The row that a single write leaves under its key, up to the id of a new one. -/
def RecordInput.leaves (input : RecordInput) (ledger : List EarningsLedgerRow) :
    EarningsLedgerRow :=
  match ledger.find? fun row => input.Hits row with
  | some row => input.rewrite row
  | none => input.toRow 0

theorem RecordInput.leaves_hits (input : RecordInput) (ledger : List EarningsLedgerRow) :
    input.Hits (input.leaves ledger) := by
  unfold RecordInput.leaves
  split
  · rename_i row hfind
    rw [RecordInput.hits_rewrite_iff]
    simpa using find?_some hfind
  · exact input.toRow_hits 0

def IgnoresId (m : EarningsLedgerRow → Int) : Prop :=
  ∀ (input : RecordInput) id, m (input.toRow id) = m (input.toRow 0)

theorem pairwise_hits (hnd : (ledger.map EarningsLedgerRow.key).Nodup) (input : RecordInput) :
    ledger.Pairwise fun a b => decide (input.Hits a) = true → decide (input.Hits b) = false := by
  refine (pairwise_map.mp hnd).imp fun {a b} hne ha => ?_
  rw [decide_eq_false_iff_not]
  intro hb
  have ha : input.Hits a := of_decide_eq_true ha
  exact hne (Prod.ext (ha.1.trans hb.1.symm) (ha.2.trans hb.2.symm))

theorem sum_upsert {m : EarningsLedgerRow → Int} (hm : IgnoresId m)
    (hnd : (ledger.map EarningsLedgerRow.key).Nodup) (input : RecordInput) :
    ((upsert input ledger).map m).sum =
      (ledger.map fun row => if input.Hits row then 0 else m row).sum + m (input.leaves ledger) := by
  unfold upsert RecordInput.leaves
  by_cases hany : ledger.any (fun row => decide (input.Hits row)) = true
  · rw [if_pos hany, map_map, sum_map_find? (pairwise_hits hnd input)]
    congr 1
    · congr 1
      apply map_congr_left
      intro row _
      by_cases hhits : input.Hits row
      · simp [hhits]
      · simp [hhits, RecordInput.rewrite_of_not_hits hhits]
    · cases hfind : ledger.find? fun row => input.Hits row with
      | some row => rfl
      | none =>
        obtain ⟨row, hrow, hhits⟩ := any_eq_true.mp hany
        exact absurd hhits (find?_eq_none.mp hfind row hrow)
  · have hfree : ∀ row ∈ ledger, ¬input.Hits row := by
      intro row hrow hhits
      exact hany (any_eq_true.mpr ⟨row, hrow, decide_eq_true hhits⟩)
    have hfind : (ledger.find? fun row => input.Hits row) = none := by
      rw [find?_eq_none]
      exact fun row hrow hhits => hfree row hrow (of_decide_eq_true hhits)
    have hothers : ledger.map (fun row => if input.Hits row then 0 else m row) = ledger.map m :=
      map_congr_left fun row hrow => if_neg (hfree row hrow)
    rw [if_neg hany, hfind, hothers, map_append, sum_append, map_singleton,
      sum_singleton, hm input]

theorem RecordInput.leaves_upsert (hne : input.key ≠ other.key) :
    input.leaves (upsert other ledger) = input.leaves ledger := by
  have hfind : ((upsert other ledger).find? fun row => input.Hits row) =
      ledger.find? fun row => input.Hits row := by
    unfold upsert
    split
    · rw [find?_map]
      have hsame : ((fun row => decide (input.Hits row)) ∘ other.rewrite) =
          fun row => decide (input.Hits row) := by
        funext row
        exact decide_eq_decide.mpr (input.hits_rewrite_iff other row)
      rw [hsame]
      cases hrow : ledger.find? fun row => input.Hits row with
      | none => rfl
      | some row =>
        have hhits : input.Hits row := by simpa using find?_some hrow
        rw [Option.map_some, RecordInput.rewrite_of_not_hits (not_hits_of_hits hne hhits)]
    · have hnew : ¬input.Hits (other.toRow (ledger.length + 1)) :=
        not_hits_of_hits hne.symm (other.toRow_hits _)
      rw [find?_append, find?_cons_of_neg (by simpa using hnew), find?_nil,
        Option.or_none]
  rw [RecordInput.leaves, hfind, RecordInput.leaves]

theorem sum_upsertAll {m : EarningsLedgerRow → Int} (hm : IgnoresId m) (h : DistinctKeys inputs)
    (hnd : (ledger.map EarningsLedgerRow.key).Nodup) :
    ((upsertAll inputs ledger).map m).sum =
      (ledger.map fun row => if ∃ input ∈ inputs, input.Hits row then 0 else m row).sum +
        (inputs.map fun input => m (input.leaves ledger)).sum := by
  induction inputs generalizing ledger with
  | nil => simp [upsertAll]
  | cons first inputs ih =>
    obtain ⟨hfirst, hrest⟩ := pairwise_cons.mp h
    let m' : EarningsLedgerRow → Int := fun row =>
      if ∃ input ∈ inputs, input.Hits row then 0 else m row
    have hm' : IgnoresId m' := fun input id => by
      have hhits : ∀ j : RecordInput, j.Hits (input.toRow id) ↔ j.Hits (input.toRow 0) :=
        fun _ => Iff.rfl
      simp only [m', hhits, hm input id]
    have hown : m' (first.leaves ledger) = m (first.leaves ledger) := by
      apply if_neg
      rintro ⟨j, hj, hhits⟩
      exact not_hits_of_hits (hfirst j hj).2 (first.leaves_hits ledger) hhits
    have hnext : upsertAll (first :: inputs) ledger = upsertAll inputs (upsert first ledger) := rfl
    have hsum : ((upsert first ledger).map m').sum =
        (ledger.map fun row => if first.Hits row then 0 else m' row).sum +
          m' (first.leaves ledger) := sum_upsert hm' hnd first
    have hleaves : inputs.map (fun input => m (input.leaves (upsert first ledger))) =
        inputs.map fun input => m (input.leaves ledger) := by
      apply map_congr_left
      intro j hj
      rw [RecordInput.leaves_upsert (hfirst j hj).2.symm]
    have hkept : (ledger.map fun row => if first.Hits row then 0 else m' row) =
        ledger.map fun row => if ∃ input ∈ first :: inputs, input.Hits row then 0 else m row := by
      apply map_congr_left
      intro row _
      by_cases hhits : first.Hits row
      · simp [hhits]
      · simp [hhits, m']
    rw [hnext, ih hrest (nodup_upsert hnd), hsum, hown, hkept, hleaves, map_cons,
      sum_cons]
    omega

end Batches

end HomefrontFiber.Earnings
