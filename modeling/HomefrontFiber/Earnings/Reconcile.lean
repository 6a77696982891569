import HomefrontFiber.Commission.HoldRelease
import HomefrontFiber.Earnings.Mirror

/-!
# Reconciliation after a projection

Right after a projection the ledger shows, for the statement's rep and date, the rows of that
projection and whatever was mirrored there from elsewhere. The override part of a projection takes
the rows of the week in every status, while the statement folds the PAYABLE ones, so the two agree
when the rows that the statement leaves out cancel.
-/

namespace HomefrontFiber.Earnings

open Commission List

def commissionTypes : List EarningType := [.personalCommission]

def adjustmentTypes : List EarningType := [.adjustment, .clawback]

def overrideTypes : List EarningType := [.teamLeadOverride, .managerOverride]

/-- A projection of the statement reconciles to the cent, in each of its parts, and a second one
leaves the ledger as it is. -/
def Reconciles (tenantId : Nat) (planVersionNumber : Option Nat) (b : Books) (s : Statement) :
    Prop :=
  ∃ p, projectPeriod tenantId s.repId s.id planVersionNumber b.db b.ledger = .ok p ∧
    (∃ p', projectPeriod tenantId s.repId s.id planVersionNumber b.db p.ledger = .ok p' ∧
      p'.ledger = p.ledger) ∧
    ∃ result, reconcilePeriod tenantId s.repId s.id b.db p.ledger = .ok result ∧
      result.ok = true ∧ result.driftCents = 0 ∧
      result.cents commissionTypes = s.grossCommissionCents ∧
      result.cents adjustmentTypes = s.adjustmentCents ∧
      result.cents overrideTypes = s.overridePayCents

/-- A projected row under the statement's rep and date, of one of the given types. -/
def OnPeriod (tenantId : Nat) (s : Statement) (types : List EarningType)
    (row : EarningsLedgerRow) : Prop :=
  row.tenantId = tenantId ∧ row.recipientRepId = s.repId ∧
    row.effectiveDate = dateOf s.weekStartUtc ∧ row.origin = .projected ∧ row.earningType ∈ types

instance (tenantId : Nat) (s : Statement) (types : List EarningType) (row : EarningsLedgerRow) :
    Decidable (OnPeriod tenantId s types row) :=
  inferInstanceAs (Decidable (_ ∧ _ ∧ _ ∧ _ ∧ _))

/-- The mirror of an override row is PAID under another date, where it stays. -/
def PaidElsewhere (tenantId : Nat) (ledger : List EarningsLedgerRow) (s : Statement)
    (r : OverrideRow) : Prop :=
  ∃ row ∈ ledger, row.tenantId = tenantId ∧
    row.idempotencyKey =
      ledgerKey .commissionOverride r.id (overrideEarningType r.beneficiaryRole) ∧
    row.status = .paid ∧ row.effectiveDate ≠ dateOf s.weekStartUtc

instance (tenantId : Nat) (ledger : List EarningsLedgerRow) (s : Statement) (r : OverrideRow) :
    Decidable (PaidElsewhere tenantId ledger s r) :=
  inferInstanceAs (Decidable (∃ row ∈ ledger, _))

/-- The override rows of the week in every status, but for those whose mirror is PAID elsewhere. -/
def weekOverrides (tenantId : Nat) (b : Books) (s : Statement) : List OverrideRow :=
  b.db.overrides.filter fun r => InWeekOf s r ∧ ¬PaidElsewhere tenantId b.ledger s r

/-- A row that statements count: the block folds PAYABLE rows, and a lock settles them. -/
def Folded (r : OverrideRow) : Prop := r.status = .payable ∨ r.status = .settled

instance (r : OverrideRow) : Decidable (Folded r) := inferInstanceAs (Decidable (_ ∨ _))

def foldedOverrideCents (tenantId : Nat) (b : Books) (s : Statement) : Int :=
  (((weekOverrides tenantId b s).filter fun r => Folded r).map (·.amountCents)).sum

def leftOutOverrideCents (tenantId : Nat) (b : Books) (s : Statement) : Int :=
  (((weekOverrides tenantId b s).filter fun r => !Folded r).map (·.amountCents)).sum

/-- What the ledger already shows under the statement's rep and date from other sources than
those the statement selects. -/
def strayCents (tenantId : Nat) (b : Books) (s : Statement) (types : List EarningType) : Int :=
  ((b.ledger.filter fun row => OnPeriod tenantId s types row ∧
    ¬∃ input ∈ periodInputs tenantId none b.db s, input.Hits row).map (·.netCents)).sum

/-- The columns of the statement agree with the rows that a projection takes, as the tables
stand before it. -/
structure Mirrorable (tenantId : Nat) (b : Books) (s : Statement) : Prop where
  commission : strayCents tenantId b s commissionTypes = 0
  adjustments : sumApprovedAdjustments b.db s.id + strayCents tenantId b s adjustmentTypes =
    s.adjustmentCents
  overrides : foldedOverrideCents tenantId b s + leftOutOverrideCents tenantId b s +
    strayCents tenantId b s overrideTypes = s.overridePayCents

section Sums

variable {tenantId : Nat} {version : Option Nat} {b : Books} {s : Statement}
  {input : RecordInput} {types : List EarningType}

/-- The row in the way of a write is PAID under another date than the statement's. -/
def Stays (ledger : List EarningsLedgerRow) (s : Statement) (input : RecordInput) : Prop :=
  ∃ row ∈ ledger, input.Hits row ∧ row.status = .paid ∧
    row.effectiveDate ≠ dateOf s.weekStartUtc

instance (ledger : List EarningsLedgerRow) (s : Statement) (input : RecordInput) :
    Decidable (Stays ledger s input) := inferInstanceAs (Decidable (∃ row ∈ ledger, _))

theorem not_stays (h : BooksWf tenantId b) (hs : s ∈ b.db.statements)
    (hinput : input ∈ periodInputs tenantId version b.db s)
    (hne : input.sourceType ≠ .commissionOverride) : ¬Stays b.ledger s input := by
  rintro ⟨row, hrow, hhits, hpaid, hdate⟩
  have htenant : row.tenantId = tenantId :=
    hhits.1.trans (mem_periodInputs_common hinput).1
  have hsource := (h.mirrors row hrow htenant).of_hits (h.keyed row hrow) h.db hs hinput hhits
  exact hdate ((hsource.2 hpaid).2 hne)

theorem netOf_periodInput (hinput : input ∈ periodInputs tenantId version b.db s) :
    netOf input.grossCents input.adjustmentCents = input.grossCents := by
  rw [(mem_periodInputs_common hinput).2.2.2.1]
  exact Int.add_zero _

theorem toRow_cents (hinput : input ∈ periodInputs tenantId version b.db s) (id : Nat) :
    (if OnPeriod tenantId s types (input.toRow id) then (input.toRow id).netCents else 0) =
      if input.earningType ∈ types then input.grossCents else 0 := by
  obtain ⟨htenant, hrep, hdate, _, _, horigin⟩ := mem_periodInputs_common hinput
  have hon : OnPeriod tenantId s types (input.toRow id) ↔ input.earningType ∈ types := by
    constructor
    · exact fun hon => hon.2.2.2.2
    · exact fun htype => ⟨htenant, hrep, hdate, horigin, htype⟩
  have hnet : (input.toRow id).netCents = input.grossCents := netOf_periodInput hinput
  simp only [hon, hnet]

theorem rewrite_cents (h : BooksWf tenantId b) (hs : s ∈ b.db.statements)
    (hinput : input ∈ periodInputs tenantId version b.db s) {row : EarningsLedgerRow}
    (hrow : row ∈ b.ledger) (hhits : input.Hits row) :
    (if OnPeriod tenantId s types (input.rewrite row) then (input.rewrite row).netCents else 0) =
      if input.earningType ∈ types ∧
        ¬(row.status = .paid ∧ row.effectiveDate ≠ dateOf s.weekStartUtc) then input.grossCents
      else 0 := by
  obtain ⟨htenant, _, hdate, _, _, horigin⟩ := mem_periodInputs_common hinput
  have htenant' : row.tenantId = tenantId := hhits.1.trans htenant
  obtain ⟨hsource, _, htype⟩ := (h.keyed row hrow).of_hits hhits
  obtain ⟨hrep, hpaid⟩ :=
    (h.mirrors row hrow htenant').of_hits (h.keyed row hrow) h.db hs hinput hhits
  have horigin' : row.origin = .projected := by
    rw [(h.keyed row hrow).origin, hsource]
    exact horigin
  by_cases hst : row.status = .paid
  · have hsame : input.rewrite row = row := if_neg fun hopen => hopen.2 hst
    have hon : OnPeriod tenantId s types row ↔
        input.earningType ∈ types ∧ row.effectiveDate = dateOf s.weekStartUtc := by
      unfold OnPeriod
      rw [htype]
      tauto
    rw [hsame, (hpaid hst).1]
    simp only [hon, hst, true_and, not_not]
  · have hrewrite : input.rewrite row = { row with
        grossCents := input.grossCents
        adjustmentCents := input.adjustmentCents
        netCents := netOf input.grossCents input.adjustmentCents
        status := input.status
        effectiveDate := input.effectiveDate } := if_pos ⟨hhits, hst⟩
    have hon : OnPeriod tenantId s types (input.rewrite row) ↔ input.earningType ∈ types := by
      rw [hrewrite]
      unfold OnPeriod
      rw [htype]
      tauto
    have hnet : (input.rewrite row).netCents = input.grossCents := by
      rw [hrewrite]
      exact netOf_periodInput hinput
    simp only [hon, hnet, hst, false_and, not_false_eq_true, and_true]

/-- The row that a projection leaves for one of its writes counts with the amount of its source,
unless it stays under another date. -/
theorem leaves_cents (h : BooksWf tenantId b) (hs : s ∈ b.db.statements)
    (hinput : input ∈ periodInputs tenantId version b.db s) :
    (if OnPeriod tenantId s types (input.leaves b.ledger) then (input.leaves b.ledger).netCents
      else 0) =
    if input.earningType ∈ types ∧ ¬Stays b.ledger s input then input.grossCents else 0 := by
  unfold RecordInput.leaves
  cases hfind : b.ledger.find? fun row => input.Hits row with
  | none =>
    have hfree : ¬Stays b.ledger s input := by
      rintro ⟨row, hrow, hhits, _⟩
      exact find?_eq_none.mp hfind row hrow (decide_eq_true hhits)
    simp only [hfree, not_false_eq_true, and_true]
    exact toRow_cents hinput 0
  | some row =>
    have hrow : row ∈ b.ledger := mem_of_find?_eq_some hfind
    have hhits : input.Hits row := by simpa using find?_some hfind
    have hunique : Stays b.ledger s input ↔
        row.status = .paid ∧ row.effectiveDate ≠ dateOf s.weekStartUtc := by
      constructor
      · rintro ⟨row', hrow', hhits', hrest⟩
        have hkey : row'.key = row.key :=
          Prod.ext (hhits'.1.trans hhits.1.symm) (hhits'.2.trans hhits.2.symm)
        rwa [← inj_on_of_nodup_map h.keys hrow' hrow hkey]
      · exact fun hrest => ⟨row, hrow, hhits, hrest⟩
    simp only [hunique]
    exact rewrite_cents h hs hinput hrow hhits

theorem sum_leaves (h : BooksWf tenantId b) (hs : s ∈ b.db.statements) :
    ((periodInputs tenantId version b.db s).map fun input =>
      if OnPeriod tenantId s types (input.leaves b.ledger) then (input.leaves b.ledger).netCents
      else 0).sum =
    (if .personalCommission ∈ types then s.grossCommissionCents else 0) +
      ((b.db.adjustments.filter fun a => a.statementId = s.id ∧ a.status = .approved).map fun a =>
        if adjustmentEarningType a ∈ types then a.amountCents else 0).sum +
      ((b.db.overrides.filter fun r => InWeekOf s r ∧ ¬PaidElsewhere tenantId b.ledger s r).map
        fun r => if overrideEarningType r.beneficiaryRole ∈ types then r.amountCents else 0).sum := by
  let cents : RecordInput → Int := fun input =>
    if input.earningType ∈ types ∧ ¬Stays b.ledger s input then input.grossCents else 0
  have hcents : ((periodInputs tenantId version b.db s).map fun input =>
      if OnPeriod tenantId s types (input.leaves b.ledger) then (input.leaves b.ledger).netCents
      else 0) = (periodInputs tenantId version b.db s).map cents :=
    map_congr_left fun input hinput => leaves_cents h hs hinput
  have hplain : ∀ input ∈ periodInputs tenantId version b.db s,
      input.sourceType ≠ .commissionOverride →
        cents input = if input.earningType ∈ types then input.grossCents else 0 := by
    intro input hinput hne
    simp only [cents, not_stays h hs hinput hne, not_false_eq_true, and_true]
  have hadjustments : ∀ a ∈ b.db.adjustments.filter fun a => a.statementId = s.id ∧
      a.status = .approved,
      cents (periodInput tenantId version s .commissionAdjustment a.id (adjustmentEarningType a)
        a.amountCents) = if adjustmentEarningType a ∈ types then a.amountCents else 0 := by
    intro a ha
    obtain ⟨hmem, hsel⟩ := mem_filter.mp ha
    apply hplain
    · exact mem_periodInputs.mpr (Or.inr (Or.inl ⟨a, hmem, of_decide_eq_true hsel, rfl⟩))
    · simp [periodInput]
  have hoverrides : ((b.db.overrides.filter fun r => InWeekOf s r).map fun r =>
      cents (periodInput tenantId version s .commissionOverride r.id
        (overrideEarningType r.beneficiaryRole) r.amountCents)).sum =
      ((b.db.overrides.filter fun r => InWeekOf s r ∧ ¬PaidElsewhere tenantId b.ledger s r).map
        fun r => if overrideEarningType r.beneficiaryRole ∈ types then r.amountCents else 0).sum := by
    rw [sum_map_filter, sum_map_filter]
    congr 1
    apply map_congr_left
    intro r _
    have hstays : Stays b.ledger s (periodInput tenantId version s .commissionOverride r.id
        (overrideEarningType r.beneficiaryRole) r.amountCents) ↔
        PaidElsewhere tenantId b.ledger s r := by
      unfold Stays PaidElsewhere RecordInput.Hits
      simp only [and_assoc]
      exact Iff.rfl
    by_cases hweek : InWeekOf s r
    · by_cases hpaid : PaidElsewhere tenantId b.ledger s r
      · simp [cents, hweek, hpaid, hstays]
      · simp only [cents, hweek, hpaid, hstays, not_false_eq_true, and_true, decide_true, if_true]
        rfl
    · simp [hweek]
  have hfirst : cents (periodInput tenantId version s .commissionStatement s.id
      .personalCommission s.grossCommissionCents) =
      if .personalCommission ∈ types then s.grossCommissionCents else 0 := by
    apply hplain
    · exact mem_periodInputs.mpr (Or.inl rfl)
    · simp [periodInput]
  rw [hcents]
  unfold periodInputs
  rw [map_append, map_cons, sum_append, sum_cons, map_map, map_map,
    hfirst]
  congr 1
  congr 1
  exact congrArg List.sum (map_congr_left hadjustments)

/-- After a projection the period shows the sources of the statement and what was there from
elsewhere. -/
theorem projected_cents (h : BooksWf tenantId b) (hs : s ∈ b.db.statements) :
    ((upsertAll (periodInputs tenantId version b.db s) b.ledger).map fun row =>
      if OnPeriod tenantId s types row then row.netCents else 0).sum =
    strayCents tenantId b s types +
      ((if .personalCommission ∈ types then s.grossCommissionCents else 0) +
        ((b.db.adjustments.filter fun a => a.statementId = s.id ∧ a.status = .approved).map fun a =>
          if adjustmentEarningType a ∈ types then a.amountCents else 0).sum +
        ((b.db.overrides.filter fun r => InWeekOf s r ∧ ¬PaidElsewhere tenantId b.ledger s r).map
          fun r => if overrideEarningType r.beneficiaryRole ∈ types then r.amountCents else 0).sum) := by
  let m : EarningsLedgerRow → Int := fun row =>
    if OnPeriod tenantId s types row then row.netCents else 0
  have hignores : IgnoresId m := fun _ _ => rfl
  have hstray : strayCents tenantId b s types = (b.ledger.map fun row =>
      if ∃ input ∈ periodInputs tenantId version b.db s, input.Hits row then 0 else m row).sum := by
    unfold strayCents
    rw [sum_map_filter]
    congr 1
    apply map_congr_left
    intro row _
    have hhits := @periodInputs_hits_iff tenantId version b.db s row
    by_cases hhit : ∃ input ∈ periodInputs tenantId none b.db s, input.Hits row
    · simp only [hhits, hhit, not_true_eq_false, and_false, decide_false, if_true]
      rfl
    · simp only [hhits, hhit, not_false_eq_true, and_true, decide_eq_true_eq, if_false, m]
  rw [hstray, sum_upsertAll hignores (distinctKeys_periodInputs h.db tenantId version s) h.keys,
    sum_leaves h hs]

end Sums

section Reconcile

variable {tenantId : Nat} {version : Option Nat} {b : Books} {s : Statement}

def periodRows (tenantId : Nat) (s : Statement) (ledger : List EarningsLedgerRow) :
    List EarningsLedgerRow :=
  ledger.filter fun row => row.tenantId = tenantId ∧ row.recipientRepId = s.repId ∧
    row.effectiveDate = dateOf s.weekStartUtc

theorem reconcile_periodRows (ledger : List EarningsLedgerRow) (earned : Int)
    {types : List EarningType} (hnd : types.Nodup) :
    (reconcile (periodRows tenantId s ledger) earned).cents types =
      (ledger.map fun row => if OnPeriod tenantId s types row then row.netCents else 0).sum := by
  rw [reconcile_cents _ _ hnd, periodRows, sum_map_filter]
  congr 1
  apply map_congr_left
  intro row _
  unfold OnPeriod
  by_cases hperiod : row.tenantId = tenantId ∧ row.recipientRepId = s.repId ∧
      row.effectiveDate = dateOf s.weekStartUtc
  · simp [hperiod]
  · have hoff : ¬(row.tenantId = tenantId ∧ row.recipientRepId = s.repId ∧
        row.effectiveDate = dateOf s.weekStartUtc ∧ row.origin = .projected ∧
        row.earningType ∈ types) := by tauto
    simp [hperiod, hoff]

theorem Mirrors.earningType {db : Db} {row : EarningsLedgerRow} (h : Mirrors db row)
    (hkeyed : Keyed row) (horigin : row.origin = .projected) :
    row.earningType ∈ commissionTypes ++ adjustmentTypes ++ overrideTypes := by
  have hsource := hkeyed.origin.symm.trans horigin
  unfold Mirrors at h
  cases hrow : row.sourceType with
  | commissionStatement =>
    rw [hrow] at h
    rw [h.1]
    decide
  | commissionAdjustment =>
    rw [hrow] at h
    obtain ⟨a, _, _, _, htype, _⟩ := h
    rw [htype, adjustmentEarningType]
    split <;> decide
  | commissionOverride =>
    rw [hrow] at h
    obtain ⟨r, _, _, _, htype, _⟩ := h
    rw [htype]
    cases r.beneficiaryRole <;> decide
  | hourlyBlock =>
    rw [hrow] at h
    exact absurd h not_false
  | spiff | mileageTrip | referral => simp [hrow, originOf] at hsource

theorem reconcile_total (h : BooksWf tenantId b) (earned : Int) :
    (reconcile (periodRows tenantId s b.ledger) earned).ledgerCents =
      (reconcile (periodRows tenantId s b.ledger) earned).cents commissionTypes +
        (reconcile (periodRows tenantId s b.ledger) earned).cents adjustmentTypes +
        (reconcile (periodRows tenantId s b.ledger) earned).cents overrideTypes := by
  rw [reconcile_ledgerCents, reconcile_cents _ _ (by decide), reconcile_cents _ _ (by decide),
    reconcile_cents _ _ (by decide), ← sum_map_add, ← sum_map_add]
  congr 1
  apply map_congr_left
  intro row hrow
  obtain ⟨hmem, hperiod⟩ := mem_filter.mp hrow
  by_cases horigin : row.origin = .projected
  · have htenant : row.tenantId = tenantId := (of_decide_eq_true hperiod).1
    have htype := (h.mirrors row hmem htenant).earningType (h.keyed row hmem) horigin
    simp only [commissionTypes, adjustmentTypes, overrideTypes, mem_append, mem_cons,
      not_mem_nil, or_false] at htype
    rcases htype with (htype | htype | htype) | htype | htype <;>
      simp [horigin, htype, commissionTypes, adjustmentTypes, overrideTypes]
  · simp [horigin]

theorem reconcile_projected (h : BooksWf tenantId b) (hs : s ∈ b.db.statements) :
    let result := reconcile
      (periodRows tenantId s (upsertAll (periodInputs tenantId version b.db s) b.ledger))
      s.finalCommissionCents
    result.cents commissionTypes =
        strayCents tenantId b s commissionTypes + s.grossCommissionCents ∧
      result.cents adjustmentTypes =
        strayCents tenantId b s adjustmentTypes + sumApprovedAdjustments b.db s.id ∧
      result.cents overrideTypes =
        strayCents tenantId b s overrideTypes +
          (foldedOverrideCents tenantId b s + leftOutOverrideCents tenantId b s) := by
  have hadjustment : ∀ a : Adjustment, adjustmentEarningType a ∉ commissionTypes ∧
      adjustmentEarningType a ∈ adjustmentTypes ∧ adjustmentEarningType a ∉ overrideTypes := by
    intro a
    unfold adjustmentEarningType
    split <;> decide
  have hoverride : ∀ role, overrideEarningType role ∉ commissionTypes ∧
      overrideEarningType role ∉ adjustmentTypes ∧ overrideEarningType role ∈ overrideTypes := by
    intro role
    cases role <;> decide
  have hcommission : EarningType.personalCommission ∈ commissionTypes ∧
      EarningType.personalCommission ∉ adjustmentTypes ∧
      EarningType.personalCommission ∉ overrideTypes := by decide
  dsimp only
  rw [reconcile_periodRows _ _ (by decide), reconcile_periodRows _ _ (by decide),
    reconcile_periodRows _ _ (by decide), projected_cents h hs, projected_cents h hs,
    projected_cents h hs]
  refine ⟨?_, ?_, ?_⟩
  · simp [hadjustment, hoverride, hcommission]
  · simp [hadjustment, hoverride, hcommission, sumApprovedAdjustments]
  · rw [foldedOverrideCents, leftOutOverrideCents, sum_map_filter_add_not, weekOverrides]
    simp [hadjustment, hoverride, hcommission]

end Reconcile

variable {tenantId : Nat} {org : Org} {actions : List BooksAction} {s : Statement}

/-- After any run of the service and the ledger, a projection of a statement reconciles part by
part and repeats without a write exactly when the columns of the statement agree with the rows
that the projection takes. -/
theorem reconciles_iff (planVersionNumber : Option Nat)
    (hs : s ∈ (run (booksStep tenantId) (Books.empty org) actions).db.statements) :
    Reconciles tenantId planVersionNumber (run (booksStep tenantId) (Books.empty org) actions) s ↔
      Mirrorable tenantId (run (booksStep tenantId) (Books.empty org) actions) s := by
  have hwf := booksWf_run tenantId org actions
  generalize run (booksStep tenantId) (Books.empty org) actions = b at hs hwf ⊢
  have hstmt := statementOf_eq hwf.db hs
  obtain ⟨p, hp, hledger⟩ := @projectPeriod_ledger tenantId
    planVersionNumber _ _ _ _ b.ledger hstmt
  have hreconcile : reconcilePeriod tenantId s.repId s.id b.db p.ledger =
      .ok (reconcile (periodRows tenantId s p.ledger) s.finalCommissionCents) := by
    unfold reconcilePeriod
    rw [hstmt]
    rfl
  have hagain : ∃ p', projectPeriod tenantId s.repId s.id planVersionNumber b.db p.ledger = .ok p' ∧
      p'.ledger = p.ledger := by
    obtain ⟨p', hp', hledger'⟩ := @projectPeriod_ledger tenantId
      planVersionNumber _ _ _ _ p.ledger hstmt
    refine ⟨p', hp', ?_⟩
    rw [hledger', hledger]
    exact upsertAll_upsertAll (distinctKeys_periodInputs hwf.db tenantId planVersionNumber s) _
  obtain ⟨hcommission, hadjustment, hoverride⟩ :=
    @reconcile_projected _ planVersionNumber _ _ hwf hs
  rw [← hledger] at hcommission hadjustment hoverride
  have hprojected : BooksWf tenantId { b with ledger := p.ledger } := by
    rw [hledger]
    exact hwf.projected hs
  have htotal := reconcile_total (s := s) hprojected s.finalCommissionCents
  dsimp only at htotal
  have hamounts := hwf.amounts s hs
  constructor
  · rintro ⟨p', hp', _, result, hresult, _, _, hc, ha, ho⟩
    obtain rfl : p = p' := Except.ok.inj (hp.symm.trans hp')
    obtain rfl := Except.ok.inj (hreconcile.symm.trans hresult)
    exact ⟨by omega, by omega, by omega⟩
  · rintro ⟨hc, ha, ho⟩
    have hdrift : (reconcile (periodRows tenantId s p.ledger) s.finalCommissionCents).driftCents =
        0 := by
      have hdef : (reconcile (periodRows tenantId s p.ledger) s.finalCommissionCents).driftCents =
          (reconcile (periodRows tenantId s p.ledger) s.finalCommissionCents).ledgerCents -
            s.finalCommissionCents := rfl
      omega
    refine ⟨p, hp, hagain, _, hreconcile, decide_eq_true hdrift, hdrift, ?_, ?_, ?_⟩ <;> omega

/-- Rep 1 of tenant 1 makes a sale, and manager 2 earns on it. -/
def soldOnce : List BooksAction := [.commission ⟨sampleNow, .upsertSale (sampleSale "A-1")⟩]

/-- The manager's statement counts the PAYABLE row of the sale. -/
theorem reconciles_soldOnce :
    ∃ s ∈ (run (booksStep 1) (Books.empty sampleOrg) soldOnce).db.statements,
      s.overridePayCents = 2500 ∧
        Reconciles 1 none (run (booksStep 1) (Books.empty sampleOrg) soldOnce) s := by
  obtain ⟨s, hs, hpay, hc, ha, ho⟩ :
      ∃ s ∈ (run (booksStep 1) (Books.empty sampleOrg) soldOnce).db.statements,
        s.overridePayCents = 2500 ∧
        strayCents 1 (run (booksStep 1) (Books.empty sampleOrg) soldOnce) s commissionTypes = 0 ∧
        sumApprovedAdjustments (run (booksStep 1) (Books.empty sampleOrg) soldOnce).db s.id +
          strayCents 1 (run (booksStep 1) (Books.empty sampleOrg) soldOnce) s adjustmentTypes =
            s.adjustmentCents ∧
        foldedOverrideCents 1 (run (booksStep 1) (Books.empty sampleOrg) soldOnce) s +
          leftOutOverrideCents 1 (run (booksStep 1) (Books.empty sampleOrg) soldOnce) s +
          strayCents 1 (run (booksStep 1) (Books.empty sampleOrg) soldOnce) s overrideTypes =
            s.overridePayCents := by decide +kernel
  exact ⟨s, hs, hpay, (reconciles_iff none hs).mpr ⟨hc, ha, ho⟩⟩

def soldUnderHold : List BooksAction :=
  [.commission ⟨sampleNow, .editCommissions [unconfirmedCommission]⟩, .commission soldKnock]

def driftAfterProjection (tenantId : Nat) (b : Books) (s : Statement) : Option Int :=
  match projectPeriod tenantId s.repId s.id none b.db b.ledger with
  | .error _ => none
  | .ok p =>
    match reconcilePeriod tenantId s.repId s.id b.db p.ledger with
    | .error _ => none
    | .ok result => some result.driftCents

/-- The held row is mirrored for 25 dollars, and the manager's statement counts nothing. -/
theorem not_reconciles_soldUnderHold :
    ∃ s ∈ (run (booksStep 1) (Books.empty holdOrg) soldUnderHold).db.statements,
      ¬ Reconciles 1 none (run (booksStep 1) (Books.empty holdOrg) soldUnderHold) s := by
  obtain ⟨s, hs, hdrift⟩ :
      ∃ s ∈ (run (booksStep 1) (Books.empty holdOrg) soldUnderHold).db.statements,
        driftAfterProjection 1 (run (booksStep 1) (Books.empty holdOrg) soldUnderHold) s = some 2500 := by
    decide +kernel
  refine ⟨s, hs, ?_⟩
  rintro ⟨p, hp, _, result, hresult, _, hzero, _⟩
  unfold driftAfterProjection at hdrift
  rw [hp] at hdrift
  dsimp only at hdrift
  rw [hresult] at hdrift
  simp [hzero] at hdrift

end HomefrontFiber.Earnings
