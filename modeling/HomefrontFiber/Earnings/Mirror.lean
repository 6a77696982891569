import HomefrontFiber.Commission.Lasting
import HomefrontFiber.Earnings.Project

/-!
# The earnings ledger as a mirror of the statements

The commission tables and the earnings ledger change side by side, and a projection may run at any
time. Every projected row keeps naming its source: a statement, an approved adjustment or an
override row. Only the date of an override row may fall behind, since a row that is PAID in the
ledger stays under the date it was paid for.
-/

namespace HomefrontFiber.Earnings

open Commission List

/-- The commission tables of a tenant beside the earnings ledger. -/
structure Books where
  db : Db
  ledger : List EarningsLedgerRow

def Books.empty (org : Org) : Books where
  db := Db.empty org
  ledger := []

inductive BooksAction
  | commission (e : Event)
  | projectPeriod (repId statementId : Nat) (planVersionNumber : Option Nat)
  | recordNative (input : RecordInput)
  | otherTenant (input : RecordInput)

/-- A write of another tenant, native or projected, goes to the same ledger table. -/
def booksStep (tenantId : Nat) (b : Books) : BooksAction → Books
  | .commission e => { b with db := step b.db e }
  | .projectPeriod repId statementId planVersionNumber =>
    match projectPeriod tenantId repId statementId planVersionNumber b.db b.ledger with
    | .error _ => b
    | .ok p => { b with ledger := p.ledger }
  | .recordNative input =>
    match recordNative input b.ledger with
    | .error _ => b
    | .ok ledger => { b with ledger := ledger }
  | .otherTenant input =>
    if input.tenantId = tenantId then b else { b with ledger := upsert input b.ledger }

/-- A projected row still names its source. Only the date of an override row may be out of step
with its source, and only the amount of a commission row that is not paid. -/
def Mirrors (db : Db) (row : EarningsLedgerRow) : Prop :=
  match row.sourceType with
  | .commissionStatement =>
    row.earningType = .personalCommission ∧
      (∃ week, HasStatement row.sourceId (row.recipientRepId, week) db ∧
        row.effectiveDate = dateOf week) ∧
      (row.status = .paid → ∃ s ∈ db.statements, s.id = row.sourceId ∧ s.status = .paid ∧
        row.netCents = s.grossCommissionCents)
  | .commissionAdjustment =>
    ∃ a ∈ db.adjustments, a.id = row.sourceId ∧ a.status = .approved ∧
      row.earningType = adjustmentEarningType a ∧ row.netCents = a.amountCents ∧
      ∃ week, HasStatement a.statementId (row.recipientRepId, week) db ∧
        row.effectiveDate = dateOf week
  | .commissionOverride =>
    ∃ r ∈ db.overrides, r.id = row.sourceId ∧ r.beneficiaryRepId = row.recipientRepId ∧
      row.earningType = overrideEarningType r.beneficiaryRole ∧ row.netCents = r.amountCents
  | .hourlyBlock => False
  | .spiff | .mileageTrip | .referral => True

structure Keyed (row : EarningsLedgerRow) : Prop where
  key : row.idempotencyKey = ledgerKey row.sourceType row.sourceId row.earningType
  origin : row.origin = originOf row.sourceType

structure BooksWf (tenantId : Nat) (b : Books) : Prop where
  db : Wf b.db
  amounts : AmountsAdd b.db
  keys : (b.ledger.map EarningsLedgerRow.key).Nodup
  keyed : ∀ row ∈ b.ledger, Keyed row
  mirrors : ∀ row ∈ b.ledger, row.tenantId = tenantId → Mirrors b.db row

section Rows

variable {tenantId : Nat} {version : Option Nat} {db db' : Db} {s : Statement}
  {input : RecordInput} {row : EarningsLedgerRow}

theorem Mirrors.lasts (h : Mirrors db row) (hl : Lasts db db') : Mirrors db' row := by
  have hstatement : ∀ {id key}, HasStatement id key db → HasStatement id key db' := by
    rintro id key ⟨s, hs, rfl, rfl⟩
    exact hl.statements s hs
  unfold Mirrors at h ⊢
  cases hsource : row.sourceType with
  | commissionStatement =>
    rw [hsource] at h
    obtain ⟨htype, ⟨week, hs, hdate⟩, hpaid⟩ := h
    refine ⟨htype, ⟨week, hstatement hs, hdate⟩, fun hst => ?_⟩
    obtain ⟨s, hmem, hid, hs, hnet⟩ := hpaid hst
    exact ⟨s, hl.paid s hmem hs, hid, hs, hnet⟩
  | commissionAdjustment =>
    rw [hsource] at h
    obtain ⟨a, ha, hid, hst, htype, hnet, week, hs, hdate⟩ := h
    exact ⟨a, hl.approved a ha hst, hid, hst, htype, hnet, week, hstatement hs, hdate⟩
  | commissionOverride =>
    rw [hsource] at h
    obtain ⟨r, hr, hid, hrep, htype, hnet⟩ := h
    obtain ⟨r', hr', hsame⟩ := hl.overrides r hr
    refine ⟨r', hr', hsame.id.trans hid, hsame.beneficiary.trans hrep, ?_, ?_⟩
    · rw [hsame.role]
      exact htype
    · rw [hsame.amount]
      exact hnet
  | hourlyBlock =>
    rw [hsource] at h
    exact h
  | spiff | mileageTrip | referral => trivial

theorem Keyed.rewrite (h : Keyed row) (input : RecordInput) : Keyed (input.rewrite row) := by
  unfold RecordInput.rewrite
  split
  · exact ⟨h.key, h.origin⟩
  · exact h

theorem keyed_toRow (input : RecordInput) (id : Nat) : Keyed (input.toRow id) := ⟨rfl, rfl⟩

theorem Keyed.of_hits (h : Keyed row) (hhits : input.Hits row) :
    row.sourceType = input.sourceType ∧ row.sourceId = input.sourceId ∧
      row.earningType = input.earningType := by
  have hkey : ledgerKey row.sourceType row.sourceId row.earningType = input.key :=
    h.key.symm.trans hhits.2
  unfold RecordInput.key ledgerKey at hkey
  rwa [LedgerKey.mk.injEq] at hkey

theorem mem_periodInputs : input ∈ periodInputs tenantId version db s ↔
    input = periodInput tenantId version s .commissionStatement s.id .personalCommission
      s.grossCommissionCents ∨
    (∃ a ∈ db.adjustments, (a.statementId = s.id ∧ a.status = .approved) ∧
      periodInput tenantId version s .commissionAdjustment a.id (adjustmentEarningType a)
        a.amountCents = input) ∨
    ∃ r ∈ db.overrides, InWeekOf s r ∧
      periodInput tenantId version s .commissionOverride r.id
        (overrideEarningType r.beneficiaryRole) r.amountCents = input := by
  unfold periodInputs
  simp only [mem_cons, cons_append, mem_append, mem_map, mem_filter,
    decide_eq_true_eq, and_assoc]

theorem mem_periodInputs_common (h : input ∈ periodInputs tenantId version db s) :
    input.tenantId = tenantId ∧ input.recipientRepId = s.repId ∧
      input.effectiveDate = dateOf s.weekStartUtc ∧ input.adjustmentCents = 0 ∧
      input.status = projectedStatus s.status ∧ originOf input.sourceType = .projected := by
  rcases mem_periodInputs.mp h with rfl | ⟨a, _, _, rfl⟩ | ⟨r, _, _, rfl⟩ <;>
    exact ⟨rfl, rfl, rfl, rfl, rfl, rfl⟩

theorem projectedStatus_paid {status : StatementStatus} (h : projectedStatus status = .paid) :
    status = .paid := by
  cases status <;> simp [projectedStatus] at h ⊢

theorem distinctKeys_periodInputs (hwf : Wf db) (tenantId : Nat) (version : Option Nat)
    (s : Statement) : DistinctKeys (periodInputs tenantId version db s) := by
  have hadjustments : ((db.adjustments.filter fun a => a.statementId = s.id ∧
      a.status = .approved).map (·.id)).Nodup :=
    hwf.adjustmentIds.nodup.sublist (filter_sublist.map _)
  have hoverrides : ((db.overrides.filter fun r => InWeekOf s r).map (·.id)).Nodup :=
    hwf.ledger.ids.nodup.sublist (filter_sublist.map _)
  have hid : ∀ {i j : RecordInput}, i.sourceId ≠ j.sourceId → i.key ≠ j.key :=
    fun hne hkey => hne (congrArg LedgerKey.sourceId hkey)
  have hsource : ∀ {i j : RecordInput}, i.sourceType ≠ j.sourceType → i.key ≠ j.key :=
    fun hne hkey => hne (congrArg LedgerKey.sourceType hkey)
  unfold DistinctKeys periodInputs
  rw [cons_append, pairwise_cons, pairwise_append]
  refine ⟨?_, ?_, ?_, ?_⟩
  · intro j hj
    rcases mem_append.mp hj with hj | hj <;> obtain ⟨_, _, rfl⟩ := mem_map.mp hj <;>
      exact ⟨rfl, hsource (by simp [periodInput])⟩
  · exact pairwise_map.mpr
      ((pairwise_map.mp hadjustments).imp fun hne => ⟨rfl, hid hne⟩)
  · exact pairwise_map.mpr
      ((pairwise_map.mp hoverrides).imp fun hne => ⟨rfl, hid hne⟩)
  · intro i hi j hj
    obtain ⟨_, _, rfl⟩ := mem_map.mp hi
    obtain ⟨_, _, rfl⟩ := mem_map.mp hj
    exact ⟨rfl, hsource (by simp [periodInput])⟩

theorem periodInputs_hits_iff (row : EarningsLedgerRow) :
    (∃ input ∈ periodInputs tenantId version db s, input.Hits row) ↔
      ∃ input ∈ periodInputs tenantId none db s, input.Hits row := by
  have hmap : periodInputs tenantId version db s = (periodInputs tenantId none db s).map
      fun input => { input with compensationPlanVersion := version } := by
    simp [periodInputs, periodInput, Function.comp_def]
  constructor
  · rintro ⟨input, hinput, hhits⟩
    rw [hmap] at hinput
    obtain ⟨source, hsource, rfl⟩ := mem_map.mp hinput
    exact ⟨source, hsource, hhits⟩
  · rintro ⟨input, hinput, hhits⟩
    rw [hmap]
    exact ⟨_, mem_map_of_mem hinput, hhits⟩

theorem key_of_hasStatement (hwf : Wf db) (hs : s ∈ db.statements) {repId : Nat} {week : Stamp}
    (h : HasStatement s.id (repId, week) db) : repId = s.repId ∧ week = s.weekStartUtc := by
  obtain ⟨s', hs', hid, hkey⟩ := h
  have heq : s' = s := hwf.statementIds.eq_of_key hs' hs hid
  rw [heq, Statement.key, Prod.mk.injEq] at hkey
  exact ⟨hkey.1.symm, hkey.2.symm⟩

/-- A row in the way of a projection is the rep's own, and a paid one has the amount already. -/
theorem Mirrors.of_hits (h : Mirrors db row) (hkeyed : Keyed row) (hwf : Wf db)
    (hs : s ∈ db.statements) (hinput : input ∈ periodInputs tenantId version db s)
    (hhits : input.Hits row) :
    row.recipientRepId = s.repId ∧ (row.status = .paid → row.netCents = input.grossCents ∧
      (input.sourceType ≠ .commissionOverride → row.effectiveDate = dateOf s.weekStartUtc)) := by
  obtain ⟨hsource, hid, _⟩ := hkeyed.of_hits hhits
  unfold Mirrors at h
  rcases mem_periodInputs.mp hinput with rfl | ⟨a, ha, ⟨hstmt, _⟩, rfl⟩ | ⟨r, hr, hweek, rfl⟩
  · rw [hsource] at h
    obtain ⟨_, ⟨week, hkey, hdate⟩, hpaid⟩ := h
    rw [hid] at hkey
    obtain ⟨hrep, hweek⟩ := key_of_hasStatement hwf hs hkey
    refine ⟨hrep, fun hst => ?_⟩
    obtain ⟨s', hs', hid', _, hnet⟩ := hpaid hst
    have heq : s' = s := hwf.statementIds.eq_of_key hs' hs (hid'.trans hid)
    exact ⟨heq ▸ hnet, fun _ => hweek ▸ hdate⟩
  · rw [hsource] at h
    obtain ⟨a', ha', hid', _, _, hnet, week, hkey, hdate⟩ := h
    have heq : a' = a := hwf.adjustmentIds.eq_of_key ha' ha (hid'.trans hid)
    rw [heq, hstmt] at hkey
    obtain ⟨hrep, hweek⟩ := key_of_hasStatement hwf hs hkey
    exact ⟨hrep, fun _ => ⟨heq ▸ hnet, fun _ => hweek ▸ hdate⟩⟩
  · rw [hsource] at h
    obtain ⟨r', hr', hid', hrep, _, hnet⟩ := h
    have heq : r' = r := hwf.ledger.ids.eq_of_key hr' hr (hid'.trans hid)
    rw [heq] at hrep hnet
    exact ⟨hrep.symm.trans hweek.1, fun _ => ⟨hnet, fun hne => absurd rfl hne⟩⟩

theorem mirrors_toRow (hs : s ∈ db.statements)
    (hinput : input ∈ periodInputs tenantId version db s) (id : Nat) :
    Mirrors db (input.toRow id) := by
  have hstmt : HasStatement s.id (s.repId, s.weekStartUtc) db := ⟨s, hs, rfl, rfl⟩
  rcases mem_periodInputs.mp hinput with rfl | ⟨a, ha, ⟨hst, happroved⟩, rfl⟩ |
    ⟨r, hr, hweek, rfl⟩
  · refine ⟨rfl, ⟨s.weekStartUtc, hstmt, rfl⟩, fun hpaid => ?_⟩
    exact ⟨s, hs, rfl, projectedStatus_paid hpaid, Int.add_zero _⟩
  · refine ⟨a, ha, rfl, happroved, rfl, Int.add_zero _, s.weekStartUtc, ?_, rfl⟩
    rw [hst]
    exact hstmt
  · exact ⟨r, hr, rfl, hweek.1, rfl, Int.add_zero _⟩

theorem Mirrors.rewrite (h : Mirrors db row) (hkeyed : Keyed row) (hwf : Wf db)
    (hs : s ∈ db.statements) (hinput : input ∈ periodInputs tenantId version db s) :
    Mirrors db (input.rewrite row) := by
  by_cases hrow : input.Hits row ∧ row.status ≠ .paid
  · obtain ⟨hsource, hid, htype⟩ := hkeyed.of_hits hrow.1
    obtain ⟨hrep, _⟩ := h.of_hits hkeyed hwf hs hinput hrow.1
    have hnew := mirrors_toRow hs hinput 0
    rw [RecordInput.rewrite, if_pos hrow]
    have hrep' : row.recipientRepId = input.recipientRepId :=
      hrep.trans (mem_periodInputs_common hinput).2.1.symm
    unfold Mirrors at hnew ⊢
    unfold RecordInput.toRow at hnew
    dsimp only at hnew ⊢
    rw [hsource, hid, htype, hrep']
    exact hnew
  · rw [RecordInput.rewrite, if_neg hrow]
    exact h

end Rows

section Steps

variable {tenantId : Nat} {version : Option Nat} {b : Books} {s : Statement}

theorem booksWf_empty (tenantId : Nat) (org : Org) : BooksWf tenantId (Books.empty org) where
  db := wf_empty org
  amounts _ hs := absurd hs not_mem_nil
  keys := nodup_nil
  keyed _ hrow := absurd hrow not_mem_nil
  mirrors _ hrow := absurd hrow not_mem_nil

theorem BooksWf.upsert (h : BooksWf tenantId b) {input : RecordInput}
    (hinput : input.tenantId = tenantId → originOf input.sourceType = .native) :
    BooksWf tenantId { b with ledger := upsert input b.ledger } where
  db := h.db
  amounts := h.amounts
  keys := nodup_upsert h.keys
  keyed row hrow := by
    rcases mem_upsert hrow with ⟨old, hold, rfl⟩ | ⟨rfl, _⟩
    · exact (h.keyed old hold).rewrite input
    · exact keyed_toRow input _
  mirrors row hrow htenant := by
    have hnative : ∀ row : EarningsLedgerRow, originOf row.sourceType = .native →
        Mirrors b.db row := by
      intro row hnative
      unfold Mirrors
      cases hsource : row.sourceType <;> simp [hsource, originOf] at hnative ⊢
    rcases mem_upsert hrow with ⟨old, hold, rfl⟩ | ⟨rfl, _⟩
    · by_cases hhits : input.Hits old
      · apply hnative
        have hsource : (input.rewrite old).sourceType = old.sourceType := by
          unfold RecordInput.rewrite
          split <;> rfl
        rw [hsource, ((h.keyed old hold).of_hits hhits).1]
        apply hinput
        rw [← hhits.1, ← input.rewrite_tenantId old]
        exact htenant
      · rw [RecordInput.rewrite_of_not_hits hhits] at htenant ⊢
        exact h.mirrors old hold htenant
    · exact hnative _ (hinput htenant)

theorem statementOf_eq (h : Wf b.db) (hs : s ∈ b.db.statements) :
    statementOf b.db s.repId s.id = some s := by
  unfold statementOf
  rw [← h.statementById_of_mem hs]
  apply find?_congr
  intro s' hs'
  rw [decide_eq_decide]
  constructor
  · exact fun hboth => hboth.1
  · intro hid
    exact ⟨hid, by rw [h.statementIds.eq_of_key hs' hs hid]⟩

theorem projectPeriod_ledger {repId statementId : Nat} {db : Db}
    {ledger : List EarningsLedgerRow} (hs : statementOf db repId statementId = some s) :
    ∃ p, projectPeriod tenantId repId statementId version db ledger = .ok p ∧
      p.ledger = upsertAll (periodInputs tenantId version db s) ledger := by
  unfold projectPeriod
  rw [hs]
  exact ⟨_, rfl, foldl_projectRow _ _⟩

theorem BooksWf.projected (h : BooksWf tenantId b) (hs : s ∈ b.db.statements) :
    BooksWf tenantId
      { b with ledger := upsertAll (periodInputs tenantId version b.db s) b.ledger } := by
  have hrows : ∀ row ∈ upsertAll (periodInputs tenantId version b.db s) b.ledger,
      Keyed row ∧ (row.tenantId = tenantId → Mirrors b.db row) := by
    apply forall_mem_upsertAll
    · intro input hinput row ⟨hkeyed, hmirrors⟩
      refine ⟨hkeyed.rewrite input, fun htenant => ?_⟩
      rw [RecordInput.rewrite_tenantId] at htenant
      exact (hmirrors htenant).rewrite hkeyed h.db hs hinput
    · exact fun input hinput id => ⟨keyed_toRow input id, fun _ => mirrors_toRow hs hinput id⟩
    · exact fun row hrow => ⟨h.keyed row hrow, h.mirrors row hrow⟩
  exact { h with
    keys := nodup_upsertAll h.keys
    keyed := fun row hrow => (hrows row hrow).1
    mirrors := fun row hrow => (hrows row hrow).2 }

/-- The books stay well formed under every event of the commission service and every write of the
ledger. -/
theorem booksWf_step (h : BooksWf tenantId b) (action : BooksAction) :
    BooksWf tenantId (booksStep tenantId b action) := by
  cases action with
  | commission e =>
    have hdb := amountsAdd_step ⟨h.db, h.amounts⟩ e
    exact { h with
      db := hdb.1
      amounts := hdb.2
      mirrors := fun row hrow htenant => (h.mirrors row hrow htenant).lasts (lasts_step h.db e) }
  | projectPeriod repId statementId version =>
    unfold booksStep
    dsimp only
    cases hs : statementOf b.db repId statementId with
    | none =>
      have herror : projectPeriod tenantId repId statementId version b.db b.ledger =
          .error "EARNINGS_STATEMENT_NOT_FOUND" := by
        unfold projectPeriod
        rw [hs]
      rw [herror]
      exact h
    | some s =>
      obtain ⟨p, hp, hledger⟩ := @projectPeriod_ledger tenantId version _ _ _ _ b.ledger hs
      rw [hp]
      dsimp only
      rw [hledger]
      exact h.projected (mem_of_find?_eq_some hs)
  | recordNative input =>
    unfold booksStep recordNative
    by_cases hnative : originOf input.sourceType = .native
    · simp only [hnative, if_true]
      exact h.upsert fun _ => hnative
    · simp only [hnative, if_false]
      exact h
  | otherTenant input =>
    unfold booksStep
    by_cases htenant : input.tenantId = tenantId
    · simp only [htenant, if_true]
      exact h
    · simp only [htenant, if_false]
      exact h.upsert fun heq => absurd heq htenant

theorem booksWf_run (tenantId : Nat) (org : Org) (actions : List BooksAction) :
    BooksWf tenantId (run (booksStep tenantId) (Books.empty org) actions) :=
  run_invariant_all (I := BooksWf tenantId) (fun _ action h => booksWf_step h action) actions
    (booksWf_empty tenantId org)

/-- Whatever becomes of the sources, a key has one row, and each row still mirrors its source. -/
theorem ledger_mirrors (tenantId : Nat) (org : Org) (actions : List BooksAction) :
    let b := run (booksStep tenantId) (Books.empty org) actions
    (b.ledger.map EarningsLedgerRow.key).Nodup ∧
      ∀ row ∈ b.ledger, row.tenantId = tenantId → Mirrors b.db row :=
  have h := booksWf_run tenantId org actions
  ⟨h.keys, h.mirrors⟩

end Steps

end HomefrontFiber.Earnings
