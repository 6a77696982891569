import HomefrontFiber.Commission.WellFormed

/-!
# What a recomputation writes

A recomputation touches the one statement of its rep and week, and only while that is not locked.
`repriced_statement` says what the statement holds afterwards; `SameLocks` says that no lock was
set or lifted.
-/

namespace HomefrontFiber.Commission

open List

variable {approved ms : Int} {repId : Nat} {bounds : WeekBounds} {override : OverrideBlock}
  {p : StatementPricing} {s : Statement} {week : Stamp} {f : Statement → Statement}

theorem computeStatement_amounts {plan : CommissionPlan} {version : PlanVersion}
    {count : Int} {c : StatementComputation}
    (h : computeStatement plan version count approved = .ok c) :
    c.adjustmentCents = approved ∧
      c.finalCommissionCents = c.grossCommissionCents + approved := by
  unfold computeStatement at h
  split at h
  · rw [← (Except.ok.injEq _ _).mp h]
    exact ⟨rfl, rfl⟩
  · split at h
    · simp at h
    · dsimp only at h
      split at h
      · rw [← (Except.ok.injEq _ _).mp h]
        exact ⟨rfl, rfl⟩
      · simp at h

theorem pricePlan_amounts {db : Db} {now : Stamp} {hourly : WeekHourlyPay}
    {priced : Option CommissionPlan × Option PlanVersion × QualificationBasis × StatementComputation}
    (h : pricePlan db now repId bounds hourly override approved = .ok priced) :
    priced.2.2.2.adjustmentCents = approved ∧
      priced.2.2.2.finalCommissionCents = priced.2.2.2.grossCommissionCents + approved := by
  unfold pricePlan at h
  split at h
  · split at h
    · simp at h
    · simp only [Except.ok.injEq] at h
      exact h ▸ ⟨rfl, (zero_add approved).symm⟩
  · split at h
    · simp at h
    · split at h
      · simp at h
      · rename_i version _ _ plan _
        cases hc : computeStatement plan version
            (countQualifiedSales db now version.qualificationBasis repId bounds) approved with
        | error e => simp [hc, Except.map] at h
        | ok c =>
          simp only [hc, Except.map, Except.ok.injEq] at h
          exact h ▸ computeStatement_amounts hc

theorem priceStatement_amounts {db : Db} {now : Stamp} {existing : Option Statement}
    (h : priceStatement db now repId bounds override existing = .ok p) :
    p.override = override ∧
      p.comp.adjustmentCents = (existing.map fun s => sumApprovedAdjustments db s.id).getD 0 ∧
      p.comp.finalCommissionCents =
        p.comp.grossCommissionCents + p.comp.adjustmentCents + override.payCents := by
  unfold priceStatement at h
  dsimp only at h
  cases hp : pricePlan db now repId bounds
      (db.org.hourly repId bounds.weekStartUtc bounds.nextWeekStartUtc) override
      ((existing.map fun s => sumApprovedAdjustments db s.id).getD 0) with
  | error e => simp [hp, Except.map] at h
  | ok priced =>
    obtain ⟨hadj, hfinal⟩ := pricePlan_amounts hp
    simp only [hp, Except.map, Except.ok.injEq] at h
    subst h
    refine ⟨rfl, hadj, ?_⟩
    rw [hfinal, hadj]

structure Statement.PricedAs (s : Statement) (p : StatementPricing) : Prop where
  gross : s.grossCommissionCents = p.comp.grossCommissionCents
  adjustment : s.adjustmentCents = p.comp.adjustmentCents
  final : s.finalCommissionCents = p.comp.finalCommissionCents
  override : s.overridePayCents = p.override.payCents

theorem Statement.pricedAs_of_unchangedBy (h : s.unchangedBy p) : s.PricedAs p := by
  simp only [Statement.unchangedBy, Bool.and_eq_true, decide_eq_true_eq] at h
  obtain ⟨⟨⟨⟨⟨⟨⟨⟨⟨_, hg⟩, ha⟩, hf⟩, _⟩, _⟩, _⟩, _⟩, ho⟩, _⟩ := h
  exact ⟨hg, ha, hf, ho⟩

/-- A statement with the given id and key is FINALIZED or PAID. -/
def LockedAs (db : Db) (id : Nat) (key : Nat × Stamp) : Prop :=
  ∃ s ∈ db.statements, s.id = id ∧ s.key = key ∧ s.status.locked = true

def SameLocks (db db' : Db) : Prop := ∀ id key, LockedAs db' id key ↔ LockedAs db id key

theorem weekLocked_iff {db : Db} (h : Wf db) :
    db.weekLocked repId week = true ↔ ∃ id, LockedAs db id (repId, week) := by
  constructor
  · intro hl
    cases hs : db.statementFor repId week with
    | none => simp [Db.weekLocked, hs] at hl
    | some s =>
      obtain ⟨hmem, hr, hw⟩ := mem_of_statementFor hs
      rw [Db.weekLocked, hs] at hl
      exact ⟨s.id, s, hmem, rfl, by rw [Statement.key, hr, hw], hl⟩
  · rintro ⟨id, s, hs, _, hkey, hl⟩
    rw [Statement.key, Prod.mk.injEq] at hkey
    rw [← hkey.1, ← hkey.2, h.weekLocked_of_mem hs, hl]

theorem weekLocked_eq_false_iff {db : Db} (h : Wf db) :
    db.weekLocked repId week = false ↔ ∀ id, ¬ LockedAs db id (repId, week) := by
  rw [← Bool.not_eq_true, weekLocked_iff h, not_exists]

section Locks

variable {db db' db'' : Db}

theorem SameLocks.refl (db : Db) : SameLocks db db := fun _ _ => Iff.rfl

theorem SameLocks.trans (h : SameLocks db db') (h' : SameLocks db' db'') : SameLocks db db'' :=
  fun id key => (h' id key).trans (h id key)

theorem sameLocks_of_statements (h : db'.statements = db.statements) : SameLocks db db' := by
  intro id key
  unfold LockedAs
  rw [h]

theorem sameLocks_updateStatement (db : Db) (id : Nat)
    (hid : ∀ s, (f s).id = s.id) (hkey : ∀ s, (f s).key = s.key)
    (hstatus : ∀ s, (f s).status = s.status) : SameLocks db (db.updateStatement id f) := by
  have hsame : ∀ s : Statement, (if s.id = id then f s else s).id = s.id ∧
      (if s.id = id then f s else s).key = s.key ∧
      (if s.id = id then f s else s).status = s.status := by
    intro s
    split
    · exact ⟨hid s, hkey s, hstatus s⟩
    · exact ⟨rfl, rfl, rfl⟩
  intro id' key
  constructor
  · rintro ⟨s, hs, h⟩
    obtain ⟨s', hs', rfl⟩ := mem_map.mp hs
    rw [(hsame s').1, (hsame s').2.1, (hsame s').2.2] at h
    exact ⟨s', hs', h⟩
  · rintro ⟨s, hs, h⟩
    refine ⟨_, mem_map_of_mem hs, ?_⟩
    rw [(hsame s).1, (hsame s).2.1, (hsame s).2.2]
    exact h

theorem sameLocks_storePricing (db : Db) (repId : Nat) (bounds : WeekBounds)
    (existing : Option Statement) (p : StatementPricing) (now : Stamp) :
    SameLocks db (storePricing repId bounds existing p now db) := by
  unfold storePricing
  split
  · split
    · exact SameLocks.refl db
    · exact sameLocks_updateStatement db _ (fun _ => rfl) (fun _ => rfl) fun _ => rfl
  · intro id key
    constructor
    · rintro ⟨s, hs, h⟩
      rcases mem_append.mp hs with hs | hs
      · exact ⟨s, hs, h⟩
      · rw [mem_singleton.mp hs] at h
        simp [newStatement, StatementStatus.locked] at h
    · rintro ⟨s, hs, h⟩
      exact ⟨s, mem_append_left _ hs, h⟩

theorem calculate_sameLocks (db : Db) {now : Stamp} (repId : Nat) (ms : Int) :
    Service.Keeps (SameLocks db) (calculateOrRecalculateStatement repId ms now) :=
  calculateOrRecalculateStatement_keeps (fun _ h => h.trans (sameLocks_of_statements rfl))
    fun db' p h _ _ => (h.trans (sameLocks_of_statements rfl)).trans
      (sameLocks_storePricing (promoteReleasedHolds now db') repId _ _ p now)

end Locks

theorem sumApprovedAdjustments_fresh {db : Db} (h : Wf db) :
    sumApprovedAdjustments db (db.statements.length + 1) = 0 := by
  unfold sumApprovedAdjustments
  rw [filter_eq_nil_iff.mpr fun a ha => ?_]
  · rfl
  · have := h.adjustmentRefs a ha
    simp only [decide_eq_true_eq, not_and]
    omega

/-- The price of a recomputation: the block and the approved sum of the store it writes to. -/
theorem repricing_amounts {db : Db} {now : Stamp} (hp : repricing now repId ms db = .ok p) :
    p.override = payableBlock (promoteReleasedHolds now db).overrides repId
        (db.weekOf ms).weekStartUtc ∧
      p.comp.adjustmentCents = ((db.statementFor repId (db.weekOf ms).weekStartUtc).map fun s =>
        sumApprovedAdjustments db s.id).getD 0 ∧
      p.comp.finalCommissionCents =
        p.comp.grossCommissionCents + p.comp.adjustmentCents + p.override.payCents := by
  obtain ⟨ho, ha, hf⟩ := priceStatement_amounts hp
  exact ⟨ho, ha, ho ▸ hf⟩

/-- The row of the recomputed week is left, updated or new, and every other row is as it was. -/
theorem repriced_row {db : Db} (h : Wf db) {now : Stamp} {Q : Statement → Prop}
    (hleft : ∀ e, db.statementFor repId (db.weekOf ms).weekStartUtc = some e →
      e.unchangedBy p = true → Q e)
    (hupdated : ∀ e, db.statementFor repId (db.weekOf ms).weekStartUtc = some e →
      Q (e.repriced p now))
    (hnew : db.statementFor repId (db.weekOf ms).weekStartUtc = none →
      Q (newStatement (db.statements.length + 1) repId (db.weekOf ms) p now))
    (hs : s ∈ (repriced now repId ms p db).statements) :
    (s.key = (repId, (db.weekOf ms).weekStartUtc) ∧ Q s) ∨
      (s.key ≠ (repId, (db.weekOf ms).weekStartUtc) ∧ s ∈ db.statements) := by
  unfold repriced storePricing at hs
  cases he : db.statementFor repId (db.weekOf ms).weekStartUtc with
  | some e =>
    obtain ⟨hmem, hr, hw⟩ := mem_of_statementFor he
    have hkey : e.key = (repId, (db.weekOf ms).weekStartUtc) := by rw [Statement.key, hr, hw]
    have huniq : ∀ s' ∈ db.statements, s'.key = e.key → s' = e := fun s' hs' hk =>
      inj_on_of_nodup_map h.weeks hs' hmem hk
    simp only [he] at hs
    split at hs
    · by_cases hk : s.key = (repId, (db.weekOf ms).weekStartUtc)
      · obtain rfl := huniq s hs (hk.trans hkey.symm)
        exact Or.inl ⟨hk, hleft s he ‹_›⟩
      · exact Or.inr ⟨hk, hs⟩
    · obtain ⟨s', hs', rfl⟩ := mem_map.mp hs
      by_cases hid : s'.id = e.id
      · obtain rfl := h.statementIds.eq_of_key hs' hmem hid
        rw [if_pos rfl]
        exact Or.inl ⟨hkey, hupdated s' he⟩
      · rw [if_neg hid]
        refine Or.inr ⟨fun hk => hid ?_, hs'⟩
        rw [huniq s' hs' (hk.trans hkey.symm)]
  | none =>
    simp only [he] at hs
    rcases mem_append.mp hs with hs | hs
    · exact Or.inr ⟨ne_of_statementFor_none he hs, hs⟩
    · obtain rfl := mem_singleton.mp hs
      exact Or.inl ⟨rfl, hnew he⟩

theorem repriced_statement {db : Db} (h : Wf db) {now : Stamp}
    (hp : repricing now repId ms db = .ok p) (hs : s ∈ (repriced now repId ms p db).statements) :
    (s.key = (repId, (db.weekOf ms).weekStartUtc) ∧ s.PricedAs p ∧
      p.comp.adjustmentCents = sumApprovedAdjustments db s.id) ∨
    (s.key ≠ (repId, (db.weekOf ms).weekStartUtc) ∧ s ∈ db.statements) := by
  have hadj := (repricing_amounts hp).2.1
  apply repriced_row (Q := fun s => s.PricedAs p ∧
    p.comp.adjustmentCents = sumApprovedAdjustments db s.id) h _ _ _ hs
  · intro e he hsame
    rw [he] at hadj
    exact ⟨Statement.pricedAs_of_unchangedBy hsame, hadj⟩
  · intro e he
    rw [he] at hadj
    exact ⟨⟨rfl, rfl, rfl, rfl⟩, hadj⟩
  · intro he
    rw [he] at hadj
    exact ⟨⟨rfl, rfl, rfl, rfl⟩, hadj.trans (sumApprovedAdjustments_fresh h).symm⟩

@[simp] theorem storePricing_overrides (repId : Nat) (bounds : WeekBounds)
    (existing : Option Statement) (pricing : StatementPricing) (now : Stamp) (db : Db) :
    (storePricing repId bounds existing pricing now db).overrides = db.overrides := by
  unfold storePricing
  split
  · split <;> rfl
  · rfl

/-- A statement of `db` has this id and this key. -/
def HasStatement (id : Nat) (key : Nat × Stamp) (db : Db) : Prop :=
  ∃ s ∈ db.statements, s.id = id ∧ s.key = key

theorem hasStatement_updateStatement {id k : Nat} {key : Nat × Stamp} {db : Db}
    (hid : ∀ s, (f s).id = s.id) (hkey : ∀ s, (f s).key = s.key)
    (h : HasStatement id key db) : HasStatement id key (db.updateStatement k f) := by
  obtain ⟨s, hs, h⟩ := h
  refine ⟨_, mem_map_of_mem hs, ?_⟩
  split
  · rw [hid, hkey]
    exact h
  · exact h

theorem hasStatement_storePricing {id : Nat} {key : Nat × Stamp} {db : Db}
    (h : HasStatement id key db) (repId : Nat) (bounds : WeekBounds)
    (existing : Option Statement) (p : StatementPricing) (now : Stamp) :
    HasStatement id key (storePricing repId bounds existing p now db) := by
  unfold storePricing
  split
  · split
    · exact h
    · exact hasStatement_updateStatement (fun _ => rfl) (fun _ => rfl) h
  · obtain ⟨s, hs, h⟩ := h
    exact ⟨s, mem_append_left _ hs, h⟩

theorem hasStatement_repriced {id : Nat} {key : Nat × Stamp} {db : Db}
    (h : HasStatement id key db) (now : Stamp) (repId : Nat) (ms : Int) (p : StatementPricing) :
    HasStatement id key (repriced now repId ms p db) := by
  have hpro : HasStatement id key (promoteReleasedHolds now db) := h
  exact hasStatement_storePricing hpro _ _ _ _ _

theorem wf_repriced {db : Db} (h : Wf db) (now : Stamp) (repId : Nat) (ms : Int)
    (p : StatementPricing) : Wf (repriced now repId ms p db) :=
  wf_storePricing (wf_promoteReleasedHolds h) repId _ p

theorem repriced_hasStatement {db : Db} {now : Stamp} (p : StatementPricing) :
    ∃ row ∈ (repriced now repId ms p db).statements,
      row.key = (repId, (db.weekOf ms).weekStartUtc) := by
  cases hfor : db.statementFor repId (db.weekOf ms).weekStartUtc with
  | some t =>
    obtain ⟨hmem, hrep, hweek⟩ := mem_of_statementFor hfor
    have hstmt : HasStatement t.id (repId, (db.weekOf ms).weekStartUtc) db :=
      ⟨t, hmem, rfl, Prod.ext hrep hweek⟩
    obtain ⟨row, hrow, _, hkey⟩ := hasStatement_repriced hstmt now repId ms p
    exact ⟨row, hrow, hkey⟩
  | none =>
    refine ⟨newStatement (db.statements.length + 1) repId (db.weekOf ms) p now, ?_, rfl⟩
    unfold repriced storePricing
    dsimp only
    rw [hfor]
    exact mem_append_right _ (mem_singleton.mpr rfl)

theorem repriced_statementById {db : Db} (h : Wf db) {stmt : Statement}
    (hfound : db.statementById stmt.id = some stmt) (now : Stamp) (repId : Nat) (ms : Int)
    (p : StatementPricing) :
    ∃ row, (repriced now repId ms p db).statementById stmt.id = some row ∧
      row.id = stmt.id ∧ row.key = stmt.key := by
  have hstmt : HasStatement stmt.id stmt.key db :=
    ⟨stmt, (mem_of_statementById hfound).1, rfl, rfl⟩
  obtain ⟨row, hrow, hid, hkey⟩ := hasStatement_repriced hstmt now repId ms p
  exact ⟨row, hid ▸ (wf_repriced h now repId ms p).statementById_of_mem hrow, hid, hkey⟩

theorem calculate_hasStatement (id : Nat) (key : Nat × Stamp) {now : Stamp} (repId : Nat)
    (ms : Int) : Service.Keeps (HasStatement id key)
      (calculateOrRecalculateStatement repId ms now) :=
  calculateOrRecalculateStatement_keeps (fun _ h => h)
    fun _ _ h _ _ => hasStatement_repriced h _ _ _ _

/-- A recomputation that finds the week of the statement and returns has folded the block of that
week into it. -/
theorem recalculate_ownWeek (stmt : Statement) (now : Stamp) :
    Service.Triple (fun db => Wf db ∧ db.statementById stmt.id = some stmt ∧
        (db.weekOf stmt.weekStartUtc.ms).weekStartUtc = stmt.weekStartUtc)
      (recalculate stmt.repId stmt.weekStartUtc.ms now)
      (fun _ db => ∃ s ∈ db.statements, s.id = stmt.id ∧ s.key = stmt.key ∧
        s.overridePayCents = (payableBlock db.overrides stmt.repId stmt.weekStartUtc).payCents)
      fun _ _ => True := by
  refine Service.Triple.bind (Q := fun _ db => ∃ s ∈ db.statements, s.id = stmt.id ∧
    s.key = stmt.key ∧ s.overridePayCents =
      (payableBlock db.overrides stmt.repId stmt.weekStartUtc).payCents) (fun db hdb => ?_)
    fun _ => Service.Triple.pure fun _ h => h
  obtain ⟨hwf, hfound, hweek⟩ := hdb
  obtain ⟨hmem, _⟩ := mem_of_statementById hfound
  rcases calculateOrRecalculateStatement_cases stmt.repId stmt.weekStartUtc.ms now db with
    ⟨_, _, hc⟩ | ⟨_, _, _, hc⟩ | ⟨_, p, _, hp, hc⟩
  · rw [hc]
    trivial
  · rw [hc]
    trivial
  · rw [hc]
    have hstmt : HasStatement stmt.id stmt.key db := ⟨stmt, hmem, rfl, rfl⟩
    obtain ⟨s, hs, hid, hkey⟩ :=
      hasStatement_repriced hstmt now stmt.repId stmt.weekStartUtc.ms p
    refine ⟨s, hs, hid, hkey, ?_⟩
    rcases repriced_statement hwf hp hs with ⟨_, hpriced, _⟩ | ⟨hk, _⟩
    · rw [hpriced.override, (repricing_amounts hp).1, hweek]
      simp only [repriced, storePricing_overrides]
    · rw [hkey, hweek] at hk
      exact absurd rfl hk

end HomefrontFiber.Commission
