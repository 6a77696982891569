import HomefrontFiber.Commission.PayWeek

/-!
# The week that counts a sale

A week counts a sale when the timestamp that the week's own basis names lies in it. For a sale
without a frozen basis, `resolvedBasisTsForSale` looks for such a week among the weeks of the
sale's own timestamps. It reads an absent column as `soldAt`, which no count does: a week that
names an absent column is then recomputed in place of the one that counts the sale.
-/

namespace HomefrontFiber.Commission

open Option List
open Service (Triple)

/-- The timestamps of a sale, in the order in which its week is looked for. -/
def Sale.candidates (s : Sale) : List Stamp :=
  [s.qualifiedAt, s.installedAt, s.activatedAt].reduceOption ++ [s.soldAt]

/-- The timestamp that a week's own basis names is present and lies in the week. -/
def CountsIn (db : Db) (sale : Sale) (week : WeekBounds) : Prop :=
  ∃ ts ∈ sale.basisTsExpr (fallbackBasisForRepWeek db sale.repId week), week.Holds ts.text

instance (db : Db) (sale : Sale) (week : WeekBounds) : Decidable (CountsIn db sale week) :=
  inferInstanceAs (Decidable (∃ ts ∈ sale.basisTsExpr _, _))

def candidateColumn (db : Db) (sale : Sale) (candidate : Stamp) : Option Stamp :=
  sale.basisColumn (fallbackBasisForRepWeek db sale.repId (db.weekOf candidate.ms))

/-- The basis of the candidate's week leads back to that week, an absent column read as
`soldAt`. -/
def LeadsBack (db : Db) (sale : Sale) (candidate : Stamp) : Prop :=
  (db.weekOf ((candidateColumn db sale candidate).getD sale.soldAt).ms).weekStartUtc =
    (db.weekOf candidate.ms).weekStartUtc

instance (db : Db) (sale : Sale) (candidate : Stamp) : Decidable (LeadsBack db sale candidate) :=
  inferInstanceAs (Decidable (_ = _))

/-- The first candidate that leads back does so by a column that is present. -/
def FoundByColumn (db : Db) (sale : Sale) : Prop :=
  ∀ c ∈ sale.candidates.find? (LeadsBack db sale ·), (candidateColumn db sale c).isSome

instance (db : Db) (sale : Sale) : Decidable (FoundByColumn db sale) :=
  inferInstanceAs (Decidable (∀ c ∈ sale.candidates.find? _, _))

/-- Every timestamp of a sale lies in the pay week of its own instant. -/
def InOwnWeeks (db : Db) (sale : Sale) : Prop :=
  ∀ x ∈ sale.candidates, InOwnWeek db.org.config.toWorkweekConfig x

instance (db : Db) (sale : Sale) : Decidable (InOwnWeeks db sale) :=
  inferInstanceAs (Decidable (∀ x ∈ sale.candidates, _))

/-- The week of the picked timestamp is the one that is recomputed. When some week counts the sale,
the picked timestamp lies in a week that counts it; when one week alone counts it, it is that
week. -/
structure RecomputesCounting (db : Db) (sale : Sale) : Prop where
  picked : (∃ u, CountsIn db sale (db.weekOf u)) →
    ∃ v, (db.weekOf v).Holds (resolvedBasisTsForSale db sale).text ∧ CountsIn db sale (db.weekOf v)
  alone : ∀ u, CountsIn db sale (db.weekOf u) →
    (∀ v, CountsIn db sale (db.weekOf v) → db.weekOf v = db.weekOf u) →
      db.weekOf (resolvedBasisTsForSale db sale).ms = db.weekOf u
  recomputed : ∀ now, Triple (· = db) (reconcileSaleSideEffects sale now)
    (fun stmt _ => ∀ dto ∈ stmt, dto.bounds = db.weekOf (resolvedBasisTsForSale db sale).ms)
    (fun _ _ => True)

variable {db : Db} {sale : Sale}

/-- Without an install hold the statement of a week counts the rep's QUALIFIED sales that the week
counts. -/
theorem foldl_org {α : Type} {f : Db → α → Db} (hf : ∀ db a, (f db a).org = db.org)
    (l : List α) (db : Db) : (l.foldl f db).org = db.org := by
  induction l generalizing db with
  | nil => rfl
  | cons a l ih => rw [foldl_cons, ih, hf]

theorem openPair_org (now : Stamp) (sale : Sale) (week : Stamp) (snapshot : List ChainSnapshotNode)
    (existing : List OverrideRow) (db : Db) (award : OverrideAward) :
    (openPair now sale week snapshot existing db award).org = db.org := by
  unfold openPair
  dsimp only
  split <;> rfl

theorem closePair_org (now : Stamp) (saleId : Nat) (existing : List OverrideRow) (db : Db)
    (beneficiary : Nat) : (closePair now saleId existing db beneficiary).org = db.org := by
  unfold closePair
  dsimp only
  split
  · rfl
  · split
    · rfl
    · split <;> rfl

theorem syncOverridesForSale_org (saleId : Nat) (week now : Stamp) (db : Db) :
    (syncOverridesForSale saleId week now db).org = db.org := by
  unfold syncOverridesForSale
  split
  · rfl
  · split
    · exact foldl_org (openPair_org now _ week _ db.overrides) _ db
    · exact foldl_org (closePair_org now saleId db.overrides) _ db

theorem calculate_bounds (repId : Nat) (weekReference : Int) (now : Stamp) (week : WeekBounds) :
    Triple (fun s : Db => s.weekOf weekReference = week)
      (calculateOrRecalculateStatement repId weekReference now)
      (fun dto _ => dto.bounds = week) (fun _ _ => True) := by
  have hread : Triple (fun s : Db => s.weekOf weekReference = week)
      (Service.read (·.weekOf weekReference) : CommissionService WeekBounds)
      (fun bounds _ => bounds = week) (fun _ _ => True) := fun _ h => h
  unfold calculateOrRecalculateStatement
  apply Triple.bind hread
  intro bounds
  apply Triple.bind_const
  intro existing
  split
  · exact Triple.throw fun _ _ => trivial
  · apply Triple.bind_const
    intro override
    apply Triple.bind_const
    intro pricing
    apply Triple.bind_const
    intro _
    apply Triple.bind_const
    intro statement
    exact Triple.pure fun _ h => h

/-- The statement that a sale's side effects return is that of the week of its picked timestamp. -/
theorem reconcile_bounds (db : Db) (sale : Sale) (now : Stamp) :
    Triple (· = db) (reconcileSaleSideEffects sale now)
      (fun stmt _ => ∀ dto ∈ stmt, dto.bounds = db.weekOf (resolvedBasisTsForSale db sale).ms)
      (fun _ _ => True) := by
  unfold reconcileSaleSideEffects
  apply Triple.bind
    (Q := fun basisTs s => basisTs = resolvedBasisTsForSale db sale ∧ s = db)
  · rintro s rfl
    exact ⟨rfl, rfl⟩
  intro basisTs
  apply Triple.bind (Q := fun _ s => basisTs = resolvedBasisTsForSale db sale ∧ s = db)
  · exact fun s h => h
  intro bounds
  apply Triple.bind
    (Q := fun _ s => s.weekOf basisTs.ms = db.weekOf (resolvedBasisTsForSale db sale).ms)
  · rintro s ⟨rfl, rfl⟩
    change (syncOverridesForSale sale.id bounds.weekStartUtc now s).weekOf _ = _
    unfold Db.weekOf
    rw [syncOverridesForSale_org]
  intro _
  apply Triple.bind (Q := fun stmt _ => ∀ dto ∈ stmt,
    dto.bounds = db.weekOf (resolvedBasisTsForSale db sale).ms)
  · apply Triple.swallow
    apply Triple.conseq (calculate_bounds sale.repId basisTs.ms now _) (fun _ => id)
    · rintro dto _ hdto _ ⟨⟩
      exact hdto
    · intro e _ _
      split
      · exact fun dto hdto => absurd hdto (not_mem_none dto)
      · exact trivial
  intro stmt
  apply Triple.bind_const
  intro uplines
  apply Triple.bind_const
  intro _
  exact Triple.pure fun _ h => h

theorem soldAt_mem_candidates (sale : Sale) : sale.soldAt ∈ sale.candidates :=
  mem_append_right _ (mem_singleton_self _)

variable {basis : QualificationBasis} {ts : Stamp} {u : Int}

theorem basisColumn_mem_candidates
    (h : sale.basisColumn basis = some ts) : ts ∈ sale.candidates := by
  unfold Sale.candidates
  cases basis with
  | soldAt =>
    obtain rfl : sale.soldAt = ts := some.inj h
    exact soldAt_mem_candidates sale
  | qualifiedAt | installedAt | activatedAt =>
    apply mem_append_left
    apply mem_filterMap.mpr
    exact ⟨some ts, by simp [← h, Sale.basisColumn, Sale.dates, DateFields.get], rfl⟩

theorem InOwnWeeks.weekOf_eq (hown : InOwnWeeks db sale) {x : Stamp} (hx : x ∈ sale.candidates)
    (h : (db.weekOf u).Holds x.text) : db.weekOf u = db.weekOf x.ms :=
  (weekBoundsFor_disjoint (hown x hx).1 (hown x hx).2 h).symm

theorem InOwnWeeks.counting_week (hown : InOwnWeeks db sale) (h : CountsIn db sale (db.weekOf u)) :
    ∃ ts ∈ sale.candidates, db.weekOf u = db.weekOf ts.ms ∧
      sale.basisTsExpr (fallbackBasisForRepWeek db sale.repId (db.weekOf ts.ms)) = some ts := by
  obtain ⟨ts, hts, hholds⟩ := h
  have hmem := basisColumn_mem_candidates hts
  have hweek := hown.weekOf_eq hmem hholds
  exact ⟨ts, hmem, hweek, hweek ▸ hts⟩

theorem recomputes_of_uncounted (h : ∀ u, ¬ CountsIn db sale (db.weekOf u)) :
    RecomputesCounting db sale where
  picked := fun ⟨u, hu⟩ => absurd hu (h u)
  alone u hu := absurd hu (h u)
  recomputed := reconcile_bounds db sale

theorem InOwnWeeks.recomputes (hown : InOwnWeeks db sale) (hmem : ts ∈ sale.candidates)
    (hpicked : resolvedBasisTsForSale db sale = ts)
    (hnamed : sale.basisTsExpr (fallbackBasisForRepWeek db sale.repId (db.weekOf ts.ms)) =
      some ts) : RecomputesCounting db sale := by
  have hcounts : CountsIn db sale (db.weekOf ts.ms) := ⟨ts, hnamed, (hown ts hmem).2⟩
  constructor
  · intro _
    rw [hpicked]
    exact ⟨ts.ms, (hown ts hmem).2, hcounts⟩
  · intro u _ honly
    rw [hpicked]
    exact honly ts.ms hcounts
  · exact reconcile_bounds db sale

theorem coherentBasisTs_eq (db : Db) (sale : Sale) (candidates : List Stamp) :
    coherentBasisTs db sale candidates = (candidates.find? (LeadsBack db sale ·)).map
      fun c => (candidateColumn db sale c).getD sale.soldAt := by
  induction candidates with
  | nil => rfl
  | cons c rest ih =>
    unfold coherentBasisTs
    by_cases h : LeadsBack db sale c
    · rw [find?_cons_of_pos (by simpa using h)]
      exact if_pos h
    · rw [find?_cons_of_neg (by simpa using h), ← ih]
      exact if_neg h

theorem LeadsBack.week_eq {c : Stamp} (h : LeadsBack db sale c) :
    db.weekOf ((candidateColumn db sale c).getD sale.soldAt).ms = db.weekOf c.ms :=
  weekBoundsFor_eq_of_weekStart h

theorem resolved_unstamped (hstamp : sale.qualificationBasis = none) :
    resolvedBasisTsForSale db sale = (coherentBasisTs db sale sale.candidates).getD
      (sale.basisTsForSale db.org.config.qualificationBasis) := by
  unfold resolvedBasisTsForSale
  rw [hstamp]
  rfl

theorem basisTsExpr_unstamped (hstamp : sale.qualificationBasis = none)
    (fallback : QualificationBasis) : sale.basisTsExpr fallback = sale.basisColumn fallback := by
  unfold Sale.basisTsExpr Sale.basisOr
  rw [hstamp]
  rfl

theorem InOwnWeeks.recomputes_stamped (hown : InOwnWeeks db sale)
    (hstamp : sale.qualificationBasis = some basis) : RecomputesCounting db sale := by
  have hexpr : ∀ fallback, sale.basisTsExpr fallback = sale.basisColumn basis := by
    intro fallback
    unfold Sale.basisTsExpr Sale.basisOr
    rw [hstamp]
    rfl
  cases hcolumn : sale.basisColumn basis with
  | none =>
    apply recomputes_of_uncounted
    rintro u ⟨ts, hts, -⟩
    rw [hexpr, hcolumn] at hts
    cases hts
  | some ts =>
    apply hown.recomputes (basisColumn_mem_candidates hcolumn)
    · unfold resolvedBasisTsForSale
      rw [hstamp]
      dsimp only
      rw [hcolumn]
      rfl
    · rw [hexpr, hcolumn]

theorem InOwnWeeks.exists_leadsBack (hown : InOwnWeeks db sale)
    (hstamp : sale.qualificationBasis = none) (h : CountsIn db sale (db.weekOf u)) :
    ∃ c, sale.candidates.find? (LeadsBack db sale ·) = some c := by
  obtain ⟨ts, hmem, -, hnamed⟩ := hown.counting_week h
  rw [basisTsExpr_unstamped hstamp] at hnamed
  apply isSome_iff_exists.mp
  apply find?_isSome.mpr
  refine ⟨ts, hmem, ?_⟩
  have hcolumn : candidateColumn db sale ts = some ts := hnamed
  simp [LeadsBack, hcolumn]

theorem InOwnWeeks.recomputes_iff (hown : InOwnWeeks db sale) :
    RecomputesCounting db sale ↔ sale.qualificationBasis.isSome ∨
      (∀ u, ¬ CountsIn db sale (db.weekOf u)) ∨ FoundByColumn db sale := by
  cases hstamp : sale.qualificationBasis with
  | some basis => simpa using hown.recomputes_stamped hstamp
  | none =>
    constructor
    · intro h
      by_cases hcounts : ∃ u, CountsIn db sale (db.weekOf u)
      · -- an absent column has the search return `soldAt`, whose week does not count the sale
        apply Or.inr
        apply Or.inr
        intro c hc
        by_contra habsent
        have hcolumn : candidateColumn db sale c = none := not_isSome_iff_eq_none.mp habsent
        have hleads : LeadsBack db sale c := by simpa using find?_some hc
        have hpicked : resolvedBasisTsForSale db sale = sale.soldAt := by
          rw [resolved_unstamped hstamp, coherentBasisTs_eq, hc, map_some, hcolumn]
          rfl
        obtain ⟨v, hholds, ts, hts, -⟩ := h.picked hcounts
        rw [hpicked] at hholds
        have hweek := hleads.week_eq
        rw [hcolumn, getD_none,
          ← hown.weekOf_eq (soldAt_mem_candidates sale) hholds] at hweek
        rw [basisTsExpr_unstamped hstamp, hweek] at hts
        exact absurd (hcolumn.symm.trans hts) (by simp)
      · exact Or.inr (Or.inl fun u hu => hcounts ⟨u, hu⟩)
    · rintro (hsome | hnone | hfound)
      · cases hsome
      · exact recomputes_of_uncounted hnone
      · by_cases hcounts : ∃ u, CountsIn db sale (db.weekOf u)
        · obtain ⟨u, hu⟩ := hcounts
          obtain ⟨c, hc⟩ := hown.exists_leadsBack hstamp hu
          obtain ⟨ts, hts⟩ := isSome_iff_exists.mp (hfound c hc)
          have hleads : LeadsBack db sale c := by simpa using find?_some hc
          have hweek := hleads.week_eq
          rw [hts, getD_some] at hweek
          apply hown.recomputes (basisColumn_mem_candidates hts)
          · rw [resolved_unstamped hstamp, coherentBasisTs_eq, hc, map_some, hts]
            rfl
          · rw [basisTsExpr_unstamped hstamp, hweek]
            exact hts
        · exact recomputes_of_uncounted fun u hu => hcounts ⟨u, hu⟩

/-- From 2026-03-09 on a plan by activation replaces rep 1's plan with the given basis. -/
def replacedPlan (basis : QualificationBasis) : Db := Db.empty
  { sampleOrg with
    versions :=
      [{ id := 1, commissionPlanId := 1, versionNumber := 1, flatRateCents := none
         qualificationBasis := basis, tiers := [] },
       { id := 2, commissionPlanId := 1, versionNumber := 2, flatRateCents := none
         qualificationBasis := .activatedAt, tiers := [] }]
    assignments :=
      [{ id := 1, repId := 1, commissionPlanVersionId := 1
         effectiveFrom := "2026-01-05".toList, effectiveTo := some "2026-03-08".toList },
       { id := 2, repId := 1, commissionPlanVersionId := 2
         effectiveFrom := "2026-03-09".toList, effectiveTo := none }] }

/-- A sale without a frozen basis, qualified on 2026-03-04 and activated a week later. -/
def legacySale : Sale where
  id := 1
  repId := 1
  externalId := "A-1"
  status := .qualified
  soldAt := Stamp.ofMs sampleNow
  qualifiedAt := some (Stamp.ofMs sampleNow)
  installedAt := none
  activatedAt := some (Stamp.ofMs (sampleNow + 7 * msPerDay))
  reversedAt := none
  disqualificationReason := none
  leadId := none
  qualificationBasis := none
  createdAt := Stamp.ofMs sampleNow
  updatedAt := Stamp.ofMs sampleNow

end HomefrontFiber.Commission
