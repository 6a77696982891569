import HomefrontFiber.Closeout.Ledger
import HomefrontFiber.Commission.Recompute

/-!
# The frozen doors against the frozen count

FINALIZE counts the sales it pays with one query and lists the doors it freezes with another. The
count wants a basis timestamp and moves a released sale to the end of its hold. The list places a
sale without one by `sold_at` and takes no notice of the hold. They agree exactly when they agree
sale by sale, on the statement of the week that was counted.
-/

namespace HomefrontFiber.Closeout

open Commission Reserve Option

def governingVersion (db : Db) (repId : Nat) (bounds : WeekBounds) : Option PlanVersion :=
  (db.assignmentForWeek repId bounds).bind fun a => db.versionById a.commissionPlanVersionId

/-- The sales that a recomputation of a rep's week counts for pay, none without a plan. -/
def salesCounted (db : Db) (now : Stamp) (repId : Nat) (bounds : WeekBounds) : List Sale :=
  match governingVersion db repId bounds with
  | none => []
  | some version =>
    db.sales.filter fun sale => CountsForPay db now version.qualificationBasis repId bounds sale

/-- The statement has frozen the doors of the sales that were counted, and their number. -/
def FrozenMatches (counted : List Sale) (statementId : Nat) (s : CloseoutDb) : Prop :=
  ∃ doors ∈ (s.lock statementId).contributingSales,
    (doors.map (·.id)).Perm (counted.map (·.id)) ∧
      ∃ stmt ∈ s.commission.statementById statementId, stmt.qualifiedSaleCount = doors.length

instance (counted : List Sale) (statementId : Nat) (s : CloseoutDb) :
    Decidable (FrozenMatches counted statementId s) :=
  inferInstanceAs (Decidable (∃ doors ∈ (s.lock statementId).contributingSales, _ ∧ ∃ stmt ∈ _, _))

/-- The pending commission that withholds the sale under the policy. -/
def gatingCommission (db : Db) (sale : Sale) : Option LegacyCommission :=
  if db.org.payPolicy.requireInstallConfirm then
    (linkedCommission db sale).filter (·.status = .pending)
  else none

/-- A QUALIFIED sale of the rep lies in the week by its basis timestamp, or by `sold_at`. -/
def Listed (db : Db) (repId : Nat) (bounds : WeekBounds) (sale : Sale) : Prop :=
  sale.repId = repId ∧ sale.status = .qualified ∧
    bounds.Holds (sale.basisTsForSale (fallbackBasisForRepWeek db repId bounds)).text

instance (db : Db) (repId : Nat) (bounds : WeekBounds) (sale : Sale) :
    Decidable (Listed db repId bounds sale) :=
  inferInstanceAs (Decidable (_ ∧ _ ∧ _))

/-- The hold of the commission has passed, and its end lies in the week. -/
def ReleasedIn (now : Stamp) (bounds : WeekBounds) (c : LegacyCommission) : Prop :=
  ∃ after ∈ c.payableAfter, after.text ≤ now.text ∧ bounds.Holds after.text

instance (now : Stamp) (bounds : WeekBounds) (c : LegacyCommission) :
    Decidable (ReleasedIn now bounds c) :=
  inferInstanceAs (Decidable (∃ after ∈ c.payableAfter, _))

/-- Where the list and the count agree on a QUALIFIED sale of the rep: a week without a plan lists
none, a sale that pays by its hold is listed in the week of the release and nowhere else, and any
other listed sale has its basis timestamp. -/
def DoorAgrees (db : Db) (now : Stamp) (repId : Nat) (bounds : WeekBounds) (sale : Sale) : Prop :=
  match governingVersion db repId bounds, gatingCommission db sale with
  | none, _ => ¬ Listed db repId bounds sale
  | some _, some c => Listed db repId bounds sale ↔ ReleasedIn now bounds c
  | some version, none =>
    Listed db repId bounds sale → (sale.basisTsExpr version.qualificationBasis).isSome

instance (db : Db) (now : Stamp) (repId : Nat) (bounds : WeekBounds) (sale : Sale) :
    Decidable (DoorAgrees db now repId bounds sale) := by
  unfold DoorAgrees
  split <;> infer_instance

/-- The week that FINALIZE recomputes is the statement's own, or the stored count happens to be
the number of its doors. -/
def CountsOwnDoors (db : Db) (stmt : Statement) : Prop :=
  (db.weekOf stmt.weekStartUtc.ms).weekStartUtc = stmt.weekStartUtc ∨
    stmt.qualifiedSaleCount =
      (db.sales.filter fun sale => Listed db stmt.repId (db.weekOf stmt.weekStartUtc.ms) sale).length

instance (db : Db) (stmt : Statement) : Decidable (CountsOwnDoors db stmt) :=
  inferInstanceAs (Decidable (_ ∨ _))

section Queries

variable {db : Db} {now : Stamp} {repId : Nat} {bounds : WeekBounds} {sale : Sale}

theorem fallbackBasis_of_governingVersion {version : PlanVersion}
    (h : governingVersion db repId bounds = some version) :
    fallbackBasisForRepWeek db repId bounds = version.qualificationBasis := by
  unfold governingVersion at h
  unfold fallbackBasisForRepWeek
  cases ha : db.assignmentForWeek repId bounds with
  | none => simp [ha] at h
  | some a =>
    rw [ha, bind_some] at h
    simp [h]

theorem effectiveTs_eq (basis : QualificationBasis) :
    effectiveTs db.org.payPolicy db.commissions basis now sale =
      match gatingCommission db sale with
      | none => sale.basisTsExpr basis
      | some c => c.payableAfter.filter fun after => after.text ≤ now.text := by
  unfold effectiveTs gatingCommission linkedCommission
  cases db.org.payPolicy.requireInstallConfirm with
  | false => rfl
  | true =>
    cases latestCommission db.commissions sale.leadId sale.repId with
    | none => rfl
    | some c => by_cases hp : c.status = .pending <;> simp [hp, filter_some]

/-- The count and the list agree on every QUALIFIED sale of the rep exactly as `DoorAgrees` says. -/
theorem doorAgrees_iff (hrep : sale.repId = repId) (hst : sale.status = .qualified) :
    DoorAgrees db now repId bounds sale ↔
      (Listed db repId bounds sale ↔ ∃ version ∈ governingVersion db repId bounds,
        CountsForPay db now version.qualificationBasis repId bounds sale) := by
  unfold DoorAgrees
  cases hv : governingVersion db repId bounds with
  | none => simp
  | some version =>
    have hbasis := fallbackBasis_of_governingVersion hv
    have hcounts : (∃ version' ∈ some version,
        CountsForPay db now version'.qualificationBasis repId bounds sale) ↔
        ∃ ts ∈ effectiveTs db.org.payPolicy db.commissions version.qualificationBasis now sale,
          bounds.Holds ts.text := by
      simp [CountsForPay, hrep, hst]
    rw [hcounts, effectiveTs_eq]
    cases hg : gatingCommission db sale with
    | some c =>
      have hreleased : (∃ ts ∈ c.payableAfter.filter fun after => after.text ≤ now.text,
          bounds.Holds ts.text) ↔ ReleasedIn now bounds c := by
        unfold ReleasedIn
        cases c.payableAfter <;> simp [filter_eq_some_iff]
      rw [hreleased]
    | none =>
      have hlisted : Listed db repId bounds sale ↔
          bounds.Holds (sale.basisTsForSale version.qualificationBasis).text := by
        simp [Listed, hrep, hst, hbasis]
      dsimp only
      rw [hlisted]
      cases hts : sale.basisTsExpr version.qualificationBasis with
      | none => simp
      | some ts => simp [Sale.basisTsForSale, hts]

theorem listed_congr {db' : Db} (h : db'.org = db.org) :
    Listed db' repId bounds sale ↔ Listed db repId bounds sale := by
  simp only [Listed, fallbackBasisForRepWeek, Db.assignmentForWeek, Db.versionById, h]

theorem salesCounted_eq : salesCounted db now repId bounds = db.sales.filter fun sale =>
    ∃ version ∈ governingVersion db repId bounds,
      CountsForPay db now version.qualificationBasis repId bounds sale := by
  unfold salesCounted
  cases governingVersion db repId bounds with
  | none => simp
  | some version => simp

/-- The listed sales are the counted ones exactly when the queries agree sale by sale. -/
theorem doorsAgree_iff (hwf : Wf db) :
    ((db.sales.filter fun sale => Listed db repId bounds sale).map (·.id)).Perm
        ((salesCounted db now repId bounds).map (·.id)) ↔
      ∀ sale ∈ db.sales, sale.repId = repId → sale.status = .qualified →
        DoorAgrees db now repId bounds sale := by
  rw [salesCounted_eq, perm_filter_key_iff hwf.saleIds.nodup]
  simp only [decide_eq_decide]
  constructor
  · intro h sale hsale hrep hst
    exact (doorAgrees_iff hrep hst).mpr (h sale hsale)
  · intro h sale hsale
    by_cases hq : sale.repId = repId ∧ sale.status = .qualified
    · exact (doorAgrees_iff hq.1 hq.2).mp (h sale hsale hq.1 hq.2)
    · have hlist : ¬ Listed db repId bounds sale := fun hl => hq ⟨hl.1, hl.2.1⟩
      have hcount : ¬ ∃ version ∈ governingVersion db repId bounds,
          CountsForPay db now version.qualificationBasis repId bounds sale := by
        rintro ⟨_, _, hc⟩
        exact hq ⟨hc.1, hc.2.1⟩
      exact iff_of_false hlist hcount

theorem qualifiedDoors_perm (s : CloseoutDb) (stmt : Statement) (now : Stamp) :
    ((qualifiedDoors s stmt now).map (·.id)).Perm ((s.commission.sales.filter fun sale =>
      Listed s.commission stmt.repId (s.commission.weekOf stmt.weekStartUtc.ms) sale).map
        (·.id)) := by
  have hrow : (WeekSale.id ∘ weekSale s now) = Sale.id := rfl
  have hstatus : ((fun w : WeekSale => decide (w.status = .qualified)) ∘ weekSale s now) =
      fun sale : Sale => decide (sale.status = .qualified) := rfl
  have hsame : ∀ sale ∈ s.commission.sales,
      (decide (sale.status = .qualified) && decide (sale.repId = stmt.repId ∧
        (s.commission.weekOf stmt.weekStartUtc.ms).Holds (sale.basisTsForSale
          (fallbackBasisForRepWeek s.commission stmt.repId
            (s.commission.weekOf stmt.weekStartUtc.ms))).text)) =
      decide (Listed s.commission stmt.repId (s.commission.weekOf stmt.weekStartUtc.ms) sale) := by
    intro sale _
    simp only [Listed, ← Bool.decide_and]
    congr 1
    exact propext and_left_comm
  unfold qualifiedDoors listWeekSalesForRep salesOfWeek
  rw [List.filter_map, List.map_map, hrow, hstatus]
  refine ((List.perm_insertionSort _ _).filter _).map _ |>.trans ?_
  rw [List.filter_filter, List.filter_congr hsame]

theorem computeStatement_count {plan : CommissionPlan} {version : PlanVersion}
    {count approved : Int} {c : StatementComputation}
    (h : computeStatement plan version count approved = .ok c) :
    c.qualifiedSaleCount = max 0 count := by
  unfold computeStatement at h
  split at h
  · rw [← (Except.ok.injEq _ _).mp h]
  · split at h
    · simp at h
    · dsimp only at h
      split at h
      · rw [← (Except.ok.injEq _ _).mp h]
      · simp at h

theorem pricePlan_count {hourly : WeekHourlyPay} {override : OverrideBlock} {approved : Int}
    {priced : Option CommissionPlan × Option PlanVersion × QualificationBasis × StatementComputation}
    (h : pricePlan db now repId bounds hourly override approved = .ok priced) :
    priced.2.2.2.qualifiedSaleCount = (salesCounted db now repId bounds).length := by
  unfold pricePlan at h
  unfold salesCounted governingVersion
  cases ha : db.assignmentForWeek repId bounds with
  | none =>
    rw [ha] at h
    dsimp only at h
    split at h
    · simp at h
    · rw [← (Except.ok.injEq _ _).mp h]
      rfl
  | some assignment =>
    rw [ha] at h
    dsimp only at h
    rw [bind_some]
    cases hv : db.versionById assignment.commissionPlanVersionId with
    | none => simp [hv] at h
    | some version =>
      rw [hv] at h
      dsimp only at h
      split at h
      · simp at h
      · rename_i plan _
        cases hc : computeStatement plan version
            (countQualifiedSales db now version.qualificationBasis repId bounds) approved with
        | error e => simp [hc, Except.map] at h
        | ok c =>
          simp only [hc, Except.map, Except.ok.injEq] at h
          rw [← h, computeStatement_count hc]
          exact max_eq_right (Int.natCast_nonneg _)

theorem repricing_count {ms : Int} {p : StatementPricing}
    (hp : repricing now repId ms db = .ok p) :
    p.comp.qualifiedSaleCount = (salesCounted db now repId (db.weekOf ms)).length := by
  unfold repricing priceStatement at hp
  dsimp only at hp
  generalize hplan : pricePlan (promoteReleasedHolds now db) now repId (db.weekOf ms) _ _ _ =
    priced at hp
  cases priced with
  | error e => simp [Except.map] at hp
  | ok priced =>
    simp only [Except.map, Except.ok.injEq] at hp
    rw [← hp]
    exact pricePlan_count hplan

end Queries

section Lock

variable {s : CloseoutDb} {stmt : Statement} {actorId : Option Nat} {now : Stamp} {db : Db}

theorem storePricing_tables (repId : Nat) (bounds : WeekBounds) (existing : Option Statement)
    (p : StatementPricing) (now : Stamp) (db : Db) :
    (storePricing repId bounds existing p now db).sales = db.sales ∧
      (storePricing repId bounds existing p now db).org = db.org := by
  unfold storePricing
  split
  · split <;> exact ⟨rfl, rfl⟩
  · exact ⟨rfl, rfl⟩

theorem repriced_tables (now : Stamp) (repId : Nat) (ms : Int) (p : StatementPricing) (db : Db) :
    (repriced now repId ms p db).sales = db.sales ∧ (repriced now repId ms p db).org = db.org :=
  storePricing_tables repId (db.weekOf ms) _ p now (promoteReleasedHolds now db)

theorem recomputeBeforeFreeze_ok (hst : stmt.status ≠ .finalized)
    (h : recomputeBeforeFreeze stmt now s.commission = (.ok (), db)) :
    ∃ p, repricing now stmt.repId stmt.weekStartUtc.ms s.commission = .ok p ∧
      db = repriced now stmt.repId stmt.weekStartUtc.ms p s.commission := by
  unfold recomputeBeforeFreeze at h
  rw [if_neg hst, Service.bind_apply, Service.read_apply] at h
  dsimp only at h
  split at h
  · simp at h
  · unfold recalculate at h
    rcases calculateOrRecalculateStatement_cases stmt.repId stmt.weekStartUtc.ms now s.commission with
      ⟨_, status, hc⟩ | ⟨_, e, _, hc⟩ | ⟨_, p, dto, hp, hc⟩
    · rw [Service.bind_error hc] at h
      simp at h
    · rw [Service.bind_error hc] at h
      simp at h
    · rw [Service.bind_ok hc] at h
      exact ⟨p, hp, (congrArg Prod.snd h).symm⟩

/-- The count of the statement after its recomputation: that of the price on its own week, the
stored one otherwise. -/
theorem repriced_count (hwf : Wf db) (hfound : db.statementById stmt.id = some stmt)
    {p : StatementPricing}
    (hp : repricing now stmt.repId stmt.weekStartUtc.ms db = .ok p) :
    ∃ row, (repriced now stmt.repId stmt.weekStartUtc.ms p db).statementById stmt.id = some row ∧
      row.qualifiedSaleCount =
        if (db.weekOf stmt.weekStartUtc.ms).weekStartUtc = stmt.weekStartUtc then
          ((salesCounted db now stmt.repId (db.weekOf stmt.weekStartUtc.ms)).length : Int)
        else stmt.qualifiedSaleCount := by
  obtain ⟨row, hrow, hid, hkey⟩ := repriced_statementById hwf hfound now stmt.repId
    stmt.weekStartUtc.ms p
  refine ⟨row, hrow, ?_⟩
  have hcases := repriced_row (Q := fun r => r.qualifiedSaleCount = p.comp.qualifiedSaleCount) hwf
    (fun e _ hsame => by
      simp only [Statement.unchangedBy, Bool.and_eq_true, decide_eq_true_eq] at hsame
      obtain ⟨⟨⟨⟨⟨⟨⟨⟨⟨hcount, _⟩, _⟩, _⟩, _⟩, _⟩, _⟩, _⟩, _⟩, _⟩ := hsame
      exact hcount)
    (fun _ _ => rfl) (fun _ => rfl) (mem_of_statementById hrow).1
  rcases hcases with ⟨hown, hcount⟩ | ⟨hother, hmem⟩
  · rw [hkey, Statement.key, Prod.mk.injEq] at hown
    rw [if_pos hown.2.symm, hcount, repricing_count hp]
  · rw [hkey, Statement.key, ne_eq, Prod.mk.injEq, not_and] at hother
    rw [if_neg fun h => hother rfl h.symm,
      hwf.statementIds.eq_of_key hmem (mem_of_statementById hfound).1 hid]

theorem transitionStatement_locks (hwf : Wf s.commission)
    (hfound : s.commission.statementById stmt.id = some stmt) (hopen : stmt.status.locked = false)
    (hlocked : ∃ after ∈ (transitionStatement actorId stmt.id .finalize now s).2.commission.statementById
      stmt.id, after.status = .finalized) :
    ∃ p book, repricing now stmt.repId stmt.weekStartUtc.ms s.commission = .ok p ∧
      (transitionStatement actorId stmt.id .finalize now s).2 =
        { relocked stmt actorId now
            { s with commission := repriced now stmt.repId stmt.weekStartUtc.ms p s.commission }
          with book := book } := by
  have hpaid : stmt.status ≠ .paid := fun h => by simp [h, StatementStatus.locked] at hopen
  have hfin : stmt.status ≠ .finalized := fun h => by simp [h, StatementStatus.locked] at hopen
  rcases transitionStatement_finalize_cases actorId now hfound hpaid with
    ⟨db, book, hre, hstore⟩ | ⟨e, db, hre, hstore⟩
  · obtain ⟨p, hp, rfl⟩ := recomputeBeforeFreeze_ok hfin hre
    exact ⟨p, book, hp, hstore⟩
  · have hsame : SameLocks s.commission db := by
      have hkeeps : Service.Keeps (SameLocks s.commission) (recomputeBeforeFreeze stmt now) :=
        recomputeBeforeFreeze_keeps (calculate_sameLocks s.commission _ _)
      have hstore' := hkeeps.store (SameLocks.refl s.commission)
      rwa [hre] at hstore'
    obtain ⟨after, hafter, hst⟩ := hlocked
    rw [hstore] at hafter
    obtain ⟨hmem, hid⟩ := mem_of_statementById hafter
    have hnew : LockedAs db stmt.id after.key :=
      ⟨after, hmem, hid, rfl, by simp [hst, StatementStatus.locked]⟩
    obtain ⟨t, ht, htid, _, htlocked⟩ := (hsame _ _).mp hnew
    obtain rfl := hwf.statementIds.eq_of_key ht (mem_of_statementById hfound).1 htid
    rw [hopen] at htlocked
    cases htlocked

end Lock

/-- FINALIZE freezes the doors that it counted, and their number, exactly when the list and the
count agree on every QUALIFIED sale of the rep and the counted week is the statement's own. -/
theorem frozenMatches_iff {s : CloseoutDb} {stmt : Statement} {actorId : Option Nat} {now : Stamp}
    (hwf : Wf s.commission) (hfound : s.commission.statementById stmt.id = some stmt)
    (hopen : stmt.status.locked = false)
    (hlocked : ∃ after ∈ (transitionStatement actorId stmt.id .finalize now s).2.commission.statementById
      stmt.id, after.status = .finalized) :
    FrozenMatches
        (salesCounted s.commission now stmt.repId (s.commission.weekOf stmt.weekStartUtc.ms)) stmt.id
        (transitionStatement actorId stmt.id .finalize now s).2 ↔
      (∀ sale ∈ s.commission.sales, sale.repId = stmt.repId → sale.status = .qualified →
        DoorAgrees s.commission now stmt.repId (s.commission.weekOf stmt.weekStartUtc.ms) sale) ∧
      CountsOwnDoors s.commission stmt := by
  obtain ⟨p, book, hp, hstore⟩ := transitionStatement_locks hwf hfound hopen hlocked
  obtain ⟨row, hrow, hcount⟩ := repriced_count hwf hfound hp
  obtain ⟨hsales, horg⟩ := repriced_tables now stmt.repId stmt.weekStartUtc.ms p s.commission
  rw [hstore]
  set bounds := s.commission.weekOf stmt.weekStartUtc.ms with hbounds
  set db := repriced now stmt.repId stmt.weekStartUtc.ms p s.commission with hdb
  -- the recomputation moves no sale, so the list is the one of the store before it
  have hdoors : ((qualifiedDoors { s with commission := db } stmt now).map (·.id)).Perm
      ((s.commission.sales.filter fun sale => Listed s.commission stmt.repId bounds sale).map
        (·.id)) := by
    have hlist := qualifiedDoors_perm { s with commission := db } stmt now
    have hweek : db.weekOf stmt.weekStartUtc.ms = bounds := by rw [Db.weekOf, horg]; rfl
    simp only [hsales, hweek, listed_congr horg] at hlist
    exact hlist
  have hfrozen : FrozenMatches (salesCounted s.commission now stmt.repId bounds) stmt.id
      { relocked stmt actorId now { s with commission := db } with book := book } ↔
      ((qualifiedDoors { s with commission := db } stmt now).map (·.id)).Perm
        ((salesCounted s.commission now stmt.repId bounds).map (·.id)) ∧
      row.qualifiedSaleCount = (qualifiedDoors { s with commission := db } stmt now).length := by
    unfold FrozenMatches
    dsimp only
    rw [relocked_lock, relocked_statementById]
    dsimp only
    rw [hrow]
    simp
  have hperm : ((qualifiedDoors { s with commission := db } stmt now).map (·.id)).Perm
        ((salesCounted s.commission now stmt.repId bounds).map (·.id)) ↔
      ∀ sale ∈ s.commission.sales, sale.repId = stmt.repId → sale.status = .qualified →
        DoorAgrees s.commission now stmt.repId bounds sale := by
    rw [← doorsAgree_iff hwf]
    exact ⟨hdoors.symm.trans, hdoors.trans⟩
  rw [hfrozen, hperm]
  refine and_congr_right fun hagree => ?_
  have hlistLength := hdoors.length_eq
  have hcountLength := (hperm.mpr hagree).length_eq
  simp only [List.length_map] at hlistLength hcountLength
  unfold CountsOwnDoors
  by_cases hown : bounds.weekStartUtc = stmt.weekStartUtc
  · rw [if_pos hown] at hcount
    exact ⟨fun _ => Or.inl hown, fun _ => by rw [hcount, hcountLength]⟩
  · rw [if_neg hown] at hcount
    rw [hcount, hlistLength]
    exact (or_iff_right hown).symm

section Sample

/-- Rep 1 has sold A-1 and the statement of the week is still open. -/
def openWeek : CloseoutDb :=
  .of (run step (Db.empty flatPlanOrg) [⟨sampleNow, .upsertSale (sampleSale "A-1")⟩])

theorem openWeek_isSome : (openWeek.commission.statementById 1).isSome := by decide +kernel

def openStatement : Statement := (openWeek.commission.statementById 1).get openWeek_isSome

theorem frozenMatches_openWeek :
    FrozenMatches (salesCounted openWeek.commission (Stamp.ofMs sampleNow) 1
      (openWeek.commission.weekOf openStatement.weekStartUtc.ms)) 1
      (transitionStatement (some 9) 1 .finalize (Stamp.ofMs sampleNow) openWeek).2 := by
  have hid : openStatement.id = 1 := by decide +kernel
  have hrep : openStatement.repId = 1 := by decide +kernel
  have hfound : openWeek.commission.statementById openStatement.id = some openStatement := by
    rw [hid]
    exact (some_get openWeek_isSome).symm
  have hwf : Wf openWeek.commission := by
    unfold openWeek CloseoutDb.of
    dsimp only
    exact wf_run flatPlanOrg _
  have hlocked : ∃ after ∈ (transitionStatement (some 9) openStatement.id .finalize
      (Stamp.ofMs sampleNow) openWeek).2.commission.statementById openStatement.id,
      after.status = .finalized := by decide +kernel
  have hmatches := (frozenMatches_iff hwf hfound (by decide +kernel) hlocked).mpr
    ⟨by decide +kernel, by decide +kernel⟩
  rw [hid, hrep] at hmatches
  exact hmatches

/-- A-1 is a door whose commission still waits for its install. -/
def heldWeek : CloseoutDb :=
  .of (run step
    (Db.empty { flatPlanOrg with payPolicy := { requireInstallConfirm := true, holdDays := 7 } })
    [⟨sampleNow, .editCommissions
        [{ id := 1, repId := 1, leadId := some 7, knockId := some 1, amountCents := 5000,
           status := .pending, installConfirmedAt := none, payableAfter := none }]⟩,
      ⟨sampleNow, .upsertSale { sampleSale "A-1" with leadId := some 7 }⟩])

/-- The statement is locked with no sale counted and one door frozen. -/
theorem not_frozenMatches_heldWeek :
    let s := (transitionStatement (some 9) 1 .finalize (Stamp.ofMs sampleNow) heldWeek).2
    (s.commission.statementById 1).map (·.status) = some .finalized ∧
      ¬ FrozenMatches (salesCounted heldWeek.commission (Stamp.ofMs sampleNow) 1
        (heldWeek.commission.weekOf sampleNow)) 1 s := by
  decide +kernel

end Sample

end HomefrontFiber.Closeout
