import HomefrontFiber.Closeout.LockLoop

/-!
# The reps of a closeout are isolated

Every rep is reported for their own work only. What breaks is the count of the reports: the second
ensure pass does not ask which reps the first one has blocked, so a rep that both passes fail for
is reported twice.
-/

namespace HomefrontFiber.Closeout

open Commission Reserve List

/-- The reps in scope whose qualified sales the first ensure pass visits. -/
def salesReps (repIds : Option (List Nat)) (bounds : WeekBounds) (db : Db) : List Nat :=
  ((salesByRep db bounds).filter fun rep => InScope repIds rep.1).map (·.1)

def salesReported (faults : Faults) (repIds : Option (List Nat)) (bounds : WeekBounds)
    (now : Stamp) (s : CloseoutDb) : List Nat :=
  (salesReps repIds bounds s.commission).filter fun c =>
    (ensureVerdict (faults.ensure c) c bounds now s).reported true

/-- The beneficiaries in scope that the second ensure pass visits, once the first has released
holds. -/
def overrideReps (faults : Faults) (repIds : Option (List Nat)) (bounds : WeekBounds)
    (now : Stamp) (db : Db) : List Nat :=
  (overrideBeneficiaries (holdsAfter faults.ensure (salesReps repIds bounds db) bounds now db)
    bounds.weekStartUtc).filter fun c => InScope repIds c

def overridesReported (faults : Faults) (repIds : Option (List Nat)) (bounds : WeekBounds)
    (now : Stamp) (s : CloseoutDb) : List Nat :=
  (overrideReps faults repIds bounds now s.commission).filter fun c =>
    (ensureVerdict (faults.ensureOverride c) c bounds now s).reported false

def ensureReported (faults : Faults) (action : BatchAction) (repIds : Option (List Nat))
    (bounds : WeekBounds) (now : Stamp) (s : CloseoutDb) : List Nat :=
  match action with
  | .finalize => salesReported faults repIds bounds now s ++
      overridesReported faults repIds bounds now s
  | .markPaid => []

/-- No rep has sales whose ensured statement fails and overrides whose ensured statement fails. -/
def FailsOneEnsurePass (faults : Faults) (action : BatchAction) (repIds : Option (List Nat))
    (bounds : WeekBounds) (now : Stamp) (s : CloseoutDb) : Prop :=
  action = .finalize → ∀ c ∈ salesReported faults repIds bounds now s,
    c ∉ overridesReported faults repIds bounds now s

/-- The week has pay for the rep that an ensure pass finds, and the recomputation of that pass does
not fail. -/
inductive Ensured (faults : Faults) (bounds : WeekBounds) (now : Stamp) (s : CloseoutDb)
    (c : Nat) : Prop
  | sales (listed : ∃ sale ∈ s.commission.sales, Listed s.commission c bounds sale)
      (works : ensureVerdict (faults.ensure c) c bounds now s = .done)
  | overrides (row : ∃ r ∈ s.commission.overrides, r.beneficiaryRepId = c ∧
        r.earnedWeekStartUtc = bounds.weekStartUtc ∧
        (r.status = .payable ∨ r.status = .held ∧ ¬ HoldDue now r))
      (works : ensureVerdict (faults.ensureOverride c) c bounds now s = .done)

/-- No statement of the rep was locked or unlocked, no row settled, no reserve held. -/
structure Untouched (repId : Nat) (s s' : CloseoutDb) : Prop where
  statements : ∀ t : Statement, t.repId = repId → t.status.locked = true →
    (t ∈ s'.commission.statements ↔ t ∈ s.commission.statements)
  lock : ∀ t ∈ s'.commission.statements, t.repId = repId → t.status.locked = true →
    s'.lock t.id = s.lock t.id
  settled : s'.commission.overrides.filter (fun r => r.beneficiaryRepId = repId ∧ r.status = .settled) =
    s.commission.overrides.filter fun r => r.beneficiaryRepId = repId ∧ r.status = .settled
  reserve : s'.book.entries.filter (·.repId = repId) = s.book.entries.filter (·.repId = repId)

/-- The isolation of the reps in a closeout of the week `bounds` that ends with `results` and the
store `s'`. -/
structure Isolated (faults : Faults) (actorId : Option Nat) (action : BatchAction)
    (repIds : Option (List Nat)) (bounds : WeekBounds) (now : Stamp) (s : CloseoutDb)
    (results : List BatchRepOutcome) (s' : CloseoutDb) : Prop where
  atMostOnce : ∀ c, (results.filter (·.repId = c)).length ≤ 1
  exactlyOnce : ∀ t ∈ weekStatements s'.commission bounds.weekStartUtc, InScope repIds t.repId →
    (results.filter (·.repId = t.repId)).length = 1
  covered : ∀ c, action = .finalize → InScope repIds c →
    closingWeek action bounds s.commission = bounds.weekStartUtc → Ensured faults bounds now s c →
      ∃ t ∈ weekStatements s'.commission bounds.weekStartUtc, t.repId = c
  transitions : ∀ t ∈ weekStatements s'.commission bounds.weekStartUtc, InScope repIds t.repId →
    t.repId ∉ ensureReported faults action repIds bounds now s →
    ClosesAlone faults actorId action bounds now s t.repId →
      ∃ o ∈ results, o.repId = t.repId ∧ o.outcome = .ok ∧ o.statementId = some t.id ∧
        t.status = action.status
  untouched : ∀ o ∈ results, o.outcome = .failed ∨ o.outcome = .blocked →
    Untouched o.repId s s'

section Settled

variable {touched : Prop} {now : Stamp} {repId : Nat} {s s' : CloseoutDb}

theorem settled_rowReleased {db : Db} {r r' : OverrideRow} (h : RowReleased now db r r') :
    (r'.status = .settled ↔ r.status = .settled) ∧ (r.status = .settled → r' = r) := by
  rcases h with rfl | ⟨hdue, rfl⟩
  · exact ⟨Iff.rfl, fun _ => rfl⟩
  · have hheld : r.status ≠ .settled := by
      rw [hdue.1]
      decide
    have hst : (releaseRow db now r).status ≠ .settled := by
      rcases (releaseRow_status db hdue).1 with hst | hst <;> rw [hst] <;> decide
    exact ⟨⟨fun h => absurd h hst, fun h => absurd h hheld⟩, fun h => absurd h hheld⟩

theorem Undisturbed.untouched (h : Undisturbed touched now repId s s') : Untouched repId s s' where
  statements := h.commission.locked
  lock := h.lock
  reserve := h.entries
  settled := by
    obtain ⟨f, hf, hrow⟩ := h.commission.rows
    rw [hf]
    generalize s.commission.overrides = rows
    induction rows with
    | nil => rfl
    | cons r rows ih =>
      rw [map_cons, filter_cons, filter_cons, ih, (hrow r).1]
      by_cases hr : r.beneficiaryRepId = repId
      · obtain ⟨hst, hsame⟩ := settled_rowReleased ((hrow r).2 hr)
        by_cases hsettled : r.status = .settled
        · rw [hsame hsettled]
        · rw [if_neg (by simp [hst, hsettled]), if_neg (by simp [hsettled])]
      · rw [if_neg (by simp [hr]), if_neg (by simp [hr])]

end Settled

section Passes

variable {faults : Faults} {action : BatchAction} {repIds : Option (List Nat)} {bounds : WeekBounds}
  {now : Stamp} {s : CloseoutDb}

theorem nodup_salesReps (repIds : Option (List Nat)) (bounds : WeekBounds) (db : Db) :
    (salesReps repIds bounds db).Nodup := by
  have hkeys : ((salesByRep db bounds).map (·.1)).Nodup := by
    have hall : ((((db.sales.filter fun sale => CandidateIn bounds sale).map (·.repId)).dedup.map
        fun repId => (repId, (db.sales.filter fun sale => Listed db repId bounds sale).length)).map
          (·.1)).Nodup := by
      rw [map_map]
      exact (nodup_dedup _).map fun _ _ h => h
    exact hall.sublist (filter_sublist.map _)
  exact hkeys.sublist (filter_sublist.map _)

theorem nodup_overrideReps (faults : Faults) (repIds : Option (List Nat)) (bounds : WeekBounds)
    (now : Stamp) (db : Db) : (overrideReps faults repIds bounds now db).Nodup :=
  (nodup_dedup _).filter _

theorem nodup_ensureReported_iff : (ensureReported faults action repIds bounds now s).Nodup ↔
      FailsOneEnsurePass faults action repIds bounds now s := by
  unfold ensureReported FailsOneEnsurePass
  cases action with
  | markPaid => simp
  | finalize =>
    have hsales : (salesReported faults repIds bounds now s).Nodup :=
      (nodup_salesReps repIds bounds s.commission).filter _
    have hoverrides : (overridesReported faults repIds bounds now s).Nodup :=
      (nodup_overrideReps faults repIds bounds now s.commission).filter _
    simp only [nodup_append, hsales, hoverrides, true_and, forall_const]
    exact forall₂_congr fun c _ => ⟨fun h hmem => h c hmem rfl, fun h b hb heq => h (heq ▸ hb)⟩

theorem holds_getD {column : Option Stamp} {soldAt : Stamp}
    (h : bounds.Holds (column.getD soldAt).text) :
    bounds.Holds soldAt.text ∨ ∃ ts ∈ column, bounds.Holds ts.text := by
  cases column with
  | none => exact .inl h
  | some ts => exact .inr ⟨ts, rfl, h⟩

theorem candidateIn_of_listed {db : Db} {c : Nat} {sale : Sale} (h : Listed db c bounds sale) :
    CandidateIn bounds sale := by
  obtain ⟨_, hst, hholds⟩ := h
  refine ⟨hst, ?_⟩
  unfold Sale.basisTsForSale Sale.basisTsExpr Sale.basisColumn at hholds
  cases hbasis : sale.basisOr (fallbackBasisForRepWeek db c bounds) with
  | soldAt =>
    rw [hbasis] at hholds
    exact .inl hholds
  | qualifiedAt =>
    rw [hbasis] at hholds
    exact (holds_getD hholds).imp_right .inl
  | installedAt =>
    rw [hbasis] at hholds
    exact (holds_getD hholds).imp_right fun h => .inr (.inl h)
  | activatedAt =>
    rw [hbasis] at hholds
    exact (holds_getD hholds).imp_right fun h => .inr (.inr h)

theorem mem_salesReps {c : Nat} {db : Db} (hscope : InScope repIds c)
    (h : ∃ sale ∈ db.sales, Listed db c bounds sale) : c ∈ salesReps repIds bounds db := by
  obtain ⟨sale, hsale, hlisted⟩ := h
  have hcandidate : c ∈ ((db.sales.filter fun sale => CandidateIn bounds sale).map (·.repId)).dedup :=
    mem_dedup.mpr (mem_map.mpr
      ⟨sale, mem_filter.mpr ⟨hsale, by simpa using candidateIn_of_listed hlisted⟩, hlisted.1⟩)
  have hcount : 0 < (db.sales.filter fun sale => Listed db c bounds sale).length :=
    length_pos_of_mem (mem_filter.mpr ⟨hsale, by simpa using hlisted⟩)
  refine mem_map.mpr ⟨(c, _), mem_filter.mpr ⟨mem_filter.mpr ⟨mem_map.mpr
    ⟨c, hcandidate, rfl⟩, by simpa using hcount⟩, by simpa using hscope⟩, rfl⟩

theorem noPlanOutcome_spec (rep : Nat × Nat) :
    ∀ o ∈ some (noPlanOutcome rep.1 rep.2), o.repId = rep.1 ∧ o.outcome = .blocked := by
  rintro o ⟨⟩
  exact ⟨rfl, rfl⟩

theorem silent_spec (c : Nat) :
    ∀ o ∈ (none : Option BatchRepOutcome), o.repId = c ∧ o.outcome = .blocked := by
  rintro o ⟨⟩

theorem ensureSales_effect (faults : Faults) (repIds : Option (List Nat)) (bounds : WeekBounds)
    (now : Stamp) (hwf : Wf s.commission) :
    PassEffect now (salesReported faults repIds bounds now s) ⟨s, [], []⟩
      (ensureSales faults repIds bounds now ⟨s, [], []⟩) := by
  have hpass := ensurePass_effect (b := ⟨s, [], []⟩) bounds now faults.ensure noPlanOutcome_spec
    (fun _ => rfl) ((salesByRep s.commission bounds).filter fun rep => InScope repIds rep.1) hwf
  exact hpass

theorem ensureSales_overrides (faults : Faults) (repIds : Option (List Nat)) (bounds : WeekBounds)
    (now : Stamp) (hwf : Wf s.commission) :
    (ensureSales faults repIds bounds now ⟨s, [], []⟩).store.commission.overrides =
      holdsAfter faults.ensure (salesReps repIds bounds s.commission) bounds now s.commission :=
  ensurePass_overrides (b := ⟨s, [], []⟩) bounds now faults.ensure noPlanOutcome_spec
    (fun _ => rfl) ((salesByRep s.commission bounds).filter fun rep => InScope repIds rep.1) hwf

theorem ensureOverrides_effect (faults : Faults) (repIds : Option (List Nat)) (bounds : WeekBounds)
    (now : Stamp) (hwf : Wf s.commission) :
    PassEffect now (overridesReported faults repIds bounds now s)
      (ensureSales faults repIds bounds now ⟨s, [], []⟩)
      (ensureOverrides faults repIds bounds now
        (ensureSales faults repIds bounds now ⟨s, [], []⟩)) := by
  have hsales := ensureSales_effect faults repIds bounds now hwf
  have hpass := ensurePass_effect bounds now faults.ensureOverride silent_spec (fun _ => rfl)
    (overrideReps faults repIds bounds now s.commission) hsales.wf
  have hverdict : ∀ c, ensureVerdict (faults.ensureOverride c) c bounds now
      (ensureSales faults repIds bounds now ⟨s, [], []⟩).store =
      ensureVerdict (faults.ensureOverride c) c bounds now s := fun c =>
    (hsales.view c).commission.verdict_recompute hwf hsales.wf (faults.ensureOverride c) _
  simp only [hverdict, map_id'] at hpass
  unfold ensureOverrides
  rw [ensureSales_overrides faults repIds bounds now hwf]
  exact hpass

theorem ensurePasses_effect (faults : Faults) (action : BatchAction) (repIds : Option (List Nat))
    (bounds : WeekBounds) (now : Stamp) (hwf : Wf s.commission) :
    PassEffect now (ensureReported faults action repIds bounds now s) ⟨s, [], []⟩
      (ensurePasses faults action repIds bounds now s) := by
  cases action with
  | finalize =>
    exact (ensureSales_effect faults repIds bounds now hwf).trans hwf
      (ensureOverrides_effect faults repIds bounds now hwf)
  | markPaid => exact PassEffect.refl hwf

end Passes

section Closeout

variable {faults : Faults} {actorId : Option Nat} {action : BatchAction}
  {repIds : Option (List Nat)} {bounds : WeekBounds} {now : Stamp} {s : CloseoutDb}

theorem length_filter_rep (results : List BatchRepOutcome) (c : Nat) :
    (results.filter (·.repId = c)).length = (results.map (·.repId)).count c := by
  rw [List.count, countP_map, countP_eq_length_filter]
  congr 1

def loopStatements (repIds : Option (List Nat)) (bounds : WeekBounds) (db : Db) : List Statement :=
  (weekStatements db bounds.weekStartUtc).filter fun stmt => InScope repIds stmt.repId

theorem mem_loopStatements {db : Db} {stmt : Statement} : stmt ∈ loopStatements repIds bounds db ↔
      stmt ∈ weekStatements db bounds.weekStartUtc ∧ InScope repIds stmt.repId := by
  unfold loopStatements
  rw [mem_filter, decide_eq_true_iff]

theorem mem_weekStatements {db : Db} {week : Stamp} {stmt : Statement} :
    stmt ∈ weekStatements db week ↔ stmt ∈ db.statements ∧ stmt.weekStartUtc = week := by
  unfold weekStatements
  rw [mem_filter, decide_eq_true_iff]

theorem nodup_loopStatements (hwf : Wf s.commission) :
    ((loopStatements repIds bounds s.commission).map (·.repId)).Nodup := by
  have hnd : (loopStatements repIds bounds s.commission).Nodup :=
    ((hwf.weeks.of_map _).filter _).filter _
  refine (nodup_map_iff_inj_on hnd).mpr fun t ht u hu hrep => ?_
  obtain ⟨ht, htweek⟩ := mem_weekStatements.mp (mem_loopStatements.mp ht).1
  obtain ⟨hu, huweek⟩ := mem_weekStatements.mp (mem_loopStatements.mp hu).1
  exact inj_on_of_nodup_map hwf.weeks ht hu (Prod.ext hrep (htweek.trans huweek.symm))

/-- The week of every rep that an ensure pass serves has a statement when the lock loop begins. -/
theorem Ensured.statement {c : Nat} (h : Ensured faults bounds now s c) (hwf : Wf s.commission)
    (hscope : InScope repIds c) :
    ∃ t ∈ (ensurePasses faults .finalize repIds bounds now s).store.commission.statements,
      t.key = (c, (s.commission.weekOf bounds.weekStartUtc.ms).weekStartUtc) := by
  have hsales := ensureSales_effect faults repIds bounds now hwf
  have hoverrides := ensureOverrides_effect faults repIds bounds now hwf
  cases h with
  | sales listed works =>
    obtain ⟨t, ht, hkey⟩ := ensurePass_covers (b := ⟨s, [], []⟩) bounds now faults.ensure
      noPlanOutcome_spec (fun _ => rfl)
      ((salesByRep s.commission bounds).filter fun rep => InScope repIds rep.1) hwf
      (mem_salesReps hscope listed) works
    obtain ⟨t', ht', _, hkey'⟩ := (hoverrides.view c).commission.kept _ _ ⟨t, ht, rfl, hkey⟩
    exact ⟨t', ht', hkey'⟩
  | overrides row works =>
    obtain ⟨r, hr, hrep, hweek, hst⟩ := row
    have hview := (hsales.view c).commission
    obtain ⟨f, hf, hrow⟩ := hview.rows
    have hsame : f r = r := by
      rcases (hrow r).2 hrep with hsame | ⟨hdue, _⟩
      · exact hsame
      · rcases hst with hst | ⟨_, hst⟩
        · exact absurd (hdue.1.symm.trans hst) (by decide)
        · exact absurd hdue hst
    have hkept : r ∈ holdsAfter faults.ensure (salesReps repIds bounds s.commission) bounds now
        s.commission := by
      rw [← ensureSales_overrides faults repIds bounds now hwf, hf]
      exact mem_map.mpr ⟨r, hr, hsame⟩
    have hvisited : c ∈ overrideReps faults repIds bounds now s.commission := by
      refine mem_filter.mpr ⟨mem_dedup.mpr (mem_map.mpr
        ⟨r, mem_filter.mpr ⟨hkept, ?_⟩, hrep⟩), by simpa using hscope⟩
      simpa using ⟨hweek, hst.imp_right And.left⟩
    have hdone := (hview.verdict_recompute hwf hsales.wf (faults.ensureOverride c)
      bounds.weekStartUtc.ms).trans works
    have hcovers := ensurePass_covers bounds now faults.ensureOverride silent_spec (fun _ => rfl)
      (overrideReps faults repIds bounds now s.commission) hsales.wf
      (by rw [map_id']; exact hvisited) hdone
    unfold overrideReps at hcovers
    rw [← ensureSales_overrides faults repIds bounds now hwf, hview.weekOf] at hcovers
    exact hcovers

/-- A closeout as its two parts report it: the ensure passes on the reps that fail, the lock loop
on the other reps that have a statement. -/
structure CloseoutEffect (actorId : Option Nat) (faults : Faults) (action : BatchAction)
    (repIds : Option (List Nat)) (bounds : WeekBounds) (now : Stamp) (s : CloseoutDb)
    (ensured closed : BatchState) (reported new : List BatchRepOutcome) : Prop where
  pass : PassEffect now (ensureReported faults action repIds bounds now s) ⟨s, [], []⟩ ensured
  loop : LoopEffect now (closingWeek action bounds s.commission) action.status new ensured closed
  results : closed.results = reported ++ new
  early : reported.map (·.repId) = ensureReported faults action repIds bounds now s
  late : new.map (·.repId) =
    ((loopStatements repIds bounds ensured.store.commission).map (·.repId)).filter
      (· ∉ ensureReported faults action repIds bounds now s)
  progress : ∀ stmt ∈ loopStatements repIds bounds ensured.store.commission,
    stmt.repId ∉ ensureReported faults action repIds bounds now s →
    ClosesAlone faults actorId action bounds now s stmt.repId →
      ∃ o ∈ new, o.repId = stmt.repId ∧ o.outcome = .ok

theorem closeout_effect (faults : Faults) (actorId : Option Nat) (action : BatchAction)
    (repIds : Option (List Nat)) (bounds : WeekBounds) (now : Stamp) (hwf : Wf s.commission) :
    ∃ reported new, CloseoutEffect actorId faults action repIds bounds now s
      (ensurePasses faults action repIds bounds now s)
      (lockLoop faults actorId action repIds bounds now
        (ensurePasses faults action repIds bounds now s)) reported new := by
  have hpass := ensurePasses_effect faults action repIds bounds now hwf
  obtain ⟨reported, hresults, hearly, _⟩ := hpass.results
  obtain ⟨new, hloop, hlate, hprogress⟩ := lockLoop_effect faults actorId action bounds now hpass.wf
    (@nodup_loopStatements repIds bounds _ hpass.wf)
    fun stmt hstmt => (mem_loopStatements.mp hstmt).1
  have hblocked : ∀ c, c ∈ (ensurePasses faults action repIds bounds now s).blocked ↔
      c ∈ ensureReported faults action repIds bounds now s := by
    intro c
    rw [hpass.blocked]
    simp
  have hclosing : closingWeek action bounds
      (ensurePasses faults action repIds bounds now s).store.commission =
      closingWeek action bounds s.commission := by
    unfold closingWeek Db.weekOf
    rw [(hpass.view 0).commission.org]
  rw [hclosing] at hloop
  simp only [hblocked] at hlate hprogress
  refine ⟨reported, new, hpass, hloop, ?_, hearly, hlate, ?_⟩
  · rw [nil_append] at hresults
    rw [← hresults]
    exact hloop.results
  · intro stmt hstmt hfree halone
    refine hprogress stmt hstmt hfree fun u hwf' hview => ?_
    exact halone.repWork_ok hwf hpass.wf hwf' (hpass.view stmt.repId) hview
      (mem_loopStatements.mp hstmt).1 rfl

section Effect

variable {ensured closed : BatchState} {reported new : List BatchRepOutcome}

/-- A rep is reported as often as the ensure passes report them, and once more by the loop if they
do not. -/
theorem CloseoutEffect.count (h : CloseoutEffect actorId faults action repIds bounds now s ensured
    closed reported new) (c : Nat) :
    (closed.results.filter (·.repId = c)).length =
      (ensureReported faults action repIds bounds now s).count c +
        if c ∉ ensureReported faults action repIds bounds now s ∧
            c ∈ (loopStatements repIds bounds ensured.store.commission).map (·.repId) then 1
        else 0 := by
  rw [length_filter_rep, h.results, map_append, count_append, h.early, h.late]
  congr 1
  have hnd := (@nodup_loopStatements repIds bounds _ h.pass.wf).filter
    (· ∉ ensureReported faults action repIds bounds now s)
  split
  · rename_i hc
    exact count_eq_one_of_mem hnd (mem_filter.mpr ⟨hc.2, by simpa using hc.1⟩)
  · rename_i hc
    refine count_eq_zero_of_not_mem fun hmem => hc ?_
    obtain ⟨hmem, hfree⟩ := mem_filter.mp hmem
    exact ⟨by simpa using hfree, hmem⟩

section

variable (h : CloseoutEffect actorId faults action repIds bounds now s ensured closed reported new)
include h

theorem CloseoutEffect.eq_of_rep {o o' : BatchRepOutcome} (ho : o ∈ new) (ho' : o' ∈ new)
    (hrep : o'.repId = o.repId) : o' = o := by
  have hnd : (new.map (·.repId)).Nodup := by
    rw [h.late]
    exact (nodup_loopStatements h.pass.wf).filter _
  exact inj_on_of_nodup_map hnd ho' ho hrep

theorem CloseoutEffect.untouched (hwf : Wf s.commission) {o : BatchRepOutcome}
    (ho : o ∈ closed.results) (hout : o.outcome ≠ .ok) : Untouched o.repId s closed.store := by
  have hloop : Undisturbed False now o.repId ensured.store closed.store := by
    refine h.loop.view o.repId fun o' ho' hrep => ?_
    rw [h.results] at ho
    rcases mem_append.mp ho with ho | ho
    · have hearly : o.repId ∈ ensureReported faults action repIds bounds now s :=
        h.early ▸ mem_map_of_mem ho
      have hlate := mem_map_of_mem (f := (·.repId)) ho'
      rw [h.late, mem_filter, hrep] at hlate
      exact absurd hearly (by simpa using hlate.2)
    · rw [h.eq_of_rep ho ho' hrep]
      exact hout
  exact ((h.pass.view o.repId).trans (hloop.weaken fun _ => trivial) hwf h.pass.wf).untouched

theorem CloseoutEffect.mem_loop {t : Statement}
    (ht : t ∈ weekStatements closed.store.commission bounds.weekStartUtc)
    (hscope : InScope repIds t.repId) :
    ∃ stmt ∈ loopStatements repIds bounds ensured.store.commission, stmt.repId = t.repId := by
  obtain ⟨hmem, hweek⟩ := mem_weekStatements.mp ht
  by_contra hnone
  have hquiet : ∀ o ∈ new, o.repId = t.repId → o.outcome ≠ .ok := by
    intro o ho hrep _
    have hlate := mem_map_of_mem (f := (·.repId)) ho
    rw [h.late, mem_filter, hrep] at hlate
    obtain ⟨stmt, hstmt, hstmtrep⟩ := mem_map.mp hlate.1
    exact hnone ⟨stmt, hstmt, hstmtrep⟩
  rcases (h.loop.view t.repId hquiet).commission.ends t hmem rfl with ⟨t₀, ht₀, hkey, _⟩ | ⟨hf, _⟩
  · have hrep : t₀.repId = t.repId := congrArg Prod.fst hkey
    have hweek₀ : t₀.weekStartUtc = bounds.weekStartUtc := (congrArg Prod.snd hkey).trans hweek
    exact hnone ⟨t₀, mem_loopStatements.mpr
      ⟨mem_weekStatements.mpr ⟨ht₀, hweek₀⟩, hrep ▸ hscope⟩, hrep⟩
  · exact hf

theorem CloseoutEffect.kept {t : Statement} (ht : t ∈ ensured.store.commission.statements)
    (hclosing : closingWeek action bounds s.commission = t.weekStartUtc) :
    ∃ t' ∈ closed.store.commission.statements, t'.key = t.key := by
  by_cases hok : ∃ o ∈ new, o.repId = t.repId ∧ o.outcome = .ok
  · obtain ⟨o, ho, hrep, hout⟩ := hok
    obtain ⟨t', _, hfound, hkey, _⟩ := h.loop.closed o ho hout
    refine ⟨t', (mem_of_statementById hfound).1, hkey.trans ?_⟩
    rw [hrep, hclosing]
    rfl
  · have hview := h.loop.view t.repId fun o ho hrep hout => hok ⟨o, ho, hrep, hout⟩
    obtain ⟨t', ht', _, hkey⟩ := hview.commission.kept t.id t.weekStartUtc ⟨t, ht, rfl, rfl⟩
    exact ⟨t', ht', hkey⟩

theorem CloseoutEffect.isolated (hwf : Wf s.commission)
    (hensured : ensured = ensurePasses faults action repIds bounds now s)
    (hone : FailsOneEnsurePass faults action repIds bounds now s) :
    Isolated faults actorId action repIds bounds now s closed.results closed.store where
  atMostOnce := by
    intro c
    have hnd := nodup_iff_count_le_one.mp (nodup_ensureReported_iff.mpr hone) c
    rw [h.count]
    split
    · rename_i hc
      rw [count_eq_zero_of_not_mem hc.1]
    · exact hnd
  exactlyOnce := by
    intro t ht hscope
    obtain ⟨stmt, hstmt, hrep⟩ := h.mem_loop ht hscope
    rw [h.count]
    by_cases hearly : t.repId ∈ ensureReported faults action repIds bounds now s
    · rw [if_neg fun hc => hc.1 hearly,
        count_eq_one_of_mem (nodup_ensureReported_iff.mpr hone) hearly]
    · rw [if_pos ⟨hearly, mem_map.mpr ⟨stmt, hstmt, hrep⟩⟩,
        count_eq_zero_of_not_mem hearly]
  covered := by
    rintro c rfl hscope hclosing hworks
    obtain ⟨t, ht, hkey⟩ := hworks.statement hwf hscope
    rw [← hensured] at ht
    have hweek : t.weekStartUtc = bounds.weekStartUtc := (congrArg Prod.snd hkey).trans hclosing
    obtain ⟨t', ht', hkey'⟩ := h.kept ht (hclosing.trans hweek.symm)
    refine ⟨t', mem_weekStatements.mpr ⟨ht', ?_⟩, ?_⟩
    · exact (congrArg Prod.snd hkey').trans hweek
    · exact (congrArg Prod.fst hkey').trans (congrArg Prod.fst hkey)
  transitions := by
    intro t ht hscope hfree halone
    obtain ⟨stmt, hstmt, hrep⟩ := h.mem_loop ht hscope
    obtain ⟨hmem, hweek⟩ := mem_weekStatements.mp ht
    obtain ⟨o, ho, horep, hout⟩ := h.progress stmt hstmt (hrep ▸ hfree) (hrep ▸ halone)
    obtain ⟨t', hid, hfound, hkey, hst⟩ := h.loop.closed o ho hout
    have hsame : t'.key = t.key := by
      rw [hkey, horep, hrep, halone.1, ← hweek]
      rfl
    obtain rfl := inj_on_of_nodup_map h.loop.wf.weeks (mem_of_statementById hfound).1 hmem hsame
    refine ⟨o, ?_, horep.trans hrep, hout, hid, hst⟩
    rw [h.results]
    exact mem_append_right _ ho
  untouched := by
    intro o ho hout
    refine h.untouched hwf ho ?_
    rcases hout with hout | hout <;> rw [hout] <;> decide

end

end Effect

/-- The reps of a closeout are isolated exactly when no rep fails both ensure passes. -/
theorem closeoutIsolation_iff (faults : Faults) (actorId : Option Nat) (weekReference : Int)
    (action : BatchAction) (repIds : Option (List Nat)) (now : Stamp) {s : CloseoutDb}
    (hwf : Wf s.commission) :
    let closeout := batchTransitionWeek faults actorId weekReference action repIds now s
    Isolated faults actorId action repIds closeout.1.bounds now s closeout.1.results closeout.2 ↔
      FailsOneEnsurePass faults action repIds closeout.1.bounds now s := by
  obtain ⟨reported, new, heffect⟩ := closeout_effect faults actorId action repIds
    (s.commission.weekOf weekReference) now hwf
  constructor
  · intro h
    refine nodup_ensureReported_iff.mp (nodup_iff_count_le_one.mpr fun c => ?_)
    have hcount := h.atMostOnce c
    have hsplit := heffect.count c
    unfold batchTransitionWeek at hcount
    dsimp only at hcount
    rw [hsplit] at hcount
    exact le_trans (Nat.le_add_right _ _) hcount
  · intro hone
    exact heffect.isolated hwf rfl hone

end Closeout

section Sample

/-- Reps 1 and 2 have sold, and rep 2 has an override on the sale of rep 1. -/
def bothSell : CloseoutDb :=
  .of (run step (Db.empty flatPlanOrg)
    [⟨sampleNow, .upsertSale (sampleSale "A-1")⟩,
      ⟨sampleNow, .upsertSale { sampleSale "B-1" with repId := 2 }⟩])

def noFaults : Faults where
  ensure _ := none
  ensureOverride _ := none
  hourly _ := none
  lock _ := none

/-- The first write of every recomputation of rep 2 in the ensure passes throws. -/
def repTwoFails : Faults :=
  { noFaults with
    ensure := fun c => if c = 2 then some (.releasing 0 (.other "database is locked")) else none
    ensureOverride := fun c =>
      if c = 2 then some (.releasing 0 (.other "database is locked")) else none }

theorem wf_bothSell : Wf bothSell.commission := by
  unfold bothSell CloseoutDb.of
  dsimp only
  exact wf_run flatPlanOrg _

/-- A fault in the lock of one rep leaves both isolated. -/
theorem closeoutIsolation_lockFault :
    let faults := { noFaults with lock := fun c => if c = 1 then some (.other "disk full") else none }
    let closeout := batchTransitionWeek faults (some 9) sampleNow .finalize none
      (Stamp.ofMs sampleNow) bothSell
    Isolated faults (some 9) .finalize none closeout.1.bounds (Stamp.ofMs sampleNow) bothSell
      closeout.1.results closeout.2 := by
  apply (closeoutIsolation_iff _ (some 9) sampleNow .finalize none (Stamp.ofMs sampleNow)
    wf_bothSell).mpr
  unfold FailsOneEnsurePass
  decide +kernel

/-- Rep 2 is reported as failed by both ensure passes. -/
theorem not_closeoutIsolation_repTwoFails :
    let closeout := batchTransitionWeek repTwoFails (some 9) sampleNow .finalize none
      (Stamp.ofMs sampleNow) bothSell
    ¬ Isolated repTwoFails (some 9) .finalize none closeout.1.bounds (Stamp.ofMs sampleNow) bothSell
      closeout.1.results closeout.2 := by
  intro closeout h
  have hcount := h.atMostOnce 2
  revert hcount
  decide +kernel

end Sample

end HomefrontFiber.Closeout
