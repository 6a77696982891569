import HomefrontFiber.Commission.SettledStatements

/-!
# The pay week of a counted sale

FINALIZE freezes a count of sales. `PayBook` notes which sales that count stands for, until the
statement is reopened. While a sale stays QUALIFIED nothing moves it to another rep or another week,
so no second locked statement counts it.
-/

namespace HomefrontFiber.Commission

open List Option

variable {e : Event} {org : Org} {repId : Nat}

section Statements

variable {db : Db} {I : Db → Prop} {now : Stamp}

/-- An update that leaves the identity and the week of a statement. -/
def KeepsWeek (f : Statement → Statement) : Prop :=
  ∀ s, (f s).id = s.id ∧ (f s).key = s.key ∧ (f s).nextWeekStartUtc = s.nextWeekStartUtc

/-- A property of the organisation and of the weeks of its statements. -/
structure StatementFrame (I : Db → Prop) : Prop where
  same : ∀ {db db'}, I db → db'.org = db.org → db'.statements = db.statements → I db'
  update : ∀ {db} id f, KeepsWeek f → I db → I (db.updateStatement id f)
  append : ∀ {db} repId ms p now, I db → I
    { db with
      statements := db.statements ++
        [newStatement (db.statements.length + 1) repId (db.weekOf ms) p now] }

namespace StatementFrame

theorem calculate (h : StatementFrame I) (repId : Nat) (ms : Int) :
    Service.Keeps I (calculateOrRecalculateStatement repId ms now) := by
  have hpromote : ∀ db, I db → I (promoteReleasedHolds now db) := fun _ hdb => h.same hdb rfl rfl
  apply calculateOrRecalculateStatement_keeps hpromote
  intro db p hdb _ _
  unfold repriced storePricing
  dsimp only
  split
  · split
    · exact hpromote db hdb
    · exact h.update _ _ (fun _ => ⟨rfl, rfl, rfl⟩) (hpromote db hdb)
  · exact h.append repId ms p now (hpromote db hdb)

theorem applyAdjustments (h : StatementFrame I) (id : Nat) :
    Service.Keeps I (applyApprovedAdjustments id now) := by
  apply applyApprovedAdjustments_keeps
  intro db stmt hdb _
  exact h.update _ _ (fun _ => ⟨rfl, rfl, rfl⟩) hdb

theorem setStatus (h : StatementFrame I) (id : Nat) (status : StatementStatus) (hI : I db) :
    I (setStatementStatus id status now db) :=
  h.update id _ (fun _ => ⟨rfl, rfl, rfl⟩) hI

theorem transition (h : StatementFrame I) (id : Nat) (action : StatementAction) :
    Service.Keeps I (transitionStatement id action now) := by
  apply transitionStatement_keeps h.calculate
  · intro db stmt hI
    have hsettled : I (markWeekSettled stmt.repId stmt.weekStartUtc stmt.id now db) :=
      h.same hI rfl rfl
    exact h.setStatus _ _ hsettled
  · intro db stmt hI _ _
    have hreopened : I (markStatementReopened stmt.id now db) := h.same hI rfl rfl
    exact h.setStatus _ _ hreopened
  · intro db id hI
    exact h.setStatus id _ hI

theorem kept (h : StatementFrame I) : KeptByWrites I now where
  calculate repId ms := (wf_calculate repId ms).and (h.calculate repId ms)
  apply id := (wf_applyApprovedAdjustments id).and (h.applyAdjustments id)
  promote _ hI := h.same hI rfl rfl
  create _ _ hI := h.same hI rfl rfl
  resolve _ _ hI _ := h.same hI rfl rfl
  commissions _ hI := h.same hI rfl rfl

theorem step (h : StatementFrame I) (hwf : Wf db) {e : Event}
    (horg : ∀ org, e.action ≠ .editOrg org) (hI : I db) : I (step db e) := by
  unfold Commission.step
  by_cases hx : e.action.saleExternalId.isSome
  · refine perform_sale hwf hI hx (fun sale db' _ hs => ?_) h.calculate
    obtain ⟨rows, hrows⟩ := syncOverridesForSale_tables hs.wf sale.id (saleWeek db' sale)
      (Stamp.ofMs e.now)
    have hstored : I db' := h.same hI (by rw [hs.tables]) (by rw [hs.tables])
    rw [hrows]
    exact h.same hstored rfl rfl
  · have hsame := fun {db} (id : Nat) status (hI : I db) =>
      (h.same hI rfl rfl : I (setAdjustmentStatus id status db))
    refine (h.kept.perform ⟨hwf, hI⟩ hx (fun id decision _ => ?_) (fun id action _ => ?_)
      fun org ha => absurd ha (horg org)).2
    · exact (h.kept.decide hsame id decision).store ⟨hwf, hI⟩
    · exact ((wf_transitionStatement id action).and (h.transition id action)).store ⟨hwf, hI⟩

end StatementFrame

theorem hasStatement_frame (id : Nat) (key : Nat × Stamp) : StatementFrame (HasStatement id key) where
  same := by
    intro db db' h _ hs
    unfold HasStatement
    rw [hs]
    exact h
  update _ _ hf h := hasStatement_updateStatement (fun s => (hf s).1) (fun s => (hf s).2.1) h
  append := by
    rintro db repId ms p now ⟨s, hs, h⟩
    exact ⟨s, mem_append_left _ hs, h⟩

theorem step_editOrg (he : e.action = .editOrg org) : step db e = { db with org := org } := by
  unfold step
  rw [he]
  rfl

theorem step_hasStatement (hwf : Wf db) (e : Event) {id : Nat} {key : Nat × Stamp}
    (h : HasStatement id key db) : HasStatement id key (step db e) := by
  by_cases horg : ∃ org, e.action = .editOrg org
  · obtain ⟨org, he⟩ := horg
    rw [step_editOrg he]
    exact h
  · exact (hasStatement_frame id key).step hwf (fun org he => horg ⟨org, he⟩) h

structure WeeksOf (cfg : WorkweekConfig) (db : Db) : Prop where
  config : db.org.config.toWorkweekConfig = cfg
  policy : db.org.payPolicy.requireInstallConfirm = false
  weeks : ∀ s ∈ db.statements, ∃ t, (weekBoundsFor t cfg).weekStartUtc = s.weekStartUtc ∧
    (weekBoundsFor t cfg).nextWeekStartUtc = s.nextWeekStartUtc

theorem weeksOf_frame (cfg : WorkweekConfig) : StatementFrame (WeeksOf cfg) where
  same := by
    rintro db db' ⟨hc, hp, hw⟩ ho hs
    exact ⟨by rw [ho, hc], by rw [ho, hp], by rw [hs]; exact hw⟩
  update := by
    rintro db id f hf ⟨hc, hp, hw⟩
    refine ⟨hc, hp, fun s hs => ?_⟩
    obtain ⟨s', hs', rfl⟩ := mem_map.mp hs
    obtain ⟨t, ht⟩ := hw s' hs'
    refine ⟨t, ?_⟩
    split
    · obtain ⟨_, hkey, hnext⟩ := hf s'
      rw [hnext, show (f s').weekStartUtc = s'.weekStartUtc from congrArg Prod.snd hkey]
      exact ht
    · exact ht
  append := by
    rintro db repId ms p now ⟨hc, hp, hw⟩
    refine ⟨hc, hp, fun s hs => ?_⟩
    rcases mem_append.mp hs with hs | hs
    · exact hw s hs
    · obtain rfl := mem_singleton.mp hs
      refine ⟨ms, ?_⟩
      rw [← hc]
      exact ⟨rfl, rfl⟩

end Statements

section Sales

variable {db : Db} {now : Stamp} {sale old : Sale} {cfg : WorkweekConfig}

/-- The sale is QUALIFIED, of this rep, and its basis timestamp lies in this week. -/
def Sale.PlacedAt (cfg : WorkweekConfig) (s : Sale) (repId : Nat) (week : Stamp) : Prop :=
  s.status = .qualified ∧ s.repId = repId ∧ ∃ basis ts, s.qualificationBasis = some basis ∧
    s.basisColumn basis = some ts ∧ (weekBoundsFor ts.ms cfg).weekStartUtc = week

variable {action : Action} {input : SaleInput} {externalId : String} {at_ : Option RawStamp}
  {week : Stamp}

theorem saleWritten_cases (h : saleWritten db now action = some sale) :
    (∃ input, upsertWritten db now input = some sale) ∨
      ∃ externalId action at_, transitionWritten db now externalId action at_ = some sale := by
  cases action with
  | upsertSale input => exact .inl ⟨input, h⟩
  | transitionSale externalId action at_ => exact .inr ⟨externalId, action, at_, h⟩
  | recordFieldSaleFromKnock input =>
    unfold saleWritten at h
    dsimp only at h
    split at h
    · simp at h
    · exact .inl ⟨_, h⟩
  | reverseFieldSale leadId =>
    unfold saleWritten at h
    dsimp only at h
    split at h
    · simp at h
    · exact .inr ⟨_, _, _, h⟩
  | _ => simp [saleWritten] at h

theorem saleVerdict_ok {w : SaleWrite} (h : saleVerdict input db = .ok w) :
    saleWrite db input = some w ∧
      creditVerdict db input (db.saleByExternalId input.externalId) w.basis w.incoming = .ok () ∧
      (input.statusOrPending = .qualified →
        assertWeekOpenForQualify db input.repId w.incoming = .ok ()) := by
  unfold saleVerdict at h
  split at h
  · simp at h
  · simp at h
  · rename_i w' _ hwrite
    split at h
    · simp at h
    · split at h
      · simp at h
      · rename_i hcredit
        split at h
        · rename_i hq
          cases hopen : assertWeekOpenForQualify db input.repId w'.incoming with
          | error e => simp [hopen, Except.map] at h
          | ok u =>
            simp only [hopen, Except.map, Except.ok.injEq] at h
            subst h
            exact ⟨hwrite, hcredit, fun _ => hopen⟩
        · rename_i hq
          rw [Except.ok.injEq] at h
          subst h
          exact ⟨hwrite, hcredit, fun hq' => absurd hq' hq⟩

theorem upsertWritten_eq (h : upsertWritten db now input = some sale) :
    ∃ w, saleVerdict input db = .ok w ∧
      ((∃ s, db.saleByExternalId input.externalId = some s ∧ sale = s.overwritten input w now) ∨
        sale = newSale (db.sales.length + 1) input w now) := by
  unfold upsertWritten at h
  cases hv : saleVerdict input db with
  | error e => simp [hv] at h
  | ok w =>
    simp only [hv] at h
    obtain ⟨stored, hfound, hrow⟩ := @storeSale_stored db now input w
    rw [hfound, Option.some.injEq] at h
    subst h
    rcases hrow with hover | ⟨_, hnew⟩
    · exact ⟨w, rfl, .inl hover⟩
    · exact ⟨w, rfl, .inr hnew⟩

theorem transitionWritten_eq {action : SaleAction}
    (h : transitionWritten db now externalId action at_ = some sale) :
    ∃ s, db.saleByExternalId externalId = some s ∧
      sale = s.transitioned action (transitionAt db at_ now) now := by
  unfold transitionWritten at h
  cases hv : transitionVerdict externalId action at_ now db with
  | error e => simp [hv] at h
  | ok s =>
    simp only [hv, Option.some.injEq] at h
    exact ⟨s, transitionVerdict_ok hv, h.symm⟩

theorem saleWritten_stamped (hstamped : ∀ s ∈ db.sales, s.qualificationBasis.isSome)
    (h : saleWritten db now action = some sale) : sale.qualificationBasis.isSome := by
  rcases saleWritten_cases h with ⟨input, hw⟩ | ⟨externalId, act, at_, hw⟩
  · obtain ⟨w, _, ⟨s, _, rfl⟩ | rfl⟩ := upsertWritten_eq hw
    · simp [Sale.overwritten]
    · rfl
  · obtain ⟨s, hs, rfl⟩ := transitionWritten_eq hw
    have hbasis := hstamped s (mem_of_saleByExternalId hs).1
    cases act <;> exact hbasis

/-- A QUALIFIED sale in a locked week cannot be upserted as QUALIFIED: its rep and its week are
frozen, and its week refuses it. -/
theorem upsertWritten_not_qualified (hwf : Wf db) (hold : db.saleById sale.id = some old)
    (hplaced : old.PlacedAt db.org.config.toWorkweekConfig repId week)
    (hlocked : db.weekLocked repId week = true) (h : upsertWritten db now input = some sale) :
    sale.status ≠ .qualified := by
  obtain ⟨hmem, hid⟩ := mem_of_saleById hold
  obtain ⟨hqualified, hrep, basis, ts, hbasis, hts, hweek⟩ := hplaced
  obtain ⟨w, hv, ⟨s, hs, rfl⟩ | rfl⟩ := upsertWritten_eq h
  · intro hq
    obtain rfl : s = old := hwf.saleIds.eq_of_key (mem_of_saleByExternalId hs).1 hmem hid.symm
    obtain ⟨hwrite, hcredit, hopen⟩ := saleVerdict_ok hv
    have hw : w.basis = basis := by
      obtain ⟨soldAt, _, rfl⟩ := map_eq_some_iff.mp hwrite
      simp [saleBasis, hs, hbasis]
    rw [hs] at hcredit
    unfold creditVerdict at hcredit
    dsimp only at hcredit
    split at hcredit
    · simp at hcredit
    · rename_i howner
      split at hcredit
      · simp at hcredit
      · rename_i hmoves
        have hinput : input.repId = repId := by
          simp only [movesCredit, ne_eq, decide_eq_true_eq, not_not] at howner
          rw [← howner, hrep]
        have hincoming : (db.weekOf w.incoming.ms).weekStartUtc = week := by
          simp only [movesWeek, hqualified, hw, hts, decide_true, Bool.true_and, any_some,
            ne_eq, decide_eq_true_eq, not_not] at hmoves
          exact hmoves.trans hweek
        have hverdict := hopen hq
        unfold assertWeekOpenForQualify lockedStatement at hverdict
        rw [hinput, hincoming] at hverdict
        unfold Db.weekLocked at hlocked
        cases hstmt : db.statementFor repId week with
        | none => simp [hstmt] at hlocked
        | some stmt =>
          simp only [hstmt, any_some] at hlocked
          simp [hstmt, Option.filter, hlocked] at hverdict
  · have hle := hwf.saleIds.le_length hmem
    rw [hid] at hle
    simp [newSale] at hle

theorem transitionWritten_placed {action : SaleAction} (hwf : Wf db)
    (hold : db.saleById sale.id = some old) (hplaced : old.PlacedAt cfg repId week)
    (h : transitionWritten db now externalId action at_ = some sale)
    (hq : sale.status = .qualified) : sale.PlacedAt cfg repId week := by
  obtain ⟨hmem, hid⟩ := mem_of_saleById hold
  obtain ⟨_, hrep, basis, ts, hbasis, hts, hweek⟩ := hplaced
  obtain ⟨s, hs, rfl⟩ := transitionWritten_eq h
  obtain rfl : s = old := by
    apply hwf.saleIds.eq_of_key (mem_of_saleByExternalId hs).1 hmem
    rw [hid, (Sale.transitioned_id s action _ now).1]
  cases action with
  | qualify =>
    refine ⟨rfl, hrep, basis, ts, hbasis, ?_, hweek⟩
    cases basis with
    | qualifiedAt =>
      have hcolumn : s.qualifiedAt = some ts := hts
      change s.qualifiedAt.or _ = some ts
      rw [hcolumn]
      rfl
    | soldAt | installedAt | activatedAt => exact hts
  | reverse | disqualify _ | cancel => simp [Sale.transitioned] at hq

theorem saleWritten_placed (hwf : Wf db) (hold : db.saleById sale.id = some old)
    (hplaced : old.PlacedAt db.org.config.toWorkweekConfig repId week)
    (hlocked : db.weekLocked repId week = true) (h : saleWritten db now action = some sale)
    (hq : sale.status = .qualified) :
    sale.PlacedAt db.org.config.toWorkweekConfig repId week := by
  rcases saleWritten_cases h with ⟨input, hw⟩ | ⟨externalId, act, at_, hw⟩
  · exact absurd hq (upsertWritten_not_qualified hwf hold hplaced hlocked hw)
  · exact transitionWritten_placed hwf hold hplaced hw hq

end Sales

def Statement.bounds (db : Db) (s : Statement) : WeekBounds :=
  { db.weekOf s.weekStartUtc.ms with
    weekStartUtc := s.weekStartUtc, nextWeekStartUtc := s.nextWeekStartUtc }

/-- The sales that a recomputation of the statement counts, none without a plan. -/
def countedSales (db : Db) (now : Stamp) (s : Statement) : List Sale :=
  match (db.assignmentForWeek s.repId (s.bounds db)).bind
      fun a => db.versionById a.commissionPlanVersionId with
  | none => []
  | some version =>
    db.sales.filter fun sale =>
      CountsForPay db now version.qualificationBasis s.repId (s.bounds db) sale

/-- A sale that the count of a locked statement stands for. It is `standing` while it has been
QUALIFIED ever since. -/
structure CountedSale where
  statementId : Nat
  repId : Nat
  weekStartUtc : Stamp
  saleId : Nat
  standing : Bool

def countedAs (s : Statement) (sale : Sale) : CountedSale where
  statementId := s.id
  repId := s.repId
  weekStartUtc := s.weekStartUtc
  saleId := sale.id
  standing := true

structure PayBook where
  db : Db
  counted : List CountedSale

namespace PayBook

def empty (org : Org) : PayBook where
  db := Db.empty org
  counted := []

def carried (db' : Db) (counted : List CountedSale) : List CountedSale :=
  (counted.filter fun c => (db'.statementById c.statementId).any (·.status.locked)).map fun c =>
    { c with standing := c.standing && (db'.saleById c.saleId).any (·.status = .qualified) }

def newlyCounted (db db' : Db) (e : Event) : List CountedSale :=
  match e.action.finalizes.bind db.statementById with
  | none => []
  | some s =>
    if s.status.locked = false ∧ (db'.statementById s.id).any (·.status.locked) then
      (countedSales db (Stamp.ofMs e.now) s).map (countedAs s)
    else []

def step (b : PayBook) (e : Event) : PayBook where
  db := Commission.step b.db e
  counted := carried (Commission.step b.db e) b.counted ++
    newlyCounted b.db (Commission.step b.db e) e

end PayBook

/-- A sale is counted by one locked statement, and counts for no other rep or week. -/
structure PaidOnce (p : CountedSale → Prop) (b : PayBook) : Prop where
  once : ∀ c ∈ b.counted, ∀ c' ∈ b.counted, p c → p c' → c.saleId = c'.saleId →
    c.statementId = c'.statementId
  stays : ∀ c ∈ b.counted, p c → ∀ sale ∈ b.db.saleById c.saleId, ∀ now basis repId t,
    CountsForPay b.db now basis repId (b.db.weekOf t) sale →
      repId = c.repId ∧ (b.db.weekOf t).weekStartUtc = c.weekStartUtc

/-- The text of a timestamp lies in the pay week of its instant. -/
def InOwnWeek (cfg : WorkweekConfig) (ts : Stamp) : Prop :=
  (weekBoundsFor ts.ms cfg).InIsoYears ∧ (weekBoundsFor ts.ms cfg).Holds ts.text

instance (cfg : WorkweekConfig) (ts : Stamp) : Decidable (InOwnWeek cfg ts) :=
  inferInstanceAs (Decidable (_ ∧ _))

def Sale.InOwnWeek (cfg : WorkweekConfig) (s : Sale) : Prop :=
  s.status = .qualified → ∀ basis ∈ s.qualificationBasis, ∀ ts ∈ s.basisColumn basis,
    Commission.InOwnWeek cfg ts

instance (cfg : WorkweekConfig) (s : Sale) : Decidable (s.InOwnWeek cfg) :=
  inferInstanceAs (Decidable (_ → ∀ basis ∈ s.qualificationBasis, ∀ ts ∈ s.basisColumn basis, _))

def StoresOwnWeek (b : PayBook) (e : Event) : Prop :=
  ∀ sale ∈ saleWritten b.db (Stamp.ofMs e.now) e.action,
    sale.InOwnWeek b.db.org.config.toWorkweekConfig

instance (b : PayBook) (e : Event) : Decidable (StoresOwnWeek b e) :=
  inferInstanceAs (Decidable (∀ sale ∈ saleWritten b.db _ e.action, _))

/-- The event leaves the workweek as it is and the install hold off. -/
def KeepsWorkweek (cfg : WorkweekConfig) (e : Event) : Prop :=
  ∀ org, e.action = .editOrg org → org.config.toWorkweekConfig = cfg ∧
    org.payPolicy.requireInstallConfirm = false

section Book

variable {cfg : WorkweekConfig} {b : PayBook}

structure BookWf (cfg : WorkweekConfig) (b : PayBook) : Prop where
  wf : Wf b.db
  weeks : WeeksOf cfg b.db
  stamped : ∀ s ∈ b.db.sales, s.qualificationBasis.isSome
  ownWeek : ∀ s ∈ b.db.sales, s.InOwnWeek cfg
  locked : ∀ c ∈ b.counted, LockedAs b.db c.statementId (c.repId, c.weekStartUtc)
  placed : ∀ c ∈ b.counted, c.standing = true → ∃ sale, b.db.saleById c.saleId = some sale ∧
    sale.PlacedAt cfg c.repId c.weekStartUtc

theorem bookWf_empty (hcfg : org.config.toWorkweekConfig = cfg)
    (hpolicy : org.payPolicy.requireInstallConfirm = false) : BookWf cfg (PayBook.empty org) where
  wf := wf_empty org
  weeks := ⟨hcfg, hpolicy, fun _ h => absurd h not_mem_nil⟩
  stamped _ h := absurd h not_mem_nil
  ownWeek _ h := absurd h not_mem_nil
  locked _ h := absurd h not_mem_nil
  placed _ h := absurd h not_mem_nil

/-- A sale that counts for a rep's week lies there: the text that places it is in one week only. -/
theorem BookWf.placedAt_of_counts (h : BookWf cfg b) {sale : Sale} (hs : sale ∈ b.db.sales)
    {now : Stamp} {basis : QualificationBasis} {bounds : WeekBounds} {t : Int}
    (hstart : (weekBoundsFor t cfg).weekStartUtc = bounds.weekStartUtc)
    (hnext : (weekBoundsFor t cfg).nextWeekStartUtc = bounds.nextWeekStartUtc)
    (hcounts : CountsForPay b.db now basis repId bounds sale) :
    sale.PlacedAt cfg repId bounds.weekStartUtc := by
  obtain ⟨hrep, hqualified, ts, hts, hholds⟩ := hcounts
  obtain ⟨own, hown⟩ := isSome_iff_exists.mp (h.stamped sale hs)
  unfold effectiveTs Sale.basisTsExpr Sale.basisOr at hts
  rw [h.weeks.policy, if_neg (by decide), hown, getD_some] at hts
  obtain ⟨hiso, hin⟩ := h.ownWeek sale hs hqualified own hown ts hts
  have hthere : (weekBoundsFor t cfg).Holds ts.text := by
    unfold WeekBounds.Holds
    rw [hstart, hnext]
    exact hholds
  have hweek := weekBoundsFor_disjoint hiso hin hthere
  exact ⟨hqualified, hrep, own, ts, hown, hts, by rw [hweek, hstart]⟩

theorem BookWf.paidOnce (h : BookWf cfg b) : PaidOnce (·.standing = true) b where
  once := by
    intro c hc c' hc' hstand hstand' hsale
    obtain ⟨sale, hfound, _, hrep, basis, ts, hbasis, hts, hweek⟩ := h.placed c hc hstand
    obtain ⟨sale', hfound', _, hrep', basis', ts', hbasis', hts', hweek'⟩ :=
      h.placed c' hc' hstand'
    obtain rfl : sale = sale' := by
      rw [hsale, hfound', Option.some.injEq] at hfound
      exact hfound.symm
    obtain rfl : basis = basis' := by simpa [hbasis] using hbasis'
    obtain rfl : ts = ts' := by simpa [hts] using hts'
    have hkey : (c.repId, c.weekStartUtc) = (c'.repId, c'.weekStartUtc) := by
      rw [← hrep, ← hrep', ← hweek, ← hweek']
    have hlocked := h.locked c hc
    rw [hkey] at hlocked
    exact hlocked.id_unique h.wf (h.locked c' hc').hasStatement
  stays := by
    intro c hc hstand sale hsale now basis repId t hcounts
    obtain ⟨sale', hfound, _, hrep, own, ts, hown, hts, hweek⟩ := h.placed c hc hstand
    obtain rfl : sale' = sale := by simpa [hfound] using hsale
    have hbounds : b.db.weekOf t = weekBoundsFor t cfg := by rw [Db.weekOf, h.weeks.config]
    rw [hbounds] at hcounts ⊢
    obtain ⟨_, hrep', own', ts', hown', hts', hweek'⟩ :=
      h.placedAt_of_counts (mem_of_saleById hfound).1 rfl rfl hcounts
    obtain rfl : own = own' := by simpa [hown] using hown'
    obtain rfl : ts = ts' := by simpa [hts] using hts'
    exact ⟨hrep'.symm.trans hrep, hweek'.symm.trans hweek⟩

theorem mem_carried {db' : Db} {counted : List CountedSale} {c' : CountedSale}
    (h : c' ∈ PayBook.carried db' counted) : ∃ c ∈ counted,
      (db'.statementById c.statementId).any (·.status.locked) = true ∧
      c' = { c with standing :=
        c.standing && (db'.saleById c.saleId).any (·.status = .qualified) } := by
  obtain ⟨c, hc, rfl⟩ := mem_map.mp h
  rw [mem_filter] at hc
  exact ⟨c, hc.1, hc.2, rfl⟩

theorem mem_newlyCounted {db db' : Db} {c : CountedSale}
    (h : c ∈ PayBook.newlyCounted db db' e) : ∃ id s sale, e.action.finalizes = some id ∧
      db.statementById id = some s ∧ (db'.statementById s.id).any (·.status.locked) = true ∧
      sale ∈ countedSales db (Stamp.ofMs e.now) s ∧ c = countedAs s sale := by
  unfold PayBook.newlyCounted at h
  split at h
  · simp at h
  · rename_i s hs
    obtain ⟨id, hid, hfound⟩ := bind_eq_some_iff.mp hs
    split at h
    · rename_i hlocked
      obtain ⟨sale, hsale, rfl⟩ := mem_map.mp h
      exact ⟨id, s, sale, hid, hfound, hlocked.2, hsale, rfl⟩
    · simp at h

theorem mem_countedSales {db : Db} {now : Stamp} {s : Statement} {sale : Sale}
    (h : sale ∈ countedSales db now s) :
    sale ∈ db.sales ∧ ∃ basis, CountsForPay db now basis s.repId (s.bounds db) sale := by
  unfold countedSales at h
  split at h
  · simp at h
  · rename_i version _
    rw [mem_filter, decide_eq_true_eq] at h
    exact ⟨h.1, version.qualificationBasis, h.2⟩

theorem lockedAs_step {db : Db} (hwf : Wf db) {id : Nat} {key : Nat × Stamp}
    (h : HasStatement id key db)
    (hlocked : ((step db e).statementById id).any (·.status.locked) = true) :
    LockedAs (step db e) id key := by
  obtain ⟨s, hs, hid, hkey⟩ := step_hasStatement hwf e h
  obtain ⟨s', hs', hl⟩ := (any_eq_true _ _).mp hlocked
  obtain ⟨hmem, hid'⟩ := mem_of_statementById hs'
  obtain rfl := (wf_step hwf e).statementIds.eq_of_key hs hmem (hid.trans hid'.symm)
  exact ⟨s, hs, hid, hkey, hl⟩

theorem mem_step_sales {db : Db} (hwf : Wf db) {s : Sale} (h : s ∈ (step db e).sales) :
    s ∈ db.sales ∨ saleWritten db (Stamp.ofMs e.now) e.action = some s := by
  rcases step_pairs hwf e with ⟨_, hsales, _⟩ | ⟨sale, db', hw, hstored, hsales, _⟩
  · exact .inl (hsales ▸ h)
  · rw [hsales] at h
    have hfound := hstored.wf.saleById_of_mem h
    by_cases hid : s.id = sale.id
    · rw [hid, hstored.found, Option.some.injEq] at hfound
      exact .inr (hfound ▸ hw)
    · rw [hstored.others s.id hid] at hfound
      exact .inl (mem_of_saleById hfound).1

theorem saleById_step {db : Db} (hwf : Wf db) (e : Event) (x : Nat) :
    (step db e).saleById x = db.saleById x ∨
      ∃ sale, sale.id = x ∧ (step db e).saleById x = some sale ∧
        saleWritten db (Stamp.ofMs e.now) e.action = some sale := by
  rcases step_pairs hwf e with ⟨_, hsales, _⟩ | ⟨sale, db', hw, hstored, hsales, _⟩
  · left
    unfold Db.saleById
    rw [hsales]
  · have hsame : ∀ y, (step db e).saleById y = db'.saleById y := by
      intro y
      unfold Db.saleById
      rw [hsales]
    by_cases hx : x = sale.id
    · subst hx
      exact .inr ⟨sale, rfl, by rw [hsame, hstored.found], hw⟩
    · exact .inl (by rw [hsame, hstored.others x hx])

theorem weeksOf_step {db : Db} (hwf : Wf db) (h : WeeksOf cfg db)
    (hkeeps : KeepsWorkweek cfg e) : WeeksOf cfg (step db e) := by
  by_cases horg : ∃ org, e.action = .editOrg org
  · obtain ⟨org, he⟩ := horg
    rw [step_editOrg he]
    exact ⟨(hkeeps org he).1, (hkeeps org he).2, h.weeks⟩
  · exact (weeksOf_frame cfg).step hwf (fun org he => horg ⟨org, he⟩) h

theorem BookWf.step (h : BookWf cfg b) {e : Event} (hown : StoresOwnWeek b e)
    (hkeeps : KeepsWorkweek cfg e) : BookWf cfg (b.step e) where
  wf := wf_step h.wf e
  weeks := weeksOf_step h.wf h.weeks hkeeps
  stamped := by
    intro s hs
    rcases mem_step_sales h.wf hs with hold | hnew
    · exact h.stamped s hold
    · exact saleWritten_stamped h.stamped hnew
  ownWeek := by
    intro s hs
    rcases mem_step_sales h.wf hs with hold | hnew
    · exact h.ownWeek s hold
    · rw [← h.weeks.config]
      exact hown s hnew
  locked := by
    intro c hc
    rcases mem_append.mp hc with hc | hc
    · obtain ⟨c, hmem, hl, rfl⟩ := mem_carried hc
      exact lockedAs_step h.wf (h.locked c hmem).hasStatement hl
    · obtain ⟨id, s, sale, _, hs, hl, _, rfl⟩ := mem_newlyCounted hc
      exact lockedAs_step h.wf ⟨s, (mem_of_statementById hs).1, rfl, rfl⟩ hl
  placed := by
    intro c hc hstand
    rcases mem_append.mp hc with hc | hc
    · obtain ⟨c, hmem, _, rfl⟩ := mem_carried hc
      simp only [Bool.and_eq_true] at hstand
      obtain ⟨old, hold, hplaced⟩ := h.placed c hmem hstand.1
      rcases saleById_step h.wf e c.saleId with hsame | ⟨sale, hid, hsale, hw⟩
      · exact ⟨old, hsame.trans hold, hplaced⟩
      · have hq : sale.status = .qualified := by simpa [hsale] using hstand.2
        have hweek := (weekLocked_iff h.wf).mpr ⟨_, h.locked c hmem⟩
        rw [← h.weeks.config] at hplaced ⊢
        exact ⟨sale, hsale, saleWritten_placed h.wf (by rw [hid, hold]) hplaced hweek hw hq⟩
    · obtain ⟨id, s, sale, hid, hs, _, hsale, rfl⟩ := mem_newlyCounted hc
      obtain ⟨hmem, basis, hcounts⟩ := mem_countedSales hsale
      obtain ⟨t, hstart, hnext⟩ := h.weeks.weeks s (mem_of_statementById hs).1
      refine ⟨sale, ?_, h.placedAt_of_counts hmem hstart hnext hcounts⟩
      have hx : e.action.saleExternalId = none := by
        cases ha : e.action <;> simp_all [Action.finalizes, Action.saleExternalId]
      change (Commission.step b.db e).saleById sale.id = some sale
      unfold Db.saleById
      rw [step_sales h.wf (by simp [hx])]
      exact h.wf.saleById_of_mem hmem

end Book

/-- Along every run that keeps the workweek, with the install hold off and with QUALIFIED sales
stored in their own weeks, a sale that stays QUALIFIED is counted by one locked statement. -/
theorem paidOnce_run (org : Org) {events : List Event}
    (hpolicy : org.payPolicy.requireInstallConfirm = false)
    (hkeeps : ∀ e ∈ events, KeepsWorkweek org.config.toWorkweekConfig e)
    (hown : Along PayBook.step StoresOwnWeek (PayBook.empty org) events) :
    PaidOnce (·.standing = true) (run PayBook.step (PayBook.empty org) events) := by
  have hwf := run_invariant (I := BookWf org.config.toWorkweekConfig)
    (fun _ _ hb hc => BookWf.step hb hc.1 hc.2) (bookWf_empty rfl hpolicy) (hown.and_forall hkeeps)
  exact hwf.paidOnce

/-- The sample organisation with a flat plan for rep 1, from 2026 on. -/
def flatPlanOrg : Org :=
  { sampleOrg with
    plans := [{ id := 1, type := .flat, tierMode := "RETROACTIVE_WEEKLY" }]
    versions :=
      [{ id := 1
         commissionPlanId := 1
         versionNumber := 1
         flatRateCents := some 15000
         qualificationBasis := .qualifiedAt
         tiers := [] }]
    assignments :=
      [{ id := 1
         repId := 1
         commissionPlanVersionId := 1
         effectiveFrom := toISOString 1767225600000
         effectiveTo := none }] }

def nextWeek : Int := sampleNow + 7 * msPerDay

def soldDoor (at_ : Int) : Action :=
  .recordFieldSaleFromKnock
    { repId := 1
      leadId := 7
      soldAt := { text := toISOString at_, ms := some at_ }
      serverReceivedAt := at_ }

/-- A door is sold and its week finalized. A week later the sale is reversed, the door is sold
again and that week is finalized too. -/
def soldAgain : List Event :=
  [⟨sampleNow, soldDoor sampleNow⟩,
    ⟨sampleNow, .transitionStatement 1 .finalize⟩,
    ⟨nextWeek, .transitionSale (fieldSaleExternalId 7) .reverse none⟩,
    ⟨nextWeek, soldDoor nextWeek⟩,
    ⟨nextWeek, .transitionStatement 3 .finalize⟩]

theorem paidOnce_soldAgain :
    PaidOnce (·.standing = true) (run PayBook.step (PayBook.empty flatPlanOrg) soldAgain) := by
  refine paidOnce_run flatPlanOrg rfl ?_ (by decide +kernel)
  intro e he org horg
  simp only [soldAgain, mem_cons, not_mem_nil, or_false] at he
  rcases he with rfl | rfl | rfl | rfl | rfl <;> simp [soldDoor] at horg

/-- 23:30 on Sunday 2026-03-08, five hours behind UTC. -/
def offsetText : Text :=
  ['2', '0', '2', '6', '-', '0', '3', '-', '0', '8', 'T', '2', '3', ':', '3', '0', ':', '0', '0',
    '-', '0', '5', ':', '0', '0']

def soldAt (text : Text) : Action :=
  .upsertSale
    { sampleSale "B-1" with
      dates := .untrusted nextWeek
        { soldAt := some { text, ms := some 1773030600000 }
          qualifiedAt := some { text, ms := some 1773030600000 }
          installedAt := none
          activatedAt := none } }

/-- The instant of a sale is sent in an offset form that reads as the week before, that week is
finalized, and the same instant is sent again in the standard form. -/
def soldAcrossMidnight : List Event :=
  [⟨sampleNow, .upsertSale (sampleSale "A-1")⟩,
    ⟨nextWeek, soldAt offsetText⟩,
    ⟨nextWeek, .transitionStatement 1 .finalize⟩,
    ⟨nextWeek, soldAt (toISOString 1773030600000)⟩,
    ⟨nextWeek, .transitionStatement 3 .finalize⟩]

/-- A sale that was sold again is in two locked counts, and so is one that stayed QUALIFIED when
its text lies in another week than its instant. -/
theorem not_paidOnce_soldAgain :
    ¬ PaidOnce (fun _ => True) (run PayBook.step (PayBook.empty flatPlanOrg) soldAgain) ∧
    ¬ PaidOnce (·.standing = true)
      (run PayBook.step (PayBook.empty flatPlanOrg) soldAcrossMidnight) := by
  constructor
  · intro h
    have honce := h.once
    revert honce
    decide +kernel
  · intro h
    have honce := h.once
    revert honce
    decide +kernel

end HomefrontFiber.Commission
