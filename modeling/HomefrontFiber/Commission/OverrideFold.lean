import HomefrontFiber.Commission.OverrideLocks

/-!
# The override block of an open week

In the block of an open week every closed pair must cancel, so that the block is the sum of the
open pairs of QUALIFIED sales. A pair cancels when its EARN and CLAWBACK are PAYABLE or settled
together. REOPEN breaks a couple whose EARN was settled before the sale was reversed: it makes the
EARN PAYABLE again and leaves the CLAWBACK an exception.
-/

namespace HomefrontFiber.Commission

open Alternating List

structure Sided (e c : OverrideRow) : Prop where
  couple : Couple e c
  payable : e.status = .payable ↔ c.status = .payable
  settled : ∀ id, SettledBy id c → SettledBy id e

def SidedPairs (rows : List OverrideRow) : Prop :=
  ∀ x b, Alternates OpenEarn Sided (pairRows rows x b)

def Action.reopens : Action → Option Nat
  | .transitionStatement id .reopen => some id
  | _ => none

/-- A statement is reopened only while every EARN settled by it that has been clawed back is
settled together with its CLAWBACK. -/
def ReopensWholePairs (db : Db) (e : Event) : Prop :=
  ∀ id ∈ e.action.reopens, ∀ earn ∈ db.overrides, earn.entryType = .earn → SettledBy id earn →
    ∀ claw ∈ clawbackOf db.overrides earn, SettledBy id claw

instance (db : Db) (e : Event) : Decidable (ReopensWholePairs db e) :=
  inferInstanceAs (Decidable (∀ id ∈ e.action.reopens, ∀ earn ∈ db.overrides, _ → _ →
    ∀ claw ∈ clawbackOf db.overrides earn, _))

section Sided

variable {db : Db} {rows : List OverrideRow} {now : Stamp}

theorem sidedPairs_nil : SidedPairs [] := fun _ _ => Or.inl Closed.nil

theorem SidedPairs.map (h : SidedPairs rows) {f : OverrideRow → OverrideRow} (hf : KeepsPair f)
    (hopen : ∀ e ∈ rows, OpenEarn e → OpenEarn (f e))
    (hsided : ∀ x b, ∀ e ∈ pairRows rows x b, ∀ c ∈ pairRows rows x b, Sided e c →
      Sided (f e) (f c)) : SidedPairs (rows.map f) := by
  intro x b
  rw [pairRows_map hf]
  exact (h x b).map (fun e he => hopen e (mem_pairRows.mp he).1) (hsided x b)

theorem SidedPairs.opened (h : SidedPairs rows) {r : OverrideRow}
    (ho : OpenEarn r) (hc : Closed Couple (pairRows rows r.saleId r.beneficiaryRepId)) :
    SidedPairs (rows ++ [r]) := by
  intro x b
  by_cases hxb : r.saleId = x ∧ r.beneficiaryRepId = b
  · obtain ⟨rfl, rfl⟩ := hxb
    rw [pairRows_append_self rows rfl rfl]
    refine ((h _ _).closed fun hodd => ?_).open ho
    have := hc.length_even
    omega
  · rw [pairRows_append_other hxb]
    exact h x b

theorem sided_claw {earn : OverrideRow} (hearn : OpenEarn earn) {n : Nat} (hseq : earn.pairSeq = n) (id : Nat) :
    Sided (mootRow now earn earn) (clawRow now earn (n + 1) id) where
  couple := couple_claw now hearn.1 hseq id
  payable := by
    unfold mootRow clawRow clawVerdict
    cases hs : earn.status <;> simp [hs]
  settled id' hs := absurd hs.1 (clawRow_ne_settled _ _ _)

theorem SidedPairs.closed (h : SidedPairs rows) (hwf : LedgerWf rows) {x b : Nat}
    {l : List OverrideRow} {earn : OverrideRow} (hpair : pairRows rows x b = l ++ [earn])
    (hc : Closed Couple l) (ho : OpenEarn earn) : SidedPairs (closedRows now rows l earn) := by
  intro x' b'
  by_cases hxb : x' = x ∧ b' = b
  · obtain ⟨rfl, rfl⟩ := hxb
    rw [pairRows_closedRows_self now hwf hpair]
    have hodd : (pairRows rows x' b').length % 2 ≠ 0 := by
      have := hc.length_even
      rw [hpair, length_append, length_singleton]
      omega
    obtain ⟨l', e', hc', _, hl'⟩ := (h x' b').opened hodd
    obtain ⟨rfl, he⟩ := append_inj' (hpair.symm.trans hl') rfl
    exact Or.inl (hc'.couple (sided_claw ho (hwf.pairSeq_last hpair) _))
  · rw [pairRows_closedRows_other now hwf hpair hxb]
    exact h x' b'

theorem SidedPairs.promoteReleasedHolds (h : SidedPairs db.overrides) :
    SidedPairs (promoteReleasedHolds now db).overrides := by
  refine h.map (SameEntry.keepsPair (sameEntry_release db now)) (fun e _ ho => ?_)
    fun x b e _ c _ hs => ?_
  · exact openEarn_release db ho
  · rw [if_neg fun hdue => hs.couple.earn_not_held hdue.1,
      if_neg fun hdue => hs.couple.claw_not_held hdue.1]
    exact hs

theorem SidedPairs.lifecycle (h : SidedPairs rows) {p : OverrideRow → Prop} [DecidablePred p]
    {g : OverrideRow → OverrideRow} (hg : ∀ r, SameEntry (g r) r)
    (hweek : ∀ r, (g r).earnedWeekStartUtc = r.earnedWeekStartUtc)
    (hheld : ∀ r, (g r).status ≠ .held)
    (hopen : ∀ e ∈ rows, p e → OpenEarn e → OpenEarn (g e))
    (hp : ∀ x b, ∀ e ∈ pairRows rows x b, ∀ c ∈ pairRows rows x b, Sided e c → (p e ↔ p c))
    (hst : ∀ e c, p e → p c → ((g e).status = .payable ↔ (g c).status = .payable))
    (hsettled : ∀ e c id, SettledBy id (g c) → SettledBy id (g e)) :
    SidedPairs (rows.map fun r => if p r then g r else r) := by
  refine h.map (SameEntry.keepsPair fun r => (hg r).ite) (fun e he ho => ?_)
    fun x b e he c hc hs => ?_
  · split
    · exact hopen e he ‹_› ho
    · exact ho
  · by_cases hpe : p e
    · have hpc := (hp x b e he c hc hs).mp hpe
      rw [if_pos hpe, if_pos hpc]
      exact ⟨hs.couple.of_sameEntry (hg e) (hg c) (by rw [hweek, hweek, hs.couple.week])
        (hheld e) (hheld c), hst e c hpe hpc, hsettled e c⟩
    · rw [if_neg hpe, if_neg fun hpc => hpe ((hp x b e he c hc hs).mpr hpc)]
      exact hs

theorem SidedPairs.markWeekSettled (h : SidedPairs db.overrides) (repId : Nat) (week : Stamp)
    (id : Nat) : SidedPairs (markWeekSettled repId week id now db).overrides := by
  refine h.lifecycle (p := PayableIn repId week) (fun r => ⟨rfl, rfl, rfl, rfl, rfl, rfl, rfl⟩)
    (fun _ => rfl) (fun _ => by simp) (fun e _ hp ho => ?_) (fun x b e he c hc hs => ?_)
    (fun _ _ _ _ => Iff.rfl) fun _ _ _ hs => hs
  · refine ⟨ho.1, ?_⟩
    have hnone := mt ho.2.mpr (by rw [hp.2.2]; decide)
    simpa using hnone
  · rw [PayableIn, PayableIn, (mem_pairRows.mp he).2.2, (mem_pairRows.mp hc).2.2,
      hs.couple.week, hs.payable]

theorem LedgerWf.clawbackOf_couple (hwf : LedgerWf rows) {x b : Nat} {e c : OverrideRow}
    (he : e ∈ pairRows rows x b) (hc : c ∈ pairRows rows x b) (hec : Couple e c) :
    clawbackOf rows e = some c := by
  obtain ⟨_, hx, hb⟩ := mem_pairRows.mp he
  obtain ⟨i, hi, hget⟩ := getElem_of_mem hc
  have hseq : c.pairSeq = i := by
    have := congrArg (·[i]?) (hwf.seqs x b)
    simpa [hi, hget] using this
  unfold clawbackOf
  rw [hx, hb, ← hec.seq, hseq, getElem?_eq_getElem hi, hget]

theorem SidedPairs.markStatementReopened (h : SidedPairs db.overrides)
    (hwf : LedgerWf db.overrides) {id : Nat}
    (hwhole : ∀ earn ∈ db.overrides, earn.entryType = .earn → SettledBy id earn →
      ∀ claw ∈ clawbackOf db.overrides earn, SettledBy id claw) :
    SidedPairs (markStatementReopened id now db).overrides := by
  refine h.lifecycle (p := SettledBy id) (fun r => ⟨rfl, rfl, rfl, rfl, rfl, rfl, rfl⟩)
    (fun _ => rfl) (fun _ => by simp) (fun e _ hs ho => ?_) (fun x b e he c hc hs => ?_)
    (fun _ _ _ _ => Iff.rfl) fun _ _ _ hs => hs
  · refine ⟨ho.1, ?_⟩
    have hnone := mt ho.2.mpr (by rw [hs.1]; decide)
    simpa using hnone
  · refine ⟨fun hse => ?_, hs.settled id⟩
    exact hwhole e (mem_pairRows.mp he).1 hs.couple.earn hse c
      (hwf.clawbackOf_couple he hc hs.couple)

theorem SidedPairs.resolved (h : SidedPairs db.overrides) (hwf : LedgerWf db.overrides)
    {id adjustmentId : Nat} (ho : ∃ r ∈ db.overrides, r.id = id ∧ r.status = .exception) :
    SidedPairs (updateRow db.overrides id fun r =>
      { r with
        status := .resolved
        resolvedAdjustmentId := some adjustmentId
        updatedAt := now }) := by
  obtain ⟨x, hx, hid, hst⟩ := ho
  have hexc : ∀ r ∈ db.overrides, r.id = id → r.status = .exception := fun r hr hrid => by
    rw [hwf.ids.eq_of_key hr hx (hrid.trans hid.symm), hst]
  have hsame : ∀ r : OverrideRow, SameEntry { r with
      status := .resolved
      resolvedAdjustmentId := some adjustmentId
      updatedAt := now } r := fun r => ⟨rfl, rfl, rfl, rfl, rfl, rfl, rfl⟩
  refine h.map (SameEntry.keepsPair fun r => (hsame r).ite) (fun e he hopen => ?_)
    fun x b e he c hc hs => ?_
  · split
    · exact ⟨hopen.1, by simp⟩
    · exact hopen
  · have hec := hexc e (mem_pairRows.mp he).1
    have hcc := hexc c (mem_pairRows.mp hc).1
    refine ⟨hs.couple.of_sameEntry (hsame e).ite (hsame c).ite ?_ ?_ ?_, ?_, fun k hk => ?_⟩
    · split <;> split <;> exact hs.couple.week
    · split
      · simp
      · exact hs.couple.earn_not_held
    · split
      · simp
      · exact hs.couple.claw_not_held
    · have hpay := hs.payable
      split <;> split <;> simp_all
    · split at hk
      · simp [SettledBy] at hk
      · have hke := hs.settled k hk
        rw [if_neg fun hid => absurd (hke.1.symm.trans (hec hid)) (by decide)]
        exact hke

theorem calculate_sided (repId : Nat) (ms : Int) :
    Service.Keeps (fun db => Wf db ∧ SidedPairs db.overrides)
      (calculateOrRecalculateStatement repId ms now) := by
  refine calculateOrRecalculateStatement_keeps
    (fun _ h => ⟨wf_promoteReleasedHolds h.1, h.2.promoteReleasedHolds⟩) fun _ p h _ _ => ?_
  refine ⟨wf_storePricing (wf_promoteReleasedHolds h.1) _ _ p, ?_⟩
  rw [repriced, storePricing_overrides]
  exact h.2.promoteReleasedHolds

theorem transitionStatement_sided (id : Nat) (action : StatementAction) :
    Service.Triple (fun db => (Wf db ∧ SidedPairs db.overrides) ∧ (action = .reopen →
        ∀ earn ∈ db.overrides, earn.entryType = .earn → SettledBy id earn →
          ∀ claw ∈ clawbackOf db.overrides earn, SettledBy id claw))
      (transitionStatement id action now) (fun _ db => Wf db ∧ SidedPairs db.overrides)
      fun _ db => Wf db ∧ SidedPairs db.overrides := by
  refine transitionStatement_triple (fun _ h => h.1) fun stmt => ?_
  cases action with
  | finalize =>
    refine finalizeStatement_triple (F := fun db => Wf db ∧ SidedPairs db.overrides)
      (fun _ h => h.1.1) ?_ fun db h => ?_
    · exact (recomputeBeforeFreeze_keeps (calculate_sided _ _)).conseq (fun _ h => h.1.1)
        (fun _ _ h => h) fun _ _ h => h
    · exact ⟨(wf_markWeekSettled h.1 _ _ _).setStatementStatus _ _, h.2.markWeekSettled _ _ _⟩
  | reopen =>
    refine reopenStatement_triple (fun _ h => h.1.1) fun db h _ => ?_
    obtain ⟨⟨⟨hwf, hsided⟩, hwhole⟩, hfound⟩ := h
    refine ⟨(wf_markStatementReopened hwf _).setStatementStatus _ _, ?_⟩
    rw [← (mem_of_statementById hfound).2] at hwhole
    exact hsided.markStatementReopened hwf.ledger (hwhole rfl)
  | markPaid =>
    exact markStatementPaid_triple (fun _ h => h.1.1)
      fun db h _ => ⟨h.1.1.1.setStatementStatus _ _, h.1.1.2⟩

theorem sided_kept : KeptByWrites (fun db => SidedPairs db.overrides) now where
  calculate := calculate_sided
  apply _ := applyApprovedAdjustments_keeps fun _ _ h _ =>
    ⟨h.1.updateStatement _ (fun _ => rfl) fun _ => rfl, h.2⟩
  promote _ h := h.promoteReleasedHolds
  create _ _ h := h
  resolve _ hwf h ho := h.resolved hwf.ledger ho
  commissions _ h := h

theorem sided_step (h : Wf db ∧ SidedPairs db.overrides) {e : Event}
    (hwhole : ReopensWholePairs db e) : Wf (step db e) ∧ SidedPairs (step db e).overrides := by
  unfold step
  by_cases hx : e.action.saleExternalId.isSome
  · refine perform_sale (I := fun db => Wf db ∧ SidedPairs db.overrides) h.1 h hx ?_
      calculate_sided
    intro sale db' _ hs
    have hsided : SidedPairs db'.overrides := by
      rw [hs.tables]
      exact h.2
    exact syncOverridesForSale_keeps (I := fun db => SidedPairs db.overrides) hs.wf hsided _ _
      (fun _ _ _ _ _ hI _ _ hc => hI.opened (openEarn_earnRow _ _ _ _ _ _ _) hc)
      fun _ _ _ _ hw hI _ _ _ hpair hc ho => hI.closed hw.ledger hpair hc ho
  · refine sided_kept.perform h hx (fun id decision _ => ?_) (fun id action ha => ?_) fun _ _ => h.2
    · exact (sided_kept.decide (fun _ _ h => h) id decision).store h
    · refine (transitionStatement_sided id action).store ⟨h, fun hre => ?_⟩
      exact hwhole id (by rw [ha, hre]; rfl)

end Sided

def OpenQualified (db : Db) : Prop :=
  ∀ x b earn, openEarn db.overrides x b = some earn →
    ∃ sale, db.saleById x = some sale ∧ sale.status = .qualified

theorem openQualified_step {db : Db} (hwf : Wf db) (h : OpenQualified db) (e : Event) :
    OpenQualified (step db e) := by
  intro x b earn ho
  rcases step_pairs hwf e with ⟨_, hsales, hr⟩ | ⟨sale, db', _, hs, hsales, hr⟩
  · obtain ⟨earn', ho', _⟩ := hr.openEarn_some ho
    unfold Db.saleById
    rw [hsales]
    exact h x b earn' ho'
  · obtain ⟨earn', ho', _⟩ := hr.openEarn_some ho
    have hsame : (step db e).saleById x = db'.saleById x := by rw [Db.saleById, hsales]; rfl
    have hov : db'.overrides = db.overrides := by rw [hs.tables]
    rw [hsame]
    -- an EARN that was open before the event
    have hold : ∀ earn, x ≠ sale.id → openEarn db'.overrides x b = some earn →
        ∃ s, db'.saleById x = some s ∧ s.status = .qualified := by
      intro earn hx hearn
      rw [hs.others x hx]
      exact h x b earn (hov ▸ hearn)
    by_cases hq : sale.status = .qualified
    · obtain ⟨rows, he, _, hpairs⟩ :=
        syncOverridesForSale_opens (saleWeek db' sale) (Stamp.ofMs e.now) hs.wf.ledger hs.found hq
      rw [he] at ho'
      by_cases hx : x = sale.id
      · exact ⟨sale, hx ▸ hs.found, hq⟩
      · rcases openEarn_of_opens (hpairs x b) ho' with hbefore | ⟨hx', _⟩
        · exact hold earn' hx hbefore
        · exact absurd hx' hx
    · obtain ⟨rows, he, _, hclose, hother⟩ :=
        syncOverridesForSale_closes (saleWeek db' sale) (Stamp.ofMs e.now) hs.wf.ledger hs.found hq
      rw [he] at ho'
      by_cases hx : x = sale.id
      · subst hx
        rw [openEarn_eq_none.mpr (hclose b).length_even] at ho'
        simp at ho'
      · rw [openEarn, hother x b hx] at ho'
        exact hold earn' hx ho'

/-- What the open pair of a sale pays its beneficiary in a week: nothing while its EARN is HELD, an
EXCEPTION or RESOLVED. -/
def openPairCents (db : Db) (beneficiary : Nat) (week : Stamp) (sale : Sale) : Int :=
  match openEarn db.overrides sale.id beneficiary with
  | none => 0
  | some earn =>
    if earn.earnedWeekStartUtc = week ∧ earn.status ≠ .held ∧ earn.status ≠ .exception ∧
        earn.status ≠ .resolved then earn.amountCents
    else 0

def openEarnCents (db : Db) (beneficiary : Nat) (week : Stamp) : Int :=
  ((db.sales.filter (·.status = .qualified)).map (openPairCents db beneficiary week)).sum

section Sum

variable {db : Db} {b : Nat} {week : Stamp}

def foldedCents (b : Nat) (week : Stamp) (r : OverrideRow) : Int :=
  if PayableIn b week r then r.amountCents else 0

theorem foldedCents_couple {e c : OverrideRow} (he : e.beneficiaryRepId = b)
    (hc : c.beneficiaryRepId = b) (hs : Sided e c) :
    foldedCents b week e + foldedCents b week c = 0 := by
  have hiff : PayableIn b week e ↔ PayableIn b week c := by
    rw [PayableIn, PayableIn, he, hc, hs.couple.week, hs.payable]
  unfold foldedCents
  by_cases hp : PayableIn b week e
  · rw [if_pos hp, if_pos (hiff.mp hp), hs.couple.amount]
    omega
  · rw [if_neg hp, if_neg fun hpc => hp (hiff.mpr hpc)]
    omega

theorem payableBlock_eq_sum (hwf : Wf db) :
    (payableBlock db.overrides b week).payCents =
      (db.sales.map fun sale =>
        ((pairRows db.overrides sale.id b).map (foldedCents b week)).sum).sum := by
  unfold payableBlock
  dsimp only
  rw [sum_map_filter, sum_map_group hwf.saleIds.nodup hwf.saleRefs,
    map_map]
  refine congrArg List.sum (map_congr_left fun sale _ => ?_)
  have hpair : pairRows db.overrides sale.id b =
      (db.overrides.filter (·.saleId = sale.id)).filter (·.beneficiaryRepId = b) := by
    rw [filter_filter, pairRows]
    refine filter_congr fun r _ => ?_
    simp only [← Bool.decide_and, and_comm]
  rw [hpair, sum_map_filter]
  refine congrArg List.sum (map_congr_left fun r _ => ?_)
  unfold foldedCents
  by_cases hb : r.beneficiaryRepId = b <;> simp [hb, PayableIn]

/-- A closed pair cancels and an open one counts its EARN, in a week that is not locked. -/
theorem pair_foldedCents (hlocks : OverrideLocks db) (hsided : SidedPairs db.overrides)
    (hopen : ∀ id, ¬ LockedAs db id (b, week)) (sale : Sale) :
    ((pairRows db.overrides sale.id b).map (foldedCents b week)).sum =
      openPairCents db b week sale := by
  have hben : ∀ r ∈ pairRows db.overrides sale.id b, r.beneficiaryRepId = b :=
    fun r hr => (mem_pairRows.mp hr).2.2
  unfold openPairCents
  rcases hsided sale.id b with hc | ⟨l, earn, hc, ho, hl⟩
  · rw [openEarn_eq_none.mpr hc.length_even]
    exact hc.sum_eq_zero fun e he c hc hs => foldedCents_couple (hben e he) (hben c hc) hs
  · have hrest : (l.map (foldedCents b week)).sum = 0 := hc.sum_eq_zero fun e he c hc hs =>
      foldedCents_couple (hben e (hl ▸ mem_append_left _ he))
        (hben c (hl ▸ mem_append_left _ hc)) hs
    have hearn : openEarn db.overrides sale.id b = some earn := by
      rw [openEarn_eq_some, hl, length_append, length_singleton]
      have := hc.length_even
      exact ⟨by omega, by simp⟩
    obtain ⟨hmem, _, hb⟩ := mem_of_pairRows hl
    rw [hearn, hl, map_append, sum_append, hrest, zero_add, map_singleton,
      sum_singleton, foldedCents]
    refine if_congr ?_ rfl rfl
    rw [PayableIn, hb]
    -- no EARN is SETTLED in this week, since its statement is not locked
    have hsettled : earn.earnedWeekStartUtc = week → earn.status ≠ .settled := by
      rintro rfl hst
      obtain ⟨id, _, hlock⟩ := hlocks.settled earn hmem hst
      exact hopen id (by rw [OverrideRow.weekKey, hb] at hlock; exact hlock)
    cases hst : earn.status <;> simp_all

theorem payableBlock_eq_openEarnCents (hwf : Wf db) (hlocks : OverrideLocks db)
    (hsided : SidedPairs db.overrides) (hqualified : OpenQualified db)
    (hopen : ∀ id, ¬ LockedAs db id (b, week)) :
    (payableBlock db.overrides b week).payCents = openEarnCents db b week := by
  rw [payableBlock_eq_sum hwf, openEarnCents, sum_map_filter]
  refine congrArg List.sum (map_congr_left fun sale hsale => ?_)
  rw [pair_foldedCents hlocks hsided hopen]
  split
  · rfl
  · rename_i hq
    unfold openPairCents
    cases hearn : openEarn db.overrides sale.id b with
    | none => rfl
    | some earn =>
      obtain ⟨s, hs, hst⟩ := hqualified sale.id b earn hearn
      rw [hwf.saleById_of_mem hsale, Option.some.injEq] at hs
      simp [hs, hst] at hq

end Sum

/-- The block of an OPEN statement is the sum of the open pairs of QUALIFIED sales, as the table
stands when it is summed. -/
def OpenBlocksFold (db : Db) : Prop :=
  ∀ s ∈ db.statements, s.status = .open → ∀ now, ∃ block db',
    overrideBlockForWeek s.repId s.weekStartUtc now db = (.ok block, db') ∧
      block.payCents = openEarnCents db' s.repId s.weekStartUtc

structure FoldWf (db : Db) : Prop where
  wf : Wf db
  locks : OverrideLocks db
  sided : SidedPairs db.overrides
  qualified : OpenQualified db

theorem foldWf_empty (org : Org) : FoldWf (Db.empty org) where
  wf := wf_empty org
  locks := overrideLocks_empty org
  sided := sidedPairs_nil
  qualified x b earn h := by simp [openEarn, pairRows, Db.empty] at h

theorem foldWf_step {db : Db} (h : FoldWf db) {e : Event} (hwhole : ReopensWholePairs db e) :
    FoldWf (step db e) where
  wf := wf_step h.wf e
  locks := (locks_step ⟨h.wf, h.locks⟩ e).2
  sided := (sided_step ⟨h.wf, h.sided⟩ hwhole).2
  qualified := openQualified_step h.wf h.qualified e

theorem FoldWf.released {db : Db} (h : FoldWf db) (now : Stamp) :
    FoldWf (promoteReleasedHolds now db) where
  wf := wf_promoteReleasedHolds h.wf
  locks := h.locks.promoteReleasedHolds h.wf
  sided := h.sided.promoteReleasedHolds
  qualified := by
    intro x b earn ho
    obtain ⟨earn', ho', _⟩ := (relabelled_promoteReleasedHolds db now).openEarn_some ho
    exact h.qualified x b earn' ho'

theorem FoldWf.openBlocksFold {db : Db} (h : FoldWf db) : OpenBlocksFold db := by
  intro s hs hst now
  have hpro := h.released now
  refine ⟨_, promoteReleasedHolds now db, rfl, ?_⟩
  refine payableBlock_eq_openEarnCents hpro.wf hpro.locks hpro.sided hpro.qualified ?_
  rw [← weekLocked_eq_false_iff hpro.wf]
  exact (h.wf.weekLocked_of_mem hs).trans (by rw [hst]; rfl)

/-- Along runs that reopen whole pairs only, a sale that is not QUALIFIED contributes nothing to
an open week. -/
theorem openBlocksFold_run (org : Org) {events : List Event}
    (h : Along step ReopensWholePairs (Db.empty org) events) :
    OpenBlocksFold (run step (Db.empty org) events) :=
  (run_invariant (I := FoldWf) (fun _ _ hI hc => foldWf_step hI hc) (foldWf_empty org)
    h).openBlocksFold

def uplineFinalized : List Event :=
  [⟨sampleNow, .upsertSale (sampleSale "A-1")⟩, ⟨sampleNow, .transitionStatement 2 .finalize⟩]

theorem openBlocksFold_run_reopened :
    OpenBlocksFold (run step (Db.empty sampleOrg)
      (uplineFinalized ++ [⟨sampleNow, .transitionStatement 2 .reopen⟩])) :=
  openBlocksFold_run sampleOrg (by decide +kernel)

/-- The sale is reversed before the upline's week is reopened. -/
def reopenedAfterReversal : List Event :=
  uplineFinalized ++ [⟨sampleNow, .transitionSale "A-1" .reverse none⟩,
    ⟨sampleNow, .transitionStatement 2 .reopen⟩]

theorem not_openBlocksFold_reopenedAfterReversal :
    ¬ OpenBlocksFold (run step (Db.empty sampleOrg) reopenedAfterReversal) := by
  intro h
  have hblock : ∀ s ∈ (run step (Db.empty sampleOrg) reopenedAfterReversal).statements,
      s.status = .open →
      (payableBlock (promoteReleasedHolds (Stamp.ofMs sampleNow)
        (run step (Db.empty sampleOrg) reopenedAfterReversal)).overrides s.repId
        s.weekStartUtc).payCents = openEarnCents (promoteReleasedHolds (Stamp.ofMs sampleNow)
        (run step (Db.empty sampleOrg) reopenedAfterReversal)) s.repId s.weekStartUtc := by
    intro s hs hst
    obtain ⟨_, _, heq, hsum⟩ := h s hs hst (Stamp.ofMs sampleNow)
    obtain ⟨hb, hd⟩ := (Prod.mk.injEq _ _ _ _).mp heq
    rw [← (Except.ok.injEq _ _).mp hb, ← hd] at hsum
    exact hsum
  revert hblock
  decide +kernel

end HomefrontFiber.Commission
