import HomefrontFiber.Commission.Ledger
import HomefrontFiber.Commission.Steps

/-!
# Well-formed commission tables

The integrity of the tables that every run keeps: ids count rows, external ids and statement
weeks are unique, override pairs alternate and belong to a stored sale, adjustments to a stored
statement. Each write of the service is shown to keep it, and `wf_run` collects them.
-/

namespace HomefrontFiber.Commission

open Alternating List
open Service (Keeps Triple bind_apply bind_pure_store check_apply read_apply write_apply)

def Statement.key (s : Statement) : Nat × Stamp := (s.repId, s.weekStartUtc)

structure Wf (db : Db) : Prop where
  saleIds : Numbered (·.id) db.sales
  externalIds : (db.sales.map (·.externalId)).Nodup
  statementIds : Numbered (·.id) db.statements
  weeks : (db.statements.map Statement.key).Nodup
  adjustmentIds : Numbered (·.id) db.adjustments
  adjustmentRefs : ∀ a ∈ db.adjustments, a.statementId ≤ db.statements.length
  ledger : LedgerWf db.overrides
  saleRefs : ∀ r ∈ db.overrides, r.saleId ∈ db.sales.map (·.id)

theorem wf_empty (org : Org) : Wf (Db.empty org) where
  saleIds := Numbered.nil
  externalIds := nodup_nil
  statementIds := Numbered.nil
  weeks := nodup_nil
  adjustmentIds := Numbered.nil
  adjustmentRefs _ h := absurd h not_mem_nil
  ledger := ledgerWf_nil
  saleRefs _ h := absurd h not_mem_nil

variable {externalId : String}

section Lookups

variable {db : Db}

theorem statementFor_eq (db : Db) (repId : Nat) (week : Stamp) :
    db.statementFor repId week = db.statements.find? (Statement.key · = (repId, week)) := by
  unfold Db.statementFor Statement.key
  simp only [Prod.mk.injEq]

variable {repId : Nat} {week : Stamp} {s : Statement}

theorem ne_of_statementFor_none (h : db.statementFor repId week = none)
    (hs : s ∈ db.statements) : s.key ≠ (repId, week) := by
  rw [statementFor_eq] at h
  simpa using find?_eq_none.mp h s hs

theorem mem_of_statementFor (h : db.statementFor repId week = some s) :
    s ∈ db.statements ∧ s.repId = repId ∧ s.weekStartUtc = week := by
  rw [statementFor_eq] at h
  obtain ⟨hmem, hk⟩ := mem_of_find?_key h
  exact ⟨hmem, congrArg Prod.fst hk, congrArg Prod.snd hk⟩

theorem Wf.statementFor_of_mem (h : Wf db) (hs : s ∈ db.statements) :
    db.statementFor s.repId s.weekStartUtc = some s := by
  rw [statementFor_eq]
  exact find?_key h.weeks hs

theorem mem_of_statementById {id : Nat} (h : db.statementById id = some s) :
    s ∈ db.statements ∧ s.id = id := mem_of_find?_key h

theorem Wf.statementById_of_mem (h : Wf db) (hs : s ∈ db.statements) :
    db.statementById s.id = some s := find?_key h.statementIds.nodup hs

theorem Wf.saleById_of_mem (h : Wf db) {s : Sale} (hs : s ∈ db.sales) :
    db.saleById s.id = some s := find?_key h.saleIds.nodup hs

theorem mem_of_saleByExternalId {s : Sale}
    (h : db.saleByExternalId externalId = some s) : s ∈ db.sales ∧ s.externalId = externalId :=
  mem_of_find?_key h

theorem mem_of_saleById {id : Nat} {s : Sale} (h : db.saleById id = some s) :
    s ∈ db.sales ∧ s.id = id := mem_of_find?_key h

theorem Wf.weekLocked_of_mem (h : Wf db) (hs : s ∈ db.statements) :
    db.weekLocked s.repId s.weekStartUtc = s.status.locked := by
  rw [Db.weekLocked, h.statementFor_of_mem hs]
  rfl

end Lookups

section Writes

variable {db : Db} {now : Stamp}

/-- Other tables may change as long as the ones that `Wf` speaks of stay. -/
theorem Wf.of_eq (h : Wf db) {db' : Db} (hs : db'.sales = db.sales)
    (ht : db'.statements = db.statements) (ha : db'.adjustments = db.adjustments)
    (ho : db'.overrides = db.overrides) : Wf db' where
  saleIds := hs ▸ h.saleIds
  externalIds := hs ▸ h.externalIds
  statementIds := ht ▸ h.statementIds
  weeks := ht ▸ h.weeks
  adjustmentIds := ha ▸ h.adjustmentIds
  adjustmentRefs := by rw [ha, ht]; exact h.adjustmentRefs
  ledger := ho ▸ h.ledger
  saleRefs := by rw [ho, hs]; exact h.saleRefs

theorem Wf.withOverrides (h : Wf db) {rows : List OverrideRow} (hrows : LedgerWf rows)
    (hrefs : ∀ r ∈ rows, r.saleId ∈ db.sales.map (·.id)) : Wf { db with overrides := rows } :=
  { h with ledger := hrows, saleRefs := hrefs }

theorem Wf.mapOverrides (h : Wf db) {f : OverrideRow → OverrideRow} (hf : KeepsPair f)
    (hopen : ∀ e ∈ db.overrides, OpenEarn e → OpenEarn (f e))
    (hcouple : ∀ e ∈ db.overrides, ∀ c ∈ db.overrides, Couple e c → Couple (f e) (f c))
    (hsettled : ∀ r ∈ db.overrides,
      (f r).status = .settled ↔ (f r).settledStatementId.isSome) :
    Wf { db with overrides := db.overrides.map f } := by
  refine h.withOverrides (h.ledger.map hf hopen hcouple hsettled) fun r hr => ?_
  obtain ⟨r', hr', rfl⟩ := mem_map.mp hr
  rw [(hf r').2.1]
  exact h.saleRefs r' hr'

variable {p : OverrideRow → Prop} {e : OverrideRow} {adjustmentId : Nat} {I : Db → Prop}
  {f : Sale → Sale} {sale : Sale} {input : AdjustmentInput} {stmt : Statement} {action : Action}

/-- The rows that satisfy `p` are moved to another lifecycle status. -/
theorem Wf.lifecycle (h : Wf db) [DecidablePred p]
    {g : OverrideRow → OverrideRow} (hg : ∀ r, SameEntry (g r) r)
    (hweek : ∀ r, (g r).earnedWeekStartUtc = r.earnedWeekStartUtc)
    (hheld : ∀ r, (g r).status ≠ .held) (hopen : ∀ r ∈ db.overrides, p r → OpenEarn r →
      ((g r).status = .resolved ↔ (g r).resolvedAdjustmentId.isSome))
    (hsettled : ∀ r ∈ db.overrides, p r →
      ((g r).status = .settled ↔ (g r).settledStatementId.isSome)) :
    Wf { db with overrides := db.overrides.map fun r => if p r then g r else r } := by
  have hsame : ∀ r, SameEntry (if p r then g r else r) r := fun r => (hg r).ite
  have hw : ∀ r, (if p r then g r else r).earnedWeekStartUtc = r.earnedWeekStartUtc := by
    intro r
    split
    · exact hweek r
    · rfl
  have hst : ∀ r, r.status ≠ .held → (if p r then g r else r).status ≠ .held := by
    intro r hr
    split
    · exact hheld r
    · exact hr
  refine h.mapOverrides (SameEntry.keepsPair hsame) (fun r hr ho => ⟨(hsame r).entryType.trans ho.1, ?_⟩)
    (fun e _ c _ hec => hec.of_sameEntry (hsame e) (hsame c)
      (by rw [hw, hw, hec.week]) (hst e hec.earn_not_held) (hst c hec.claw_not_held)) fun r hr => ?_
  · split
    · exact hopen r hr ‹_› ho
    · exact ho.2
  · split
    · exact hsettled r hr ‹_›
    · exact h.ledger.settled r hr

theorem sameEntry_release (db : Db) (now : Stamp) (r : OverrideRow) :
    SameEntry (if HoldDue now r then releaseRow db now r else r) r := by
  split
  · unfold releaseRow
    split <;> exact ⟨rfl, rfl, rfl, rfl, rfl, rfl, rfl⟩
  · exact SameEntry.refl r

theorem releaseRow_status (db : Db) {r : OverrideRow} (h : HoldDue now r) :
    ((releaseRow db now r).status = .exception ∨ (releaseRow db now r).status = .payable) ∧
      (releaseRow db now r).entryType = r.entryType ∧
      (releaseRow db now r).resolvedAdjustmentId = r.resolvedAdjustmentId ∧
      (releaseRow db now r).settledStatementId = r.settledStatementId := by
  obtain ⟨_, after, hafter, _⟩ := h
  rw [Option.mem_def] at hafter
  unfold releaseRow
  rw [hafter]
  dsimp only
  refine ⟨?_, rfl, rfl, rfl⟩
  split
  · exact .inl rfl
  · exact .inr rfl

theorem openEarn_releaseRow (db : Db) (hdue : HoldDue now e) (h : OpenEarn e) :
    OpenEarn (releaseRow db now e) := by
  obtain ⟨hst, het, hra, _⟩ := releaseRow_status db hdue
  refine ⟨het.trans h.1, ?_⟩
  have hnone := mt h.2.mpr (by rw [hdue.1]; decide)
  rw [hra]
  rcases hst with hst | hst <;> simp [hst, hnone]

theorem openEarn_release (db : Db) (h : OpenEarn e) :
    OpenEarn (if HoldDue now e then releaseRow db now e else e) := by
  split
  · exact openEarn_releaseRow db ‹_› h
  · exact h

theorem Wf.release (h : Wf db) [DecidablePred p] (hp : ∀ r, p r → HoldDue now r) :
    Wf { db with overrides := db.overrides.map fun r => if p r then releaseRow db now r else r } := by
  have hsame : ∀ r, SameEntry (if p r then releaseRow db now r else r) r := by
    intro r
    split
    · have hdue := sameEntry_release db now r
      rwa [if_pos (hp r ‹_›)] at hdue
    · exact SameEntry.refl r
  refine h.mapOverrides (SameEntry.keepsPair hsame) (fun e _ he => ?_) ?_ ?_
  · split
    · exact openEarn_releaseRow db (hp e ‹_›) he
    · exact he
  · intro e _ c _ hec
    rw [if_neg fun hdue => hec.earn_not_held (hp e hdue).1,
      if_neg fun hdue => hec.claw_not_held (hp c hdue).1]
    exact hec
  · intro r hr
    split
    · rename_i hdue
      obtain ⟨hst, _, _, hss⟩ := releaseRow_status db (hp r hdue)
      have hnone := mt (h.ledger.settled r hr).mpr (by rw [(hp r hdue).1]; decide)
      rw [hss]
      rcases hst with hst | hst <;> simp [hst, hnone]
    · exact h.ledger.settled r hr

theorem wf_promoteReleasedHolds (h : Wf db) : Wf (promoteReleasedHolds now db) :=
  h.release fun _ hdue => hdue

theorem wf_markWeekSettled (h : Wf db) (repId : Nat) (week : Stamp) (id : Nat) :
    Wf (markWeekSettled repId week id now db) := by
  refine h.lifecycle (p := PayableIn repId week) (fun r => ⟨rfl, rfl, rfl, rfl, rfl, rfl, rfl⟩)
    (fun _ => rfl) (fun _ => by simp) (fun r _ hp ho => ?_) fun r _ _ => by simp
  have hnone := mt ho.2.mpr (by rw [hp.2.2]; decide)
  simpa using hnone

theorem wf_markStatementReopened (h : Wf db) (id : Nat) :
    Wf (markStatementReopened id now db) := by
  refine h.lifecycle (p := SettledBy id) (fun r => ⟨rfl, rfl, rfl, rfl, rfl, rfl, rfl⟩)
    (fun _ => rfl) (fun _ => by simp) (fun r _ hs ho => ?_) fun r _ _ => by simp
  have hnone := mt ho.2.mpr (by rw [hs.1]; decide)
  simpa using hnone

theorem wf_resolveException (h : Wf db) {id : Nat}
    (hopen : ∃ r ∈ db.overrides, r.id = id ∧ r.status = .exception) :
    Wf { db with
      overrides := updateRow db.overrides id fun r =>
        { r with
          status := .resolved
          resolvedAdjustmentId := some adjustmentId
          updatedAt := now } } := by
  obtain ⟨x, hx, hid, hst⟩ := hopen
  refine h.lifecycle (p := fun r => r.id = id)
    (fun r => ⟨rfl, rfl, rfl, rfl, rfl, rfl, rfl⟩) (fun _ => rfl) (fun _ => by simp)
    (fun r _ _ _ => by simp) fun r hr hrid => ?_
  have hrx := h.ledger.ids.eq_of_key hr hx (hrid.trans hid.symm)
  have hnone := mt (h.ledger.settled r hr).mpr (by rw [hrx, hst]; decide)
  simpa using hnone

theorem resolveException_keeps {id : Nat}
    (h : ∀ db, I db → (∃ r ∈ db.overrides, r.id = id ∧ r.status = .exception) →
      I { db with
        overrides := updateRow db.overrides id fun r =>
          { r with
            status := .resolved
            resolvedAdjustmentId := some adjustmentId
            updatedAt := now } }) :
    Keeps I (resolveException id adjustmentId now) := by
  unfold resolveException
  refine Triple.bind (Q := fun isOpen db => I db ∧
      (isOpen = true → ∃ r ∈ db.overrides, r.id = id ∧ r.status = .exception))
    (Triple.read fun db hI => ⟨hI, by simp⟩) fun isOpen => ?_
  split
  · exact Triple.write fun db hI => h db hI.1 (hI.2 ‹_›)
  · exact Triple.throw fun db hI => hI.1

theorem Wf.updateStatement (h : Wf db) (id : Nat) {f : Statement → Statement}
    (hid : ∀ s, (f s).id = s.id) (hkey : ∀ s, (f s).key = s.key) : Wf (db.updateStatement id f) :=
  { h with
    statementIds := h.statementIds.map fun s _ => by split <;> simp [hid]
    weeks := nodup_key_map h.weeks fun s => by split <;> simp [hkey]
    adjustmentRefs := by
      intro a ha
      rw [Db.updateStatement, length_map]
      exact h.adjustmentRefs a ha }

theorem wf_storePricing (h : Wf db) (repId : Nat) (bounds : WeekBounds) (p : StatementPricing) :
    Wf (storePricing repId bounds (db.statementFor repId bounds.weekStartUtc) p now db) := by
  unfold storePricing
  cases hs : db.statementFor repId bounds.weekStartUtc with
  | some s =>
    dsimp only
    split
    · exact h
    · exact h.updateStatement _ (fun _ => rfl) fun _ => rfl
  | none =>
    rw [statementFor_eq] at hs
    exact { h with
      statementIds := h.statementIds.snoc rfl
      weeks := nodup_key_snoc h.weeks hs
      adjustmentRefs := by
        intro a ha
        rw [length_append]
        exact (h.adjustmentRefs a ha).trans (Nat.le_add_right _ _) }

theorem Wf.updateSale (h : Wf db) (id : Nat) (hid : ∀ s, (f s).id = s.id)
    (hext : ∀ s, (f s).externalId = s.externalId) : Wf (db.updateSale id f) :=
  { h with
    saleIds := h.saleIds.map fun s _ => by split <;> simp [hid]
    externalIds := nodup_key_map h.externalIds fun s => by split <;> simp [hext]
    saleRefs := by
      intro r hr
      obtain ⟨s, hs, he⟩ := mem_map.mp (h.saleRefs r hr)
      refine mem_map.mpr ⟨_, mem_map_of_mem hs, ?_⟩
      split
      · rw [hid, he]
      · exact he }

theorem Sale.transitioned_id (s : Sale) (action : SaleAction) (at_ now : Stamp) :
    (s.transitioned action at_ now).id = s.id ∧
      (s.transitioned action at_ now).externalId = s.externalId := by
  cases action <;> exact ⟨rfl, rfl⟩

theorem wf_storeSale (h : Wf db) (input : SaleInput) (w : SaleWrite) :
    Wf (storeSale input w now db) := by
  unfold storeSale
  cases hs : db.saleByExternalId input.externalId with
  | some s => exact h.updateSale _ (fun _ => rfl) fun _ => rfl
  | none =>
    exact { h with
      saleIds := h.saleIds.snoc rfl
      externalIds := nodup_key_snoc h.externalIds hs
      saleRefs := by
        intro r hr
        rw [map_append]
        exact mem_append_left _ (h.saleRefs r hr) }

theorem saleByExternalId_updateSale {s : Sale} (hext : ∀ s, (f s).externalId = s.externalId)
    (hs : db.saleByExternalId externalId = some s) :
    (db.updateSale s.id f).saleByExternalId externalId = some (f s) := by
  unfold Db.saleByExternalId Db.updateSale at *
  rw [find?_key_map (f := fun x => if x.id = s.id then f x else x)
    (fun x => by split <;> simp [hext]), hs]
  exact congrArg some (if_pos rfl)

theorem transitionVerdict_ok {action : SaleAction} {at_ : Option RawStamp}
    (h : transitionVerdict externalId action at_ now db = .ok sale) :
    db.saleByExternalId externalId = some sale := by
  unfold transitionVerdict at h
  split at h
  · simp at h
  · rename_i s hs
    split at h
    · cases hv : assertWeekOpenForQualify db s.repId
          ((s.transitioned .qualify (transitionAt db at_ now) now).basisTsForSale
            db.org.config.qualificationBasis) with
      | error e => simp [hv, Except.map] at h
      | ok u =>
        simp only [hv, Except.map, Except.ok.injEq] at h
        rw [hs, h]
    · simp only [Except.ok.injEq] at h
      rw [hs, h]

theorem storeSale_stored (input : SaleInput) (w : SaleWrite) :
    ∃ sale, (storeSale input w now db).saleByExternalId input.externalId = some sale ∧
      ((∃ s, db.saleByExternalId input.externalId = some s ∧ sale = s.overwritten input w now) ∨
        (db.saleByExternalId input.externalId = none ∧
          sale = newSale (db.sales.length + 1) input w now)) := by
  unfold storeSale
  cases hs : db.saleByExternalId input.externalId with
  | some s =>
    exact ⟨_, saleByExternalId_updateSale (f := (·.overwritten input w now)) (fun _ => rfl) hs,
      .inl ⟨s, rfl, rfl⟩⟩
  | none =>
    refine ⟨_, ?_, .inr ⟨rfl, rfl⟩⟩
    unfold Db.saleByExternalId at *
    rw [find?_key_append hs]
    exact if_pos rfl

/-- The rule for a sync of well-formed tables: `I` survives the opening of an award's closed pair
and the closing of an open one. -/
theorem syncOverridesForSale_keeps (h : Wf db) (hI : I db) (x : Nat) (week : Stamp)
    (hopen : ∀ sale rows, db.saleById x = some sale → sale.status = .qualified →
      Wf { db with overrides := rows } → I { db with overrides := rows } →
      ∀ a ∈ (saleAwards db sale).1, Closed Couple (pairRows rows sale.id a.repId) →
      I { db with overrides := rows ++ [earnRow { db with overrides := rows } now sale week
        (saleAwards db sale).2 a (pairRows rows sale.id a.repId).length] })
    (hclose : ∀ sale rows, db.saleById x = some sale → sale.status ≠ .qualified →
      Wf { db with overrides := rows } → I { db with overrides := rows } →
      ∀ b l earn, pairRows rows x b = l ++ [earn] → Closed Couple l → OpenEarn earn →
      I { db with overrides := closedRows now rows l earn }) :
    Wf (syncOverridesForSale x week now db) ∧ I (syncOverridesForSale x week now db) := by
  have key := syncOverridesForSale_rows x week now (I := fun rows =>
    (∀ r ∈ rows, r.saleId ∈ db.sales.map (·.id)) ∧ I { db with overrides := rows })
    h.ledger ⟨h.saleRefs, hI⟩ ?_ ?_
  · obtain ⟨rows, he, hrows, hI, _⟩ := key
    rw [he]
    exact ⟨h.withOverrides hrows hI.1, hI.2⟩
  · intro sale hs hq a ha rows hw hI hc
    refine ⟨fun r hr => ?_, hopen sale rows hs hq (h.withOverrides hw hI.1) hI.2 a ha hc⟩
    rcases mem_append.mp hr with hr | hr
    · exact hI.1 r hr
    · rw [mem_singleton.mp hr]
      exact mem_map_of_mem (mem_of_saleById hs).1
  · intro sale hs hq b rows l earn hw hI hpair hc ho
    refine ⟨fun r hr => ?_,
      hclose sale rows hs hq (h.withOverrides hw hI.1) hI.2 b l earn hpair hc ho⟩
    rcases mem_append.mp hr with hr | hr
    · obtain ⟨r', hr', rfl⟩ := mem_map.mp hr
      rw [(keepsPair_mootRow now earn r').2.1]
      exact hI.1 r' hr'
    · rw [mem_singleton.mp hr]
      exact hI.1 earn (mem_of_pairRows hpair).1

theorem syncOverridesForSale_tables (h : Wf db) (x : Nat) (week now : Stamp) :
    ∃ rows, syncOverridesForSale x week now db = { db with overrides := rows } := by
  obtain ⟨rows, he, _⟩ := syncOverridesForSale_rows (I := fun _ => True) x week now h.ledger trivial
    (fun _ _ _ _ _ _ _ _ _ => trivial) fun _ _ _ _ _ _ _ _ _ _ _ _ => trivial
  exact ⟨rows, he⟩

theorem wf_syncOverridesForSale (h : Wf db) (x : Nat) (week : Stamp) :
    Wf (syncOverridesForSale x week now db) :=
  (syncOverridesForSale_keeps (I := fun _ => True) h trivial x week
    (fun _ _ _ _ _ _ _ _ _ => trivial) fun _ _ _ _ _ _ _ _ _ _ _ _ => trivial).1

theorem wf_calculate (repId : Nat) (ms : Int) :
    Keeps Wf (calculateOrRecalculateStatement repId ms now) :=
  calculateOrRecalculateStatement_keeps (fun _ h => wf_promoteReleasedHolds h)
    fun _ p h _ _ => wf_storePricing (wf_promoteReleasedHolds h) repId _ p

theorem Wf.setStatementStatus (h : Wf db) (id : Nat) (status : StatementStatus) :
    Wf (setStatementStatus id status now db) := h.updateStatement id (fun _ => rfl) fun _ => rfl

theorem wf_applyApprovedAdjustments (id : Nat) :
    Keeps Wf (applyApprovedAdjustments id now) :=
  applyApprovedAdjustments_keeps fun _ _ h _ => h.updateStatement _ (fun _ => rfl) fun _ => rfl

theorem adjustmentVerdict_ok (h : adjustmentVerdict input db = .ok stmt) :
    db.statementById input.statementId = some stmt := by
  unfold adjustmentVerdict at h
  split at h
  · simp at h
  · rename_i s hs
    repeat' split at h
    all_goals simp only [Except.ok.injEq, reduceCtorEq] at h
    rw [hs, h]

theorem wf_adjustment (h : Wf db) {row : Adjustment}
    (hv : adjustmentVerdict input db = .ok stmt) (hid : row.id = db.adjustments.length + 1)
    (hstmt : row.statementId = input.statementId) :
    Wf { db with adjustments := db.adjustments ++ [row] } := by
  obtain ⟨hs, hsid⟩ := mem_of_statementById (adjustmentVerdict_ok hv)
  exact { h with
    adjustmentIds := h.adjustmentIds.snoc hid
    adjustmentRefs := by
      intro a ha
      rcases mem_append.mp ha with ha | ha
      · exact h.adjustmentRefs a ha
      · rw [mem_singleton.mp ha, hstmt, ← hsid]
        exact h.statementIds.le_length hs }

theorem wf_createAdjustment (input : AdjustmentInput) :
    Keeps Wf (createAdjustment input) :=
  createAdjustment_keeps fun _ _ _ h hv hid hstmt _ => wf_adjustment h hv hid hstmt

theorem wf_setAdjustmentStatus (h : Wf db) (id : Nat) (status : AdjustmentStatus) :
    Wf (setAdjustmentStatus id status db) :=
  { h with
    adjustmentIds := h.adjustmentIds.map fun a _ => by split <;> rfl
    adjustmentRefs := by
      intro a ha
      obtain ⟨a', ha', rfl⟩ := mem_map.mp ha
      split <;> exact h.adjustmentRefs a' ha' }

theorem wf_decideAdjustment (id : Nat) (decision : Decision) :
    Keeps Wf (decideAdjustment id decision now) :=
  decideAdjustment_keeps (fun _ h => wf_setAdjustmentStatus h _ _) wf_applyApprovedAdjustments
    wf_calculate

theorem wf_transitionStatement (id : Nat) (action : StatementAction) :
    Keeps Wf (transitionStatement id action now) :=
  transitionStatement_keeps wf_calculate
    (fun _ _ h => (wf_markWeekSettled h _ _ _).setStatementStatus _ _)
    (fun _ _ h _ _ => (wf_markStatementReopened h _).setStatementStatus _ _)
    fun _ _ h => h.setStatementStatus _ _

/-- `db'` is `db` after the write of the row `sale`. -/
structure SaleStored (db : Db) (sale : Sale) (db' : Db) : Prop where
  tables : db' = { db with sales := db'.sales }
  wf : Wf db'
  found : db'.saleById sale.id = some sale
  others : ∀ y, y ≠ sale.id → db'.saleById y = db.saleById y

theorem Wf.saleStored_updateSale (h : Wf db) {s : Sale}
    (hid : ∀ s, (f s).id = s.id) (hext : ∀ s, (f s).externalId = s.externalId)
    (hs : db.saleByExternalId externalId = some s) :
    SaleStored db (f s) (db.updateSale s.id f) := by
  have hfind : ∀ y, (db.updateSale s.id f).saleById y =
      (db.saleById y).map fun x => if x.id = s.id then f x else x :=
    fun y => find?_key_map (fun x => by split <;> simp [hid]) y
  refine ⟨rfl, h.updateSale _ hid hext, ?_, fun y hy => ?_⟩
  · rw [hfind, hid, h.saleById_of_mem (mem_of_saleByExternalId hs).1]
    exact congrArg some (if_pos rfl)
  · rw [hfind]
    cases hx : db.saleById y with
    | none => rfl
    | some x =>
      have hne : x.id ≠ s.id := by rwa [(mem_of_saleById hx).2, ← hid s]
      exact congrArg some (if_neg hne)

theorem Wf.saleStored_storeSale (h : Wf db) (now : Stamp) (input : SaleInput) (w : SaleWrite) :
    ∃ sale, (storeSale input w now db).saleByExternalId input.externalId = some sale ∧
      SaleStored db sale (storeSale input w now db) := by
  obtain ⟨sale, hfound, hsale⟩ := storeSale_stored input w
  refine ⟨sale, hfound, ?_⟩
  have hwf : Wf (storeSale input w now db) := wf_storeSale h input w
  rcases hsale with ⟨s, hs, rfl⟩ | ⟨hnone, rfl⟩
  · unfold storeSale
    rw [hs]
    exact h.saleStored_updateSale (f := (·.overwritten input w now)) (fun _ => rfl)
      (fun _ => rfl) hs
  · have hmem := (mem_of_saleByExternalId hfound).1
    refine ⟨?_, hwf, hwf.saleById_of_mem hmem, fun y hy => ?_⟩
    · unfold storeSale
      rw [hnone]
    · unfold storeSale
      rw [hnone]
      unfold Db.saleById
      rw [find?_append]
      cases hy' : db.sales.find? (·.id = y) with
      | some x => rfl
      | none =>
        rw [Option.none_or, find?_cons_of_neg (by simpa [eq_comm] using hy)]
        rfl

theorem reconcileStored_apply (h : db.saleByExternalId externalId = some sale) :
    (reconcileStored externalId now db).2 = (reconcileSaleSideEffects sale now db).2 := by
  unfold reconcileStored
  rw [bind_apply, read_apply, h]
  dsimp only
  rw [bind_apply]
  rcases reconcileSaleSideEffects sale now db with ⟨_ | _, _⟩ <;> rfl

theorem upsertSale_cases (h : Wf db) (input : SaleInput) :
    (upsertWritten db now input = none ∧ (upsertSale input now db).2 = db) ∨
    ∃ sale db', upsertWritten db now input = some sale ∧ SaleStored db sale db' ∧
      (upsertSale input now db).2 = (reconcileSaleSideEffects sale now db').2 := by
  unfold upsertWritten upsertSale
  rw [bind_apply, check_apply]
  cases hv : saleVerdict input db with
  | error e => exact .inl ⟨rfl, rfl⟩
  | ok w =>
    obtain ⟨sale, hfound, hstored⟩ := h.saleStored_storeSale now input w
    refine .inr ⟨sale, _, hfound, hstored, ?_⟩
    dsimp only
    rw [bind_apply, write_apply, ← reconcileStored_apply hfound]
    exact bind_pure_store _ _ _

theorem transitionSale_cases (h : Wf db) (externalId : String) (action : SaleAction)
    (at_ : Option RawStamp) :
    (transitionWritten db now externalId action at_ = none ∧
      (transitionSale externalId action at_ now db).2 = db) ∨
    ∃ sale db', transitionWritten db now externalId action at_ = some sale ∧
      SaleStored db sale db' ∧
      (transitionSale externalId action at_ now db).2 =
        (reconcileSaleSideEffects sale now db').2 := by
  unfold transitionWritten transitionSale
  rw [bind_apply, check_apply]
  cases hv : transitionVerdict externalId action at_ now db with
  | error e => exact .inl ⟨rfl, rfl⟩
  | ok s =>
    have hs := transitionVerdict_ok hv
    have hext := fun x => (Sale.transitioned_id x action (transitionAt db at_ now) now).2
    refine .inr ⟨_, _, rfl, h.saleStored_updateSale
      (fun x => (x.transitioned_id action (transitionAt db at_ now) now).1) hext hs, ?_⟩
    dsimp only
    rw [bind_apply, write_apply,
      ← reconcileStored_apply (saleByExternalId_updateSale hext hs)]

theorem recordFieldSaleFromKnock_apply (input : FieldSaleInput) :
    (recordFieldSaleFromKnock input now db).2 =
      if (db.saleByExternalId (fieldSaleExternalId input.leadId)).map (·.status) =
          some .qualified then db
      else (upsertSale (fieldSale input db) now db).2 := by
  unfold recordFieldSaleFromKnock
  rw [bind_apply, read_apply]
  dsimp only
  split
  · rfl
  · rw [bind_apply, read_apply]
    exact bind_pure_store _ _ db

theorem reverseFieldSale_apply (leadId : Nat) :
    (reverseFieldSale leadId now db).2 =
      if (db.saleByExternalId (fieldSaleExternalId leadId)).all (·.status = .reversed) then db
      else (transitionSale (fieldSaleExternalId leadId) .reverse none now db).2 := by
  unfold reverseFieldSale
  rw [bind_apply, read_apply]
  dsimp only
  split
  · rfl
  · exact bind_pure_store _ _ db

/-- What an action on a sale can do: nothing, or store the row `saleWritten` and reconcile it. -/
theorem perform_sale_cases (now : Stamp) (h : Wf db) (hx : action.saleExternalId.isSome) :
    (saleWritten db now action = none ∧ (perform action now db).2 = db) ∨
    ∃ sale db', saleWritten db now action = some sale ∧ SaleStored db sale db' ∧
      (perform action now db).2 = (reconcileSaleSideEffects sale now db').2 := by
  cases action with
  | upsertSale input =>
    rw [show (perform (.upsertSale input) now db).2 = (upsertSale input now db).2 from
      bind_pure_store _ _ db]
    exact upsertSale_cases h input
  | transitionSale externalId action at_ =>
    rw [show (perform (.transitionSale externalId action at_) now db).2 =
      (transitionSale externalId action at_ now db).2 from bind_pure_store _ _ db]
    exact transitionSale_cases h externalId action at_
  | recordFieldSaleFromKnock input =>
    unfold perform saleWritten
    dsimp only
    rw [recordFieldSaleFromKnock_apply]
    split
    · exact .inl ⟨rfl, rfl⟩
    · exact upsertSale_cases h _
  | reverseFieldSale leadId =>
    unfold perform saleWritten
    dsimp only
    rw [reverseFieldSale_apply]
    split
    · exact .inl ⟨rfl, rfl⟩
    · exact transitionSale_cases h _ _ _
  | _ => simp [Action.saleExternalId] at hx

/-- The rule for the actions on sales: an invariant of the sync of the stored sale that every
recomputation keeps. -/
theorem perform_sale (h : Wf db) (hI : I db) (hx : action.saleExternalId.isSome)
    (hsync : ∀ sale db', saleWritten db now action = some sale → SaleStored db sale db' →
      I (syncOverridesForSale sale.id (saleWeek db' sale) now db'))
    (hcalc : ∀ repId ms, Keeps I (calculateOrRecalculateStatement repId ms now)) :
    I (perform action now db).2 := by
  rcases perform_sale_cases now h hx with ⟨_, hp⟩ | ⟨sale, db', hw, hs, hp⟩
  · rw [hp]
    exact hI
  · rw [hp]
    refine (reconcileSaleSideEffects_triple (K := (· = db')) ?_ hcalc).store rfl
    rintro _ rfl
    exact hsync sale _ hw hs

theorem wf_step (h : Wf db) (e : Event) : Wf (step db e) := by
  unfold step
  by_cases hx : e.action.saleExternalId.isSome
  · exact perform_sale h h hx (fun _ _ _ hs => wf_syncOverridesForSale hs.wf _ _) wf_calculate
  · cases ha : e.action with
    | upsertSale | transitionSale | recordFieldSaleFromKnock | reverseFieldSale =>
      simp [ha, Action.saleExternalId] at hx
    | calculateOrRecalculateStatement repId ms =>
      exact (recalculate_keeps (wf_calculate _ _)).store h
    | promoteReleasedHolds => exact wf_promoteReleasedHolds h
    | createAdjustment input => exact (wf_createAdjustment input).store h
    | decideAdjustment id decision => exact (wf_decideAdjustment id decision).store h
    | applyApprovedAdjustments id => exact (wf_applyApprovedAdjustments id).store h
    | transitionStatement id action => exact (wf_transitionStatement id action).store h
    | resolveException id adj =>
      exact (resolveException_keeps fun _ h ho => wf_resolveException h ho).store h
    | editOrg org => exact h.of_eq rfl rfl rfl rfl
    | editCommissions cs => exact h.of_eq rfl rfl rfl rfl

/-- What the calls that store no sale write keeps `X`, on a well-formed store. -/
structure KeptByWrites (X : Db → Prop) (now : Stamp) : Prop where
  calculate : ∀ repId ms, Keeps (fun db => Wf db ∧ X db)
    (calculateOrRecalculateStatement repId ms now)
  apply : ∀ id, Keeps (fun db => Wf db ∧ X db) (applyApprovedAdjustments id now)
  promote : ∀ {db}, Wf db → X db → X (promoteReleasedHolds now db)
  create : ∀ {db} row, row.status = .pending → X db → X { db with adjustments := db.adjustments ++ [row] }
  resolve : ∀ {db id} adjustmentId, Wf db → X db →
    (∃ r ∈ db.overrides, r.id = id ∧ r.status = .exception) →
    X { db with
      overrides := updateRow db.overrides id fun r =>
        { r with
          status := .resolved
          resolvedAdjustmentId := some adjustmentId
          updatedAt := now } }
  commissions : ∀ {db} cs, X db → X { db with commissions := cs }

theorem KeptByWrites.decide {X : Db → Prop} (hX : KeptByWrites X now)
    (hset : ∀ {db} id status, X db → X (setAdjustmentStatus id status db)) (id : Nat)
    (decision : Decision) :
    Keeps (fun db => Wf db ∧ X db) (decideAdjustment id decision now) :=
  decideAdjustment_keeps (fun _ h => ⟨wf_setAdjustmentStatus h.1 _ _, hset _ _ h.2⟩) hX.apply
    hX.calculate

/-- The rule for the other actions. Decisions, transitions and edits of the organisation may keep
`X` under a condition of their own. -/
theorem KeptByWrites.perform {X : Db → Prop} (hX : KeptByWrites X now) (h : Wf db ∧ X db)
    (hx : ¬ action.saleExternalId.isSome)
    (hdecide : ∀ id decision, action = .decideAdjustment id decision →
      Wf (decideAdjustment id decision now db).2 ∧ X (decideAdjustment id decision now db).2)
    (htransition : ∀ id step, action = .transitionStatement id step →
      Wf (transitionStatement id step now db).2 ∧ X (transitionStatement id step now db).2)
    (horg : ∀ org, action = .editOrg org → X { db with org := org }) :
    Wf (perform action now db).2 ∧ X (perform action now db).2 := by
  cases action with
  | upsertSale | transitionSale | recordFieldSaleFromKnock | reverseFieldSale =>
    simp [Action.saleExternalId] at hx
  | calculateOrRecalculateStatement repId ms =>
    exact (recalculate_keeps (hX.calculate _ _)).store h
  | promoteReleasedHolds => exact ⟨wf_promoteReleasedHolds h.1, hX.promote h.1 h.2⟩
  | createAdjustment input =>
    exact (createAdjustment_keeps (I := fun db => Wf db ∧ X db) fun _ _ _ h hv hid hs hst =>
      ⟨wf_adjustment h.1 hv hid hs, hX.create _ hst h.2⟩).store h
  | decideAdjustment id decision => exact hdecide id decision rfl
  | applyApprovedAdjustments id => exact (hX.apply id).store h
  | transitionStatement id step => exact htransition id step rfl
  | resolveException id adjustmentId =>
    exact (resolveException_keeps (I := fun db => Wf db ∧ X db) fun _ h ho =>
      ⟨wf_resolveException h.1 ho, hX.resolve _ h.1 h.2 ho⟩).store h
  | editOrg org => exact ⟨h.1.of_eq rfl rfl rfl rfl, horg org rfl⟩
  | editCommissions cs => exact ⟨h.1.of_eq rfl rfl rfl rfl, hX.commissions cs h.2⟩

end Writes

theorem wf_run (org : Org) (events : List Event) : Wf (run step (Db.empty org) events) :=
  run_invariant_all (I := Wf) (fun _ e h => wf_step h e) events (wf_empty org)

/-- Of a sale and a beneficiary the ledger holds EARNs and CLAWBACKs in turn, numbered from 0, and a
CLAWBACK takes the whole of its EARN back in its week. -/
theorem overrides_alternate (org : Org) (events : List Event) (saleId repId : Nat) :
    let rows := pairRows (run step (Db.empty org) events).overrides saleId repId
    Alternates OpenEarn Couple rows ∧ rows.map (·.pairSeq) = List.range rows.length :=
  have h := (wf_run org events).ledger
  ⟨h.pairs saleId repId, h.seqs saleId repId⟩

end HomefrontFiber.Commission
