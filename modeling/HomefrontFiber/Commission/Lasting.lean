import HomefrontFiber.Commission.OverridePairs

/-!
# What the commission tables never take back

Statements keep their identity, a PAID statement and an APPROVED adjustment stay as they are, and an
override row keeps its entry.
-/

namespace HomefrontFiber.Commission

open List

open Service (Keeps Triple bind_apply check_apply)

structure Lasts (db db' : Db) : Prop where
  statements : ∀ s ∈ db.statements, HasStatement s.id s.key db'
  paid : ∀ s ∈ db.statements, s.status = .paid → s ∈ db'.statements
  approved : ∀ a ∈ db.adjustments, a.status = .approved → a ∈ db'.adjustments
  overrides : ∀ r ∈ db.overrides, ∃ r' ∈ db'.overrides, SameEntry r' r

/-- The statement with this id, if there is one, is not PAID. -/
def NotPaid (id : Nat) (db : Db) : Prop := ∀ s ∈ db.statements, s.id = id → s.status ≠ .paid

def AmountsAdd (db : Db) : Prop :=
  ∀ s ∈ db.statements, s.finalCommissionCents =
    s.grossCommissionCents + s.adjustmentCents + s.overridePayCents

variable {p : StatementPricing} {f : Statement → Statement} {repId : Nat} {ms : Int}

section Writes

variable {db db' db'' : Db} {now : Stamp}

theorem Lasts.refl (db : Db) : Lasts db db where
  statements s hs := ⟨s, hs, rfl, rfl⟩
  paid _ hs _ := hs
  approved _ ha _ := ha
  overrides r hr := ⟨r, hr, SameEntry.refl r⟩

theorem Lasts.trans (h : Lasts db db') (h' : Lasts db' db'') : Lasts db db'' where
  statements s hs := by
    obtain ⟨s', hs', hid, hkey⟩ := h.statements s hs
    exact hid ▸ hkey ▸ h'.statements s' hs'
  paid s hs hst := h'.paid s (h.paid s hs hst) hst
  approved a ha hst := h'.approved a (h.approved a ha hst) hst
  overrides r hr := by
    obtain ⟨r', hr', hsame⟩ := h.overrides r hr
    obtain ⟨r'', hr'', hsame'⟩ := h'.overrides r' hr'
    exact ⟨r'', hr'', hsame'.trans hsame⟩

theorem Lasts.of_eq (hs : db'.statements = db.statements) (ha : db'.adjustments = db.adjustments)
    (ho : db'.overrides = db.overrides) : Lasts db db' where
  statements s h := ⟨s, hs ▸ h, rfl, rfl⟩
  paid _ h _ := hs ▸ h
  approved _ h _ := ha ▸ h
  overrides r h := ⟨r, ho ▸ h, SameEntry.refl r⟩

theorem lasts_overrides {rows : List OverrideRow}
    (h : ∀ r ∈ db.overrides, ∃ r' ∈ rows, SameEntry r' r) :
    Lasts db { db with overrides := rows } :=
  { Lasts.refl db with overrides := h }

theorem lasts_update {p : OverrideRow → Prop} [DecidablePred p] {g : OverrideRow → OverrideRow}
    (hg : ∀ r, SameEntry (g r) r) :
    Lasts db { db with overrides := db.overrides.map fun r => if p r then g r else r } :=
  lasts_overrides fun _ hr => ⟨_, mem_map_of_mem hr, (hg _).ite⟩

theorem lasts_promoteReleasedHolds (db : Db) (now : Stamp) :
    Lasts db (promoteReleasedHolds now db) :=
  lasts_overrides fun r hr => ⟨_, mem_map_of_mem hr, sameEntry_release db now r⟩

theorem lasts_updateStatement {id : Nat} (hid : ∀ s, (f s).id = s.id)
    (hkey : ∀ s, (f s).key = s.key) (h : NotPaid id db) : Lasts db (db.updateStatement id f) where
  statements s hs := hasStatement_updateStatement hid hkey ⟨s, hs, rfl, rfl⟩
  paid s hs hst := by
    have hne : s.id ≠ id := fun he => h s hs he hst
    exact mem_map.mpr ⟨s, hs, if_neg hne⟩
  approved _ ha _ := ha
  overrides r hr := ⟨r, hr, SameEntry.refl r⟩

theorem lasts_setStatementStatus {id : Nat} (h : NotPaid id db) (status : StatementStatus) :
    Lasts db (setStatementStatus id status now db) :=
  lasts_updateStatement (fun _ => rfl) (fun _ => rfl) h

theorem lasts_repriced (h : Wf db)
    (hopen : db.weekLocked repId (db.weekOf ms).weekStartUtc = false) :
    Lasts db (repriced now repId ms p db) := by
  refine (lasts_promoteReleasedHolds db now).trans ?_
  unfold repriced storePricing
  dsimp only
  cases hs : db.statementFor repId (db.weekOf ms).weekStartUtc with
  | some s =>
    dsimp only
    split
    · exact Lasts.refl _
    · refine lasts_updateStatement (fun _ => rfl) (fun _ => rfl) fun s' hs' hid hst => ?_
      have heq : s' = s := h.statementIds.eq_of_key hs' (mem_of_statementFor hs).1 hid
      rw [Db.weekLocked, hs, Option.any_some, ← heq, hst] at hopen
      cases hopen
  | none =>
    exact { Lasts.refl (promoteReleasedHolds now db) with
      statements := fun s hs => ⟨s, mem_append_left _ hs, rfl, rfl⟩
      paid := fun s hs _ => mem_append_left _ hs }

theorem notPaid_repriced (h : Wf db) {id : Nat}
    (hid : NotPaid id db) : NotPaid id (repriced now repId ms p db) := by
  intro s hs
  have hrow : s.key = (repId, (db.weekOf ms).weekStartUtc) ∧ (s.id = id → s.status ≠ .paid) ∨
      s.key ≠ (repId, (db.weekOf ms).weekStartUtc) ∧ s ∈ db.statements := by
    apply repriced_row (Q := fun s => s.id = id → s.status ≠ .paid) h _ _ _ hs
    · exact fun e he _ => hid e (mem_of_statementFor he).1
    · exact fun e he => hid e (mem_of_statementFor he).1
    · exact fun _ _ => by simp [newStatement]
  rcases hrow with ⟨_, hst⟩ | ⟨_, hold⟩
  · exact hst
  · exact hid s hold

theorem lasts_sync (h : Wf db) (x : Nat) (week : Stamp) :
    Lasts db (syncOverridesForSale x week now db) := by
  refine (syncOverridesForSale_keeps (I := Lasts db) h (Lasts.refl db) x week ?_ ?_).2
  · intro sale rows _ _ _ hrows a _ _
    refine hrows.trans (lasts_overrides fun r hr => ⟨r, ?_, SameEntry.refl r⟩)
    exact mem_append_left _ hr
  · intro sale rows _ _ _ hrows b l earn _ _ _
    refine hrows.trans (lasts_overrides fun r hr => ⟨mootRow now earn r, ?_, ?_⟩)
    · exact mem_append_left _ (mem_map_of_mem hr)
    · unfold mootRow
      exact SameEntry.ite ⟨rfl, rfl, rfl, rfl, rfl, rfl, rfl⟩

theorem lasts_setAdjustmentStatus (h : Wf db) {id : Nat} {adj : Adjustment}
    (hadj : db.adjustments.find? (·.id = id) = some adj) (hpending : adj.status = .pending)
    (status : AdjustmentStatus) : Lasts db (setAdjustmentStatus id status db) := by
  obtain ⟨hmem, hid⟩ := mem_of_find?_key hadj
  refine { Lasts.refl db with approved := fun a ha hst => mem_map.mpr ⟨a, ha, ?_⟩ }
  apply if_neg
  intro hida
  have heq : a = adj := h.adjustmentIds.eq_of_key ha hmem (hida.trans hid.symm)
  rw [heq, hpending] at hst
  cases hst

theorem calculate_lasts (repId : Nat) (ms : Int) :
    Keeps (fun db' => Wf db' ∧ Lasts db db')
      (calculateOrRecalculateStatement repId ms now) := by
  apply calculateOrRecalculateStatement_keeps
  · intro db' h
    exact ⟨wf_promoteReleasedHolds h.1, h.2.trans (lasts_promoteReleasedHolds db' now)⟩
  · intro db' p h hopen _
    exact ⟨wf_repriced h.1 _ _ _ p, h.2.trans (lasts_repriced h.1 hopen)⟩

theorem calculate_notPaid (id repId : Nat) (ms : Int) :
    Keeps (fun db => Wf db ∧ NotPaid id db)
      (calculateOrRecalculateStatement repId ms now) := by
  apply calculateOrRecalculateStatement_keeps
  · exact fun db h => ⟨wf_promoteReleasedHolds h.1, h.2⟩
  · exact fun db p h _ _ => ⟨wf_repriced h.1 _ _ _ p, notPaid_repriced h.1 h.2⟩

theorem notPaid_of_found (h : Wf db) {stmt : Statement} {id : Nat}
    (hfound : db.statementById id = some stmt) (hst : stmt.status ≠ .paid) :
    NotPaid stmt.id db := by
  intro s hs hid
  have heq : s = stmt := h.statementIds.eq_of_key hs (mem_of_statementById hfound).1 hid
  rwa [heq]

/-- The approved sum is applied to a statement that is not PAID, or nothing is written. -/
theorem applyApprovedAdjustments_cases (id : Nat) (now : Stamp) (db : Db) :
    (∃ e, applyApprovedAdjustments id now db = (.error e, db)) ∨
    ∃ stmt, db.statementById id = some stmt ∧ stmt.status ≠ .paid ∧
      applyApprovedAdjustments id now db = (.ok (), db.updateStatement stmt.id
        (·.adjusted (sumApprovedAdjustments db stmt.id) now)) := by
  unfold applyApprovedAdjustments
  rw [bind_apply, check_apply]
  cases hs : db.statementById id with
  | none => exact Or.inl ⟨_, rfl⟩
  | some stmt =>
    by_cases hst : stmt.status = .paid
    · simp only [hst, if_true]
      exact Or.inl ⟨_, rfl⟩
    · simp only [hst, if_false]
      exact Or.inr ⟨stmt, rfl, hst, rfl⟩

theorem applyApprovedAdjustments_lasts (id : Nat) :
    Keeps (fun db' => Wf db' ∧ Lasts db db') (applyApprovedAdjustments id now) := by
  intro db' h
  rcases applyApprovedAdjustments_cases id now db' with ⟨e, he⟩ | ⟨stmt, hs, hst, he⟩
  · rw [he]
    exact h
  · rw [he]
    refine ⟨h.1.updateStatement _ (fun _ => rfl) fun _ => rfl, h.2.trans ?_⟩
    exact lasts_updateStatement (fun _ => rfl) (fun _ => rfl) (notPaid_of_found h.1 hs hst)

theorem decideAdjustment_lasts (id : Nat) (decision : Decision) :
    Keeps (fun db' => Wf db' ∧ Lasts db db') (decideAdjustment id decision now) := by
  unfold decideAdjustment
  refine Triple.bind (Q := fun _ db' => (Wf db' ∧ Lasts db db') ∧
    ∃ adj, db'.adjustments.find? (·.id = id) = some adj ∧ adj.status = .pending) ?_ fun stmt => ?_
  · refine Triple.check (fun db' stmt h hv => ⟨h, ?_⟩) fun _ _ h _ => h
    unfold decisionVerdict at hv
    split at hv
    · cases hv
    · rename_i adj hadj
      split at hv
      · cases hv
      · exact ⟨adj, hadj, not_not.mp ‹_›⟩
  · refine Triple.bind (Q := fun _ db' => Wf db' ∧ Lasts db db') ?_ fun _ => ?_
    · refine Triple.write fun db' ⟨h, adj, hadj, hpending⟩ => ?_
      exact ⟨wf_setAdjustmentStatus h.1 _ _,
        h.2.trans (lasts_setAdjustmentStatus h.1 hadj hpending _)⟩
    · split
      · exact Keeps.pure ()
      · split
        · exact applyApprovedAdjustments_lasts _
        · exact recalculate_keeps (calculate_lasts _ _)
      · split
        · exact recalculate_keeps (calculate_lasts _ _)
        · exact Keeps.pure ()

theorem lasts_freeze {stmt : Statement} (h : NotPaid stmt.id db) :
    Lasts db (freeze stmt now db) := by
  have hmark : Lasts db (markWeekSettled stmt.repId stmt.weekStartUtc stmt.id now db) :=
    lasts_update fun _ => ⟨rfl, rfl, rfl, rfl, rfl, rfl, rfl⟩
  have hkept : NotPaid stmt.id (markWeekSettled stmt.repId stmt.weekStartUtc stmt.id now db) := h
  exact hmark.trans (lasts_setStatementStatus hkept .finalized)

theorem lasts_unfreeze {stmt : Statement} (h : NotPaid stmt.id db) :
    Lasts db (unfreeze stmt now db) := by
  have hmark : Lasts db (markStatementReopened stmt.id now db) :=
    lasts_update fun _ => ⟨rfl, rfl, rfl, rfl, rfl, rfl, rfl⟩
  have hkept : NotPaid stmt.id (markStatementReopened stmt.id now db) := h
  exact hmark.trans (lasts_setStatementStatus hkept .open)

theorem finalizeStatement_lasts (stmt : Statement) :
    Triple (fun db' => (Wf db' ∧ Lasts db db') ∧ (stmt.status ≠ .paid → NotPaid stmt.id db'))
      (finalizeStatement stmt now) (fun _ db' => Wf db' ∧ Lasts db db')
      fun _ db' => Wf db' ∧ Lasts db db' := by
  by_cases hst : stmt.status = .paid
  · unfold finalizeStatement
    rw [if_pos hst]
    exact Triple.throw fun _ h => h.1
  · refine finalizeStatement_triple
      (F := fun db' => (Wf db' ∧ Lasts db db') ∧ (Wf db' ∧ NotPaid stmt.id db'))
      (fun _ h => h.1) ?_ fun db' h => ?_
    · refine ((recomputeBeforeFreeze_keeps (calculate_lasts _ _)).and
        (recomputeBeforeFreeze_keeps (calculate_notPaid stmt.id _ _))).conseq ?_
        (fun _ _ h => h) fun _ _ h => h.1
      exact fun db' h => ⟨h.1, h.1.1, h.2 hst⟩
    · exact ⟨(wf_markWeekSettled h.1.1 _ _ _).setStatementStatus _ _,
        h.1.2.trans (lasts_freeze h.2.2)⟩

theorem transitionStatement_lasts (id : Nat) (action : StatementAction) :
    Keeps (fun db' => Wf db' ∧ Lasts db db') (transitionStatement id action now) := by
  refine transitionStatement_triple (fun _ h => h) fun stmt => ?_
  cases action with
  | finalize =>
    exact (finalizeStatement_lasts stmt).conseq
      (fun db' h => ⟨h.1, notPaid_of_found h.1.1 h.2⟩) (fun _ _ h => h) fun _ _ h => h
  | reopen =>
    refine reopenStatement_triple (fun _ h => h.1) fun db' h hst => ?_
    exact ⟨(wf_markStatementReopened h.1.1 _).setStatementStatus _ _,
      h.1.2.trans (lasts_unfreeze (notPaid_of_found h.1.1 h.2 hst))⟩
  | markPaid =>
    refine markStatementPaid_triple (fun _ h => h.1) fun db' h hst => ?_
    refine ⟨h.1.1.setStatementStatus _ _, h.1.2.trans (lasts_setStatementStatus ?_ .paid)⟩
    exact notPaid_of_found h.1.1 h.2 (by rw [hst]; decide)

theorem lasts_kept : KeptByWrites (Lasts db) now where
  calculate := calculate_lasts
  apply := applyApprovedAdjustments_lasts
  promote {db'} _ h := h.trans (lasts_promoteReleasedHolds db' _)
  create {db'} _ _ h := h.trans
    { Lasts.refl db' with approved := fun _ ha _ => mem_append_left _ ha }
  resolve _ _ h _ := h.trans (lasts_update fun _ => ⟨rfl, rfl, rfl, rfl, rfl, rfl, rfl⟩)
  commissions _ h := h.trans (Lasts.of_eq rfl rfl rfl)

theorem lasts_step (h : Wf db) (e : Event) : Lasts db (step db e) := by
  have hrefl : Wf db ∧ Lasts db db := ⟨h, Lasts.refl db⟩
  unfold step
  by_cases hx : e.action.saleExternalId.isSome
  · refine (perform_sale (I := fun db' => Wf db' ∧ Lasts db db') h hrefl hx ?_ calculate_lasts).2
    intro sale db' _ hs
    have hstored : Lasts db db' :=
      Lasts.of_eq (by rw [hs.tables]) (by rw [hs.tables]) (by rw [hs.tables])
    exact ⟨wf_syncOverridesForSale hs.wf _ _, hstored.trans (lasts_sync hs.wf _ _)⟩
  · exact (lasts_kept.perform hrefl hx
      (fun id decision _ => (decideAdjustment_lasts id decision).store hrefl)
      (fun id action _ => (transitionStatement_lasts id action).store hrefl)
      fun _ _ => Lasts.of_eq rfl rfl rfl).2

end Writes

/-- No paid statement and no approved adjustment ever changes, and no statement or entry is lost. -/
theorem lasts_run (org : Org) (events : List Event) :
    (trace step (Db.empty org) events).Pairwise Lasts :=
  trace_pairwise (I := Wf) (R := Lasts) (fun _ e h => wf_step h e) (fun _ e h => lasts_step h e)
    Lasts.trans events (wf_empty org)

section Amounts

variable {db db' : Db} {now : Stamp}

theorem AmountsAdd.updateStatement {id : Nat} (h : AmountsAdd db)
    (hf : ∀ s ∈ db.statements, (f s).finalCommissionCents =
      (f s).grossCommissionCents + (f s).adjustmentCents + (f s).overridePayCents) :
    AmountsAdd (db.updateStatement id f) := by
  intro s hs
  obtain ⟨s', hs', rfl⟩ := mem_map.mp hs
  split
  · exact hf s' hs'
  · exact h s' hs'

theorem AmountsAdd.setStatementStatus (h : AmountsAdd db) (id : Nat) (status : StatementStatus) :
    AmountsAdd (setStatementStatus id status now db) := h.updateStatement fun s hs => h s hs

theorem AmountsAdd.repriced (h : AmountsAdd db) (hwf : Wf db)
    (hp : repricing now repId ms db = .ok p) :
    AmountsAdd (repriced now repId ms p db) := by
  intro s hs
  obtain ⟨_, _, hfinal⟩ := repricing_amounts hp
  rcases repriced_statement hwf hp hs with ⟨_, hpriced, _⟩ | ⟨_, hold⟩
  · rw [hpriced.final, hfinal, hpriced.gross, hpriced.adjustment, hpriced.override]
  · exact h s hold

theorem calculate_amountsAdd (repId : Nat) (ms : Int) :
    Keeps (fun db => Wf db ∧ AmountsAdd db)
      (calculateOrRecalculateStatement repId ms now) := by
  apply calculateOrRecalculateStatement_keeps
  · exact fun db h => ⟨wf_promoteReleasedHolds h.1, h.2⟩
  · exact fun db p h _ hp => ⟨wf_repriced h.1 _ _ _ p, h.2.repriced h.1 hp⟩

theorem applyApprovedAdjustments_amountsAdd (id : Nat) :
    Keeps (fun db => Wf db ∧ AmountsAdd db) (applyApprovedAdjustments id now) :=
  applyApprovedAdjustments_keeps fun _ _ h _ =>
    ⟨h.1.updateStatement _ (fun _ => rfl) fun _ => rfl, h.2.updateStatement fun _ _ => rfl⟩

theorem transitionStatement_amountsAdd (id : Nat) (action : StatementAction) :
    Keeps (fun db => Wf db ∧ AmountsAdd db) (transitionStatement id action now) := by
  apply transitionStatement_keeps calculate_amountsAdd
  · intro db stmt h
    have hmark : AmountsAdd (markWeekSettled stmt.repId stmt.weekStartUtc stmt.id now db) := h.2
    exact ⟨(wf_markWeekSettled h.1 _ _ _).setStatementStatus _ _, hmark.setStatementStatus _ _⟩
  · intro db stmt h _ _
    have hmark : AmountsAdd (markStatementReopened stmt.id now db) := h.2
    exact ⟨(wf_markStatementReopened h.1 _).setStatementStatus _ _, hmark.setStatementStatus _ _⟩
  · exact fun db stmt h => ⟨h.1.setStatementStatus _ _, h.2.setStatementStatus _ _⟩

theorem amountsAdd_kept : KeptByWrites AmountsAdd now where
  calculate := calculate_amountsAdd
  apply := applyApprovedAdjustments_amountsAdd
  promote _ h := h
  create _ _ h := h
  resolve _ _ h _ := h
  commissions _ h := h

theorem amountsAdd_step (h : Wf db ∧ AmountsAdd db) (e : Event) :
    Wf (step db e) ∧ AmountsAdd (step db e) := by
  unfold step
  by_cases hx : e.action.saleExternalId.isSome
  · refine perform_sale (I := fun db => Wf db ∧ AmountsAdd db) h.1 h hx ?_ calculate_amountsAdd
    intro sale db' _ hs
    obtain ⟨rows, he⟩ := syncOverridesForSale_tables hs.wf sale.id (saleWeek db' sale)
      (Stamp.ofMs e.now)
    have hwf : Wf (syncOverridesForSale sale.id (saleWeek db' sale) (Stamp.ofMs e.now) db') :=
      wf_syncOverridesForSale hs.wf _ _
    refine ⟨hwf, ?_⟩
    have hstatements : db'.statements = db.statements := by rw [hs.tables]
    intro s hmem
    rw [he] at hmem
    exact h.2 s (hstatements ▸ hmem)
  · exact amountsAdd_kept.perform h hx
      (fun id decision _ => (amountsAdd_kept.decide (fun _ _ h => h) id decision).store h)
      (fun id action _ => (transitionStatement_amountsAdd id action).store h) fun _ _ => h.2

end Amounts

end HomefrontFiber.Commission
