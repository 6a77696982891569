import HomefrontFiber.Commission.Recompute

/-!
# Override pairs along events

An event that writes no sale only relabels rows of the ledger: it moves them between lifecycle
statuses and, when a hold is released, between weeks. An event that writes a sale runs one sync and
then recomputes statements, which relabels held rows only.
-/

variable {earn : OverrideRow} {sale : Sale}

namespace HomefrontFiber.Commission

open Alternating List

def openEarn (rows : List OverrideRow) (saleId beneficiary : Nat) : Option OverrideRow :=
  let pair := pairRows rows saleId beneficiary
  if pair.length % 2 = 1 then pair.getLast? else none

/-- The row that follows `earn` in its pair. -/
def clawbackOf (rows : List OverrideRow) (earn : OverrideRow) : Option OverrideRow :=
  (pairRows rows earn.saleId earn.beneficiaryRepId)[earn.pairSeq + 1]?

theorem openEarn_eq_some {rows : List OverrideRow} {x b : Nat} :
    openEarn rows x b = some earn ↔
      (pairRows rows x b).length % 2 = 1 ∧ (pairRows rows x b).getLast? = some earn := by
  unfold openEarn
  dsimp only
  split
  · exact ⟨fun h => ⟨‹_›, h⟩, fun h => h.2⟩
  · exact ⟨fun h => absurd h (by simp), fun h => absurd h.1 ‹_›⟩

theorem openEarn_eq_none {rows : List OverrideRow} {x b : Nat} :
    openEarn rows x b = none ↔ (pairRows rows x b).length % 2 = 0 := by
  unfold openEarn
  dsimp only
  split
  · rw [getLast?_eq_none_iff]
    constructor <;> intro h
    · rw [h] at *
      rfl
    · omega
  · simp only [true_iff]
    omega

theorem openEarn_closed {rows : List OverrideRow} {x b : Nat}
    (hc : Closed Couple (pairRows rows x b)) : openEarn rows x b = none :=
  openEarn_eq_none.mpr hc.length_even

theorem openEarn_snoc {rows h : List OverrideRow} {x b : Nat}
    (hc : Closed Couple h) (hpair : pairRows rows x b = h ++ [earn]) :
    openEarn rows x b = some earn := by
  rw [openEarn_eq_some, hpair, length_append, length_singleton]
  have := hc.length_even
  exact ⟨by omega, by simp⟩

theorem mem_pairBeneficiaries_of_openEarn {rows : List OverrideRow} {x b : Nat}
    (h : openEarn rows x b = some earn) : b ∈ pairBeneficiaries rows x := by
  rw [mem_pairBeneficiaries]
  intro hnil
  simp [openEarn, hnil] at h

theorem LedgerWf.of_openEarn {rows : List OverrideRow} (hwf : LedgerWf rows) {x b : Nat}
    (h : openEarn rows x b = some earn) :
    OpenEarn earn ∧ ∃ l, Closed Couple l ∧ pairRows rows x b = l ++ [earn] := by
  obtain ⟨hodd, hlast⟩ := openEarn_eq_some.mp h
  obtain ⟨l, e, hc, he, hl⟩ := (hwf.pairs x b).opened (by omega)
  have : e = earn := by simpa [hl] using hlast
  exact this ▸ ⟨he, l, hc, hl⟩

/-- What a pair holds open after the sync of a QUALIFIED sale: what it held before, or the EARN
of an award of the sale. -/
theorem openEarn_of_opens {db : Db} {rows : List OverrideRow} {week now : Stamp} {s b : Nat}
    (hpair : pairRows rows s b = pairRows db.overrides s b ∨
      s = sale.id ∧ Closed Couple (pairRows db.overrides s b) ∧
        ∃ a ∈ (saleAwards db sale).1, a.repId = b ∧ ∃ d n, pairRows rows s b =
          pairRows db.overrides s b ++ [earnRow d now sale week (saleAwards db sale).2 a n])
    (h : openEarn rows s b = some earn) :
    openEarn db.overrides s b = some earn ∨
      s = sale.id ∧ openEarn db.overrides s b = none ∧
        ∃ a ∈ (saleAwards db sale).1, a.repId = b ∧ earn.beneficiaryRole = a.role := by
  rcases hpair with hsame | ⟨hs, hc, a, ha, hb, d, n, hl⟩
  · rw [openEarn, hsame] at h
    exact .inl h
  · refine .inr ⟨hs, openEarn_closed hc, a, ha, hb, ?_⟩
    rw [openEarn_snoc hc hl, Option.some.injEq] at h
    rw [← h]
    rfl

/-- `rows'` is `rows`, where the lifecycle columns of rows with `p` may be rewritten. -/
def Relabelled (p : OverrideRow → Prop) (rows rows' : List OverrideRow) : Prop :=
  ∃ f, (∀ r, SameEntry (f r) r) ∧ (∀ r, ¬ p r → f r = r) ∧ rows' = rows.map f

namespace Relabelled

variable {p : OverrideRow → Prop} {rows rows' rows'' : List OverrideRow} {x b : Nat}

theorem refl (p : OverrideRow → Prop) (rows : List OverrideRow) : Relabelled p rows rows :=
  ⟨id, SameEntry.refl, fun _ _ => rfl, (map_id rows).symm⟩

theorem trans (h : Relabelled p rows rows') (h' : Relabelled p rows' rows'') :
    Relabelled p rows rows'' := by
  obtain ⟨f, hf, hfp, rfl⟩ := h
  obtain ⟨g, hg, hgp, rfl⟩ := h'
  refine ⟨g ∘ f, fun r => (hg (f r)).trans (hf r), fun r hr => ?_, map_map⟩
  rw [Function.comp_apply, hfp r hr, hgp r hr]

theorem mono {q : OverrideRow → Prop} (h : Relabelled p rows rows') (hpq : ∀ r, p r → q r) :
    Relabelled q rows rows' := by
  obtain ⟨f, hf, hfp, he⟩ := h
  exact ⟨f, hf, fun r hr => hfp r (mt (hpq r) hr), he⟩

/-- An update of the lifecycle columns of the rows that satisfy `p`. -/
theorem of_update [DecidablePred p] {g : OverrideRow → OverrideRow}
    (he : rows' = rows.map fun r => if p r then g r else r) (hg : ∀ r, SameEntry (g r) r) :
    Relabelled (fun _ => True) rows rows' :=
  ⟨_, fun r => (hg r).ite, fun _ hr => absurd trivial hr, he⟩

theorem openEarn_eq (h : Relabelled p rows rows') (x b : Nat) :
    (openEarn rows x b = none ∧ openEarn rows' x b = none) ∨
      ∃ e e', openEarn rows x b = some e ∧ openEarn rows' x b = some e' ∧ SameEntry e' e ∧
        (¬ p e → e' = e) := by
  obtain ⟨f, hf, hfp, rfl⟩ := h
  have heq : openEarn (rows.map f) x b = (openEarn rows x b).map f := by
    unfold openEarn
    rw [pairRows_map (SameEntry.keepsPair hf)]
    dsimp only
    rw [length_map, getLast?_map]
    split <;> rfl
  rw [heq]
  cases openEarn rows x b with
  | none => exact .inl ⟨rfl, rfl⟩
  | some e => exact .inr ⟨e, f e, rfl, rfl, hf e, hfp e⟩

theorem openEarn_some (h : Relabelled p rows rows') {e' : OverrideRow}
    (he : openEarn rows' x b = some e') : ∃ e, openEarn rows x b = some e ∧ SameEntry e' e := by
  rcases h.openEarn_eq x b with ⟨_, h'⟩ | ⟨e, e₀, h₁, h₂, hs, _⟩
  · simp [h'] at he
  · rw [he, Option.some.injEq] at h₂
    exact ⟨e, h₁, h₂ ▸ hs⟩

theorem clawbackOf_some (h : Relabelled p rows rows') {claw : OverrideRow}
    (hc : clawbackOf rows earn = some claw) (hp : ¬ p claw) :
    clawbackOf rows' earn = some claw := by
  obtain ⟨f, hf, hfp, rfl⟩ := h
  unfold clawbackOf at *
  rw [pairRows_map (SameEntry.keepsPair hf), getElem?_map, hc, Option.map_some, hfp claw hp]

end Relabelled

section Events

variable {db : Db} {now : Stamp} {rows : List OverrideRow} {p : OverrideRow → Prop}

theorem relabelled_promoteReleasedHolds (db : Db) (now : Stamp) :
    Relabelled (·.status = .held) db.overrides (promoteReleasedHolds now db).overrides :=
  ⟨_, sameEntry_release db now, fun _ hr => if_neg fun hdue => hr hdue.1, rfl⟩

theorem calculate_relabels (rows : List OverrideRow) (repId : Nat) (ms : Int) :
    Service.Keeps (fun db => Relabelled (·.status = .held) rows db.overrides)
      (calculateOrRecalculateStatement repId ms now) := by
  refine calculateOrRecalculateStatement_keeps
    (fun db h => h.trans (relabelled_promoteReleasedHolds db now)) fun db _ h _ _ => ?_
  rw [repriced, storePricing_overrides]
  exact h.trans (relabelled_promoteReleasedHolds db now)

theorem calculate_relabels_all (rows : List OverrideRow) (repId : Nat) (ms : Int) :
    Service.Keeps (fun db => Relabelled (fun _ => True) rows db.overrides)
      (calculateOrRecalculateStatement repId ms now) := by
  refine calculateOrRecalculateStatement_keeps (fun db h => h.trans ?_) fun db _ h _ _ => ?_
  · exact (relabelled_promoteReleasedHolds db now).mono fun _ _ => trivial
  · rw [repriced, storePricing_overrides]
    exact h.trans ((relabelled_promoteReleasedHolds db now).mono fun _ _ => trivial)

theorem relabelled_markWeekSettled (repId : Nat) (week : Stamp) (id : Nat) (db : Db) :
    Relabelled (fun _ => True) db.overrides (markWeekSettled repId week id now db).overrides :=
  Relabelled.of_update (p := PayableIn repId week) rfl
    fun _ => ⟨rfl, rfl, rfl, rfl, rfl, rfl, rfl⟩

theorem relabelled_markStatementReopened (id : Nat) (db : Db) :
    Relabelled (fun _ => True) db.overrides (markStatementReopened id now db).overrides :=
  Relabelled.of_update (p := SettledBy id) rfl fun _ => ⟨rfl, rfl, rfl, rfl, rfl, rfl, rfl⟩

theorem transitionStatement_relabels (rows : List OverrideRow) (id : Nat)
    (action : StatementAction) :
    Service.Keeps (fun db => Relabelled (fun _ => True) rows db.overrides)
      (transitionStatement id action now) :=
  transitionStatement_keeps (calculate_relabels_all rows)
    (fun db _ h => h.trans (relabelled_markWeekSettled _ _ _ db))
    (fun db _ h _ _ => h.trans (relabelled_markStatementReopened _ db)) fun _ _ h => h

theorem relabels_kept (rows : List OverrideRow) :
    KeptByWrites (fun db => Relabelled (fun _ => True) rows db.overrides) now where
  calculate repId ms := (wf_calculate repId ms).and (calculate_relabels_all rows repId ms)
  apply id := (wf_applyApprovedAdjustments id).and (applyApprovedAdjustments_keeps fun _ _ h _ => h)
  promote {db} _ h := h.trans ((relabelled_promoteReleasedHolds db _).mono fun _ _ => trivial)
  create _ _ h := h
  resolve {_ id} _ _ h _ := Relabelled.trans h (Relabelled.of_update (p := fun r => r.id = id) rfl
    fun _ => ⟨rfl, rfl, rfl, rfl, rfl, rfl, rfl⟩)
  commissions _ h := h

theorem step_relabels (h : Wf db) {e : Event} (hx : ¬ e.action.saleExternalId.isSome) :
    Relabelled (fun _ => True) db.overrides (step db e).overrides := by
  have hrefl := And.intro h (Relabelled.refl (fun _ => True) db.overrides)
  refine ((relabels_kept db.overrides).perform hrefl hx (fun id decision _ => ?_)
    (fun id action _ => ?_) fun _ _ => hrefl.2).2
  · exact ((relabels_kept db.overrides).decide (fun _ _ h => h) id decision).store hrefl
  · exact ((wf_transitionStatement id action).and
      (transitionStatement_relabels db.overrides id action)).store hrefl

@[simp] theorem storePricing_sales (repId : Nat) (bounds : WeekBounds)
    (existing : Option Statement) (pricing : StatementPricing) (now : Stamp) (db : Db) :
    (storePricing repId bounds existing pricing now db).sales = db.sales := by
  unfold storePricing
  split
  · split <;> rfl
  · rfl

theorem calculate_sales (sales : List Sale) (repId : Nat) (ms : Int) :
    Service.Keeps (fun db => db.sales = sales) (calculateOrRecalculateStatement repId ms now) :=
  calculateOrRecalculateStatement_keeps (fun _ h => h)
    fun _ _ h _ _ => (storePricing_sales ..).trans h

theorem sales_kept (sales : List Sale) : KeptByWrites (fun db => db.sales = sales) now where
  calculate repId ms := (wf_calculate repId ms).and (calculate_sales sales repId ms)
  apply id := (wf_applyApprovedAdjustments id).and (applyApprovedAdjustments_keeps fun _ _ h _ => h)
  promote _ h := h
  create _ _ h := h
  resolve _ _ h _ := h
  commissions _ h := h

theorem step_sales (h : Wf db) {e : Event} (hx : ¬ e.action.saleExternalId.isSome) :
    (step db e).sales = db.sales := by
  have hrefl := And.intro h (rfl : db.sales = db.sales)
  refine ((sales_kept db.sales).perform hrefl hx (fun id decision _ => ?_) (fun id action _ => ?_)
    fun _ _ => rfl).2
  · exact ((sales_kept db.sales).decide (fun _ _ h => h) id decision).store hrefl
  · exact ((wf_transitionStatement id action).and (transitionStatement_keeps (calculate_sales _)
      (fun _ _ h => h) (fun _ _ h _ _ => h) fun _ _ h => h)).store hrefl

/-- What an event can do to the pairs: relabel rows, or sync the sale it stores and release holds
after that. -/
theorem step_pairs (h : Wf db) (e : Event) :
    (saleWritten db (Stamp.ofMs e.now) e.action = none ∧ (step db e).sales = db.sales ∧
      Relabelled (fun _ => True) db.overrides (step db e).overrides) ∨
    ∃ sale db', saleWritten db (Stamp.ofMs e.now) e.action = some sale ∧
      SaleStored db sale db' ∧ (step db e).sales = db'.sales ∧
      Relabelled (·.status = .held)
        (syncOverridesForSale sale.id (saleWeek db' sale) (Stamp.ofMs e.now) db').overrides
        (step db e).overrides := by
  by_cases hx : e.action.saleExternalId.isSome
  · rcases perform_sale_cases (Stamp.ofMs e.now) h hx with
      ⟨hw, hp⟩ | ⟨sale, db', hw, hs, hp⟩
    · refine .inl ⟨hw, ?_⟩
      rw [step, hp]
      exact ⟨rfl, Relabelled.refl _ _⟩
    · refine .inr ⟨sale, db', hw, hs, ?_⟩
      rw [step, hp]
      refine ⟨(reconcileSaleSideEffects_triple (K := (· = db')) ?_ (calculate_sales _)).store rfl,
        (reconcileSaleSideEffects_triple (K := (· = db')) ?_ (calculate_relabels _)).store rfl⟩
      · rintro _ rfl
        obtain ⟨rows, he⟩ := syncOverridesForSale_tables hs.wf sale.id (saleWeek _ sale)
          (Stamp.ofMs e.now)
        rw [he]
      · rintro _ rfl
        exact Relabelled.refl _ _
  · refine .inl ⟨?_, step_sales h hx, step_relabels h hx⟩
    cases ha : e.action <;> simp_all [Action.saleExternalId, saleWritten]

end Events

end HomefrontFiber.Commission

/-!
## One open override per slot

A sale pays each upline slot once: at most one of its pairs is open for a slot role. The sync
asks only whether the beneficiary of an award has an open pair, so after the seller was re-homed
a replay of QUALIFY opens the slot again for the new upline.
-/

namespace HomefrontFiber.Commission

open Alternating

def SingleSlot (rows : List OverrideRow) : Prop :=
  ∀ x b b' earn earn', openEarn rows x b = some earn → openEarn rows x b' = some earn' →
    earn.beneficiaryRole = earn'.beneficiaryRole → b = b'

/-- No award that opens a pair goes to a slot of the sale that is open with somebody else. -/
def AwardsFreeSlots (db : Db) (sale : Sale) : Prop :=
  ∀ a ∈ (saleAwards db sale).1, openEarn db.overrides sale.id a.repId = none →
    ∀ b ∈ pairBeneficiaries db.overrides sale.id, ∀ earn ∈ openEarn db.overrides sale.id b,
      earn.beneficiaryRole ≠ a.role

instance (db : Db) (sale : Sale) : Decidable (AwardsFreeSlots db sale) :=
  inferInstanceAs (Decidable (∀ a ∈ _, _ → ∀ b ∈ _, ∀ earn ∈ openEarn _ _ _, _))

def StoresFreeSlots (db : Db) (e : Event) : Prop :=
  ∀ sale ∈ saleWritten db (Stamp.ofMs e.now) e.action, sale.status = .qualified →
    AwardsFreeSlots db sale

instance (db : Db) (e : Event) : Decidable (StoresFreeSlots db e) :=
  inferInstanceAs (Decidable (∀ sale ∈ saleWritten _ _ _, _ → _))

variable {rows rows' : List OverrideRow} {db : Db}

theorem singleSlot_nil : SingleSlot [] := by
  intro x b b' earn earn' h
  simp [openEarn, pairRows] at h

theorem SingleSlot.relabelled {p : OverrideRow → Prop} (h : SingleSlot rows)
    (hr : Relabelled p rows rows') : SingleSlot rows' := by
  intro x b b' earn earn' he he' hrole
  obtain ⟨e, he, hs⟩ := hr.openEarn_some he
  obtain ⟨e', he', hs'⟩ := hr.openEarn_some he'
  exact h x b b' e e' he he' (by rw [← hs.role, ← hs'.role, hrole])

/-- A sync keeps single slots when the sale is not QUALIFIED or its awards find free slots. -/
theorem SingleSlot.sync (h : SingleSlot db.overrides) (hwf : LedgerWf db.overrides)
    (hsale : db.saleById sale.id = some sale)
    (hfree : sale.status = .qualified → AwardsFreeSlots db sale) (week now : Stamp) :
    SingleSlot (syncOverridesForSale sale.id week now db).overrides := by
  by_cases hq : sale.status = .qualified
  · obtain ⟨rows, he, _, hpairs⟩ := syncOverridesForSale_opens week now hwf hsale hq
    rw [he]
    intro x b b' earn earn' ho ho' hrole
    rcases openEarn_of_opens (hpairs x b) ho with hold | ⟨hx, hnone, a, ha, hab, har⟩ <;>
      rcases openEarn_of_opens (hpairs x b') ho' with hold' | ⟨hx', hnone', a', ha', hab', har'⟩
    · exact h x b b' earn earn' hold hold' hrole
    · subst hx'
      subst hab'
      exact absurd (hrole.trans har')
        (hfree hq a' ha' hnone' b (mem_pairBeneficiaries_of_openEarn hold) earn hold)
    · subst hx
      subst hab
      exact absurd (hrole.symm.trans har)
        (hfree hq a ha hnone b' (mem_pairBeneficiaries_of_openEarn hold') earn' hold')
    · have hsame : a = a' := List.inj_on_of_nodup_map (saleAwards_nodup db sale).2 ha ha'
        (by rw [← har, ← har', hrole])
      rw [← hab, ← hab', hsame]
  · obtain ⟨rows, he, hw, hclose, hother⟩ := syncOverridesForSale_closes week now hwf hsale hq
    rw [he]
    intro x b b' earn earn' ho ho' hrole
    by_cases hx : x = sale.id
    · subst hx
      rw [openEarn_eq_none.mpr (hclose b).length_even] at ho
      simp at ho
    · rw [openEarn, hother x b hx] at ho
      rw [openEarn, hother x b' hx] at ho'
      exact h x b b' earn earn' ho ho' hrole

theorem saleAwards_congr {db' : Db} (h : db'.org = db.org) (sale : Sale) :
    saleAwards db' sale = saleAwards db sale := by
  unfold saleAwards saleRates loadOverrideRates Db.memberById
  rw [h]

theorem SingleSlot.step (h : SingleSlot db.overrides) (hwf : Wf db) {e : Event}
    (hfree : StoresFreeSlots db e) : SingleSlot (step db e).overrides := by
  rcases step_pairs hwf e with ⟨_, _, hr⟩ | ⟨sale, db', hw, hs, _, hr⟩
  · exact h.relabelled hr
  · have hov : db'.overrides = db.overrides := by rw [hs.tables]
    refine SingleSlot.relabelled (SingleSlot.sync (hov ▸ h) hs.wf.ledger hs.found ?_ _ _) hr
    intro hq a ha
    rw [saleAwards_congr (by rw [hs.tables]) sale] at ha
    rw [hov]
    exact hfree sale hw hq a ha

/-- Along runs whose sale writes award free slots, no slot of a sale is open twice. -/
theorem singleSlot_run (org : Org) {events : List Event}
    (h : Along step StoresFreeSlots (Db.empty org) events) :
    SingleSlot (run step (Db.empty org) events).overrides :=
  (run_invariant (I := fun db => Wf db ∧ SingleSlot db.overrides)
    (fun _ e hI hc => ⟨wf_step hI.1 e, hI.2.step hI.1 hc⟩)
    ⟨wf_empty org, singleSlot_nil⟩ h).2

/-- Rep 1 moves from manager 2 to manager 3. -/
def rehomed : Org :=
  { sampleOrg with
    members := [sampleMember 1 .rep (some 3), sampleMember 2 .manager none,
      sampleMember 3 .manager none] }

/-- A sale is booked, its seller re-homed, and QUALIFY replayed on the still QUALIFIED sale. -/
def replayAfterRehome : List Event :=
  [⟨sampleNow, .upsertSale (sampleSale "A-1")⟩, ⟨sampleNow, .editOrg rehomed⟩,
    ⟨sampleNow, .transitionSale "A-1" .qualify none⟩]

theorem not_singleSlot_replayAfterRehome :
    ¬ SingleSlot (run step (Db.empty sampleOrg) replayAfterRehome).overrides := by
  intro h
  have hne : (2 : Nat) = 3 := by
    refine h 1 2 3 ((run step (Db.empty sampleOrg) replayAfterRehome).overrides.get ⟨0, ?_⟩)
      ((run step (Db.empty sampleOrg) replayAfterRehome).overrides.get ⟨1, ?_⟩) ?_ ?_ ?_ <;>
      decide +kernel
  omega

/-- A sale that is reversed before its seller is re-homed and re-qualified. -/
theorem singleSlot_run_reversed :
    SingleSlot (run step (Db.empty sampleOrg)
      [⟨sampleNow, .upsertSale (sampleSale "A-1")⟩,
        ⟨sampleNow, .transitionSale "A-1" .reverse none⟩, ⟨sampleNow, .editOrg rehomed⟩,
        ⟨sampleNow, .transitionSale "A-1" .qualify none⟩]).overrides :=
  singleSlot_run sampleOrg (by decide +kernel)

end HomefrontFiber.Commission

/-!
## Clawbacks and review

When a sale leaves QUALIFIED its open override pairs are closed. The CLAWBACK of an EARN whose
money has reached the beneficiary must be booked EXCEPTION, for a manager to review. The close
branch tests for SETTLED only, so an EARN that was RESOLVED by a manager's adjustment is treated
as one that never paid.
-/

namespace HomefrontFiber.Commission

open Alternating Option

/-- The amount is part of a locked statement or was paid through an adjustment. -/
def OverrideRow.ReachedBeneficiary (earn : OverrideRow) : Prop :=
  earn.status = .settled ∨ earn.status = .resolved ∧ earn.resolvedAdjustmentId.isSome

def OverrideRow.NeverPaid (earn : OverrideRow) : Prop :=
  earn.status = .held ∨ earn.status = .exception ∧ earn.resolvedAdjustmentId = none

/-- The EARN is answered by a CLAWBACK that is an exception if the EARN was paid, and RESOLVED
without review only if it never was. -/
def ClosedWithReview (rows : List OverrideRow) (earn : OverrideRow) : Prop :=
  ∃ claw, clawbackOf rows earn = some claw ∧ claw.entryType = .clawback ∧
    (earn.ReachedBeneficiary → claw.status = .exception) ∧
    (claw.status = .resolved → earn.NeverPaid)

def ClosesWithReview (db : Db) (e : Event) : Prop :=
  ∀ x b earn, openEarn db.overrides x b = some earn → openEarn (step db e).overrides x b = none →
    ClosedWithReview (step db e).overrides earn

/-- The sale that the event takes out of QUALIFIED, if any, has no open EARN that is RESOLVED. -/
def ClosesNoneResolved (db : Db) (e : Event) : Prop :=
  ∀ sale ∈ saleWritten db (Stamp.ofMs e.now) e.action, sale.status ≠ .qualified →
    ∀ b ∈ pairBeneficiaries db.overrides sale.id, ∀ earn ∈ openEarn db.overrides sale.id b,
      earn.status ≠ .resolved

instance (db : Db) (e : Event) : Decidable (ClosesNoneResolved db e) :=
  inferInstanceAs (Decidable (∀ sale ∈ saleWritten _ _ _, _ → ∀ b ∈ _, ∀ earn ∈ openEarn _ _ _, _))

theorem clawRow_reviewed_iff (now : Stamp) (ho : OpenEarn earn) (n id : Nat) :
    ((earn.ReachedBeneficiary → (clawRow now earn n id).status = .exception) ∧
      ((clawRow now earn n id).status = .resolved → earn.NeverPaid)) ↔ earn.status ≠ .resolved := by
  obtain ⟨_, hres⟩ := ho
  unfold OverrideRow.ReachedBeneficiary OverrideRow.NeverPaid clawRow clawVerdict
  cases hst : earn.status <;> simp_all

theorem closedWithReview_iff {now : Stamp} {rows : List OverrideRow}
    (ho : OpenEarn earn) {n id : Nat} (hclaw : clawbackOf rows earn = some (clawRow now earn n id)) :
    ClosedWithReview rows earn ↔ earn.status ≠ .resolved := by
  rw [← clawRow_reviewed_iff now ho n id]
  constructor
  · rintro ⟨claw, hc, _, hreview⟩
    rw [hclaw, Option.some.injEq] at hc
    exact hc ▸ hreview
  · exact fun hreview => ⟨_, hclaw, rfl, hreview⟩

theorem clawbackOf_closedAs {now : Stamp} {rows rows' : List OverrideRow} {x b : Nat}
    (hwf : LedgerWf rows) (hearn : openEarn rows x b = some earn)
    (hclose : ClosedAs now (pairRows rows x b) (pairRows rows' x b)) :
    ∃ n id, clawbackOf rows' earn = some (clawRow now earn n id) := by
  obtain ⟨hodd, hlast⟩ := openEarn_eq_some.mp hearn
  rcases hclose with ⟨hc, _⟩ | ⟨h, e, id, hl, _, _, hl'⟩
  · exact absurd hc.length_even (by omega)
  · have he : e = earn := by simpa [hl] using hlast
    subst he
    obtain ⟨_, hx, hb⟩ := mem_of_pairRows hl
    refine ⟨h.length + 1, id, ?_⟩
    unfold clawbackOf
    rw [hx, hb, hwf.pairSeq_last hl, hl', List.getElem?_append_right (by omega)]
    simp

theorem openEarn_ne_none_of_kept {p : OverrideRow → Prop} {rows rows' rows'' : List OverrideRow}
    {x b : Nat} (h : openEarn rows x b = some earn)
    (hkept : pairRows rows' x b = pairRows rows x b) (hr : Relabelled p rows' rows'') :
    openEarn rows'' x b ≠ none := by
  have h' : openEarn rows' x b = some earn := by rw [openEarn, hkept]; exact h
  rcases hr.openEarn_eq x b with ⟨hnone, _⟩ | ⟨_, e', _, he', _⟩
  · simp [h'] at hnone
  · simp [he']

/-- One event closes its pairs with review exactly when no EARN it answers is RESOLVED. -/
theorem closesWithReview_iff {db : Db} (hwf : Wf db) (e : Event) :
    ClosesWithReview db e ↔ ClosesNoneResolved db e := by
  unfold ClosesWithReview ClosesNoneResolved
  rcases step_pairs hwf e with ⟨hw, _, hr⟩ | ⟨sale, db', hw, hs, _, hr⟩
  · rw [hw]
    refine iff_of_true (fun x b earn ho hn => ?_) (by simp)
    exact absurd hn (openEarn_ne_none_of_kept ho rfl hr)
  · rw [hw]
    simp only [mem_def, Option.some.injEq, forall_eq']
    have hov : db'.overrides = db.overrides := by rw [hs.tables]
    by_cases hq : sale.status = .qualified
    · obtain ⟨rows, he, _, hpairs⟩ :=
        syncOverridesForSale_opens (saleWeek db' sale) (Stamp.ofMs e.now) hs.wf.ledger hs.found hq
      rw [he] at hr
      refine iff_of_true (fun x b earn ho hn => ?_) fun hn => absurd hq hn
      rw [← hov] at ho
      rcases hpairs x b with hkept | ⟨_, hc, _⟩
      · exact absurd hn (openEarn_ne_none_of_kept ho hkept hr)
      · simp [openEarn_closed hc] at ho
    · obtain ⟨rows, he, _, hclose, hother⟩ :=
        syncOverridesForSale_closes (saleWeek db' sale) (Stamp.ofMs e.now) hs.wf.ledger hs.found hq
      rw [he] at hr
      -- the recomputations after the sync release holds, and no CLAWBACK is held
      have hreview : ∀ b earn, openEarn db.overrides sale.id b = some earn →
          (openEarn (step db e).overrides sale.id b = none ∧
            (ClosedWithReview (step db e).overrides earn ↔ earn.status ≠ .resolved)) := by
        intro b earn ho
        rw [← hov] at ho
        obtain ⟨n, id, hclaw⟩ := clawbackOf_closedAs hs.wf.ledger ho (hclose b)
        refine ⟨?_, closedWithReview_iff (hs.wf.ledger.of_openEarn ho).1
          (hr.clawbackOf_some hclaw (clawRow_ne_held _ n id))⟩
        rcases hr.openEarn_eq sale.id b with ⟨_, hnone⟩ | ⟨e₀, _, he₀, _⟩
        · exact hnone
        · rw [openEarn_eq_none.mpr (hclose b).length_even] at he₀
          simp at he₀
      constructor
      · intro h _ b _ earn ho
        obtain ⟨hnone, hiff⟩ := hreview b earn ho
        exact hiff.mp (h sale.id b earn ho hnone)
      · intro h x b earn ho hn
        by_cases hx : x = sale.id
        · subst hx
          exact (hreview b earn ho).2.mpr
            (h hq b (mem_pairBeneficiaries_of_openEarn ho) earn ho)
        · refine absurd hn (openEarn_ne_none_of_kept ho ?_ hr)
          rw [hother x b hx, hov]

theorem run_closesWithReview_iff (org : Org) (events : List Event) :
    Along step ClosesWithReview (Db.empty org) events ↔
      Along step ClosesNoneResolved (Db.empty org) events :=
  along_congr (I := Wf) (fun _ e h => wf_step h e) (fun _ e h => closesWithReview_iff h e)
    (wf_empty org) events

/-- The manager's week is locked, so the override of a new sale is an exception, and it is paid by
an adjustment on the locked week. -/
def paidByAdjustment : List Event :=
  [⟨sampleNow, .calculateOrRecalculateStatement 2 sampleNow⟩,
    ⟨sampleNow, .transitionStatement 1 .finalize⟩,
    ⟨sampleNow, .upsertSale (sampleSale "A-1")⟩,
    ⟨sampleNow, .createAdjustment
      { statementId := 1
        amountCents := 2500
        type := none
        reason := ['o', 'v', 'e', 'r', 'r', 'i', 'd', 'e']
        relatedSaleId := some 1 }⟩,
    ⟨sampleNow, .decideAdjustment 1 .approve⟩,
    ⟨sampleNow, .resolveException 1 1⟩]

def reversal : Event := ⟨sampleNow, .transitionSale "A-1" .reverse none⟩

theorem not_closesWithReview_paidByAdjustment :
    ¬ Along step ClosesWithReview (Db.empty sampleOrg) (paidByAdjustment ++ [reversal]) := by
  intro h
  have hlast := (along_append.mp h).2.1
  have hstate : ∀ earn ∈ openEarn (run step (Db.empty sampleOrg) paidByAdjustment).overrides 1 2,
      earn.status = .resolved ∧ earn.resolvedAdjustmentId.isSome ∧
        (clawbackOf (step (run step (Db.empty sampleOrg) paidByAdjustment) reversal).overrides
          earn).map (·.status) = some .resolved := by decide +kernel
  obtain ⟨earn, hearn⟩ := isSome_iff_exists.mp (show (openEarn
    (run step (Db.empty sampleOrg) paidByAdjustment).overrides 1 2).isSome by decide +kernel)
  obtain ⟨hst, hadj, hclaw⟩ := hstate earn hearn
  obtain ⟨claw, hc, _, hpaid, _⟩ := hlast 1 2 earn hearn (by decide +kernel)
  rw [hc, map_some, hpaid (.inr ⟨hst, hadj⟩)] at hclaw
  simp at hclaw

end HomefrontFiber.Commission
