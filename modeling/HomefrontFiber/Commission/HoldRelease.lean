import Mathlib.Data.List.Induction
import HomefrontFiber.Commission.InstallHold
import HomefrontFiber.Commission.OverridePairs

/-!
# The release of held overrides

A HELD row copies the end of its hold from the linked commission when it is earned. Confirming the
install writes the commission only, and no event writes the copy again, so a released hold pays
its upline exactly when the end of the hold was known before the row was earned.
-/

namespace HomefrontFiber.Commission

open List Option

/-- The HELD rows are among `rows` or satisfy `p`. -/
def HeldFrom (rows : List OverrideRow) (p : OverrideRow → Prop) (db : Db) : Prop :=
  ∀ r ∈ db.overrides, r.status = .held → r ∈ rows ∨ p r

/-- The hold end of `r` is that of the commission linked to the sale that the action writes. -/
def CopiesHoldEnd (db : Db) (now : Stamp) (action : Action) (r : OverrideRow) : Prop :=
  ∃ sale ∈ saleWritten db now action, sale.id = r.saleId ∧
    ∃ c ∈ linkedCommission db sale, r.holdPayableAfter = c.payableAfter

/-- The event earns the row while the commission linked to its sale is payable after `after`. -/
def EarnsWithEnd (db : Db) (e : Event) (r : OverrideRow) (after : Stamp) : Prop :=
  r ∉ db.overrides ∧ r ∈ (step db e).overrides ∧
    ∃ sale ∈ saleWritten db (Stamp.ofMs e.now) e.action, sale.id = r.saleId ∧
      ∃ c ∈ linkedCommission db sale, c.payableAfter = some after

instance (db : Db) (e : Event) (r : OverrideRow) (after : Stamp) :
    Decidable (EarnsWithEnd db e r after) :=
  inferInstanceAs (Decidable (_ ∧ _ ∧ ∃ sale ∈ saleWritten _ _ _, _ ∧ ∃ c ∈ linkedCommission _ _, _))

def EarnedWithEnd (org : Org) (events : List Event) (r : OverrideRow) (after : Stamp) : Prop :=
  ∃ before e rest, events = before ++ e :: rest ∧
    EarnsWithEnd (run step (Db.empty org) before) e r after

/-- A HELD EARN of a QUALIFIED sale whose linked commission is confirmed and past its hold. -/
def Released (db : Db) (now : Stamp) (r : OverrideRow) : Prop :=
  r.status = .held ∧ r.entryType = .earn ∧
    ∃ sale ∈ db.saleById r.saleId, sale.status = .qualified ∧
      ∃ c ∈ linkedCommission db sale, c.installConfirmedAt.isSome ∧
        ∃ after ∈ c.payableAfter, after.text ≤ now.text

instance (db : Db) (now : Stamp) (r : OverrideRow) : Decidable (Released db now r) :=
  inferInstanceAs (Decidable (_ ∧ _ ∧ ∃ sale ∈ db.saleById _, _ ∧
    ∃ c ∈ linkedCommission _ _, _ ∧ ∃ after ∈ c.payableAfter, _))

/-- Every computation of a block of the beneficiary releases the row: it is PAYABLE in an open
week and an exception in a locked one. -/
def Promoted (db : Db) (now : Stamp) (r : OverrideRow) : Prop :=
  ∀ week, ∃ r' ∈ (overrideBlockForWeek r.beneficiaryRepId week now db).2.overrides,
    r'.id = r.id ∧ r'.status =
      if db.weekLocked r.beneficiaryRepId r'.earnedWeekStartUtc then .exception else .payable

section Held

variable {db db' : Db} {now : Stamp} {rows : List OverrideRow} {p : OverrideRow → Prop}

theorem HeldFrom.map {f : OverrideRow → OverrideRow} (h : HeldFrom rows p db)
    (hf : ∀ r, (f r).status = .held → f r = r) (he : db'.overrides = db.overrides.map f) :
    HeldFrom rows p db' := by
  intro r hr hheld
  rw [he] at hr
  obtain ⟨r', hr', rfl⟩ := mem_map.mp hr
  have hsame : f r' = r' := hf r' hheld
  rw [hsame] at hheld ⊢
  exact h r' hr' hheld

theorem HeldFrom.update {q : OverrideRow → Prop} [DecidablePred q]
    {g : OverrideRow → OverrideRow} (h : HeldFrom rows p db)
    (hg : ∀ r, q r → (g r).status ≠ .held)
    (he : db'.overrides = db.overrides.map fun r => if q r then g r else r) :
    HeldFrom rows p db' := by
  apply h.map (f := fun r => if q r then g r else r) _ he
  intro r hr
  by_cases hq : q r
  · rw [if_pos hq] at hr
    exact absurd hr (hg r hq)
  · exact if_neg hq

theorem heldFrom_promoteReleasedHolds (h : HeldFrom rows p db) :
    HeldFrom rows p (promoteReleasedHolds now db) := by
  apply h.update (q := HoldDue now) (g := releaseRow db now) _ rfl
  intro r hdue hheld
  rcases (releaseRow_status db hdue).1 with hst | hst <;> rw [hst] at hheld <;> cases hheld

theorem calculate_heldFrom (repId : Nat) (ms : Int) :
    Service.Keeps (HeldFrom rows p) (calculateOrRecalculateStatement repId ms now) := by
  apply calculateOrRecalculateStatement_keeps
  · intro db h
    exact heldFrom_promoteReleasedHolds h
  · intro db pricing h _ _
    have hpromoted : HeldFrom rows p (promoteReleasedHolds now db) :=
      heldFrom_promoteReleasedHolds h
    unfold HeldFrom at *
    rwa [repriced, storePricing_overrides]

theorem transitionStatement_heldFrom (id : Nat) (action : StatementAction) :
    Service.Keeps (HeldFrom rows p) (transitionStatement id action now) := by
  apply transitionStatement_keeps calculate_heldFrom
  · intro db stmt h
    exact h.update (q := PayableIn stmt.repId stmt.weekStartUtc) (fun _ _ => by simp) rfl
  · intro db stmt h _ _
    exact h.update (q := SettledBy stmt.id) (fun _ _ => by simp) rfl
  · exact fun _ _ h => h

theorem earnRow_held {sale : Sale} {week : Stamp} {snapshot : List ChainSnapshotNode}
    {award : OverrideAward} {n : Nat}
    (h : (earnRow db now sale week snapshot award n).status = .held) :
    ∃ c ∈ linkedCommission db sale,
      (earnRow db now sale week snapshot award n).holdPayableAfter = c.payableAfter := by
  have hhold : (installHoldFor db now sale).1 = true := by
    unfold earnRow at h
    dsimp only at h
    split at h
    · cases h
    · split at h
      · assumption
      · cases h
  have hcopy : (earnRow db now sale week snapshot award n).holdPayableAfter =
      (installHoldFor db now sale).2 := if_pos hhold
  rw [hcopy]
  unfold installHoldFor at hhold ⊢
  unfold linkedCommission
  split at hhold
  · rename_i hrequired
    rw [if_pos hrequired]
    cases hc : latestCommission db.commissions sale.leadId sale.repId with
    | none => simp [hc] at hhold
    | some c =>
      refine ⟨c, rfl, ?_⟩
      by_cases hst : c.status = .pending
      · cases ha : c.payableAfter <;> simp [hst, ha]
      · simp [hc, hst] at hhold
  · cases hhold

theorem HeldFrom.closedRows {l : List OverrideRow} {earn : OverrideRow} (h : HeldFrom rows p db)
    (he : db'.overrides = closedRows now db.overrides l earn) : HeldFrom rows p db' := by
  have hmoot : HeldFrom rows p { db with overrides := db.overrides.map (mootRow now earn) } := by
    apply h.map (f := mootRow now earn) _ rfl
    intro r hr
    unfold mootRow at hr ⊢
    split at hr
    · cases hr
    · rename_i hkept
      exact if_neg hkept
  intro r hr hheld
  rw [he] at hr
  rcases mem_append.mp hr with hr | hr
  · exact hmoot r hr hheld
  · rw [mem_singleton.mp hr] at hheld
    exact absurd hheld (clawRow_ne_held now _ _)

theorem heldFrom_kept : KeptByWrites (HeldFrom rows p) now where
  calculate repId ms := (wf_calculate repId ms).and (calculate_heldFrom repId ms)
  apply id := (wf_applyApprovedAdjustments id).and (applyApprovedAdjustments_keeps fun _ _ h _ => h)
  promote _ h := heldFrom_promoteReleasedHolds h
  create _ _ h := h
  resolve {_ id} _ _ h _ := h.update (q := fun r => r.id = id) (fun _ _ => by simp) rfl
  commissions _ h := h

theorem step_heldFrom_other (h : Wf db) {e : Event} (hx : ¬ e.action.saleExternalId.isSome) :
    HeldFrom db.overrides p (step db e) := by
  have hheld : HeldFrom db.overrides p db := fun r hr _ => Or.inl hr
  have hrefl := And.intro h hheld
  refine (heldFrom_kept.perform hrefl hx (fun id decision _ => ?_) (fun id action _ => ?_)
    fun _ _ => hheld).2
  · exact (heldFrom_kept.decide (fun _ _ h => h) id decision).store hrefl
  · exact ((wf_transitionStatement id action).and (transitionStatement_heldFrom id action)).store hrefl

/-- What one event can leave held: a row that was there, or one earned with a copy of the hold
end. -/
theorem step_heldFrom (h : Wf db) (e : Event) :
    HeldFrom db.overrides (CopiesHoldEnd db (Stamp.ofMs e.now) e.action) (step db e) := by
  by_cases hx : e.action.saleExternalId.isSome
  · let I : Db → Prop := HeldFrom db.overrides (CopiesHoldEnd db (Stamp.ofMs e.now) e.action)
    have hrefl : I db := fun r hr _ => Or.inl hr
    refine perform_sale h hrefl hx (fun sale db' hw hs => ?_) calculate_heldFrom
    have hoverrides : db'.overrides = db.overrides := by rw [hs.tables]
    have hcommissions : db'.commissions = db.commissions := by rw [hs.tables]
    have hI : I db' := by
      intro r hr _
      rw [hoverrides] at hr
      exact Or.inl hr
    refine (syncOverridesForSale_keeps (I := I) hs.wf hI sale.id (saleWeek db' sale) ?_ ?_).2
    · intro sale' rows hs' _ _ hrows a _ _ r hr hheld
      rcases mem_append.mp hr with hr | hr
      · exact hrows r hr hheld
      · rw [mem_singleton.mp hr] at hheld ⊢
        obtain ⟨c, hc, hcopy⟩ := earnRow_held hheld
        have hsale : sale' = sale := some.inj (hs'.symm.trans hs.found)
        rw [hsale] at hc hcopy ⊢
        have hlinked : c ∈ linkedCommission db sale := by
          unfold linkedCommission at hc ⊢
          rwa [← hcommissions]
        exact Or.inr ⟨sale, hw, rfl, c, hlinked, hcopy⟩
    · intro sale' rows _ _ _ hrows b l earn _ _ _
      exact hrows.closedRows rfl
  · exact step_heldFrom_other h hx

theorem EarnsWithEnd.holdPayableAfter {e : Event} {r : OverrideRow} {after : Stamp} (hwf : Wf db)
    (h : EarnsWithEnd db e r after) (hheld : r.status = .held) :
    r.holdPayableAfter = some after := by
  obtain ⟨hnew, hr, sale, hw, _, c, hc, hafter⟩ := h
  rcases step_heldFrom hwf e r hr hheld with hold | ⟨sale', hw', _, c', hc', hcopy⟩
  · exact absurd hold hnew
  · have hsale : sale' = sale := some.inj (hw'.symm.trans hw)
    rw [hsale] at hc'
    have hcc : c' = c := some.inj (hc'.symm.trans hc)
    rw [hcopy, hcc, hafter]

/-- The end that a held row carries is the one with which a step of the run earned it. -/
theorem earnedWithEnd_iff (org : Org) (events : List Event) {r : OverrideRow} {after : Stamp}
    (hr : r ∈ (run step (Db.empty org) events).overrides) (hheld : r.status = .held) :
    EarnedWithEnd org events r after ↔ r.holdPayableAfter = some after := by
  constructor
  · rintro ⟨before, e, rest, rfl, hearns⟩
    exact hearns.holdPayableAfter (wf_run org before) hheld
  · intro hafter
    induction events using List.reverseRecOn with
    | nil => exact absurd hr not_mem_nil
    | append_singleton events e ih =>
      by_cases hold : r ∈ (run step (Db.empty org) events).overrides
      · obtain ⟨before, e', rest, he, hearns⟩ := ih hold
        exact ⟨before, e', rest ++ [e], by rw [he, append_assoc, cons_append], hearns⟩
      · rw [run_append] at hr
        rcases step_heldFrom (wf_run org events) e r hr hheld with
          hin | ⟨sale, hw, hid, c, hc, hcopy⟩
        · exact absurd hin hold
        · exact ⟨events, e, [], rfl, hold, hr, sale, hw, hid, c, hc, hcopy ▸ hafter⟩

theorem promoted_iff_holdDue {r : OverrideRow} (hwf : Wf db) (hr : r ∈ db.overrides)
    (hheld : r.status = .held) : Promoted db now r ↔ HoldDue now r := by
  constructor
  · intro hpromoted
    obtain ⟨r', hr', hid, hst⟩ := hpromoted r.earnedWeekStartUtc
    obtain ⟨r₀, hr₀, rfl⟩ := mem_map.mp hr'
    have hr₀r : r₀ = r := by
      apply hwf.ledger.ids.eq_of_key hr₀ hr
      exact (sameEntry_release db now r₀).id.symm.trans hid
    by_contra hdue
    rw [hr₀r, if_neg hdue, hheld] at hst
    split at hst <;> cases hst
  · intro hdue week
    refine ⟨releaseRow db now r, ?_, ?_, ?_⟩
    · exact mem_map.mpr ⟨r, hr, if_pos hdue⟩
    · have hsame := sameEntry_release db now r
      rw [if_pos hdue] at hsame
      exact hsame.id
    · obtain ⟨_, after, hafter, _⟩ := hdue
      unfold releaseRow
      rw [mem_def.mp hafter]

end Held

variable {org : Org} {events : List Event} {now : Stamp} {r : OverrideRow}

/-- After any run, a released hold is promoted by the next block computation exactly when the row
was earned with an end of its hold, and that end has passed. -/
theorem promoted_iff (hr : r ∈ (run step (Db.empty org) events).overrides)
    (hreleased : Released (run step (Db.empty org) events) now r) :
    Promoted (run step (Db.empty org) events) now r ↔
      ∃ after, EarnedWithEnd org events r after ∧ after.text ≤ now.text := by
  have hheld : r.status = .held := hreleased.1
  rw [promoted_iff_holdDue (wf_run org events) hr hheld]
  constructor
  · rintro ⟨_, after, hafter, hpassed⟩
    exact ⟨after, (earnedWithEnd_iff org events hr hheld).mpr hafter, hpassed⟩
  · rintro ⟨after, hearned, hpassed⟩
    exact ⟨hheld, after, (earnedWithEnd_iff org events hr hheld).mp hearned, hpassed⟩

def holdOrg : Org :=
  { sampleOrg with payPolicy := { requireInstallConfirm := true, holdDays := 7 } }

/-- The commission of door 7, whose install rep 1's customer has yet to see. -/
def unconfirmedCommission : LegacyCommission where
  id := 1
  repId := 1
  leadId := some 7
  knockId := some 1
  amountCents := 5000
  status := .pending
  installConfirmedAt := none
  payableAfter := none

def confirmedCommission : LegacyCommission :=
  confirmInstall (Stamp.ofMs sampleNow) 7 unconfirmedCommission

/-- Rep 1 sells door 7. -/
def soldKnock : Event where
  now := sampleNow
  action := .recordFieldSaleFromKnock
    { repId := 1
      leadId := 7
      soldAt := { text := (Stamp.ofMs sampleNow).text, ms := some sampleNow }
      serverReceivedAt := sampleNow }

/-- A day after the hold of a commission confirmed at the sale. -/
def afterHold : Stamp := Stamp.ofMs (sampleNow + 8 * msPerDay)

def confirmedBefore : List Event := [⟨sampleNow, .editCommissions [confirmedCommission]⟩, soldKnock]

theorem promoted_confirmedBefore :
    ∃ r ∈ (run step (Db.empty holdOrg) confirmedBefore).overrides,
      Promoted (run step (Db.empty holdOrg) confirmedBefore) afterHold r := by
  obtain ⟨r, hr, hreleased, hearns⟩ :
      ∃ r ∈ (run step (Db.empty holdOrg) confirmedBefore).overrides,
        Released (run step (Db.empty holdOrg) confirmedBefore) afterHold r ∧
          EarnsWithEnd (run step (Db.empty holdOrg) (confirmedBefore.take 1)) soldKnock r
            (payableAfterFor sampleNow 7) := by decide +kernel
  refine ⟨r, hr, (promoted_iff hr hreleased).mpr ?_⟩
  exact ⟨payableAfterFor sampleNow 7, ⟨_, soldKnock, [], rfl, hearns⟩, by decide +kernel⟩

/-- The knock writes the commission with the sale, and the install is confirmed after it. -/
def confirmedAfter : List Event :=
  [⟨sampleNow, .editCommissions [unconfirmedCommission]⟩, soldKnock,
    ⟨sampleNow, .editCommissions [confirmedCommission]⟩]

theorem not_promoted_confirmedAfter :
    ∃ r ∈ (run step (Db.empty holdOrg) confirmedAfter).overrides,
      Released (run step (Db.empty holdOrg) confirmedAfter) afterHold r ∧
        ¬ Promoted (run step (Db.empty holdOrg) confirmedAfter) afterHold r := by
  obtain ⟨r, hr, hreleased, hdue⟩ :
      ∃ r ∈ (run step (Db.empty holdOrg) confirmedAfter).overrides,
        Released (run step (Db.empty holdOrg) confirmedAfter) afterHold r ∧
          ¬ HoldDue afterHold r := by decide +kernel
  refine ⟨r, hr, hreleased, fun hpromoted => hdue ?_⟩
  exact (promoted_iff_holdDue (wf_run holdOrg confirmedAfter) hr hreleased.1).mp hpromoted

end HomefrontFiber.Commission
