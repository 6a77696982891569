import HomefrontFiber.FreshFiber.Landing

/-!
# One lead for each door

A call takes its candidates one by one, and between two calls scans may leave any evidence behind. As
long as every candidate that is placed lands right, the targets of distinct doors have distinct leads and
the targets of one door share one.
-/

namespace HomefrontFiber.FreshFiber

open List

variable {u : Unicode} {tenantId nowMs : Int} {db : Tables} {b : Batch} {c : ProjectionCandidate}

def ScanTarget.place (s : ScanTarget) : Int × Int × Text × Option Int :=
  (s.id, s.tenantId, s.address, s.convertedToLeadId)

theorem place_eq {s s' : ScanTarget} (h : s.place = s'.place) :
    s.id = s'.id ∧ s.tenantId = s'.tenantId ∧ s.address = s'.address ∧
      s.convertedToLeadId = s'.convertedToLeadId := by
  simpa [ScanTarget.place] using h

theorem Kept.samePlaces {db' : Tables} (h : Kept u tenantId db) (hleads : db'.leads = db.leads)
    (hplaces : db'.targets.map ScanTarget.place = db.targets.map ScanTarget.place)
    (hlast : db'.lastLeadId = db.lastLeadId) : Kept u tenantId db' := by
  have hrow : ∀ s' ∈ db'.targets, ∃ s ∈ db.targets, s.place = s'.place := by
    intro s' hs'
    have hmem : s'.place ∈ db.targets.map ScanTarget.place := hplaces ▸ mem_map_of_mem hs'
    obtain ⟨s, hs, heq⟩ := mem_map.mp hmem
    exact ⟨s, hs, heq⟩
  constructor
  · intro s' hs' hstenant leadId hleadId
    obtain ⟨s, hs, heq⟩ := hrow s' hs'
    obtain ⟨-, htenant, haddress, hlink⟩ := place_eq heq
    rw [hleads, ← haddress]
    exact h.linked s hs (htenant.trans hstenant) leadId (hlink ▸ hleadId)
  · rw [hleads]
    intro l hl hltenant targetId htargetId s' hs' hid hstenant
    obtain ⟨s, hs, heq⟩ := hrow s' hs'
    obtain ⟨hsid, htenant, haddress, -⟩ := place_eq heq
    rw [← haddress]
    exact h.sourced l hl hltenant targetId htargetId s hs (hsid.trans hid) (htenant.trans hstenant)
  · rw [hleads]
    exact h.single
  · rw [hleads]
    exact h.keyed
  · rw [hleads, hlast]
    exact h.numbered
  · rw [hleads]
    exact h.distinct
  · have hids := congrArg (List.map Prod.fst) hplaces
    rw [map_map, map_map] at hids
    have hsame : db'.targets.map (·.id) = db.targets.map (·.id) := hids
    rw [hsame]
    exact h.targetIds

theorem Kept.markAddressReview (h : Kept u tenantId db) (targetId : Int)
    (issues : List AddressIssue) : Kept u tenantId (markAddressReview targetId issues db) := by
  refine h.samePlaces rfl ?_ rfl
  unfold FreshFiber.markAddressReview
  rw [map_map]
  apply map_congr_left
  intro s _
  simp only [Function.comp_apply]
  split <;> rfl

theorem kept_setStatus (h : Kept u tenantId db) (status : LeadStatus) (target : Int)
    (p : Lead → Bool) :
    Kept u tenantId
      { db with leads := updateLead target tenantId p (setStatus status nowMs) db.leads } :=
  h.updateLead (by exact fun _ => rfl) (by exact fun _ => rfl) target p

theorem InCall.step {tables : Tables} (h : InCall u tenantId b) (hkept : Kept u tenantId tables)
    (hdoors : tables.leads.map Lead.door = b.tables.leads.map Lead.door) (r : ProjectionResult) :
    InCall u tenantId { b with tables, result := r } where
  kept := hkept
  index entry hentry e he :=
    (h.index entry hentry e he).mono fun _ hl => exists_of_door hdoors.symm hl

theorem inCall_perCandidate (h : InCall u tenantId b) (hrow : HasRow tenantId b.tables c)
    (hsound : Sound u tenantId nowMs b c) :
    InCall u tenantId (perCandidate u tenantId nowMs b c) := by
  unfold Sound at hsound
  rw [perCandidate_eq]
  cases hverdict : verdictIn u tenantId nowMs b.tables c with
  | rejected => exact ⟨h.kept, h.index⟩
  | provisional => exact ⟨h.kept, h.index⟩
  | nowActive leadId =>
    exact h.step (kept_setStatus h.kept .nowActive leadId canActivate)
      (updateLead_door (by exact fun _ => rfl) leadId canActivate b.tables.leads) _
  | blocked reason =>
    dsimp only
    cases c.target.convertedToLeadId with
    | none => exact ⟨h.kept, h.index⟩
    | some leadId =>
      dsimp only [suppressLead]
      split
      · have hkept := @kept_setStatus u tenantId nowMs b.tables h.kept .competitorSuppressed leadId
          canSuppress
        refine h.step ?_ ?_ _
        · exact hkept.congr rfl rfl rfl
        · exact updateLead_door (by exact fun _ => rfl) leadId canSuppress b.tables.leads
      · exact ⟨h.kept, h.index⟩
  | review issues =>
    have hmarked := h.kept.markAddressReview c.target.id issues
    dsimp only
    cases c.target.convertedToLeadId with
    | none => exact h.step hmarked rfl _
    | some leadId =>
      have hkept := @kept_setStatus u tenantId nowMs _ hmarked .addressReview leadId canReview
      refine h.step ?_ ?_ _
      · exact hkept.congr rfl rfl rfl
      · exact updateLead_door (by exact fun _ => rfl) leadId canReview b.tables.leads
  | publish decision =>
    rw [hverdict] at hsound
    dsimp only
    rcases publish_cases u tenantId nowMs c decision
      { b with result := { b.result with confirmed := b.result.confirmed + 1 } } with
      ⟨-, heq⟩ | ⟨hown, ⟨reason, heq⟩ | ⟨assignment, hassignment, heq⟩⟩
    · rw [heq]
      exact ⟨h.kept, h.index⟩
    · rw [heq]
      exact ⟨h.kept, h.index⟩
    · rw [heq]
      dsimp only at hown hassignment
      have hright := hsound rfl hown (by rw [hassignment]; rfl)
      have hcall : InCall u tenantId { b with result := { b.result with
          confirmed := b.result.confirmed + 1, published := b.result.published + 1 } } :=
        ⟨h.kept, h.index⟩
      exact inCall_place hcall hrow (hright.withResult _) decision assignment

theorem rows_linkTarget (leadId targetId : Int) (targets : List ScanTarget) :
    (linkTarget leadId targetId tenantId targets).map (fun s => (s.id, s.tenantId, s.address)) =
      targets.map fun s => (s.id, s.tenantId, s.address) := by
  unfold linkTarget
  rw [map_map]
  apply map_congr_left
  intro s _
  simp only [Function.comp_apply]
  split <;> rfl

theorem rows_markAddressReview (targetId : Int) (issues : List AddressIssue) (db : Tables) :
    (markAddressReview targetId issues db).targets.map (fun s => (s.id, s.tenantId, s.address)) =
      db.targets.map fun s => (s.id, s.tenantId, s.address) := by
  unfold markAddressReview
  rw [map_map]
  apply map_congr_left
  intro s _
  simp only [Function.comp_apply]
  split <;> rfl

theorem TableStep.rows {db' : Tables} (h : TableStep u tenantId nowMs b c db') :
    db'.targets.map (fun s => (s.id, s.tenantId, s.address)) =
      b.tables.targets.map fun s => (s.id, s.tenantId, s.address) := by
  cases h with
  | same => rfl
  | activate => rfl
  | suppress => rfl
  | mark issues hverdict hlink => exact rows_markAddressReview _ _ _
  | review leadId issues hverdict hlink => exact rows_markAddressReview _ _ _
  | join decision assignment wasUnassigned lead hverdict hfound => exact rows_linkTarget _ _ _
  | create decision assignment wasUnassigned hverdict hfound =>
    have hlinked := @rows_linkTarget tenantId
      (insertLead (freshLead u tenantId nowMs c decision assignment b.tables) nowMs b.tables).2
      c.target.id
      (insertLead (freshLead u tenantId nowMs c decision assignment b.tables) nowMs b.tables).1.targets
    rw [insertLead_targets] at hlinked
    exact (congrArg (List.map _) (congrArg (linkTarget _ _ _)
      (insertLead_targets _ b.tables))).trans hlinked

theorem HasRow.of_rows {db' : Tables} (h : HasRow tenantId db c)
    (hrows : db'.targets.map (fun s => (s.id, s.tenantId, s.address)) =
      db.targets.map fun s => (s.id, s.tenantId, s.address)) : HasRow tenantId db' c := by
  obtain ⟨s, hs, hid, htenant, haddress⟩ := h
  have hmem : (s.id, s.tenantId, s.address) ∈
      db'.targets.map fun s => (s.id, s.tenantId, s.address) := hrows ▸ mem_map_of_mem hs
  obtain ⟨s', hs', heq⟩ := mem_map.mp hmem
  simp only [Prod.mk.injEq] at heq
  exact ⟨s', hs', heq.1.trans hid, heq.2.1.trans htenant, heq.2.2.trans haddress⟩

theorem inCall_projectAll (cs : List ProjectionCandidate) (h : InCall u tenantId b)
    (hrows : ∀ c ∈ cs, HasRow tenantId b.tables c)
    (hsound : Along (perCandidate u tenantId nowMs) (Sound u tenantId nowMs) b cs) :
    InCall u tenantId (projectAll u tenantId nowMs cs b) := by
  induction cs generalizing b with
  | nil => exact h
  | cons c cs ih =>
    obtain ⟨hfirst, hrest⟩ := along_cons.mp hsound
    have hstep := tableStep_perCandidate u tenantId nowMs b c
    refine ih (inCall_perCandidate h (hrows c mem_cons_self) hfirst) ?_ hrest
    exact fun c' hc' => (hrows c' (mem_cons_of_mem c hc')).of_rows hstep.rows

theorem hasRow_candidates {targetIds : Option (List Int)} (h : c ∈ candidates db tenantId targetIds) :
    HasRow tenantId db c := by
  obtain ⟨hmem, hqualifies⟩ := mem_filter.mp h
  obtain ⟨s, hs, rfl⟩ := mem_map.mp hmem
  simp only [qualifies, Bool.and_eq_true, decide_eq_true_eq] at hqualifies
  exact ⟨s, (mem_filter.mp hs).1, rfl, hqualifies.1.1.2, rfl⟩

theorem kept_act (h : Kept u tenantId db) {a : ProjectorAction} (hsound : SoundCall u tenantId db a) :
    Kept u tenantId (act u tenantId db a) := by
  cases a with
  | scan evidence =>
    refine h.samePlaces rfl ?_ rfl
    unfold act scanned
    rw [map_map]
    rfl
  | project targetIds nowMs =>
    have hstart : InCall u tenantId (startBatch db (candidates db tenantId targetIds).length) :=
      ⟨h, fun entry hentry => absurd hentry not_mem_nil⟩
    have hcall := inCall_projectAll (candidates db tenantId targetIds) hstart
      (fun _ hc => hasRow_candidates hc) hsound
    have htables : act u tenantId db (.project targetIds nowMs) =
        (projectAll u tenantId nowMs (candidates db tenantId targetIds)
          (startBatch db (candidates db tenantId targetIds).length)).tables :=
      congrArg Prod.fst (projectConfirmedFreshLeads_eq u tenantId nowMs targetIds db)
    rw [htables]
    exact hcall.kept

structure Unpublished (tenantId : Int) (db : Tables) : Prop where
  unlinked : ∀ s ∈ db.targets, s.tenantId = tenantId → s.convertedToLeadId = none
  targetIds : (db.targets.map (·.id)).Nodup
  foreign : ∀ l ∈ db.leads, l.tenantId ≠ tenantId
  numbered : ∀ l ∈ db.leads, l.id ≤ db.lastLeadId
  distinct : (db.leads.map (·.id)).Nodup

theorem Unpublished.kept (h : Unpublished tenantId db) : Kept u tenantId db where
  linked s hs hstenant leadId hleadId := by
    rw [h.unlinked s hs hstenant] at hleadId
    cases hleadId
  sourced l hl hltenant := absurd hltenant (h.foreign l hl)
  single l hl _ _ hltenant := absurd hltenant (h.foreign l hl)
  keyed l hl hltenant := absurd hltenant (h.foreign l hl)
  numbered := h.numbered
  distinct := h.distinct
  targetIds := h.targetIds

theorem oneLeadPerDoor_run (u : Unicode) {tenantId : Int} {db : Tables} {as : List ProjectorAction}
    (h : Unpublished tenantId db) (hsound : Along (act u tenantId) (SoundCall u tenantId) db as) :
    OneLeadPerDoor u tenantId (run (act u tenantId) db as) := by
  have hstep : ∀ db a, Kept u tenantId db → SoundCall u tenantId db a →
      Kept u tenantId (act u tenantId db a) := fun _ _ hkept hcall => kept_act hkept hcall
  have hkept : Kept u tenantId (run (act u tenantId) db as) := run_invariant hstep h.kept hsound
  exact hkept.oneLeadPerDoor

/-- One door under two spellings, swept once. -/
theorem oneLeadPerDoor_twoSpellings :
    OneLeadPerDoor .ascii 1 (run (act .ascii 1)
      (doorsOnly [maconDoor 1 "12 Oak St", maconDoor 2 "12 Oak Street"]
        [newFiberAnswer 1 0, newFiberAnswer 2 0]) [.project none 0]) :=
  oneLeadPerDoor_run .ascii
    ⟨by decide +kernel, by decide +kernel, by decide +kernel, by decide +kernel, by decide +kernel⟩
    (by decide +kernel)

def apartments : Tables :=
  doorsOnly [maconDoor 1 "12 Oak St Apt 1", maconDoor 2 "12 Oak St Apt 2"]
    [newFiberAnswer 1 0, newFiberAnswer 2 0]

/-- The geo guard attaches the second apartment to the lead of the first. -/
theorem not_oneLeadPerDoor_apartments :
    ¬ OneLeadPerDoor .ascii 1 (run (act .ascii 1) apartments [.project none 0]) := by
  intro h
  have hapart := h.apart
  revert hapart
  decide +kernel

end HomefrontFiber.FreshFiber
