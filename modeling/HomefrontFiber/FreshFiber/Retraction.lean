import HomefrontFiber.Foundation.Runs
import HomefrontFiber.FreshFiber.Publication

/-!
# A retraction is for good

Three verdicts retract the lead that a candidate is linked to. No verdict puts the status back: a door
that clears again leaves by its stable link, and a stamp does not write the status. After any run of
observations and calls a lead stands exactly when it stood at first and none of its doors gave a
retracting answer.
-/

namespace HomefrontFiber.FreshFiber

variable {u : Unicode} {tenantId nowMs leadId : Int} {db : Tables} {b : Batch}
  {c : ProjectionCandidate} {status status' : LeadStatus}

def leadOf (tenantId leadId : Int) (leads : List Lead) : Option Lead :=
  leads.find? fun l => l.id = leadId && l.tenantId = tenantId

def statusOf (tenantId leadId : Int) (db : Tables) : Option LeadStatus :=
  (leadOf tenantId leadId db.leads).map (·.leadStatus)

def LeadStatus.retracted (s : LeadStatus) : Bool :=
  s ∈ [LeadStatus.competitorSuppressed, .nowActive, .addressReview]

def LeadStatus.isOpen (s : LeadStatus) : Bool := s ∉ [LeadStatus.sold, .scopeSuppressed]

theorem retracted_iff_rank : status.retracted = true ↔ 0 < status.rank := by
  cases status <;> simp [LeadStatus.retracted, LeadStatus.rank]

def Verdict.retracts : Verdict → Bool
  | .nowActive _ | .blocked _ | .review _ => true
  | _ => false

structure KeepsKey (f : Lead → Lead) : Prop where
  id : ∀ l, (f l).id = l.id
  tenantId : ∀ l, (f l).tenantId = l.tenantId

theorem leadOf_updateLead {f : Lead → Lead} (hf : KeepsKey f) (target : Int) (p : Lead → Bool)
    (leads : List Lead) :
    leadOf tenantId leadId (updateLead target tenantId p f leads) =
      (leadOf tenantId leadId leads).map fun l => if leadId = target && p l then f l else l := by
  unfold leadOf updateLead
  rw [List.find?_map]
  have hkey : ((fun l : Lead => decide (l.id = leadId) && decide (l.tenantId = tenantId)) ∘
      fun l => if l.id = target && l.tenantId = tenantId && p l then f l else l) =
      fun l => decide (l.id = leadId) && decide (l.tenantId = tenantId) := by
    funext l
    simp only [Function.comp_apply]
    split
    · rw [hf.id, hf.tenantId]
    · rfl
  rw [hkey]
  apply Option.map_congr
  intro l hl
  have hfound := List.find?_some hl
  simp only [Bool.and_eq_true, decide_eq_true_eq] at hfound
  rw [hfound.1, hfound.2]
  simp

theorem statusOf_eq_some : statusOf tenantId leadId db = some status ↔
    ∃ l, leadOf tenantId leadId db.leads = some l ∧ l.leadStatus = status := Option.map_eq_some_iff

theorem leadOf_map_status {f : Lead → Lead} (hf : KeepsKey f)
    (hstatus : ∀ l, (f l).leadStatus = l.leadStatus) (target : Int) (p : Lead → Bool)
    (leads : List Lead) :
    (leadOf tenantId leadId (updateLead target tenantId p f leads)).map (·.leadStatus) =
      (leadOf tenantId leadId leads).map (·.leadStatus) := by
  rw [leadOf_updateLead hf, Option.map_map]
  apply Option.map_congr
  intro l _
  simp only [Function.comp_apply]
  split
  · exact hstatus l
  · rfl

theorem keepsKey_setStatus (status : LeadStatus) : KeepsKey (setStatus status nowMs) :=
  ⟨fun _ => rfl, fun _ => rfl⟩

theorem keepsKey_stamped (decision : FreshFiberConfirmationDecision)
    (assignment : Option TerritoryAssignment) : KeepsKey (stamped nowMs c decision assignment) :=
  ⟨fun _ => rfl, fun _ => rfl⟩

theorem statusOf_attach (target : Int) (decision : FreshFiberConfirmationDecision)
    (assignment : Option TerritoryAssignment) (wasUnassigned : Bool) (db : Tables) :
    statusOf tenantId leadId (attach tenantId nowMs target c decision assignment wasUnassigned db) =
      statusOf tenantId leadId db :=
  leadOf_map_status (keepsKey_stamped decision assignment) (by exact fun _ => rfl) target _ db.leads

theorem statusOf_insertLead {l : Lead} (htenant : l.tenantId = tenantId)
    (h : statusOf tenantId leadId db = some status) :
    statusOf tenantId leadId (insertLead l nowMs db).1 = some status := by
  unfold insertLead
  split
  · rename_i old hold
    have howner : old.tenantId = tenantId := by
      have hfound := List.find?_some hold
      simp only [Bool.and_eq_true, decide_eq_true_eq] at hfound
      exact hfound.1.1.trans htenant
    rw [howner]
    exact (leadOf_map_status ⟨by exact fun _ => rfl, by exact fun _ => rfl⟩ (by exact fun _ => rfl)
      old.id _ db.leads).trans h
  · obtain ⟨l₀, hl₀, hstatus⟩ := statusOf_eq_some.mp h
    rw [statusOf_eq_some]
    refine ⟨l₀, ?_, hstatus⟩
    unfold leadOf at hl₀ ⊢
    rw [List.find?_append, hl₀]
    rfl

/-- The status is retracted when it was before or the lead is hit, and else it is the same. -/
structure Moves (hit : Prop) (status status' : LeadStatus) : Prop where
  rank : 0 < status'.rank ↔ 0 < status.rank ∨ hit
  same : status'.rank = 0 → status' = status

theorem Moves.refl {hit : Prop} (hhit : hit → 0 < status.rank) : Moves hit status status where
  rank := ⟨Or.inl, fun h => h.elim (fun hrank => hrank) hhit⟩
  same _ := rfl

/-- A retraction sets its status on the leads that `p` allows. Any open lead that it does not allow is
retracted already. -/
theorem moves_retract {p : Lead → Bool} {target : Int} {retracted : LeadStatus}
    (hrank : 0 < retracted.rank)
    (hp : ∀ l, p l = false → l.leadStatus.isOpen = true → 0 < l.leadStatus.rank) {leads : List Lead}
    (hleads : leads = updateLead target tenantId p (setStatus retracted nowMs) db.leads)
    (h : statusOf tenantId leadId db = some status)
    (hopen : status.rank = 0 → status.isOpen = true) :
    ∃ status', (leadOf tenantId leadId leads).map (·.leadStatus) = some status' ∧
      Moves (target = leadId) status status' := by
  obtain ⟨l, hl, rfl⟩ := statusOf_eq_some.mp h
  rw [hleads, leadOf_updateLead (keepsKey_setStatus retracted), hl]
  by_cases hhit : leadId = target && p l
  · refine ⟨retracted, ?_, ?_⟩
    · simp only [Option.map_some, hhit, if_true]
      rfl
    · simp only [Bool.and_eq_true, decide_eq_true_eq] at hhit
      exact ⟨⟨fun _ => Or.inr hhit.1.symm, fun _ => hrank⟩, fun hzero => by omega⟩
  · refine ⟨l.leadStatus, ?_, Moves.refl ?_⟩
    · simp only [Option.map_some, hhit, Bool.false_eq_true, if_false]
    · intro htarget
      rcases Nat.eq_zero_or_pos l.leadStatus.rank with hzero | hpos
      · apply hp l _ (hopen hzero)
        simpa [htarget] using hhit
      · exact hpos

theorem canActivate_rank (l : Lead) (h : canActivate l = false) (_ : l.leadStatus.isOpen = true) :
    0 < l.leadStatus.rank := by
  cases hl : l.leadStatus <;> simp_all [canActivate, LeadStatus.rank]

theorem canSuppress_rank (l : Lead) (h : canSuppress l = false) (hopen : l.leadStatus.isOpen = true) :
    0 < l.leadStatus.rank := by
  cases hl : l.leadStatus <;> simp_all [canSuppress, LeadStatus.rank, LeadStatus.isOpen]

theorem canReview_rank (l : Lead) (h : canReview l = false) (hopen : l.leadStatus.isOpen = true) :
    0 < l.leadStatus.rank := by
  cases hl : l.leadStatus <;> simp_all [canReview, LeadStatus.rank, LeadStatus.isOpen]

theorem suppressLead_leads (target : Int) (reason : CompetitiveDecision) (b : Batch) :
    (suppressLead tenantId nowMs target reason c b).tables.leads =
      updateLead target tenantId canSuppress (setStatus .competitorSuppressed nowMs)
        b.tables.leads := by
  unfold suppressLead
  split
  · rfl
  · rename_i hnone
    exact (updateLead_of_not_changes (by simpa using hnone)).symm

theorem link_of_nowActive {target : Int}
    (h : verdictIn u tenantId nowMs db c = .nowActive target) :
    c.target.convertedToLeadId = some target := by
  unfold verdictIn verdict at h
  split at h
  · cases h
  · split at h
    · rename_i hlink
      cases h
      exact (Option.filter_eq_some_iff.mp hlink).1
    · split at h
      · cases h
      · split at h
        · unfold confirm at h
          dsimp only at h
          split at h
          · cases h
          · split at h
            · cases h
            · split at h <;> cases h
        · cases h

theorem statusOf_place (decision : FreshFiberConfirmationDecision)
    (assignment : Option TerritoryAssignment) (h : statusOf tenantId leadId b.tables = some status) :
    statusOf tenantId leadId (place u tenantId nowMs c decision assignment b).tables =
      some status := by
  obtain ⟨wasUnassigned, ⟨lead, -, htables⟩ | ⟨-, htables⟩⟩ :=
    place_tables u tenantId nowMs c decision assignment b
  · rw [htables, statusOf_attach, h]
  · rw [htables, statusOf_attach]
    exact statusOf_insertLead rfl h

/-- The lead is the one that the candidate is linked to, and the verdict retracts it. -/
def Hits (u : Unicode) (tenantId nowMs leadId : Int) (db : Tables) (c : ProjectionCandidate) : Prop :=
  c.target.convertedToLeadId = some leadId ∧ (verdictIn u tenantId nowMs db c).retracts = true

theorem moves_perCandidate (h : statusOf tenantId leadId b.tables = some status)
    (hopen : status.rank = 0 → status.isOpen = true) :
    ∃ status', statusOf tenantId leadId (perCandidate u tenantId nowMs b c).tables = some status' ∧
      Moves (Hits u tenantId nowMs leadId b.tables c) status status' := by
  have hmiss : (verdictIn u tenantId nowMs b.tables c).retracts = false →
      Moves (Hits u tenantId nowMs leadId b.tables c) status status := by
    intro hfalse
    apply Moves.refl
    rintro ⟨-, htrue⟩
    rw [hfalse] at htrue
    cases htrue
  have hhit : ∀ {target}, c.target.convertedToLeadId = some target →
      (verdictIn u tenantId nowMs b.tables c).retracts = true → ∀ {status'},
      Moves (target = leadId) status status' →
        Moves (Hits u tenantId nowMs leadId b.tables c) status status' := by
    intro target hlink htrue status' hmoves
    have hiff : Hits u tenantId nowMs leadId b.tables c ↔ target = leadId := by
      simp [Hits, hlink, htrue]
    exact ⟨by rw [hiff]; exact hmoves.rank, hmoves.same⟩
  rw [perCandidate_eq]
  cases hverdict : verdictIn u tenantId nowMs b.tables c with
  | rejected => exact ⟨status, h, hmiss (by rw [hverdict]; rfl)⟩
  | provisional => exact ⟨status, h, hmiss (by rw [hverdict]; rfl)⟩
  | nowActive target =>
    have hlink := link_of_nowActive hverdict
    have hrank : 0 < LeadStatus.nowActive.rank := by decide
    obtain ⟨status', hstatus, hmoves⟩ :=
      moves_retract hrank canActivate_rank (@rfl _ (updateLead target tenantId canActivate
        (setStatus .nowActive nowMs) b.tables.leads)) h hopen
    exact ⟨status', hstatus, hhit hlink (by rw [hverdict]; rfl) hmoves⟩
  | blocked reason =>
    dsimp only
    cases hlink : c.target.convertedToLeadId with
    | none =>
      refine ⟨status, h, Moves.refl ?_⟩
      rintro ⟨hlinked, -⟩
      rw [hlink] at hlinked
      cases hlinked
    | some target =>
      have hrank : 0 < LeadStatus.competitorSuppressed.rank := by decide
      obtain ⟨status', hstatus, hmoves⟩ :=
        moves_retract hrank canSuppress_rank (suppressLead_leads target reason b) h hopen
      exact ⟨status', hstatus, hhit hlink (by rw [hverdict]; rfl) hmoves⟩
  | review issues =>
    dsimp only
    cases hlink : c.target.convertedToLeadId with
    | none =>
      refine ⟨status, h, Moves.refl ?_⟩
      rintro ⟨hlinked, -⟩
      rw [hlink] at hlinked
      cases hlinked
    | some target =>
      have hrank : 0 < LeadStatus.addressReview.rank := by decide
      obtain ⟨status', hstatus, hmoves⟩ :=
        moves_retract hrank canReview_rank (@rfl _ (updateLead target tenantId canReview
          (setStatus .addressReview nowMs) b.tables.leads)) h hopen
      exact ⟨status', hstatus, hhit hlink (by rw [hverdict]; rfl) hmoves⟩
  | publish decision =>
    refine ⟨status, ?_, hmiss (by rw [hverdict]; rfl)⟩
    dsimp only
    rcases publish_cases u tenantId nowMs c decision
      { b with result := { b.result with confirmed := b.result.confirmed + 1 } } with
      ⟨-, heq⟩ | ⟨-, ⟨reason, heq⟩ | ⟨assignment, -, heq⟩⟩
    · rw [heq]
      exact h
    · rw [heq]
      exact h
    · rw [heq]
      exact statusOf_place decision assignment h

theorem hits_congr {db' : Tables} (h : db'.corroborations = db.corroborations)
    (c : ProjectionCandidate) :
    Hits u tenantId nowMs leadId db' c ↔ Hits u tenantId nowMs leadId db c := by
  rw [Hits, verdictIn_congr h]
  rfl

theorem moves_projectAll (cs : List ProjectionCandidate)
    (h : statusOf tenantId leadId b.tables = some status)
    (hopen : status.rank = 0 → status.isOpen = true) :
    ∃ status', statusOf tenantId leadId (projectAll u tenantId nowMs cs b).tables = some status' ∧
      Moves (∃ c ∈ cs, Hits u tenantId nowMs leadId b.tables c) status status' := by
  induction cs generalizing b status with
  | nil => exact ⟨status, h, Moves.refl fun ⟨c, hc, _⟩ => absurd hc List.not_mem_nil⟩
  | cons c cs ih =>
    have hcorroborations := (tableStep_perCandidate u tenantId nowMs b c).corroborations
    obtain ⟨status₁, hstatus₁, hfirst⟩ := @moves_perCandidate u tenantId nowMs leadId b c status h hopen
    have hopen₁ : status₁.rank = 0 → status₁.isOpen = true := by
      intro hzero
      have hsame := hfirst.same hzero
      rw [hsame] at hzero ⊢
      exact hopen hzero
    obtain ⟨status₂, hstatus₂, hrest⟩ := ih hstatus₁ hopen₁
    refine ⟨status₂, hstatus₂, ?_, ?_⟩
    · rw [hrest.rank, hfirst.rank]
      simp only [hits_congr hcorroborations, List.mem_cons, exists_eq_or_imp, or_assoc]
    · intro hzero
      have hsame := hrest.same hzero
      rw [hsame] at hzero ⊢
      exact hfirst.same hzero

/-- A conclusive answer for one door: its snapshot and what it writes to the target. Coordinates are
filled in where they are missing. -/
structure Observation where
  snapshot : AvailabilitySnapshot
  conclusive : snapshot.conclusive = true
  last : LastScan
  lat : Option Rat
  lng : Option Rat

def observe (o : Observation) (db : Tables) : Tables :=
  { db with
    snapshots := db.snapshots ++ [o.snapshot]
    targets := db.targets.map fun s =>
      if s.id = o.snapshot.scanTargetId && s.tenantId = o.snapshot.tenantId then
        { s with last := o.last, lat := s.lat.or o.lat, lng := s.lng.or o.lng }
      else s }

structure Pass where
  observation : Observation
  targetIds : Option (List Int)
  nowMs : Int

def pass (u : Unicode) (tenantId : Int) (db : Tables) (p : Pass) : Tables :=
  projected u tenantId p.nowMs p.targetIds (observe p.observation db)

/-- No candidate of the call is linked to the lead and gives an answer that retracts it. -/
def Spares (u : Unicode) (tenantId leadId : Int) (db : Tables) (p : Pass) : Prop :=
  ∀ c ∈ candidates (observe p.observation db) tenantId p.targetIds,
    ¬ Hits u tenantId p.nowMs leadId (observe p.observation db) c

theorem moves_pass (p : Pass) (h : statusOf tenantId leadId db = some status)
    (hopen : status.rank = 0 → status.isOpen = true) :
    ∃ status', statusOf tenantId leadId (pass u tenantId db p) = some status' ∧
      Moves (¬ Spares u tenantId leadId db p) status status' := by
  have hspares : ¬ Spares u tenantId leadId db p ↔
      ∃ c ∈ candidates (observe p.observation db) tenantId p.targetIds,
        Hits u tenantId p.nowMs leadId (observe p.observation db) c := by
    simp only [Spares, not_forall, not_not, exists_prop]
  rw [pass, projected, projectConfirmedFreshLeads_eq, hspares]
  exact moves_projectAll _ h hopen

theorem stands_run (passes : List Pass) (h : statusOf tenantId leadId db = some status)
    (hopen : status.rank = 0 → status.isOpen = true) :
    ∃ final, statusOf tenantId leadId (run (pass u tenantId) db passes) = some final ∧
      (final.rank = 0 ↔
        status.rank = 0 ∧ Along (pass u tenantId) (Spares u tenantId leadId) db passes) := by
  induction passes generalizing db status with
  | nil => exact ⟨status, h, by simp⟩
  | cons p passes ih =>
    obtain ⟨status₁, hstatus₁, hmoves⟩ := @moves_pass u tenantId leadId db status p h hopen
    have hopen₁ : status₁.rank = 0 → status₁.isOpen = true := by
      intro hzero
      have hsame := hmoves.same hzero
      rw [hsame] at hzero ⊢
      exact hopen hzero
    obtain ⟨final, hfinal, hiff⟩ := ih hstatus₁ hopen₁
    refine ⟨final, hfinal, ?_⟩
    rw [hiff, along_cons, ← and_assoc]
    apply and_congr_left
    intro _
    have hrank := hmoves.rank
    constructor
    · intro hzero
      have hnot : ¬ (0 < status.rank ∨ ¬ Spares u tenantId leadId db p) := by
        rw [← hrank]
        omega
      push Not at hnot
      exact ⟨Nat.eq_zero_of_le_zero hnot.1, hnot.2⟩
    · rintro ⟨hzero, hspares⟩
      by_contra hne
      rcases hrank.mp (Nat.pos_of_ne_zero hne) with hpos | hhit
      · omega
      · exact hhit hspares

/-- A published lead that nobody sold or took out of scope, and the door linked to it. -/
structure PublishedDoor (tenantId doorId leadId : Int) (status : LeadStatus) (db : Tables) : Prop where
  linked : ∃ s ∈ db.targets, s.id = doorId ∧ s.tenantId = tenantId ∧
    s.convertedToLeadId = some leadId
  lead : statusOf tenantId leadId db = some status
  isOpen : status.isOpen = true

/-- The last observation is the newest of the door, satisfies every publication condition and its call
asks for the door. -/
structure Clears (u : Unicode) (tenantId doorId : Int) (db : Tables) (p : Pass) : Prop where
  door : p.observation.snapshot.scanTargetId = doorId ∧ p.observation.snapshot.tenantId = tenantId
  newest : ∀ s ∈ db.snapshots, s.scanTargetId = doorId → s.tenantId = tenantId →
    s.conclusive = true → s.checkedAtEpoch ≤ p.observation.snapshot.checkedAtEpoch
  available : p.observation.snapshot.fiberAvailable = some true
  clear : competitiveBlocked p.observation.snapshot.competitiveDecision = false
  segment : upperText p.observation.snapshot.householdSegmentType = newFiber
  billing : upperText p.observation.snapshot.billingStatus = ['N']
  identity : ∀ s ∈ (observe p.observation db).targets, s.id = doorId →
    addressIdentityIssues u s.address s.city s.state s.lat s.lng = []
  asked : p.targetIds.all (doorId ∈ ·) = true

/-- After a last observation that clears the door its lead is not retracted. -/
def ComesBack (u : Unicode) (tenantId doorId leadId : Int) (db : Tables) (passes : List Pass)
    (last : Pass) : Prop :=
  Clears u tenantId doorId (run (pass u tenantId) db passes) last →
    ∀ status ∈ statusOf tenantId leadId (run (pass u tenantId) db (passes ++ [last])),
      status.retracted = false

/-- The last observation brings nothing back. The lead stands exactly when it stood at first and every
call spared it. -/
theorem comesBack_iff {doorId : Int} {passes : List Pass} {last : Pass}
    (hpublished : PublishedDoor tenantId doorId leadId status db)
    (hclears : Clears u tenantId doorId (run (pass u tenantId) db passes) last) :
    ComesBack u tenantId doorId leadId db passes last ↔
      status.retracted = false ∧
        Along (pass u tenantId) (Spares u tenantId leadId) db (passes ++ [last]) := by
  obtain ⟨final, hfinal, hiff⟩ := @stands_run u tenantId leadId db status (passes ++ [last])
    hpublished.lead fun _ => hpublished.isOpen
  have hzero : ∀ s : LeadStatus, s.retracted = false ↔ s.rank = 0 := by
    intro s
    rw [← Bool.not_eq_true, retracted_iff_rank]
    omega
  rw [hzero, ← hiff, ← hzero]
  constructor
  · intro hback
    exact hback hclears final hfinal
  · intro hstands _ s hs
    rw [hfinal, Option.mem_some_iff] at hs
    rw [← hs]
    exact hstands

def oakStreet : Tables :=
  projected .ascii 1 0 none (doorsOnly [maconDoor 1 "12 Oak St"] [newFiberAnswer 1 0])

def answerPass (snapshot : AvailabilitySnapshot) (h : snapshot.conclusive = true) (nowMs : Int) : Pass :=
  { observation :=
      { snapshot, conclusive := h, last := neverScanned, lat := none, lng := none }
    targetIds := some [1]
    nowMs }

def competitorPass : Pass :=
  answerPass { newFiberAnswer 1 1 with competitiveDecision := some .excludedFiberCompetitor } rfl 60000

/-- The next recheck finds none. -/
def clearPass : Pass := answerPass (newFiberAnswer 1 2) rfl 120000

theorem clears_oakStreet :
    Clears .ascii 1 1 (run (pass .ascii 1) oakStreet [competitorPass]) clearPass where
  door := ⟨rfl, rfl⟩
  newest := by decide +kernel
  available := rfl
  clear := rfl
  segment := by decide +kernel
  billing := by decide +kernel
  identity := by decide +kernel
  asked := by decide +kernel

theorem comesBack_oakStreet_iff :
    ComesBack .ascii 1 1 1 oakStreet [competitorPass] clearPass ↔
      LeadStatus.prospect.retracted = false ∧
        Along (pass .ascii 1) (Spares .ascii 1 1) oakStreet ([competitorPass] ++ [clearPass]) :=
  comesBack_iff ⟨by decide +kernel, by decide +kernel, by decide⟩ clears_oakStreet

/-- The competitor goes away and the lead stays suppressed. -/
theorem not_comesBack_oakStreet : ¬ ComesBack .ascii 1 1 1 oakStreet [competitorPass] clearPass := by
  intro hback
  have hsuppressed : statusOf 1 1 (run (pass .ascii 1) oakStreet ([competitorPass] ++ [clearPass])) =
      some .competitorSuppressed := by
    decide +kernel
  have hstands := hback clears_oakStreet .competitorSuppressed hsuppressed
  exact absurd hstands (by decide)

end HomefrontFiber.FreshFiber
