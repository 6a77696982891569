import HomefrontFiber.Foundation.Runs
import HomefrontFiber.FreshFiber.Publication

/-!
# Where a candidate lands

Doors are told apart by house, street and unit. A candidate comes to a lead by its own source, by
the index of its city, by the geo guard or by the canonical key. All but the geo guard lead to a
lead of the same door, and none of them looks at other cities beyond fifteen meters.
-/

namespace HomefrontFiber.FreshFiber

open List

variable {u : Unicode} {tenantId nowMs : Int} {db : Tables} {b : Batch} {c : ProjectionCandidate}

def SameDoor (u : Unicode) (a a' : Text) : Prop := addressIdentityOf u a = addressIdentityOf u a'

instance (u : Unicode) (a a' : Text) : Decidable (SameDoor u a a') :=
  inferInstanceAs (Decidable (addressIdentityOf u a = addressIdentityOf u a'))

structure OneLeadPerDoor (u : Unicode) (tenantId : Int) (db : Tables) : Prop where
  apart : ∀ s ∈ db.targets, ∀ t ∈ db.targets, s.tenantId = tenantId → t.tenantId = tenantId →
    s.convertedToLeadId.isSome → s.convertedToLeadId = t.convertedToLeadId →
      SameDoor u s.address t.address
  together : ∀ s ∈ db.targets, ∀ t ∈ db.targets, s.tenantId = tenantId → t.tenantId = tenantId →
    s.convertedToLeadId.isSome → t.convertedToLeadId.isSome → SameDoor u s.address t.address →
      s.convertedToLeadId = t.convertedToLeadId

/-- What scans leave behind: snapshots, corroborations and the scan columns of every target. -/
structure Evidence where
  snapshots : List AvailabilitySnapshot
  corroborations : List Corroboration
  last : Int → LastScan

inductive ProjectorAction
  | scan (evidence : Evidence)
  | project (targetIds : Option (List Int)) (nowMs : Int)

def scanned (e : Evidence) (db : Tables) : Tables :=
  { db with
    snapshots := e.snapshots
    corroborations := e.corroborations
    targets := db.targets.map fun s => { s with last := e.last s.id } }

def act (u : Unicode) (tenantId : Int) (db : Tables) : ProjectorAction → Tables
  | .scan evidence => scanned evidence db
  | .project targetIds nowMs => projected u tenantId nowMs targetIds db

def cityLead (u : Unicode) (tenantId : Int) (c : ProjectionCandidate) (b : Batch) : Option IndexedLead :=
  (getCityIndex u tenantId c.target.city c.target.state b).2.get
    (normalizeKineticAddressKey u c.target.address c.target.city c.target.state)

/-- The geo guard, where it decides, hits a lead of the same door. A lead that stands for the door is
found by source, in the city, by the geo guard or by its key. -/
structure LandsRight (u : Unicode) (tenantId : Int) (b : Batch) (c : ProjectionCandidate) : Prop where
  geo : ownLead b.tables.leads tenantId c = none → cityLead u tenantId c b = none →
    ∀ g ∈ geoHit b.tables.leads tenantId c.target, SameDoor u g.address c.target.address
  reached : ∀ l ∈ b.tables.leads, l.tenantId = tenantId →
    SameDoor u l.address c.target.address →
      l.sourceScanTargetId = some c.target.id ∨
      (cityLead u tenantId c b).map (·.id) = some l.id ∨
      (geoHit b.tables.leads tenantId c.target).map (·.id) = some l.id ∨
      l.canonicalKey.isSome ∧ l.canonicalKey =
        kineticLeadKeyOrNull u c.target.address c.target.city c.target.state

def Verdict.publishes : Verdict → Bool
  | .publish _ => true
  | _ => false

def Sound (u : Unicode) (tenantId nowMs : Int) (b : Batch) (c : ProjectionCandidate) : Prop :=
  (verdictIn u tenantId nowMs b.tables c).publishes = true →
    linkedToOwn b.tables.leads tenantId c = false →
      (territoryAssignmentFor b.tables.territories tenantId c.target.lat c.target.lng).isOk = true →
        LandsRight u tenantId b c

def SoundCall (u : Unicode) (tenantId : Int) (db : Tables) : ProjectorAction → Prop
  | .scan _ => True
  | .project targetIds nowMs =>
    Along (perCandidate u tenantId nowMs) (Sound u tenantId nowMs)
      (startBatch db (candidates db tenantId targetIds).length) (candidates db tenantId targetIds)

instance (u : Unicode) (tenantId : Int) (b : Batch) (c : ProjectionCandidate) :
    Decidable (LandsRight u tenantId b c) :=
  decidable_of_iff
    ((ownLead b.tables.leads tenantId c = none → cityLead u tenantId c b = none →
        ∀ g ∈ geoHit b.tables.leads tenantId c.target, SameDoor u g.address c.target.address) ∧
      ∀ l ∈ b.tables.leads, l.tenantId = tenantId → SameDoor u l.address c.target.address →
        l.sourceScanTargetId = some c.target.id ∨
        (cityLead u tenantId c b).map (·.id) = some l.id ∨
        (geoHit b.tables.leads tenantId c.target).map (·.id) = some l.id ∨
        l.canonicalKey.isSome ∧ l.canonicalKey =
          kineticLeadKeyOrNull u c.target.address c.target.city c.target.state)
    ⟨fun h => ⟨h.1, h.2⟩, fun h => ⟨h.geo, h.reached⟩⟩

instance (u : Unicode) (tenantId nowMs : Int) (b : Batch) (c : ProjectionCandidate) :
    Decidable (Sound u tenantId nowMs b c) :=
  inferInstanceAs (Decidable (_ = true → _ = false → _ = true → LandsRight u tenantId b c))

instance (u : Unicode) (tenantId : Int) (db : Tables) (a : ProjectorAction) :
    Decidable (SoundCall u tenantId db a) :=
  match a with
  | .scan _ => inferInstanceAs (Decidable True)
  | .project _ nowMs => inferInstanceAs (Decidable (Along (perCandidate u tenantId nowMs) _ _ _))

structure Kept (u : Unicode) (tenantId : Int) (db : Tables) : Prop where
  linked : ∀ s ∈ db.targets, s.tenantId = tenantId → ∀ leadId ∈ s.convertedToLeadId,
    ∃ l ∈ db.leads, l.id = leadId ∧ l.tenantId = tenantId ∧ SameDoor u l.address s.address
  sourced : ∀ l ∈ db.leads, l.tenantId = tenantId → ∀ targetId ∈ l.sourceScanTargetId,
    ∀ s ∈ db.targets, s.id = targetId → s.tenantId = tenantId → SameDoor u l.address s.address
  single : ∀ l ∈ db.leads, ∀ l' ∈ db.leads, l.tenantId = tenantId → l'.tenantId = tenantId →
    SameDoor u l.address l'.address → l.id = l'.id
  keyed : ∀ l ∈ db.leads, l.tenantId = tenantId →
    l.canonicalKey = kineticLeadKeyOrNull u l.address l.city l.state
  numbered : ∀ l ∈ db.leads, l.id ≤ db.lastLeadId
  distinct : (db.leads.map (·.id)).Nodup
  targetIds : (db.targets.map (·.id)).Nodup

theorem Kept.oneLeadPerDoor (h : Kept u tenantId db) : OneLeadPerDoor u tenantId db where
  apart s hs t ht hstenant httenant hlink heq := by
    obtain ⟨leadId, hleadId⟩ := Option.isSome_iff_exists.mp hlink
    obtain ⟨l, hl, hid, -, hdoor⟩ := h.linked s hs hstenant leadId hleadId
    obtain ⟨l', hl', hid', -, hdoor'⟩ := h.linked t ht httenant leadId (heq ▸ hleadId)
    have hsame : l = l' := inj_on_of_nodup_map h.distinct hl hl' (hid.trans hid'.symm)
    rw [← hsame] at hdoor'
    exact hdoor.symm.trans hdoor'
  together s hs t ht hstenant httenant hslink htlink hdoor := by
    obtain ⟨leadId, hleadId⟩ := Option.isSome_iff_exists.mp hslink
    obtain ⟨leadId', hleadId'⟩ := Option.isSome_iff_exists.mp htlink
    obtain ⟨l, hl, hid, hltenant, hl_door⟩ := h.linked s hs hstenant leadId hleadId
    obtain ⟨l', hl', hid', hltenant', hl_door'⟩ := h.linked t ht httenant leadId' hleadId'
    have hsame : l.id = l'.id := h.single l hl l' hl' hltenant hltenant'
      ((hl_door.trans hdoor).trans hl_door'.symm)
    rw [hleadId, hleadId', ← hid, ← hid', hsame]

theorem Kept.congr {db' : Tables} (h : Kept u tenantId db) (htargets : db'.targets = db.targets)
    (hleads : db'.leads = db.leads) (hlast : db'.lastLeadId = db.lastLeadId) :
    Kept u tenantId db' where
  linked := by
    rw [htargets, hleads]
    exact h.linked
  sourced := by
    rw [htargets, hleads]
    exact h.sourced
  single := by
    rw [hleads]
    exact h.single
  keyed := by
    rw [hleads]
    exact h.keyed
  numbered := by
    rw [hleads, hlast]
    exact h.numbered
  distinct := by
    rw [hleads]
    exact h.distinct
  targetIds := by
    rw [htargets]
    exact h.targetIds

def Lead.door (l : Lead) : Int × Int × Text × Text × Text × Option Text :=
  (l.id, l.tenantId, l.address, l.city, l.state, l.canonicalKey)

section Updates

variable {target : Int} {p : Lead → Bool} {f : Lead → Lead} {leads : List Lead}

theorem updateLead_door (hf : ∀ l, (f l).door = l.door) (target : Int) (p : Lead → Bool)
    (leads : List Lead) :
    (updateLead target tenantId p f leads).map Lead.door = leads.map Lead.door := by
  unfold updateLead
  rw [map_map]
  apply map_congr_left
  intro l _
  simp only [Function.comp_apply]
  split
  · exact hf l
  · rfl

theorem exists_of_door {leads' : List Lead} (h : leads'.map Lead.door = leads.map Lead.door)
    {l' : Lead} (hl' : l' ∈ leads') : ∃ l ∈ leads, l.door = l'.door := by
  have hmem : l'.door ∈ leads.map Lead.door := h ▸ mem_map_of_mem hl'
  obtain ⟨l, hl, heq⟩ := mem_map.mp hmem
  exact ⟨l, hl, heq⟩

theorem door_eq {l l' : Lead} (h : l.door = l'.door) :
    l.id = l'.id ∧ l.tenantId = l'.tenantId ∧ l.address = l'.address ∧ l.city = l'.city ∧
      l.state = l'.state ∧ l.canonicalKey = l'.canonicalKey := by
  simpa [Lead.door] using h

theorem Kept.sameDoors {db' : Tables} (h : Kept u tenantId db) (htargets : db'.targets = db.targets)
    (hdoors : db'.leads.map Lead.door = db.leads.map Lead.door)
    (hlast : db'.lastLeadId = db.lastLeadId)
    (hsourced : ∀ l ∈ db'.leads, l.tenantId = tenantId → ∀ targetId ∈ l.sourceScanTargetId,
      ∀ s ∈ db.targets, s.id = targetId → s.tenantId = tenantId → SameDoor u l.address s.address) :
    Kept u tenantId db' where
  linked s hs hstenant leadId hleadId := by
    rw [htargets] at hs
    obtain ⟨l, hl, hid, hltenant, hdoor⟩ := h.linked s hs hstenant leadId hleadId
    obtain ⟨l', hl', heq⟩ := exists_of_door hdoors.symm hl
    obtain ⟨hid', htenant', haddress', -⟩ := door_eq heq
    exact ⟨l', hl', hid'.trans hid, htenant'.trans hltenant, haddress' ▸ hdoor⟩
  sourced := by
    rw [htargets]
    exact hsourced
  single l hl l' hl' hltenant hltenant' hdoor := by
    obtain ⟨l₀, hl₀, heq⟩ := exists_of_door hdoors hl
    obtain ⟨l₀', hl₀', heq'⟩ := exists_of_door hdoors hl'
    obtain ⟨hid, htenant, haddress, -⟩ := door_eq heq
    obtain ⟨hid', htenant', haddress', -⟩ := door_eq heq'
    rw [← hid, ← hid']
    apply h.single l₀ hl₀ l₀' hl₀' (htenant.trans hltenant) (htenant'.trans hltenant')
    rw [haddress, haddress']
    exact hdoor
  keyed l hl hltenant := by
    obtain ⟨l₀, hl₀, heq⟩ := exists_of_door hdoors hl
    obtain ⟨-, htenant, haddress, hcity, hstate, hkey⟩ := door_eq heq
    rw [← hkey, ← haddress, ← hcity, ← hstate]
    exact h.keyed l₀ hl₀ (htenant.trans hltenant)
  numbered l hl := by
    obtain ⟨l₀, hl₀, heq⟩ := exists_of_door hdoors hl
    rw [hlast, ← (door_eq heq).1]
    exact h.numbered l₀ hl₀
  distinct := by
    have hids := congrArg (List.map Prod.fst) hdoors
    rw [map_map, map_map] at hids
    have hsame : db'.leads.map (·.id) = db.leads.map (·.id) := hids
    rw [hsame]
    exact h.distinct
  targetIds := by
    rw [htargets]
    exact h.targetIds

theorem Kept.updateLead (h : Kept u tenantId db) (hf : ∀ l, (f l).door = l.door)
    (hsource : ∀ l, (f l).sourceScanTargetId = l.sourceScanTargetId) (target : Int)
    (p : Lead → Bool) :
    Kept u tenantId { db with leads := updateLead target tenantId p f db.leads } := by
  refine h.sameDoors rfl (updateLead_door hf target p db.leads) rfl ?_
  intro l hl hltenant targetId htargetId
  obtain ⟨l₀, hl₀, rfl | rfl⟩ := mem_updateLead hl
  · exact h.sourced l hl₀ hltenant targetId htargetId
  · obtain ⟨-, htenant, haddress, -⟩ := door_eq (hf l₀)
    rw [haddress]
    exact h.sourced l₀ hl₀ (htenant ▸ hltenant) targetId (hsource l₀ ▸ htargetId)

end Updates

def HasRow (tenantId : Int) (db : Tables) (c : ProjectionCandidate) : Prop :=
  ∃ s ∈ db.targets, s.id = c.target.id ∧ s.tenantId = tenantId ∧ s.address = c.target.address

def LeadAt (u : Unicode) (tenantId : Int) (db : Tables) (c : ProjectionCandidate) (leadId : Int) :
    Prop :=
  ∃ l ∈ db.leads, l.id = leadId ∧ l.tenantId = tenantId ∧ SameDoor u l.address c.target.address

theorem HasRow.address (h : HasRow tenantId db c) (hnodup : (db.targets.map (·.id)).Nodup)
    {s : ScanTarget} (hs : s ∈ db.targets) (hid : s.id = c.target.id) :
    s.address = c.target.address := by
  obtain ⟨s₀, hs₀, hid₀, -, haddress⟩ := h
  rw [inj_on_of_nodup_map hnodup hs hs₀ (hid.trans hid₀.symm)]
  exact haddress

theorem Kept.attach (h : Kept u tenantId db) (hrow : HasRow tenantId db c) {leadId : Int}
    (hlead : LeadAt u tenantId db c leadId) (decision : FreshFiberConfirmationDecision)
    (assignment : Option TerritoryAssignment) (wasUnassigned : Bool) :
    Kept u tenantId (attach tenantId nowMs leadId c decision assignment wasUnassigned db) := by
  obtain ⟨l₀, hl₀, hid₀, htenant₀, hdoor₀⟩ := hlead
  have hstamped : Kept u tenantId { db with
      leads := FreshFiber.updateLead leadId tenantId (fun _ => true)
        (stamped nowMs c decision assignment) db.leads } := by
    refine h.sameDoors rfl (updateLead_door (by exact fun _ => rfl) leadId _ db.leads) rfl ?_
    intro l hl hltenant targetId htargetId s hs hid hstenant
    obtain ⟨l₁, hl₁, rfl⟩ := mem_map.mp hl
    split at htargetId
    · rename_i hhit
      simp only [Bool.and_true, Bool.and_eq_true, decide_eq_true_eq] at hhit
      rw [if_pos (by simpa using hhit)]
      cases hsource : l₁.sourceScanTargetId with
      | some sourceId =>
        rw [stamped, hsource] at htargetId
        have hsame : sourceId = targetId := by simpa using htargetId
        exact h.sourced l₁ hl₁ hhit.2 sourceId hsource s hs (hsame ▸ hid) hstenant
      | none =>
        rw [stamped, hsource] at htargetId
        have hsame : c.target.id = targetId := by simpa using htargetId
        have hl : l₁ = l₀ :=
          inj_on_of_nodup_map h.distinct hl₁ hl₀ (hhit.1.trans hid₀.symm)
        rw [hrow.address h.targetIds hs (hid.trans hsame.symm), hl]
        exact hdoor₀
    · rename_i hmiss
      rw [if_neg hmiss] at hltenant ⊢
      exact h.sourced l₁ hl₁ hltenant targetId htargetId s hs hid hstenant
  have htargets : (linkTarget leadId c.target.id tenantId db.targets).map (·.id) =
      db.targets.map (·.id) := by
    unfold linkTarget
    rw [map_map]
    apply map_congr_left
    intro s _
    simp only [Function.comp_apply]
    split <;> rfl
  constructor
  · intro s' hs' hstenant leadId' hleadId'
    obtain ⟨s, hs, rfl⟩ := mem_map.mp hs'
    split at hleadId'
    · rename_i hhit
      simp only [Bool.and_eq_true, decide_eq_true_eq] at hhit
      cases hleadId'
      rw [if_pos (by simpa using hhit)]
      have hdoors : ((FreshFiber.updateLead leadId tenantId (fun _ => true)
          (stamped nowMs c decision assignment) db.leads).map Lead.door) = db.leads.map Lead.door :=
        updateLead_door (by exact fun _ => rfl) leadId _ db.leads
      obtain ⟨l, hl, heq⟩ := exists_of_door hdoors.symm hl₀
      obtain ⟨hid, htenant, haddress, -⟩ := door_eq heq
      refine ⟨l, hl, hid.trans hid₀, htenant.trans htenant₀, ?_⟩
      rw [haddress, hrow.address h.targetIds hs hhit.1]
      exact hdoor₀
    · rename_i hmiss
      rw [if_neg hmiss] at hstenant ⊢
      exact hstamped.linked s hs hstenant leadId' hleadId'
  · intro l hl hltenant targetId htargetId s' hs' hid hstenant
    obtain ⟨s, hs, rfl⟩ := mem_map.mp hs'
    have hrows := hstamped.sourced l hl hltenant targetId htargetId s hs
    split at hid
    · rename_i hhit
      rw [if_pos hhit] at hstenant ⊢
      exact hrows hid hstenant
    · rename_i hmiss
      rw [if_neg hmiss] at hstenant ⊢
      exact hrows hid hstenant
  · exact hstamped.single
  · exact hstamped.keyed
  · exact hstamped.numbered
  · exact hstamped.distinct
  · exact htargets ▸ h.targetIds

theorem sameDoor_of_key {a a' city city' state state' : Text}
    (h : normalizeKineticAddressKey u a city state = normalizeKineticAddressKey u a' city' state') :
    SameDoor u a a' := addressIdentityOf_eq_iff.mpr (normalizeKineticAddressKey_inj h).1

/-- Inserting a lead at a door where none stands, or falling on the lead that holds its key. -/
theorem Kept.insertLead (h : Kept u tenantId db) {l : Lead} (hid : l.id = db.lastLeadId + 1)
    (htenant : l.tenantId = tenantId)
    (hkey : l.canonicalKey = kineticLeadKeyOrNull u l.address l.city l.state)
    (hsource : ∀ targetId ∈ l.sourceScanTargetId, ∀ s ∈ db.targets, s.id = targetId →
      s.tenantId = tenantId → SameDoor u l.address s.address)
    (hnone : ∀ l' ∈ db.leads, l'.tenantId = tenantId → SameDoor u l'.address l.address →
      l'.canonicalKey.isSome ∧ l'.canonicalKey = l.canonicalKey) :
    Kept u tenantId (insertLead l nowMs db).1 ∧
      ∃ l' ∈ (insertLead l nowMs db).1.leads, l'.id = (insertLead l nowMs db).2 ∧
        l'.tenantId = tenantId ∧ SameDoor u l'.address l.address := by
  unfold FreshFiber.insertLead
  split
  · rename_i old hold
    obtain ⟨hmem, hfound⟩ := And.intro (mem_of_find?_eq_some hold) (find?_some hold)
    simp only [Bool.and_eq_true, decide_eq_true_eq] at hfound
    obtain ⟨⟨howner, hsome⟩, hsame⟩ := hfound
    have hold_tenant := howner.trans htenant
    constructor
    · rw [hold_tenant]
      exact h.updateLead (by exact fun _ => rfl) (by exact fun _ => rfl) old.id _
    · have hdoors : ((FreshFiber.updateLead old.id old.tenantId (fun _ => true)
          (fun l => { l with updatedAt := datetimeNow nowMs }) db.leads).map Lead.door) =
          db.leads.map Lead.door := updateLead_door (by exact fun _ => rfl) old.id _ db.leads
      obtain ⟨l', hl', heq⟩ := exists_of_door hdoors.symm hmem
      obtain ⟨hid', htenant', haddress', -⟩ := door_eq heq
      refine ⟨l', hl', hid', htenant'.trans hold_tenant, ?_⟩
      rw [haddress']
      rw [hkey, h.keyed old hmem hold_tenant] at hsame
      rw [h.keyed old hmem hold_tenant] at hsome
      unfold kineticLeadKeyOrNull at hsame hsome
      split at hsome
      · cases hsome
      · rename_i hstreet
        rw [if_neg hstreet] at hsame
        split at hsame
        · cases hsame
        · exact sameDoor_of_key (Option.some.inj hsame)
  · rename_i hfind
    have hfree : ∀ l' ∈ db.leads, l'.tenantId = tenantId → ¬ SameDoor u l'.address l.address := by
      intro l' hl' htenant' hdoor
      obtain ⟨hsome, hsame⟩ := hnone l' hl' htenant' hdoor
      have hmiss := find?_eq_none.mp hfind l' hl'
      rw [hsame] at hsome
      simp [htenant', htenant, hsame, hsome] at hmiss
    have hfresh : ∀ l' ∈ db.leads, l'.id ≠ l.id := by
      intro l' hl' heq
      have hle := h.numbered l' hl'
      omega
    constructor
    · constructor
      · intro s hs hstenant leadId hleadId
        obtain ⟨l', hl', hrest⟩ := h.linked s hs hstenant leadId hleadId
        exact ⟨l', mem_append_left _ hl', hrest⟩
      · intro l' hl' hltenant
        rcases mem_append.mp hl' with hmem | hmem
        · exact h.sourced l' hmem hltenant
        · rw [mem_singleton] at hmem
          rw [hmem]
          exact hsource
      · intro l₁ hl₁ l₂ hl₂ htenant₁ htenant₂ hdoor
        rcases mem_append.mp hl₁ with hmem₁ | hmem₁ <;>
          rcases mem_append.mp hl₂ with hmem₂ | hmem₂
        · exact h.single l₁ hmem₁ l₂ hmem₂ htenant₁ htenant₂ hdoor
        · rw [mem_singleton] at hmem₂
          rw [hmem₂] at hdoor
          exact absurd hdoor (hfree l₁ hmem₁ htenant₁)
        · rw [mem_singleton] at hmem₁
          rw [hmem₁] at hdoor
          exact absurd hdoor.symm (hfree l₂ hmem₂ htenant₂)
        · rw [mem_singleton] at hmem₁ hmem₂
          rw [hmem₁, hmem₂]
      · intro l' hl' hltenant
        rcases mem_append.mp hl' with hmem | hmem
        · exact h.keyed l' hmem hltenant
        · rw [mem_singleton] at hmem
          rw [hmem]
          exact hkey
      · intro l' hl'
        dsimp only
        rcases mem_append.mp hl' with hmem | hmem
        · have hle := h.numbered l' hmem
          omega
        · rw [mem_singleton] at hmem
          rw [hmem]
      · dsimp only
        rw [map_append, nodup_append]
        refine ⟨h.distinct, by simp, ?_⟩
        intro a ha b hb
        obtain ⟨l', hl', rfl⟩ := mem_map.mp ha
        have hb : b = l.id := by simpa using hb
        rw [hb]
        exact hfresh l' hl'
      · exact h.targetIds
    · exact ⟨l, mem_append_right _ (mem_singleton_self l), rfl, htenant, rfl⟩

/-- An entry of an index names a lead of the tenant and holds a key of its address. -/
def EntrySound (u : Unicode) (tenantId : Int) (leads : List Lead) (e : Text × IndexedLead) : Prop :=
  ∃ l ∈ leads, l.id = e.2.id ∧ l.tenantId = tenantId ∧
    ∃ a city state, e.1 = normalizeKineticAddressKey u a city state ∧ SameDoor u l.address a

def IndexSound (u : Unicode) (tenantId : Int) (leads : List Lead) (idx : CityIndex) : Prop :=
  ∀ e ∈ idx, EntrySound u tenantId leads e

variable {leads leads' : List Lead} {idx : CityIndex}

theorem EntrySound.mono {e : Text × IndexedLead} (h : EntrySound u tenantId leads e)
    (hdoors : ∀ l ∈ leads, ∃ l' ∈ leads', l'.door = l.door) : EntrySound u tenantId leads' e := by
  obtain ⟨l, hl, hid, htenant, a, city, state, hkey, hdoor⟩ := h
  obtain ⟨l', hl', heq⟩ := hdoors l hl
  obtain ⟨hid', htenant', haddress', -⟩ := door_eq heq
  exact ⟨l', hl', hid'.trans hid, htenant'.trans htenant, a, city, state, hkey, haddress' ▸ hdoor⟩

theorem IndexSound.add (h : IndexSound u tenantId leads idx) {key : Text} {lead : IndexedLead}
    (hentry : EntrySound u tenantId leads (key, lead)) :
    IndexSound u tenantId leads (idx.add key lead) := by
  unfold CityIndex.add
  split
  · exact h
  · intro e he
    rcases mem_append.mp he with he | he
    · exact h e he
    · rw [mem_singleton] at he
      exact he ▸ hentry

theorem indexSound_build (city state : Text) :
    IndexSound u tenantId leads
      (buildCityIndex u (findByCityLeads leads tenantId city state) city state) := by
  have hrows : ∀ l ∈ findByCityLeads leads tenantId city state, EntrySound u tenantId leads
      (normalizeKineticAddressKey u l.address city state, l.indexed) := by
    intro l hl
    obtain ⟨hmem, hwhere⟩ := mem_filter.mp hl
    simp only [Bool.and_eq_true, decide_eq_true_eq] at hwhere
    exact ⟨l, hmem, rfl, hwhere.2, l.address, city, state, rfl, rfl⟩
  have hfold : ∀ (rows : List Lead) (idx : CityIndex),
      (∀ l ∈ rows, EntrySound u tenantId leads
        (normalizeKineticAddressKey u l.address city state, l.indexed)) →
      IndexSound u tenantId leads idx →
      IndexSound u tenantId leads (rows.foldl
        (fun idx l => idx.add (normalizeKineticAddressKey u l.address city state) l.indexed) idx) := by
    intro rows
    induction rows with
    | nil => exact fun _ _ hidx => hidx
    | cons l rows ih =>
      intro idx hsound hidx
      apply ih
      · exact fun l' hl' => hsound l' (mem_cons_of_mem l hl')
      · exact hidx.add (hsound l mem_cons_self)
  exact hfold _ [] hrows fun e he => absurd he not_mem_nil

structure InCall (u : Unicode) (tenantId : Int) (b : Batch) : Prop where
  kept : Kept u tenantId b.tables
  index : ∀ entry ∈ b.cityLeadIndex, IndexSound u tenantId b.tables.leads entry.2

theorem indexSound_getCityIndex (h : InCall u tenantId b) (city state : Text) :
    IndexSound u tenantId b.tables.leads (getCityIndex u tenantId city state b).2 ∧
      ∀ entry ∈ (getCityIndex u tenantId city state b).1.cityLeadIndex,
        IndexSound u tenantId b.tables.leads entry.2 := by
  unfold getCityIndex
  split
  · rename_i idx hat
    obtain ⟨entry, hentry, rfl⟩ := Option.map_eq_some_iff.mp hat
    exact ⟨h.index entry (mem_of_find?_eq_some hentry), h.index⟩
  · have hbuilt := @indexSound_build u tenantId b.tables.leads city state
    refine ⟨hbuilt, ?_⟩
    intro entry hentry
    rcases mem_append.mp hentry with hmem | hmem
    · exact h.index entry hmem
    · rw [mem_singleton] at hmem
      rw [hmem]
      exact hbuilt

theorem leadAt_cityLead (h : InCall u tenantId b) {lead : IndexedLead}
    (hlead : cityLead u tenantId c b = some lead) : LeadAt u tenantId b.tables c lead.id := by
  unfold cityLead CityIndex.get at hlead
  obtain ⟨e, he, rfl⟩ := Option.map_eq_some_iff.mp hlead
  have hkey : e.1 = normalizeKineticAddressKey u c.target.address c.target.city c.target.state := by
    simpa using find?_some he
  obtain ⟨l, hl, hid, htenant, a, city, state, hkey', hdoor⟩ :=
    (indexSound_getCityIndex h c.target.city c.target.state).1 e (mem_of_find?_eq_some he)
  rw [hkey'] at hkey
  exact ⟨l, hl, hid, htenant, hdoor.trans (sameDoor_of_key hkey)⟩

theorem ownLead_eq_none (h : ownLead b.tables.leads tenantId c = none) {l : Lead}
    (hl : l ∈ b.tables.leads) (htenant : l.tenantId = tenantId) :
    l.sourceScanTargetId ≠ some c.target.id := by
  intro hsource
  rw [ownLead, Option.map_eq_none_iff, findBySource] at h
  have hmiss := find?_eq_none.mp h l hl
  simp [htenant, hsource] at hmiss

theorem leadAt_ownLead (h : Kept u tenantId b.tables) (hrow : HasRow tenantId b.tables c)
    {lead : IndexedLead} (hlead : ownLead b.tables.leads tenantId c = some lead) :
    LeadAt u tenantId b.tables c lead.id := by
  obtain ⟨l, hfound, rfl⟩ := Option.map_eq_some_iff.mp hlead
  have hwhere := find?_some hfound
  simp only [Bool.and_eq_true, decide_eq_true_eq] at hwhere
  obtain ⟨s, hs, hid, hstenant, haddress⟩ := hrow
  have hl := mem_of_find?_eq_some hfound
  refine ⟨l, hl, rfl, hwhere.1, ?_⟩
  rw [← haddress]
  exact h.sourced l hl hwhere.1 c.target.id hwhere.2 s hs hid hstenant

theorem geoHit_mem {s : ScanTarget} {g : Lead} (h : geoHit leads tenantId s = some g) :
    g ∈ leads ∧ g.tenantId = tenantId := by
  unfold geoHit at h
  split at h
  · have hwhere := find?_some h
    simp only [Bool.and_eq_true, decide_eq_true_eq] at hwhere
    exact ⟨mem_of_find?_eq_some h, hwhere.1.1.1⟩
  · cases h

theorem leadAt_findLead (h : InCall u tenantId b) (hrow : HasRow tenantId b.tables c)
    (hright : LandsRight u tenantId b c) {lead : IndexedLead}
    (hlead : (findLead u tenantId c b).2 = some lead) : LeadAt u tenantId b.tables c lead.id := by
  unfold findLead at hlead
  cases hown : ownLead b.tables.leads tenantId c with
  | some own =>
    rw [hown] at hlead
    cases hlead
    exact leadAt_ownLead h.kept hrow hown
  | none =>
    rw [hown] at hlead
    have hlookUp : (cityLead u tenantId c b).or
        ((geoHit b.tables.leads tenantId c.target).map Lead.indexed) = some lead := by
      have htables := @getCityIndex_tables u tenantId c.target.city c.target.state b
      unfold lookUp at hlead
      dsimp only at hlead
      rw [htables] at hlead
      exact hlead
    cases hcity : cityLead u tenantId c b with
    | some entry =>
      rw [hcity] at hlookUp
      cases hlookUp
      exact leadAt_cityLead h hcity
    | none =>
      rw [hcity, Option.none_or] at hlookUp
      obtain ⟨g, hg, rfl⟩ := Option.map_eq_some_iff.mp hlookUp
      obtain ⟨hmem, htenant⟩ := geoHit_mem hg
      exact ⟨g, hmem, rfl, htenant, hright.geo hown hcity g hg⟩

theorem key_of_findLead_none (hright : LandsRight u tenantId b c)
    (hnone : (findLead u tenantId c b).2 = none) {l : Lead} (hl : l ∈ b.tables.leads)
    (htenant : l.tenantId = tenantId) (hdoor : SameDoor u l.address c.target.address) :
    l.canonicalKey.isSome ∧ l.canonicalKey =
      kineticLeadKeyOrNull u c.target.address c.target.city c.target.state := by
  unfold findLead at hnone
  cases hown : ownLead b.tables.leads tenantId c with
  | some own =>
    rw [hown] at hnone
    cases hnone
  | none =>
    rw [hown] at hnone
    have hlookUp : (cityLead u tenantId c b).or
        ((geoHit b.tables.leads tenantId c.target).map Lead.indexed) = none := by
      have htables := @getCityIndex_tables u tenantId c.target.city c.target.state b
      unfold lookUp at hnone
      dsimp only at hnone
      rw [htables] at hnone
      exact hnone
    rw [Option.or_eq_none_iff, Option.map_eq_none_iff] at hlookUp
    rcases hright.reached l hl htenant hdoor with hsource | hcity | hgeo | hkey
    · exact absurd hsource (ownLead_eq_none hown hl htenant)
    · rw [hlookUp.1] at hcity
      cases hcity
    · rw [hlookUp.2] at hgeo
      cases hgeo
    · exact hkey

theorem findLead_index (h : InCall u tenantId b) (c : ProjectionCandidate) :
    ∀ entry ∈ (findLead u tenantId c b).1.cityLeadIndex,
      IndexSound u tenantId b.tables.leads entry.2 := by
  unfold findLead
  split
  · exact h.index
  · exact (indexSound_getCityIndex h c.target.city c.target.state).2

theorem insertLead_doors (l : Lead) (db : Tables) :
    ∀ l₀ ∈ db.leads, ∃ l' ∈ (insertLead l nowMs db).1.leads, l'.door = l₀.door := by
  intro l₀ hl₀
  unfold insertLead
  split
  · rename_i old _
    have hdoors : ((updateLead old.id old.tenantId (fun _ => true)
        (fun l => { l with updatedAt := datetimeNow nowMs }) db.leads).map Lead.door) =
        db.leads.map Lead.door := updateLead_door (by exact fun _ => rfl) old.id _ db.leads
    exact exists_of_door hdoors.symm hl₀
  · exact ⟨l₀, mem_append_left _ hl₀, rfl⟩

theorem attach_doors (leadId : Int) (decision : FreshFiberConfirmationDecision)
    (assignment : Option TerritoryAssignment) (wasUnassigned : Bool) (db : Tables) :
    (attach tenantId nowMs leadId c decision assignment wasUnassigned db).leads.map Lead.door =
      db.leads.map Lead.door :=
  updateLead_door (by exact fun _ => rfl) leadId _ db.leads

theorem insertLead_targets (l : Lead) (db : Tables) :
    (insertLead l nowMs db).1.targets = db.targets := by
  unfold insertLead
  split <;> rfl

theorem index_rememberNewLead {s : ScanTarget} {lead : IndexedLead}
    (h : ∀ entry ∈ b.cityLeadIndex, IndexSound u tenantId leads entry.2)
    (hlead : ∃ l ∈ leads, l.id = lead.id ∧ l.tenantId = tenantId ∧ SameDoor u l.address s.address) :
    ∀ entry ∈ (rememberNewLead u lead s b).cityLeadIndex, IndexSound u tenantId leads entry.2 := by
  intro entry hentry
  obtain ⟨entry₀, hentry₀, rfl⟩ := mem_map.mp hentry
  split
  · obtain ⟨l, hl, hid, htenant, hdoor⟩ := hlead
    exact (h entry₀ hentry₀).add ⟨l, hl, hid, htenant, s.address, s.city, s.state, rfl, hdoor⟩
  · exact h entry₀ hentry₀

theorem inCall_place (h : InCall u tenantId b) (hrow : HasRow tenantId b.tables c)
    (hright : LandsRight u tenantId b c) (decision : FreshFiberConfirmationDecision)
    (assignment : Option TerritoryAssignment) :
    InCall u tenantId (place u tenantId nowMs c decision assignment b) := by
  have htables := @findLead_tables u tenantId c b
  have hindex := findLead_index h c
  have hfound := @leadAt_findLead u tenantId b c h hrow hright
  have hnone := @key_of_findLead_none u tenantId b c hright
  unfold place resolve
  revert htables hindex hfound hnone
  generalize findLead u tenantId c b = found
  obtain ⟨b', found⟩ := found
  intro htables hindex hfound hnone
  dsimp only at htables hindex
  cases found with
  | some lead =>
    have hlead := hfound rfl
    constructor
    · dsimp only
      rw [htables]
      exact h.kept.attach hrow hlead decision assignment _
    · intro entry hentry e he
      apply (hindex entry hentry e he).mono
      dsimp only
      rw [htables]
      exact fun l hl => exists_of_door (attach_doors _ _ _ _ _).symm hl
  | none =>
    have hsource : ∀ targetId ∈ (some c.target.id : Option Int), ∀ s ∈ b.tables.targets,
        s.id = targetId → s.tenantId = tenantId → SameDoor u c.target.address s.address := by
      intro targetId htargetId s hs hid _
      cases htargetId
      rw [hrow.address h.kept.targetIds hs hid]
      rfl
    obtain ⟨hkept, l', hl', hid', htenant', hdoor'⟩ := @Kept.insertLead u tenantId nowMs b.tables
      h.kept (freshLead u tenantId nowMs c decision assignment b.tables) rfl rfl rfl hsource
      fun l hl htenant hdoor => hnone rfl hl htenant hdoor
    have hrow' : HasRow tenantId (insertLead
        (freshLead u tenantId nowMs c decision assignment b.tables) nowMs b.tables).1 c := by
      unfold HasRow
      rw [insertLead_targets]
      exact hrow
    dsimp only
    rw [htables]
    constructor
    · exact hkept.attach hrow' ⟨l', hl', hid', htenant', hdoor'⟩ decision assignment _
    · intro entry hentry e he
      have hdoors := @insertLead_doors nowMs
        (freshLead u tenantId nowMs c decision assignment b.tables) b.tables
      have hsound := @index_rememberNewLead u tenantId b' _ c.target
        { id := _, assignedRepId := assignment.map (·.repId) }
        (fun entry hentry e he => (hindex entry hentry e he).mono hdoors)
        ⟨l', hl', hid', htenant', hdoor'⟩
      apply (hsound entry hentry e he).mono
      exact fun l hl => exists_of_door (attach_doors _ _ _ _ _).symm hl

theorem LandsRight.withResult (h : LandsRight u tenantId b c) (r : ProjectionResult) :
    LandsRight u tenantId { b with result := r } c := by
  have hcity : cityLead u tenantId c { b with result := r } = cityLead u tenantId c b := by
    unfold cityLead
    rw [getCityIndex_result]
  constructor
  · rw [hcity]
    exact h.geo
  · rw [hcity]
    exact h.reached

end HomefrontFiber.FreshFiber
