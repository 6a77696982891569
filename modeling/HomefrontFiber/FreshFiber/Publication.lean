import HomefrontFiber.FreshFiber.Projector

/-!
# What one call publishes, and what a second one does

A candidate reaches a lead only through the verdict to publish, and a candidate that fails leaves
the work of the others as it was. A second call over the same evidence leaves the leads alone
exactly when every candidate is quiet before it.
-/

namespace HomefrontFiber.FreshFiber

open List

variable {u : Unicode} {tenantId nowMs laterMs : Int} {targetIds : Option (List Int)} {db : Tables}
  {b : Batch} {c : ProjectionCandidate}

/-- The verdict on a candidate over the corroborations of the tables. -/
def verdictIn (u : Unicode) (tenantId nowMs : Int) (db : Tables) (c : ProjectionCandidate) : Verdict :=
  verdict u (evidenceOf db tenantId c.target.id) nowMs c

structure Publishable (u : Unicode) (tenantId nowMs : Int) (db : Tables) (c : ProjectionCandidate) :
    Prop where
  available : c.latestFiberAvailable = some true
  clear : competitiveBlocked c.competitiveDecision = false
  identity : identityIssues u c = []
  confirmed :
    (evidenceDecision (evidenceOf db tenantId c.target.id) nowMs c).confirmed = true ∨
      c.seg = newFiber ∧ c.billing = ['N']

variable {evidence : List IndependentAvailabilityEvidence} {leads : List Lead} {l : Lead}
  {db' : Tables}

theorem confirm_publish
    {decision : FreshFiberConfirmationDecision} (h : confirm u evidence nowMs c = .publish decision) :
    decision = decisionOf evidence nowMs c ∧ decision.confirmed = true ∧ identityIssues u c = [] := by
  unfold confirm at h
  dsimp only at h
  split at h
  · cases h
  · split at h
    · cases h
    · rename_i hconfirmed
      split at h
      · rename_i hissues
        cases h
        refine ⟨rfl, ?_, hissues⟩
        simp only [Bool.or_eq_true, not_or, Bool.not_eq_true', Bool.not_eq_false] at hconfirmed
        exact hconfirmed.1
      · cases h

theorem decisionOf_confirmed (h : (decisionOf evidence nowMs c).confirmed = true) :
    (evidenceDecision evidence nowMs c).confirmed = true ∨ c.seg = newFiber ∧ c.billing = ['N'] := by
  unfold decisionOf at h
  dsimp only at h
  split at h
  · exact .inl h
  · split at h
    · rename_i hfresh
      simp only [authoritativeFresh, Bool.and_eq_true, decide_eq_true_eq] at hfresh
      exact .inr hfresh.1
    · exact .inl h

theorem publishable_of_verdict {decision : FreshFiberConfirmationDecision}
    (h : verdictIn u tenantId nowMs db c = .publish decision) : Publishable u tenantId nowMs db c := by
  unfold verdictIn verdict at h
  split at h
  · cases h
  · rename_i fiberAvail havailable
    split at h
    · cases h
    · split at h
      · cases h
      · rename_i hclear
        split at h
        · rename_i htrue
          obtain ⟨hdecision, hconfirmed, hissues⟩ := confirm_publish h
          subst hdecision
          constructor
          · rw [havailable, htrue]
          · cases hblocked : c.competitiveDecision with
            | none => rfl
            | some reason =>
              rw [hblocked, Option.filter_eq_none_iff] at hclear
              simpa using hclear reason rfl
          · exact hissues
          · exact decisionOf_confirmed hconfirmed
        · cases h

@[simp] theorem getCityIndex_tables (city state : Text) (b : Batch) :
    (getCityIndex u tenantId city state b).1.tables = b.tables := by
  unfold getCityIndex
  split <;> rfl

@[simp] theorem lookUp_tables (s : ScanTarget) (b : Batch) :
    (lookUp u tenantId s b).1.tables = b.tables := getCityIndex_tables s.city s.state b

@[simp] theorem findLead_tables (c : ProjectionCandidate) (b : Batch) :
    (findLead u tenantId c b).1.tables = b.tables := by
  unfold findLead
  split
  · rfl
  · exact lookUp_tables c.target b

@[simp] theorem findLead_result (c : ProjectionCandidate) (b : Batch) :
    (findLead u tenantId c b).1.result = b.result := by
  unfold findLead
  split
  · rfl
  · unfold lookUp getCityIndex
    dsimp only
    split <;> rfl

theorem getCityIndex_result (city state : Text) (b : Batch) (r : ProjectionResult) :
    getCityIndex u tenantId city state { b with result := r } =
      ({ (getCityIndex u tenantId city state b).1 with result := r },
        (getCityIndex u tenantId city state b).2) := by
  have hat : cityIndexAt { b with result := r } city state = cityIndexAt b city state := rfl
  unfold getCityIndex
  rw [hat]
  split <;> rfl

theorem findLead_withResult (c : ProjectionCandidate) (b : Batch) (r : ProjectionResult) :
    findLead u tenantId c { b with result := r } =
      ({ (findLead u tenantId c b).1 with result := r }, (findLead u tenantId c b).2) := by
  unfold findLead
  cases ownLead b.tables.leads tenantId c with
  | some lead => rfl
  | none =>
    unfold lookUp
    rw [getCityIndex_result]

def freshLead (u : Unicode) (tenantId nowMs : Int) (c : ProjectionCandidate)
    (decision : FreshFiberConfirmationDecision) (assignment : Option TerritoryAssignment)
    (db : Tables) : Lead :=
  newLead u tenantId nowMs (db.lastLeadId + 1) c decision assignment

/-- A placed candidate is attached to the lead that it found or to the one that the insert gave. -/
theorem place_tables (u : Unicode) (tenantId nowMs : Int) (c : ProjectionCandidate)
    (decision : FreshFiberConfirmationDecision) (assignment : Option TerritoryAssignment)
    (b : Batch) : ∃ wasUnassigned,
      (∃ lead, (findLead u tenantId c b).2 = some lead ∧
        (place u tenantId nowMs c decision assignment b).tables =
          attach tenantId nowMs lead.id c decision assignment wasUnassigned b.tables) ∨
      (findLead u tenantId c b).2 = none ∧
        (place u tenantId nowMs c decision assignment b).tables =
          attach tenantId nowMs
            (insertLead (freshLead u tenantId nowMs c decision assignment b.tables) nowMs b.tables).2
            c decision assignment wasUnassigned
            (insertLead (freshLead u tenantId nowMs c decision assignment b.tables) nowMs
              b.tables).1 := by
  have htables := @findLead_tables u tenantId c b
  unfold place resolve freshLead
  revert htables
  generalize findLead u tenantId c b = found
  obtain ⟨b', found⟩ := found
  intro htables
  rw [← htables]
  cases found with
  | some lead => exact ⟨_, .inl ⟨lead, rfl, rfl⟩⟩
  | none => exact ⟨_, .inr ⟨rfl, rfl⟩⟩

theorem place_report (decision : FreshFiberConfirmationDecision)
    (assignment : Option TerritoryAssignment) (b : Batch) :
    (place u tenantId nowMs c decision assignment b).result.published = b.result.published ∧
      (place u tenantId nowMs c decision assignment b).result.errors = b.result.errors := by
  have hresult := @findLead_result u tenantId c b
  unfold place resolve
  revert hresult
  generalize findLead u tenantId c b = found
  obtain ⟨b', found⟩ := found
  intro hresult
  rw [← hresult]
  cases found <;> exact ⟨rfl, rfl⟩

theorem publish_cases (u : Unicode) (tenantId nowMs : Int) (c : ProjectionCandidate)
    (decision : FreshFiberConfirmationDecision) (b : Batch) :
    (linkedToOwn b.tables.leads tenantId c = true ∧
      publish u tenantId nowMs c decision b = { b with
        result := { b.result with
          linkedExisting := b.result.linkedExisting + 1
          leadIds := b.result.leadIds ++ c.target.convertedToLeadId.toList } }) ∨
    linkedToOwn b.tables.leads tenantId c = false ∧
      ((∃ reason, publish u tenantId nowMs c decision b = fail c.target.id reason
        { b with result := { b.result with published := b.result.published + 1 } }) ∨
      ∃ assignment,
        territoryAssignmentFor b.tables.territories tenantId c.target.lat c.target.lng =
          .ok assignment ∧
        publish u tenantId nowMs c decision b = place u tenantId nowMs c decision assignment
          { b with result := { b.result with published := b.result.published + 1 } }) := by
  unfold publish
  cases hown : linkedToOwn b.tables.leads tenantId c with
  | true => exact .inl ⟨rfl, rfl⟩
  | false =>
    right
    refine ⟨rfl, ?_⟩
    simp only [Bool.false_eq_true, if_false]
    split
    · exact .inl ⟨_, rfl⟩
    · rename_i assignment hassignment
      exact .inr ⟨assignment, hassignment, rfl⟩

def LeadStatus.rank : LeadStatus → Nat
  | .nowActive => 3
  | .competitorSuppressed => 2
  | .addressReview => 1
  | _ => 0

def rankSum (leads : List Lead) : Nat := (leads.map (·.leadStatus.rank)).sum

section Rank

variable {leadId : Int} {p : Lead → Bool} {f : Lead → Lead}

theorem rankSum_updateLead_le
    (h : ∀ l, p l = true → l.leadStatus.rank ≤ (f l).leadStatus.rank) (leads : List Lead) :
    rankSum leads ≤ rankSum (updateLead leadId tenantId p f leads) := by
  induction leads with
  | nil => exact le_rfl
  | cons l leads ih =>
    have hhead : l.leadStatus.rank ≤
        (if l.id = leadId && l.tenantId = tenantId && p l then f l else l).leadStatus.rank := by
      split
      · rename_i hp
        rw [Bool.and_eq_true] at hp
        exact h l hp.2
      · exact le_rfl
    exact Nat.add_le_add hhead ih

theorem rankSum_updateLead_lt (h : ∀ l, p l = true → l.leadStatus.rank < (f l).leadStatus.rank)
    (hchanges : changes leadId tenantId p leads = true) :
    rankSum leads < rankSum (updateLead leadId tenantId p f leads) := by
  induction leads with
  | nil => cases hchanges
  | cons l leads ih =>
    have hle : ∀ l, p l = true → l.leadStatus.rank ≤ (f l).leadStatus.rank :=
      fun l hl => (h l hl).le
    rw [changes, any_cons, Bool.or_eq_true] at hchanges
    by_cases hp : (l.id = leadId && l.tenantId = tenantId && p l) = true
    · have hhead : l.leadStatus.rank <
          (if l.id = leadId && l.tenantId = tenantId && p l then f l else l).leadStatus.rank := by
        rw [if_pos hp]
        rw [Bool.and_eq_true] at hp
        exact h l hp.2
      exact Nat.add_lt_add_of_lt_of_le hhead (rankSum_updateLead_le hle leads)
    · have hhead : l.leadStatus.rank ≤
          (if l.id = leadId && l.tenantId = tenantId && p l then f l else l).leadStatus.rank := by
        rw [if_neg hp]
      exact Nat.add_lt_add_of_le_of_lt hhead (ih (hchanges.resolve_left hp))

theorem updateLead_of_not_changes
    (h : changes leadId tenantId p leads = false) : updateLead leadId tenantId p f leads = leads := by
  have hsame : ∀ l ∈ leads,
      (if l.id = leadId && l.tenantId = tenantId && p l then f l else l) = l := by
    intro l hl
    rw [changes, any_eq_false] at h
    exact if_neg (h l hl)
  exact (map_congr_left hsame).trans (map_id leads)

end Rank

theorem rank_canActivate (h : canActivate l = true) :
    l.leadStatus.rank < (setStatus .nowActive nowMs l).leadStatus.rank := by
  cases hl : l.leadStatus <;> simp_all [canActivate, setStatus, LeadStatus.rank]

theorem rank_canSuppress (h : canSuppress l = true) :
    l.leadStatus.rank < (setStatus .competitorSuppressed nowMs l).leadStatus.rank := by
  cases hl : l.leadStatus <;> simp_all [canSuppress, setStatus, LeadStatus.rank]

theorem rank_canReview (h : canReview l = true) :
    l.leadStatus.rank < (setStatus .addressReview nowMs l).leadStatus.rank := by
  cases hl : l.leadStatus <;> simp_all [canReview, setStatus, LeadStatus.rank]

theorem rankSum_insertLead (l : Lead) (db : Tables) :
    rankSum db.leads ≤ rankSum (insertLead l nowMs db).1.leads := by
  unfold insertLead
  split
  · exact rankSum_updateLead_le (by exact fun _ _ => le_rfl) db.leads
  · rw [rankSum, rankSum, map_append, sum_append]
    exact Nat.le_add_right _ _

theorem rankSum_attach (leadId : Int) (decision : FreshFiberConfirmationDecision)
    (assignment : Option TerritoryAssignment) (wasUnassigned : Bool) (db : Tables) :
    rankSum db.leads ≤
      rankSum (attach tenantId nowMs leadId c decision assignment wasUnassigned db).leads :=
  rankSum_updateLead_le (by exact fun _ _ => le_rfl) db.leads

theorem rankSum_place (decision : FreshFiberConfirmationDecision)
    (assignment : Option TerritoryAssignment) (b : Batch) :
    rankSum b.tables.leads ≤
      rankSum (place u tenantId nowMs c decision assignment b).tables.leads := by
  obtain ⟨wasUnassigned, ⟨lead, -, htables⟩ | ⟨-, htables⟩⟩ :=
    place_tables u tenantId nowMs c decision assignment b
  · rw [htables]
    exact rankSum_attach lead.id decision assignment wasUnassigned b.tables
  · rw [htables]
    exact (rankSum_insertLead _ b.tables).trans (rankSum_attach _ decision assignment _ _)

/-- A candidate that leaves the leads, their events and the count of publications as they are. -/
def Quiet (u : Unicode) (tenantId nowMs : Int) (db : Tables) (c : ProjectionCandidate) : Prop :=
  match verdictIn u tenantId nowMs db c with
  | .nowActive leadId => changes leadId tenantId canActivate db.leads = false
  | .blocked _ =>
    ∀ leadId ∈ c.target.convertedToLeadId, changes leadId tenantId canSuppress db.leads = false
  | .review _ => c.target.convertedToLeadId = none
  | .publish _ => linkedToOwn db.leads tenantId c = true
  | .rejected | .provisional => True

structure Idle (b b' : Batch) : Prop where
  leads : b'.tables.leads = b.tables.leads
  leadEvents : b'.tables.leadEvents = b.tables.leadEvents
  published : b'.result.published = b.result.published

/-- Grows with every publication, every event and every retraction. -/
def activity (b : Batch) : Nat :=
  rankSum b.tables.leads + b.tables.leadEvents.length + b.result.published

theorem Idle.activity_eq {b' : Batch} (h : Idle b b') : activity b' = activity b := by
  rw [activity, h.leads, h.leadEvents, h.published]
  rfl

theorem perCandidate_eq (b : Batch) (c : ProjectionCandidate) :
    perCandidate u tenantId nowMs b c =
      match verdictIn u tenantId nowMs b.tables c with
      | .rejected => { b with result := { b.result with rejected := b.result.rejected + 1 } }
      | .nowActive leadId => markNowActive tenantId nowMs leadId b
      | .blocked reason =>
        let b := match c.target.convertedToLeadId with
          | some leadId => suppressLead tenantId nowMs leadId reason c b
          | none => b
        { b with result := { b.result with rejected := b.result.rejected + 1 } }
      | .provisional =>
        { b with result := { b.result with provisional := b.result.provisional + 1 } }
      | .review issues =>
        let tables := markAddressReview c.target.id issues b.tables
        { b with
          tables := match c.target.convertedToLeadId with
            | some leadId => reviewLead tenantId nowMs leadId issues tables
            | none => tables
          result := { b.result with
            confirmed := b.result.confirmed + 1
            addressReview := b.result.addressReview + 1 } }
      | .publish decision =>
        publish u tenantId nowMs c decision
          { b with result := { b.result with confirmed := b.result.confirmed + 1 } } := rfl

theorem idle_of_quiet (h : Quiet u tenantId nowMs b.tables c) :
    Idle b (perCandidate u tenantId nowMs b c) := by
  rw [perCandidate_eq]
  unfold Quiet at h
  cases hverdict : verdictIn u tenantId nowMs b.tables c with
  | rejected => exact ⟨rfl, rfl, rfl⟩
  | provisional => exact ⟨rfl, rfl, rfl⟩
  | nowActive leadId =>
    rw [hverdict] at h
    exact ⟨updateLead_of_not_changes h, rfl, rfl⟩
  | blocked reason =>
    rw [hverdict] at h
    cases hlink : c.target.convertedToLeadId with
    | none => exact ⟨rfl, rfl, rfl⟩
    | some leadId =>
      have hkept : suppressLead tenantId nowMs leadId reason c b = b := by
        rw [suppressLead, if_neg]
        rw [h leadId hlink]
        exact Bool.false_ne_true
      dsimp only
      rw [hkept]
      exact ⟨rfl, rfl, rfl⟩
  | review issues =>
    rw [hverdict] at h
    dsimp only at h ⊢
    rw [h]
    exact ⟨rfl, rfl, rfl⟩
  | publish decision =>
    rw [hverdict] at h
    dsimp only
    rw [publish, if_pos h]
    exact ⟨rfl, rfl, rfl⟩

theorem insertLead_leadEvents (l : Lead) (db : Tables) :
    (insertLead l nowMs db).1.leadEvents = db.leadEvents := by
  unfold insertLead
  split <;> rfl

theorem activity_place (decision : FreshFiberConfirmationDecision)
    (assignment : Option TerritoryAssignment) (b : Batch) :
    activity b ≤ activity (place u tenantId nowMs c decision assignment b) := by
  have hrank := @rankSum_place u tenantId nowMs c decision assignment b
  have hpublished := (@place_report u tenantId nowMs c decision assignment b).1
  have hevents : b.tables.leadEvents.length ≤
      (place u tenantId nowMs c decision assignment b).tables.leadEvents.length := by
    obtain ⟨wasUnassigned, ⟨lead, -, htables⟩ | ⟨-, htables⟩⟩ :=
      place_tables u tenantId nowMs c decision assignment b
    · rw [htables, attach, length_append]
      exact Nat.le_add_right _ _
    · rw [htables, attach, length_append, insertLead_leadEvents]
      exact Nat.le_add_right _ _
  unfold activity
  omega

theorem activity_publish (decision : FreshFiberConfirmationDecision)
    (h : linkedToOwn b.tables.leads tenantId c = false) :
    activity b < activity (publish u tenantId nowMs c decision b) := by
  have hcounted : activity b <
      activity { b with result := { b.result with published := b.result.published + 1 } } :=
    Nat.lt_succ_self _
  rcases publish_cases u tenantId nowMs c decision b with
    ⟨hown, -⟩ | ⟨-, ⟨reason, heq⟩ | ⟨assignment, -, heq⟩⟩
  · rw [h] at hown
    cases hown
  · rw [heq]
    exact hcounted
  · rw [heq]
    exact hcounted.trans_le (activity_place decision assignment _)

theorem activity_of_not_quiet (h : ¬ Quiet u tenantId nowMs b.tables c) :
    activity b < activity (perCandidate u tenantId nowMs b c) := by
  rw [perCandidate_eq]
  unfold Quiet at h
  cases hverdict : verdictIn u tenantId nowMs b.tables c with
  | rejected =>
    rw [hverdict] at h
    exact absurd trivial h
  | provisional =>
    rw [hverdict] at h
    exact absurd trivial h
  | nowActive leadId =>
    rw [hverdict] at h
    have hrank : rankSum b.tables.leads < rankSum
        (updateLead leadId tenantId canActivate (setStatus .nowActive nowMs) b.tables.leads) :=
      rankSum_updateLead_lt (fun l hl => rank_canActivate hl) (by simpa using h)
    exact Nat.add_lt_add_right (Nat.add_lt_add_right hrank _) _
  | blocked reason =>
    rw [hverdict] at h
    dsimp only at h
    push Not at h
    obtain ⟨leadId, hlink, hchanges⟩ := h
    rw [Bool.ne_false_iff] at hchanges
    have hrank : rankSum b.tables.leads < rankSum (updateLead leadId tenantId canSuppress
        (setStatus .competitorSuppressed nowMs) b.tables.leads) :=
      rankSum_updateLead_lt (fun l hl => rank_canSuppress hl) hchanges
    rw [Option.mem_def] at hlink
    rw [hlink]
    dsimp only
    rw [suppressLead, if_pos hchanges]
    unfold activity
    rw [length_append]
    exact Nat.add_lt_add_right (Nat.add_lt_add_of_lt_of_le hrank (Nat.le_add_right _ _)) _
  | review issues =>
    rw [hverdict] at h
    dsimp only at h ⊢
    obtain ⟨leadId, hlink⟩ := Option.ne_none_iff_exists'.mp h
    have hrank : rankSum b.tables.leads ≤ rankSum
        (updateLead leadId tenantId canReview (setStatus .addressReview nowMs) b.tables.leads) :=
      rankSum_updateLead_le (fun l hl => (rank_canReview hl).le) b.tables.leads
    rw [hlink]
    unfold activity reviewLead markAddressReview
    rw [length_append, length_singleton]
    exact Nat.add_lt_add_right (Nat.add_lt_add_of_le_of_lt hrank (Nat.lt_succ_self _)) _
  | publish decision =>
    rw [hverdict] at h
    have hown : linkedToOwn b.tables.leads tenantId c = false := by simpa using h
    exact @activity_publish u tenantId nowMs
      { b with result := { b.result with confirmed := b.result.confirmed + 1 } } c decision hown

theorem activity_le (b : Batch) (c : ProjectionCandidate) :
    activity b ≤ activity (perCandidate u tenantId nowMs b c) := by
  by_cases h : Quiet u tenantId nowMs b.tables c
  · exact (idle_of_quiet h).activity_eq.ge
  · exact (activity_of_not_quiet h).le

def projectAll (u : Unicode) (tenantId nowMs : Int) (cs : List ProjectionCandidate) (b : Batch) :
    Batch := cs.foldl (perCandidate u tenantId nowMs) b

theorem activity_projectAll (cs : List ProjectionCandidate) (b : Batch) :
    activity b ≤ activity (projectAll u tenantId nowMs cs b) := by
  induction cs generalizing b with
  | nil => exact le_rfl
  | cons c cs ih => exact (activity_le b c).trans (ih (perCandidate u tenantId nowMs b c))

inductive TableStep (u : Unicode) (tenantId nowMs : Int) (b : Batch) (c : ProjectionCandidate) :
    Tables → Prop
  | same : TableStep u tenantId nowMs b c b.tables
  | activate (leadId : Int) (hverdict : verdictIn u tenantId nowMs b.tables c = .nowActive leadId) :
    TableStep u tenantId nowMs b c { b.tables with
      leads := updateLead leadId tenantId canActivate (setStatus .nowActive nowMs) b.tables.leads }
  | suppress (leadId : Int) (reason : CompetitiveDecision) (event : LeadEvent)
    (hverdict : verdictIn u tenantId nowMs b.tables c = .blocked reason)
    (hlink : c.target.convertedToLeadId = some leadId)
    (hchanges : changes leadId tenantId canSuppress b.tables.leads = true) :
    TableStep u tenantId nowMs b c { b.tables with
      leads := updateLead leadId tenantId canSuppress (setStatus .competitorSuppressed nowMs)
        b.tables.leads
      leadEvents := b.tables.leadEvents ++ [event] }
  | mark (issues : List AddressIssue)
    (hverdict : verdictIn u tenantId nowMs b.tables c = .review issues)
    (hlink : c.target.convertedToLeadId = none) :
    TableStep u tenantId nowMs b c (markAddressReview c.target.id issues b.tables)
  | review (leadId : Int) (issues : List AddressIssue)
    (hverdict : verdictIn u tenantId nowMs b.tables c = .review issues)
    (hlink : c.target.convertedToLeadId = some leadId) :
    TableStep u tenantId nowMs b c
      (reviewLead tenantId nowMs leadId issues (markAddressReview c.target.id issues b.tables))
  | join (decision : FreshFiberConfirmationDecision) (assignment : Option TerritoryAssignment)
    (wasUnassigned : Bool) (lead : IndexedLead)
    (hverdict : verdictIn u tenantId nowMs b.tables c = .publish decision)
    (hfound : (findLead u tenantId c b).2 = some lead) :
    TableStep u tenantId nowMs b c
      (attach tenantId nowMs lead.id c decision assignment wasUnassigned b.tables)
  | create (decision : FreshFiberConfirmationDecision) (assignment : Option TerritoryAssignment)
    (wasUnassigned : Bool)
    (hverdict : verdictIn u tenantId nowMs b.tables c = .publish decision)
    (hfound : (findLead u tenantId c b).2 = none) :
    TableStep u tenantId nowMs b c
      (attach tenantId nowMs
        (insertLead (freshLead u tenantId nowMs c decision assignment b.tables) nowMs b.tables).2
        c decision assignment wasUnassigned
        (insertLead (freshLead u tenantId nowMs c decision assignment b.tables) nowMs b.tables).1)

theorem tableStep_perCandidate (u : Unicode) (tenantId nowMs : Int) (b : Batch) (c : ProjectionCandidate) :
    TableStep u tenantId nowMs b c (perCandidate u tenantId nowMs b c).tables := by
  rw [perCandidate_eq]
  cases hverdict : verdictIn u tenantId nowMs b.tables c with
  | rejected => exact .same
  | provisional => exact .same
  | nowActive leadId => exact .activate leadId hverdict
  | blocked reason =>
    dsimp only
    cases hlink : c.target.convertedToLeadId with
    | none => exact .same
    | some leadId =>
      dsimp only
      unfold suppressLead
      split
      · rename_i hchanges
        exact .suppress leadId reason _ hverdict hlink hchanges
      · exact .same
  | review issues =>
    dsimp only
    cases hlink : c.target.convertedToLeadId with
    | none => exact .mark issues hverdict hlink
    | some leadId => exact .review leadId issues hverdict hlink
  | publish decision =>
    dsimp only
    rcases publish_cases u tenantId nowMs c decision
      { b with result := { b.result with confirmed := b.result.confirmed + 1 } } with
      ⟨-, heq⟩ | ⟨-, ⟨reason, heq⟩ | ⟨assignment, -, heq⟩⟩
    · rw [heq]
      exact .same
    · rw [heq]
      exact .same
    · rw [heq]
      obtain ⟨wasUnassigned, ⟨lead, hfound, htables⟩ | ⟨hfound, htables⟩⟩ :=
        place_tables u tenantId nowMs c decision assignment
          { b with result := { b.result with
              confirmed := b.result.confirmed + 1, published := b.result.published + 1 } }
      · rw [findLead_withResult] at hfound
        exact htables ▸ .join decision assignment wasUnassigned lead hverdict hfound
      · rw [findLead_withResult] at hfound
        exact htables ▸ .create decision assignment wasUnassigned hverdict hfound

theorem insertLead_corroborations (l : Lead) (db : Tables) :
    (insertLead l nowMs db).1.corroborations = db.corroborations := by
  unfold insertLead
  split <;> rfl

theorem TableStep.corroborations (h : TableStep u tenantId nowMs b c db') :
    db'.corroborations = b.tables.corroborations := by
  cases h with
  | create decision assignment wasUnassigned hverdict hfound =>
    exact insertLead_corroborations _ b.tables
  | _ => rfl

theorem verdictIn_congr (h : db'.corroborations = db.corroborations)
    (c : ProjectionCandidate) : verdictIn u tenantId nowMs db' c = verdictIn u tenantId nowMs db c := by
  rw [verdictIn, evidenceOf, h]
  rfl

theorem quiet_congr (h : db'.corroborations = db.corroborations)
    (hleads : db'.leads = db.leads) (c : ProjectionCandidate) :
    Quiet u tenantId nowMs db' c ↔ Quiet u tenantId nowMs db c := by
  rw [Quiet, verdictIn_congr h, hleads]
  rfl

/-- A run over the candidates is idle exactly when each of them is quiet at its start. -/
theorem idle_projectAll_iff (cs : List ProjectionCandidate) (b : Batch) :
    Idle b (projectAll u tenantId nowMs cs b) ↔ ∀ c ∈ cs, Quiet u tenantId nowMs b.tables c := by
  induction cs generalizing b with
  | nil => exact ⟨fun _ c hc => absurd hc not_mem_nil, fun _ => ⟨rfl, rfl, rfl⟩⟩
  | cons c cs ih =>
    have hrest : projectAll u tenantId nowMs (c :: cs) b =
        projectAll u tenantId nowMs cs (perCandidate u tenantId nowMs b c) := rfl
    rw [hrest, forall_mem_cons]
    have hcorroborations := (tableStep_perCandidate u tenantId nowMs b c).corroborations
    constructor
    · intro hidle
      have hquiet : Quiet u tenantId nowMs b.tables c := by
        by_contra hnot
        have hlt := activity_of_not_quiet hnot
        have hle := @activity_projectAll u tenantId nowMs cs (perCandidate u tenantId nowMs b c)
        rw [hidle.activity_eq] at hle
        omega
      have hstep := idle_of_quiet hquiet
      refine ⟨hquiet, fun c' hc' => ?_⟩
      rw [← quiet_congr hcorroborations hstep.leads]
      refine (ih (perCandidate u tenantId nowMs b c)).mp ⟨?_, ?_, ?_⟩ c' hc'
      · rw [hidle.leads, hstep.leads]
      · rw [hidle.leadEvents, hstep.leadEvents]
      · rw [hidle.published, hstep.published]
    · rintro ⟨hquiet, hquiets⟩
      have hstep := idle_of_quiet hquiet
      have hidle := (ih (perCandidate u tenantId nowMs b c)).mpr fun c' hc' =>
        (quiet_congr hcorroborations hstep.leads c').mpr (hquiets c' hc')
      exact ⟨hidle.leads.trans hstep.leads, hidle.leadEvents.trans hstep.leadEvents,
        hidle.published.trans hstep.published⟩

def projected (u : Unicode) (tenantId nowMs : Int) (targetIds : Option (List Int)) (db : Tables) :
    Tables := (projectConfirmedFreshLeads u tenantId nowMs targetIds db).1

theorem projectConfirmedFreshLeads_eq (u : Unicode) (tenantId nowMs : Int)
    (targetIds : Option (List Int)) (db : Tables) :
    projectConfirmedFreshLeads u tenantId nowMs targetIds db =
      ((projectAll u tenantId nowMs (candidates db tenantId targetIds)
          (startBatch db (candidates db tenantId targetIds).length)).tables,
        (projectAll u tenantId nowMs (candidates db tenantId targetIds)
          (startBatch db (candidates db tenantId targetIds).length)).result) := by
  unfold projectConfirmedFreshLeads
  split
  · rename_i hnone
    have hnil : candidates db tenantId targetIds = [] := by
      cases targetIds with
      | none => cases hnone
      | some ids =>
        have hids : ∀ s ∈ db.targets, ¬ (0 < s.id ∧ s.id ∈ ids) := by
          rintro s - ⟨hpos, hmem⟩
          simp only [Option.any_some, Bool.not_eq_true', any_eq_false, decide_eq_true_eq]
            at hnone
          exact hnone s.id hmem hpos
        have hfilter : db.targets.filter (fun s => 0 < s.id && s.id ∈ ids) = [] := by
          rw [filter_eq_nil_iff]
          simpa using hids
        unfold candidates
        simp only [Option.all_some, hfilter]
        rfl
    rw [hnil]
    rfl
  · rfl

/-- Every new link and every new lead belongs to a publishable candidate. -/
structure OnlyPublishable (u : Unicode) (tenantId nowMs : Int) (cs : List ProjectionCandidate)
    (db db' : Tables) : Prop where
  links : ∀ s' ∈ db'.targets,
    (∃ s ∈ db.targets, s.id = s'.id ∧ s.convertedToLeadId = s'.convertedToLeadId) ∨
      ∃ c ∈ cs, c.target.id = s'.id ∧ Publishable u tenantId nowMs db c
  leads : ∀ l' ∈ db'.leads, (∃ l ∈ db.leads, l.id = l'.id) ∨
    ∃ c ∈ cs, l'.sourceScanTargetId = some c.target.id ∧ Publishable u tenantId nowMs db c

section Only

variable {cs : List ProjectionCandidate} {db₁ : Tables}

structure KeepsSource (f : Lead → Lead) : Prop where
  id : ∀ l, (f l).id = l.id
  source : ∀ l targetId, l.sourceScanTargetId = some targetId →
    (f l).sourceScanTargetId = some targetId

theorem keepsSource_stamped (decision : FreshFiberConfirmationDecision)
    (assignment : Option TerritoryAssignment) : KeepsSource (stamped nowMs c decision assignment) where
  id _ := rfl
  source l targetId h := by
    rw [stamped, h]
    rfl

theorem keepsSource_setStatus (status : LeadStatus) : KeepsSource (setStatus status nowMs) :=
  ⟨fun _ => rfl, fun _ _ h => h⟩

theorem mem_updateLead {leadId : Int} {p : Lead → Bool} {f : Lead → Lead}
    {l' : Lead} (h : l' ∈ updateLead leadId tenantId p f leads) :
    ∃ l ∈ leads, l' = l ∨ l' = f l := by
  obtain ⟨l, hl, rfl⟩ := mem_map.mp h
  refine ⟨l, hl, ?_⟩
  split
  · exact .inr rfl
  · exact .inl rfl

theorem OnlyPublishable.updateLead (h : OnlyPublishable u tenantId nowMs cs db db₁)
    {f : Lead → Lead} (hf : KeepsSource f) (leadId : Int) (p : Lead → Bool) :
    OnlyPublishable u tenantId nowMs cs db
      { db₁ with leads := updateLead leadId tenantId p f db₁.leads } where
  links := h.links
  leads l' hl' := by
    obtain ⟨l, hl, rfl | rfl⟩ := mem_updateLead hl'
    · exact h.leads l' hl
    · rcases h.leads l hl with ⟨l₀, hl₀, hid⟩ | ⟨c, hc, hsource, hpublishable⟩
      · exact .inl ⟨l₀, hl₀, hid.trans (hf.id l).symm⟩
      · exact .inr ⟨c, hc, hf.source l _ hsource, hpublishable⟩

theorem OnlyPublishable.markAddressReview (h : OnlyPublishable u tenantId nowMs cs db db₁)
    (targetId : Int) (issues : List AddressIssue) :
    OnlyPublishable u tenantId nowMs cs db (markAddressReview targetId issues db₁) where
  leads := h.leads
  links s' hs' := by
    obtain ⟨s, hs, rfl⟩ := mem_map.mp hs'
    have hold := h.links s hs
    split
    · exact hold
    · exact hold

theorem OnlyPublishable.attach (h : OnlyPublishable u tenantId nowMs cs db db₁) (hc : c ∈ cs)
    (hpublishable : Publishable u tenantId nowMs db c) (leadId : Int)
    (decision : FreshFiberConfirmationDecision) (assignment : Option TerritoryAssignment)
    (wasUnassigned : Bool) :
    OnlyPublishable u tenantId nowMs cs db
      (attach tenantId nowMs leadId c decision assignment wasUnassigned db₁) where
  leads := (h.updateLead (keepsSource_stamped decision assignment) leadId fun _ => true).leads
  links s' hs' := by
    obtain ⟨s, hs, rfl⟩ := mem_map.mp hs'
    split
    · rename_i hid
      simp only [Bool.and_eq_true, decide_eq_true_eq] at hid
      exact .inr ⟨c, hc, hid.1.symm, hpublishable⟩
    · exact h.links s hs

theorem OnlyPublishable.insertLead (h : OnlyPublishable u tenantId nowMs cs db db₁) (hc : c ∈ cs)
    (hpublishable : Publishable u tenantId nowMs db c) {l : Lead}
    (hl : l.sourceScanTargetId = some c.target.id) (htenant : l.tenantId = tenantId) :
    OnlyPublishable u tenantId nowMs cs db (insertLead l nowMs db₁).1 := by
  unfold FreshFiber.insertLead
  split
  · rename_i old hold
    have howner : old.tenantId = tenantId := by
      have hfound := find?_some hold
      simp only [Bool.and_eq_true, decide_eq_true_eq] at hfound
      exact hfound.1.1.trans htenant
    rw [howner]
    exact h.updateLead ⟨by exact fun _ => rfl, by exact fun _ _ hsource => hsource⟩ old.id _
  · constructor
    · exact h.links
    · intro l' hl'
      rcases mem_append.mp hl' with hmem | hmem
      · exact h.leads l' hmem
      · rw [mem_singleton] at hmem
        exact .inr ⟨c, hc, hmem ▸ hl, hpublishable⟩

theorem publishable_congr (h : db'.corroborations = db.corroborations)
    (hpublishable : Publishable u tenantId nowMs db' c) : Publishable u tenantId nowMs db c where
  available := hpublishable.available
  clear := hpublishable.clear
  identity := hpublishable.identity
  confirmed := by
    have hconfirmed := hpublishable.confirmed
    rw [evidenceOf, h] at hconfirmed
    exact hconfirmed

theorem OnlyPublishable.step {db' : Tables} (hc : c ∈ cs)
    (h : OnlyPublishable u tenantId nowMs cs db b.tables)
    (hcorroborations : b.tables.corroborations = db.corroborations)
    (hstep : TableStep u tenantId nowMs b c db') :
    OnlyPublishable u tenantId nowMs cs db db' := by
  have hpublishable : ∀ {decision}, verdictIn u tenantId nowMs b.tables c = .publish decision →
      Publishable u tenantId nowMs db c := fun hverdict =>
    publishable_congr hcorroborations (publishable_of_verdict hverdict)
  cases hstep with
  | same => exact h
  | activate leadId hverdict => exact h.updateLead (keepsSource_setStatus _) leadId _
  | suppress leadId reason event hverdict hlink hchanges =>
    have hkept := h.updateLead (@keepsSource_setStatus nowMs .competitorSuppressed) leadId
      canSuppress
    exact ⟨hkept.links, hkept.leads⟩
  | mark issues hverdict hlink => exact h.markAddressReview c.target.id issues
  | review leadId issues hverdict hlink =>
    have hkept := (h.markAddressReview c.target.id issues).updateLead
      (@keepsSource_setStatus nowMs .addressReview) leadId canReview
    exact ⟨hkept.links, hkept.leads⟩
  | join decision assignment wasUnassigned lead hverdict hfound =>
    exact h.attach hc (hpublishable hverdict) lead.id decision assignment wasUnassigned
  | create decision assignment wasUnassigned hverdict hfound =>
    exact (h.insertLead hc (hpublishable hverdict) rfl rfl).attach hc (hpublishable hverdict) _ decision
      assignment wasUnassigned

theorem onlyPublishable_projectAll {rest : List ProjectionCandidate} (hrest : ∀ c ∈ rest, c ∈ cs)
    (h : OnlyPublishable u tenantId nowMs cs db b.tables)
    (hcorroborations : b.tables.corroborations = db.corroborations) :
    OnlyPublishable u tenantId nowMs cs db (projectAll u tenantId nowMs rest b).tables := by
  induction rest generalizing b with
  | nil => exact h
  | cons c rest ih =>
    have hstep := tableStep_perCandidate u tenantId nowMs b c
    apply ih
    · exact fun c' hc' => hrest c' (mem_cons_of_mem c hc')
    · exact h.step (hrest c mem_cons_self) hcorroborations hstep
    · exact hstep.corroborations.trans hcorroborations

end Only

end HomefrontFiber.FreshFiber
