import HomefrontFiber.FreshFiber.Publication

/-!
# One failure, and a second call

A candidate that fails takes back its writes, so the others come out as if it had not been there. With
that, a call publishes safely. It can be repeated without effect exactly when each candidate is quiet
before the second call.
-/

namespace HomefrontFiber.FreshFiber

variable {u : Unicode} {tenantId nowMs laterMs : Int} {targetIds : Option (List Int)} {db : Tables}
  {b : Batch} {c : ProjectionCandidate} {failed : Int}

/-- Counters that agree on all candidates but one. That one may have been counted as confirmed and as
published before it failed. -/
structure SameCounts (failed : Int) (r r' : ProjectionResult) : Prop where
  created : r'.created = r.created
  linkedExisting : r'.linkedExisting = r.linkedExisting
  provisional : r'.provisional = r.provisional
  rejected : r'.rejected = r.rejected
  addressReview : r'.addressReview = r.addressReview
  retracted : r'.retracted = r.retracted
  leadIds : r'.leadIds = r.leadIds
  errors : r'.errors.filter (·.1 ≠ failed) = r.errors.filter (·.1 ≠ failed)

structure SameWork (failed : Int) (b b' : Batch) : Prop where
  tables : b'.tables = b.tables
  cityLeadIndex : b'.cityLeadIndex = b.cityLeadIndex
  counts : SameCounts failed b.result b'.result

theorem SameCounts.refl (r : ProjectionResult) : SameCounts failed r r :=
  ⟨rfl, rfl, rfl, rfl, rfl, rfl, rfl, rfl⟩

theorem sameWork_place (decision : FreshFiberConfirmationDecision)
    (assignment : Option TerritoryAssignment) {r : ProjectionResult}
    (h : SameCounts failed b.result r) :
    SameWork failed (place u tenantId nowMs c decision assignment b)
      (place u tenantId nowMs c decision assignment { b with result := r }) := by
  have hresult := @findLead_result u tenantId c b
  unfold place
  rw [findLead_withResult c b r]
  revert hresult
  generalize findLead u tenantId c b = found
  obtain ⟨b', found⟩ := found
  intro hresult
  rw [← hresult] at h
  cases found with
  | some lead =>
    refine ⟨rfl, rfl, { h with linkedExisting := ?_, leadIds := ?_ }⟩
    · exact congrArg (· + 1) h.linkedExisting
    · exact congrArg (· ++ [lead.id]) h.leadIds
  | none =>
    refine ⟨rfl, rfl, { h with created := ?_, leadIds := ?_ }⟩
    · exact congrArg (· + 1) h.created
    · exact congrArg (· ++ _) h.leadIds

theorem sameWork_publish (decision : FreshFiberConfirmationDecision) {r : ProjectionResult}
    (h : SameCounts failed b.result r) :
    SameWork failed (publish u tenantId nowMs c decision b)
      (publish u tenantId nowMs c decision { b with result := r }) := by
  unfold publish
  dsimp only
  split
  · refine ⟨rfl, rfl, { h with linkedExisting := ?_, leadIds := ?_ }⟩
    · exact congrArg (· + 1) h.linkedExisting
    · exact congrArg (· ++ _) h.leadIds
  · split
    · refine ⟨rfl, rfl, { h with errors := ?_ }⟩
      simp only [fail, List.filter_append, h.errors]
    · rename_i assignment hassignment
      exact @sameWork_place u tenantId nowMs
        { b with result := { b.result with published := b.result.published + 1 } } c failed decision
        assignment { r with published := r.published + 1 } { h with }

theorem sameWork_perCandidate {b' : Batch} (h : SameWork failed b b') :
    SameWork failed (perCandidate u tenantId nowMs b c) (perCandidate u tenantId nowMs b' c) := by
  obtain ⟨tables, cityLeadIndex, result⟩ := b
  obtain ⟨tables', cityLeadIndex', result'⟩ := b'
  obtain ⟨htables, hindex, h⟩ := h
  cases htables
  cases hindex
  rw [perCandidate_eq, perCandidate_eq]
  dsimp only at h ⊢
  cases verdictIn u tenantId nowMs tables c with
  | rejected => exact ⟨rfl, rfl, { h with rejected := congrArg (· + 1) h.rejected }⟩
  | provisional => exact ⟨rfl, rfl, { h with provisional := congrArg (· + 1) h.provisional }⟩
  | nowActive leadId =>
    refine ⟨rfl, rfl, { h with leadIds := ?_ }⟩
    dsimp only [markNowActive]
    rw [h.leadIds]
  | blocked reason =>
    cases c.target.convertedToLeadId with
    | none => exact ⟨rfl, rfl, { h with rejected := congrArg (· + 1) h.rejected }⟩
    | some leadId =>
      dsimp only [suppressLead]
      split
      · refine ⟨rfl, rfl, { h with rejected := ?_, retracted := ?_ }⟩
        · exact congrArg (· + 1) h.rejected
        · exact congrArg (· + 1) h.retracted
      · exact ⟨rfl, rfl, { h with rejected := congrArg (· + 1) h.rejected }⟩
  | review issues =>
    exact ⟨rfl, rfl, { h with addressReview := congrArg (· + 1) h.addressReview }⟩
  | publish decision =>
    exact @sameWork_publish u tenantId nowMs
      { tables, cityLeadIndex
        result := { result with confirmed := result.confirmed + 1 } } c failed decision
      { result' with confirmed := result'.confirmed + 1 } { h with }

theorem sameWork_projectAll (cs : List ProjectionCandidate) {b' : Batch} (h : SameWork failed b b') :
    SameWork failed (projectAll u tenantId nowMs cs b) (projectAll u tenantId nowMs cs b') := by
  induction cs generalizing b b' with
  | nil => exact h
  | cons c cs ih => exact ih (sameWork_perCandidate h)

def Fails (u : Unicode) (tenantId nowMs : Int) (b : Batch) (c : ProjectionCandidate) : Prop :=
  (perCandidate u tenantId nowMs b c).result.errors ≠ b.result.errors

theorem sameWork_of_fails (h : Fails u tenantId nowMs b c) :
    SameWork c.target.id b (perCandidate u tenantId nowMs b c) := by
  unfold Fails at h
  rw [perCandidate_eq] at h ⊢
  cases hverdict : verdictIn u tenantId nowMs b.tables c with
  | rejected =>
    rw [hverdict] at h
    exact absurd rfl h
  | provisional =>
    rw [hverdict] at h
    exact absurd rfl h
  | nowActive leadId =>
    rw [hverdict] at h
    exact absurd rfl h
  | blocked reason =>
    rw [hverdict] at h
    apply absurd _ h
    cases c.target.convertedToLeadId with
    | none => rfl
    | some leadId =>
      dsimp only [suppressLead]
      split <;> rfl
  | review issues =>
    rw [hverdict] at h
    exact absurd rfl h
  | publish decision =>
    rw [hverdict] at h
    dsimp only at h ⊢
    rcases publish_cases u tenantId nowMs c decision
      { b with result := { b.result with confirmed := b.result.confirmed + 1 } } with
      ⟨-, heq⟩ | ⟨-, ⟨reason, heq⟩ | ⟨assignment, -, heq⟩⟩
    · rw [heq] at h
      exact absurd rfl h
    · rw [heq]
      refine ⟨rfl, rfl, { @SameCounts.refl c.target.id b.result with errors := ?_ }⟩
      simp [fail]
    · rw [heq, (place_report ..).2] at h
      exact absurd rfl h

/-- Every failure leaves the work of the other candidates as it is without the one that failed. -/
def Isolated (u : Unicode) (tenantId nowMs : Int) (cs : List ProjectionCandidate) (b : Batch) : Prop :=
  ∀ before c after, cs = before ++ c :: after →
    Fails u tenantId nowMs (projectAll u tenantId nowMs before b) c →
      SameWork c.target.id (projectAll u tenantId nowMs (before ++ after) b)
        (projectAll u tenantId nowMs cs b)

theorem isolated (u : Unicode) (tenantId nowMs : Int) (cs : List ProjectionCandidate) (b : Batch) :
    Isolated u tenantId nowMs cs b := by
  rintro before c after rfl hfails
  have hstep := sameWork_of_fails hfails
  have hwith : projectAll u tenantId nowMs (before ++ c :: after) b =
      projectAll u tenantId nowMs after
        (perCandidate u tenantId nowMs (projectAll u tenantId nowMs before b) c) := by
    unfold projectAll
    rw [List.foldl_append, List.foldl_cons]
  have hwithout : projectAll u tenantId nowMs (before ++ after) b =
      projectAll u tenantId nowMs after (projectAll u tenantId nowMs before b) := List.foldl_append
  rw [hwith, hwithout]
  exact sameWork_projectAll after hstep

/-- A call that changes no lead, adds no event and publishes nothing. -/
structure NoEffect (u : Unicode) (tenantId nowMs : Int) (targetIds : Option (List Int))
    (db : Tables) : Prop where
  leads : (projected u tenantId nowMs targetIds db).leads = db.leads
  leadEvents : (projected u tenantId nowMs targetIds db).leadEvents = db.leadEvents
  published : (projectConfirmedFreshLeads u tenantId nowMs targetIds db).2.published = 0

theorem noEffect_iff :
    NoEffect u tenantId nowMs targetIds db ↔
      ∀ c ∈ candidates db tenantId targetIds, Quiet u tenantId nowMs db c := by
  have hidle := @idle_projectAll_iff u tenantId nowMs (candidates db tenantId targetIds)
    (startBatch db (candidates db tenantId targetIds).length)
  refine Iff.trans ?_ hidle
  have heq := projectConfirmedFreshLeads_eq u tenantId nowMs targetIds db
  constructor
  · rintro ⟨hleads, hevents, hpublished⟩
    rw [projected, heq] at hleads hevents
    rw [heq] at hpublished
    exact ⟨hleads, hevents, hpublished⟩
  · rintro ⟨hleads, hevents, hpublished⟩
    constructor
    · rw [projected, heq]
      exact hleads
    · rw [projected, heq]
      exact hevents
    · rw [heq]
      exact hpublished

/-- The call at `nowMs` publishes safely, no failure reaches another candidate and a second call at
`laterMs` has no effect. -/
structure ProjectsSafely (u : Unicode) (tenantId nowMs laterMs : Int) (targetIds : Option (List Int))
    (db : Tables) : Prop where
  publication : OnlyPublishable u tenantId nowMs (candidates db tenantId targetIds) db
    (projected u tenantId nowMs targetIds db)
  isolation : Isolated u tenantId nowMs (candidates db tenantId targetIds)
    (startBatch db (candidates db tenantId targetIds).length)
  replay : NoEffect u tenantId laterMs targetIds (projected u tenantId nowMs targetIds db)

/-- Publication and isolation hold of every call. The second call has no effect exactly when every
candidate is quiet before it. -/
theorem projectsSafely_iff (u : Unicode) (tenantId nowMs laterMs : Int)
    (targetIds : Option (List Int)) (db : Tables) :
    ProjectsSafely u tenantId nowMs laterMs targetIds db ↔
      ∀ c ∈ candidates (projected u tenantId nowMs targetIds db) tenantId targetIds,
        Quiet u tenantId laterMs (projected u tenantId nowMs targetIds db) c := by
  constructor
  · intro h
    exact noEffect_iff.mp h.replay
  · intro h
    constructor
    · rw [projected, projectConfirmedFreshLeads_eq]
      apply onlyPublishable_projectAll
      · exact fun c hc => hc
      · exact ⟨fun s hs => Or.inl ⟨s, hs, rfl, rfl⟩, fun l hl => Or.inl ⟨l, hl, rfl⟩⟩
      · rfl
    · exact isolated u tenantId nowMs _ _
    · exact noEffect_iff.mpr h

def twoSpellings : Tables :=
  doorsOnly [maconDoor 1 "12 Oak St", maconDoor 2 "12 Oak Street"]
    [newFiberAnswer 1 0, newFiberAnswer 2 0]

/-- The second spelling is attached to the lead of the first and is published again by every call. -/
theorem not_projectsSafely_twoSpellings :
    ¬ ProjectsSafely .ascii 1 0 60000 none twoSpellings := by
  intro h
  exact absurd h.replay.published (by decide +kernel)

end HomefrontFiber.FreshFiber
