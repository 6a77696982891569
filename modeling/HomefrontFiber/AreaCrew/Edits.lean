import HomefrontFiber.AreaCrew.Kept

/-!
# Runs of crew edits

A run of clean steps keeps every crew edit. Two unassign requests that read the same crew undo each
other, and taking a rep off a completed area makes it active again without a check.
-/

namespace HomefrontFiber.AreaCrew

open List

def Accepted : Request → Prop
  | .share _ repIds => repIds ≠ []
  | .reclaim _ .reassign newRepId => newRepId.isSome = true
  | _ => True

variable {w : World} {d : Door}

theorem accepted_of_passes {scope : Option (List Int)} {t : Area} {request : Request}
    (h : passes w scope t request = true) : Accepted request := by
  cases request with
  | share areaId repIds =>
    unfold passes at h
    simp only [Bool.and_eq_true, decide_eq_true_eq] at h
    exact h.1.2
  | reclaim areaId mode newRepId =>
    cases mode with
    | reassign =>
      cases newRepId with
      | none => simp [passes] at h
      | some target => exact rfl
    | _ => trivial
  | _ => trivial

def AllAccepted (w : World) : Prop := ∀ p ∈ w.pending, Accepted p.request

theorem apply_pending (w : World) (p : Pending) : (apply w p).pending = w.pending := by
  obtain ⟨request, snapshot⟩ := p
  cases request with
  | unassign areaId repId releaseLeads => cases releaseLeads <;> rfl
  | reclaim areaId mode newRepId =>
    cases mode with
    | reassign => cases newRepId <;> rfl
    | _ => rfl
  | _ => rfl

theorem AllAccepted.next (h : AllAccepted w) (a : Action) : AllAccepted (step w a) := by
  cases a with
  | receive scope request =>
    unfold step
    dsimp only
    rcases receive_cases w scope request with hsame | ⟨t, hpass, hnew⟩
    · rw [hsame]
      exact h
    · rw [hnew]
      intro p hp
      rcases mem_append.mp hp with hold | hlast
      · exact h p hold
      · rw [mem_singleton.mp hlast]
        exact accepted_of_passes hpass
  | commit index =>
    have hrest : ∀ p ∈ w.pending.eraseIdx index, Accepted p.request := fun p hp =>
      h p (mem_of_mem_eraseIdx hp)
    unfold step commit
    dsimp only
    split
    · exact h
    · split
      · exact hrest
      · unfold AllAccepted
        rw [apply_pending]
        exact hrest

theorem door_of_handOff {areaId : Nat} {repId : Int} {keep : List Int}
    (hd : d ∈ (bulkAssignTerritoryLeadsExcept w areaId repId keep).doors)
    (hlink : d.assignedTerritoryId = some areaId) (hkeep : repId ∈ keep) :
    ∃ r ∈ keep, d.assignedRepId = some r := by
  obtain ⟨d₀, -, rfl⟩ := mem_map.mp hd
  split
  · exact ⟨repId, hkeep, rfl⟩
  · rename_i hout
    rw [if_neg hout] at hlink
    rw [not_and] at hout
    have hany := hout hlink
    cases hrep : d₀.assignedRepId with
    | none => simp [hrep] at hany
    | some r =>
      rw [hrep] at hany
      exact ⟨r, by simpa using hany, rfl⟩

theorem doors_of_apply {p : Pending} (haccepted : Accepted p.request)
    (hclean : cleanRequest w p = true) (hreleases : p.request.releases) {r : Int}
    (hon : r ∈ crew w p.request.areaId) (hoff : ∀ s, newState p = some s → r ∉ s.repIds)
    (hd : d ∈ (apply w p).doors) (hlink : d.assignedTerritoryId = some p.request.areaId) :
    d.assignedRepId ≠ some r := by
  obtain ⟨request, snapshot⟩ := p
  cases request with
  | assign areaId repId inside => exact hreleases.elim
  | complete areaId => exact hreleases.elim
  | share areaId repIds =>
    have hout : r ∉ repIds.eraseDups := hoff _ rfl
    have hprimary : repIds.eraseDups.head?.getD snapshot.repId ∈ repIds.eraseDups := by
      cases hmerged : repIds.eraseDups with
      | nil =>
        obtain ⟨x, hx⟩ := exists_mem_of_ne_nil _ haccepted
        rw [← mem_eraseDups, hmerged] at hx
        exact absurd hx not_mem_nil
      | cons x rest => exact mem_cons_self
    obtain ⟨x, hx, hrep⟩ := door_of_handOff hd hlink hprimary
    rw [hrep]
    rintro ⟨⟩
    exact hout hx
  | unassign areaId repId releaseLeads =>
    cases releaseLeads with
    | false => exact hreleases.elim
    | true =>
      have hout : r ∉ (unassignRep (stateOf snapshot) repId).repIds := hoff _ rfl
      rw [unassignRep_repIds] at hout
      obtain ⟨d₀, hd₀, rfl⟩ := mem_map.mp hd
      split
      · exact fun h => nomatch h
      · rename_i hkept
        rw [if_neg hkept] at hlink
        intro hrep
        unfold cleanRequest at hclean
        simp only [Bool.and_eq_true, Bool.or_eq_true, Bool.not_eq_true', Bool.true_eq_false,
          false_or, all_eq_true] at hclean
        rcases hclean.2 d₀ hd₀ with hno | hall
        · have hother : ¬ d₀.assignedTerritoryId = some areaId := by simpa using hno
          exact hother hlink
        · rw [hrep] at hall
          simp only [Option.all_some, Bool.or_eq_true, decide_eq_true_eq] at hall
          rcases hall with (hnot | rfl) | hin
          · exact hnot hon
          · exact hkept ⟨hlink, hrep⟩
          · exact hout hin
  | reclaim areaId mode newRepId =>
    cases mode with
    | keepLeads => exact hreleases.elim
    | returnToPool =>
      obtain ⟨d₀, -, rfl⟩ := mem_map.mp hd
      split
      · exact fun h => nomatch h
      · rename_i hkept
        rw [if_neg hkept] at hlink
        intro hrep
        exact hkept ⟨hlink, by rw [hrep]; rfl⟩
    | reassign =>
      cases newRepId with
      | none => exact absurd haccepted Bool.false_ne_true
      | some target =>
        have hout : r ∉ [target] := hoff _ rfl
        obtain ⟨x, hx, hrep⟩ := door_of_handOff hd hlink mem_cons_self
        rw [hrep]
        rintro ⟨⟩
        exact hout hx

theorem doorsReleased_of_clean (haccepted : AllAccepted w) {a : Action}
    (hclean : clean w a = true) : DoorsReleased w a := by
  intro p hcommits hreleases r hremoved d hd hlink
  obtain ⟨hon, hoff⟩ := hremoved
  rcases step_cases w a with ⟨pending, hstep⟩ | ⟨q, pending, hq, hmem, -, hstep⟩
  · rw [hstep] at hoff
    exact absurd hon hoff
  · cases hcommits.unique hq
    rw [hstep] at hd hoff
    have hclean' := hcommits.clean hclean
    exact doors_of_apply (w := { w with pending }) (haccepted p hmem) hclean' hreleases hon
      (fun s hs hin => hoff (mem_crew_of_newState hs hon hin)) hd hlink

theorem staysOff_of_clean {start : World} {actions : List Action}
    (hclean : Along step (fun w a => clean w a = true) start actions) : StaysOff start actions := by
  intro before a between hprefix p areaId r _ _ hremoved hunnamed
  obtain ⟨rest, rfl⟩ := hprefix
  rw [append_cons] at hclean ⊢
  have hrun := (along_append.mp (along_append.mp hclean).1).2
  have hboth := along_and.mpr ⟨hrun, hunnamed⟩
  have hoff : r ∉ crew (run step start (before ++ [a])) areaId := by
    rw [run_append]
    exact hremoved.2
  have hstep : ∀ (w : World) (b : Action), r ∉ crew w areaId →
      clean w b = true ∧ ¬ Names w b areaId r → r ∉ crew (step w b) areaId :=
    fun _ _ hout hb hin => hout (crew_step hb.1 hb.2 hin)
  rw [run_append]
  exact run_invariant (I := fun w => r ∉ crew w areaId) hstep hoff hboth

/-- A run of clean steps from a state within the cap keeps every crew edit. -/
theorem crewEdits_kept {start : World} (hstart : Sound start) (hpending : start.pending = [])
    {actions : List Action} (hclean : Along step (fun w a => clean w a = true) start actions) :
    EditsKept start actions := by
  have haccepted : AllAccepted start := by
    intro p hp
    rw [hpending] at hp
    exact absurd hp not_mem_nil
  refine ⟨staysOff_of_clean hclean, ?_, ?_⟩
  · have hnext : ∀ (w : World) (a : Action), AllAccepted w → clean w a = true →
        AllAccepted (step w a) := fun _ a h _ => h.next a
    exact hclean.imp_of_invariant hnext (fun w a h hc => doorsReleased_of_clean h hc) haccepted
  · have hnext : ∀ (w : World) (a : Action), Sound w → clean w a = true → Sound (step w a) :=
      fun _ _ h hc => h.next hc
    intro w hw
    rcases mem_cons.mp hw with rfl | hw
    · exact hstart.capped
    · exact (trace_along hnext hstart hclean w hw).capped

/-- Reps 1, 2 and 3 share area 1. -/
def sharedArea : World where
  roster := [⟨1, true⟩, ⟨2, true⟩, ⟨3, true⟩]
  areas := [⟨1, .shared, 1, some [1, 2, 3]⟩]
  doors := [⟨10, some 1, some 2⟩]

/-- Rep 1 is on five active areas and on a completed one with rep 2. -/
def fullRep : World where
  roster := [⟨1, true⟩, ⟨2, true⟩]
  areas := [⟨1, .active, 1, some [1]⟩, ⟨2, .active, 1, some [1]⟩, ⟨3, .active, 1, some [1]⟩,
    ⟨4, .active, 1, some [1]⟩, ⟨5, .active, 1, some [1]⟩, ⟨6, .completed, 1, some [1, 2]⟩]
  doors := []

theorem capped_of_all
    (h : ∀ repId ∈ w.areas.flatMap holders, activeAreas w repId ≤ maxActiveAreasPerRep) :
    Capped w := by
  intro repId
  by_cases hin : repId ∈ w.areas.flatMap holders
  · exact h repId hin
  · have hzero : activeAreas w repId = 0 := by
      apply countP_eq_zero.mpr
      intro t ht hcount
      simp only [Bool.and_eq_true, decide_eq_true_eq] at hcount
      exact hin (mem_flatMap.mpr ⟨t, ht, hcount.2⟩)
    rw [hzero]
    exact Nat.zero_le _

theorem crewEdits_kept_sharedArea :
    EditsKept sharedArea [.receive none (.unassign 1 2 true), .commit 0] :=
  crewEdits_kept ⟨by decide, capped_of_all (by decide)⟩ rfl (by decide)

/-- The second request writes rep 2 back, and one rep passes the cap without a request in flight. -/
theorem not_crewEdits_kept :
    Sound sharedArea ∧ ¬ EditsKept sharedArea [.receive none (.unassign 1 2 true),
      .receive none (.unassign 1 3 true), .commit 0, .commit 0] ∧
    Sound fullRep ∧ ¬ EditsKept fullRep [.receive none (.unassign 6 2 true), .commit 0] := by
  refine ⟨⟨by decide, capped_of_all (by decide)⟩, ?_, ⟨by decide, capped_of_all (by decide)⟩, ?_⟩
  · rintro ⟨hoff, -, -⟩
    have hnames : Along step (fun w b => ¬ Names w b 1 2)
        (run step sharedArea ([.receive none (.unassign 1 2 true),
          .receive none (.unassign 1 3 true)] ++ [.commit 0])) [.commit 0] := by
      refine ⟨?_, trivial⟩
      rintro ⟨p, ⟨index, hindex, hp, -⟩, -, hnamed⟩
      cases hindex
      cases hp
      exact hnamed
    exact hoff [.receive none (.unassign 1 2 true), .receive none (.unassign 1 3 true)]
      (.commit 0) [.commit 0] (prefix_refl _)
      ⟨.unassign 1 2 true, ⟨1, .shared, 1, some [1, 2, 3]⟩⟩
      1 2 ⟨0, rfl, rfl, rfl⟩ trivial ⟨by decide, by decide⟩ hnames (by decide)
  · rintro ⟨-, -, hcap⟩
    have hsix := hcap (run step fullRep [.receive none (.unassign 6 2 true), .commit 0])
      (by decide) 1
    exact absurd hsix (by decide)

end HomefrontFiber.AreaCrew
