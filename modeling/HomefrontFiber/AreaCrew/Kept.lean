import HomefrontFiber.AreaCrew.Store
import Mathlib.Data.List.Nodup
import Mathlib.Data.List.Perm.Subperm

/-!
# Crew edits and the cap

The crew that an unassign request writes is the one it read, less one rep. Where it writes nobody
back and drops nobody else, and where the reps that a request keeps without a check have room, the
edits of a run are kept and the cap holds.
-/

namespace HomefrontFiber.AreaCrew

open List

def crew (w : World) (areaId : Nat) : List Int :=
  (w.areas.filter (·.id = areaId)).flatMap holders

def activeAreas (w : World) (repId : Int) : Nat :=
  w.areas.countP fun t => counts t.status && repId ∈ holders t

def Capped (w : World) : Prop := ∀ repId, activeAreas w repId ≤ maxActiveAreasPerRep

def Request.names : Request → Int → Prop
  | .assign _ repId _, r => r = repId
  | .share _ repIds, r => r ∈ repIds
  | .reclaim _ .reassign newRepId, r => newRepId = some r
  | _, _ => False

def Request.withdraws : Request → Prop
  | .share _ _ | .unassign _ _ _ | .reclaim _ _ _ => True
  | _ => False

/-- The requests that take the doors of the reps they remove. -/
def Request.releases : Request → Prop
  | .share _ _ | .unassign _ _ true | .reclaim _ .returnToPool _ | .reclaim _ .reassign _ => True
  | _ => False

def Commits (w : World) (a : Action) (p : Pending) : Prop :=
  ∃ index, a = .commit index ∧ w.pending[index]? = some p ∧ refused w p = false

def Removes (w : World) (a : Action) (areaId : Nat) (r : Int) : Prop :=
  r ∈ crew w areaId ∧ r ∉ crew (step w a) areaId

/-- The action commits a request that names the rep for the area. -/
def Names (w : World) (a : Action) (areaId : Nat) (r : Int) : Prop :=
  ∃ p, Commits w a p ∧ p.request.areaId = areaId ∧ p.request.names r

/-- A rep that a request takes off a crew stays off it until a request names the rep. -/
def StaysOff (start : World) (actions : List Action) : Prop :=
  ∀ before a between, before ++ a :: between <+: actions →
    ∀ p areaId r, Commits (run step start before) a p → p.request.withdraws →
      Removes (run step start before) a areaId r →
      Along step (fun w b => ¬ Names w b areaId r) (run step start (before ++ [a])) between →
      r ∉ crew (run step start (before ++ a :: between)) areaId

/-- After a request that releases, no door of the area is assigned to a rep it removed. -/
def DoorsReleased (w : World) (a : Action) : Prop :=
  ∀ p, Commits w a p → p.request.releases → ∀ r, Removes w a p.request.areaId r →
    ∀ d ∈ (step w a).doors, d.assignedTerritoryId = some p.request.areaId →
      d.assignedRepId ≠ some r

/-- Crew edits are kept, doors are released, and the cap holds in every state. -/
def EditsKept (start : World) (actions : List Action) : Prop :=
  StaysOff start actions ∧ Along step DoorsReleased start actions ∧
    ∀ w ∈ start :: trace step start actions, Capped w

/-- The transaction does not write back what its request did not decide. -/
def cleanRequest (w : World) (p : Pending) : Bool :=
  match p.request with
  | .unassign areaId repId releaseLeads =>
    let next := (holders p.snapshot).filter (· ≠ repId)
    next.all (· ∈ crew w areaId) && next.all (!repAtAreaCap w · areaId) &&
      (!releaseLeads || w.doors.all fun d =>
        !(d.assignedTerritoryId = some areaId) || d.assignedRepId.all fun r =>
          r ∉ crew w areaId || r = repId || r ∈ next)
  | .share areaId repIds =>
    repIds.all fun r => r ∉ p.snapshot.assigneeIds.getD [] || !repAtAreaCap w r areaId
  | _ => true

def clean (w : World) : Action → Bool
  | .receive _ _ => true
  | .commit index => w.pending[index]?.all (cleanRequest w)

variable {w : World} {areaId : Nat} {r : Int} {p : Pending} {s : TerritoryState} {a : Action}

theorem mem_crew : r ∈ crew w areaId ↔ ∃ t ∈ w.areas, t.id = areaId ∧ r ∈ holders t := by
  unfold crew
  simp [mem_flatMap, and_assoc]

theorem territoryHeldByAny_singleton (t : Area) (r : Int) :
    territoryHeldByAny t [r] = decide (r ∈ holders t) := by
  unfold territoryHeldByAny holders
  rw [if_neg (cons_ne_nil _ _)]
  cases t.assigneeIds with
  | none => simp [eq_comm]
  | some assignees => simp [any_eq, eq_comm]

theorem repAtAreaCap_eq_false :
    repAtAreaCap w r areaId = false ↔
      (w.areas.countP fun t => (counts t.status && decide (r ∈ holders t)) && t.id ≠ areaId) <
        maxActiveAreasPerRep := by
  unfold repAtAreaCap getTerritoriesByRep
  have hfilter : ((w.areas.filter fun t => t.status ≠ .archived && territoryHeldByAny t [r]).filter
      fun t => counts t.status && t.id ≠ areaId) =
      w.areas.filter fun t => (counts t.status && decide (r ∈ holders t)) && t.id ≠ areaId := by
    rw [filter_filter]
    apply filter_congr
    intro t _
    rw [territoryHeldByAny_singleton]
    cases hstatus : t.status <;> simp [counts, Bool.and_comm]
  rw [hfilter, countP_eq_length_filter]
  simp

/-- The crew and status that a transaction writes, if it writes a crew. -/
def newState (p : Pending) : Option TerritoryState :=
  match p.request with
  | .assign _ repId _ => some ⟨.active, [repId]⟩
  | .complete _ => none
  | .share _ repIds =>
    let merged := repIds.eraseDups
    some ⟨if 1 < merged.length then .shared else .active, merged⟩
  | .unassign _ repId _ => some (unassignRep (stateOf p.snapshot) repId)
  | .reclaim _ mode newRepId => some (reclaimTerritory mode newRepId)

def writeArea (p : Pending) (row : Area) : Area :=
  match newState p with
  | some s => setHolders s p.snapshot row
  | none => { row with status := .completed }

theorem apply_areas (w : World) (p : Pending) :
    (apply w p).areas = w.areas.map fun t => if t.id = p.request.areaId then writeArea p t else t := by
  obtain ⟨request, snapshot⟩ := p
  cases request with
  | assign areaId repId inside => rfl
  | complete areaId => rfl
  | share areaId repIds => rfl
  | unassign areaId repId releaseLeads => cases releaseLeads <;> rfl
  | reclaim areaId mode newRepId =>
    cases mode with
    | keepLeads => rfl
    | returnToPool => rfl
    | reassign => cases newRepId <;> rfl

@[simp] theorem writeArea_id (p : Pending) (row : Area) : (writeArea p row).id = row.id := by
  unfold writeArea
  split <;> rfl

theorem ids_apply (w : World) (p : Pending) :
    (apply w p).areas.map (·.id) = w.areas.map (·.id) := by
  rw [apply_areas, map_map]
  apply map_congr_left
  intro t _
  dsimp only [Function.comp]
  split
  · exact writeArea_id p t
  · rfl

theorem mem_crew_apply :
    r ∈ crew (apply w p) areaId ↔ ∃ t ∈ w.areas, t.id = areaId ∧
      r ∈ holders (if t.id = p.request.areaId then writeArea p t else t) := by
  rw [mem_crew, apply_areas]
  constructor
  · rintro ⟨t', ht', hid, hr⟩
    obtain ⟨t, ht, rfl⟩ := mem_map.mp ht'
    refine ⟨t, ht, ?_, hr⟩
    split at hid
    · rwa [writeArea_id] at hid
    · exact hid
  · rintro ⟨t, ht, hid, hr⟩
    refine ⟨_, mem_map_of_mem ht, ?_, hr⟩
    split
    · rwa [writeArea_id]
    · exact hid

theorem holders_writeArea (hs : newState p = some s)
    (row : Area) : holders (writeArea p row) = s.repIds := by
  unfold writeArea
  rw [hs]
  rfl

theorem holders_writeArea_none (hs : newState p = none) (row : Area) :
    holders (writeArea p row) = holders row := by
  unfold writeArea
  rw [hs]
  rfl

theorem mem_crew_of_newState
    (hs : newState p = some s) {x : Int} (hr : r ∈ crew w p.request.areaId) (hx : x ∈ s.repIds) :
    x ∈ crew (apply w p) p.request.areaId := by
  obtain ⟨t, ht, hid, -⟩ := mem_crew.mp hr
  apply mem_crew_apply.mpr
  refine ⟨t, ht, hid, ?_⟩
  rw [if_pos hid, holders_writeArea hs]
  exact hx

theorem mem_crew_of_apply (hr : r ∈ crew (apply w p) areaId) :
    r ∈ crew w areaId ∨ areaId = p.request.areaId ∧ ∃ s, newState p = some s ∧ r ∈ s.repIds := by
  obtain ⟨t, ht, hid, hmem⟩ := mem_crew_apply.mp hr
  split at hmem
  · rename_i harea
    cases hs : newState p with
    | none =>
      rw [holders_writeArea_none hs] at hmem
      exact .inl (mem_crew.mpr ⟨t, ht, hid, hmem⟩)
    | some s =>
      rw [holders_writeArea hs] at hmem
      exact .inr ⟨hid.symm.trans harea, s, rfl, hmem⟩
  · exact .inl (mem_crew.mpr ⟨t, ht, hid, hmem⟩)

theorem unassignRep_repIds (state : TerritoryState) (repId : Int) :
    (unassignRep state repId).repIds = state.repIds.filter (· ≠ repId) := by
  unfold unassignRep
  split
  · rfl
  · rename_i hout
    symm
    apply filter_eq_self.mpr
    intro r hr
    simp only [decide_eq_true_eq]
    rintro rfl
    exact hout hr

theorem names_or_read (hs : newState p = some s)
    (hr : r ∈ s.repIds) : p.request.names r ∨ ∃ areaId repId releaseLeads,
      p.request = .unassign areaId repId releaseLeads ∧
        r ∈ (holders p.snapshot).filter (· ≠ repId) := by
  obtain ⟨request, snapshot⟩ := p
  cases request with
  | assign areaId repId inside =>
    cases hs
    exact .inl (mem_singleton.mp hr)
  | complete areaId => cases hs
  | share areaId repIds =>
    cases hs
    exact .inl (mem_eraseDups.mp hr)
  | unassign areaId repId releaseLeads =>
    cases hs
    rw [unassignRep_repIds] at hr
    exact .inr ⟨areaId, repId, releaseLeads, rfl, hr⟩
  | reclaim areaId mode newRepId =>
    cases hs
    cases mode with
    | keepLeads => exact absurd hr not_mem_nil
    | returnToPool => exact absurd hr not_mem_nil
    | reassign => exact .inl (Option.mem_toList.mp hr)

theorem refused_pending (w : World) (pending : List Pending) (p : Pending) :
    refused { w with pending } p = refused w p := rfl

theorem receive_cases (w : World) (scope : Option (List Int)) (request : Request) :
    receive w scope request = w ∨ ∃ t, passes w scope t request = true ∧
      receive w scope request = { w with pending := w.pending ++ [⟨request, t⟩] } := by
  unfold receive
  split
  · exact .inl rfl
  · rename_i t _
    split
    · rename_i hpass
      simp only [Bool.and_eq_true] at hpass
      exact .inr ⟨t, hpass.2, rfl⟩
    · exact .inl rfl

theorem step_cases (w : World) (a : Action) :
    (∃ pending, step w a = { w with pending }) ∨ ∃ p pending, Commits w a p ∧ p ∈ w.pending ∧
      (∀ q ∈ pending, q ∈ w.pending) ∧ step w a = apply { w with pending } p := by
  cases a with
  | receive scope request =>
    rcases receive_cases w scope request with hsame | ⟨t, -, hnew⟩
    · exact .inl ⟨w.pending, hsame⟩
    · exact .inl ⟨_, hnew⟩
  | commit index =>
    unfold step commit
    dsimp only
    split
    · exact .inl ⟨w.pending, rfl⟩
    · rename_i p hp
      rw [refused_pending]
      split
      · exact .inl ⟨_, rfl⟩
      · rename_i hgo
        have hcommits : Commits w (.commit index) p :=
          ⟨index, rfl, hp, (Bool.not_eq_true _).mp hgo⟩
        refine .inr ⟨p, w.pending.eraseIdx index, hcommits, mem_of_getElem? hp, ?_, rfl⟩
        exact fun q hq => mem_of_mem_eraseIdx hq

theorem Commits.clean (h : Commits w a p)
    (hclean : clean w a = true) : cleanRequest w p = true := by
  obtain ⟨index, rfl, hp, -⟩ := h
  unfold AreaCrew.clean at hclean
  dsimp only at hclean
  rw [hp] at hclean
  exact hclean

theorem Commits.unique {q : Pending} (h : Commits w a p) (h' : Commits w a q) : p = q := by
  obtain ⟨index, rfl, hp, -⟩ := h
  obtain ⟨index', heq, hq, -⟩ := h'
  cases heq
  rw [hp] at hq
  exact Option.some.inj hq

theorem crew_step (hclean : clean w a = true)
    (hnames : ¬ Names w a areaId r) (hr : r ∈ crew (step w a) areaId) : r ∈ crew w areaId := by
  rcases step_cases w a with ⟨pending, hstep⟩ | ⟨p, pending, hcommits, -, -, hstep⟩
  · rw [hstep] at hr
    exact hr
  · rw [hstep] at hr
    rcases mem_crew_of_apply hr with hold | ⟨harea, s, hs, hin⟩
    · exact hold
    · rcases names_or_read hs hin with hnamed | ⟨id, repId, releaseLeads, hrequest, hread⟩
      · exact absurd ⟨p, hcommits, harea.symm, hnamed⟩ hnames
      · have hok := hcommits.clean hclean
        unfold cleanRequest at hok
        rw [hrequest] at hok
        simp only [Bool.and_eq_true, all_eq_true, decide_eq_true_eq] at hok
        have hcrew := hok.1.1 r hread
        rw [harea, hrequest]
        exact hcrew

theorem activeAreas_map_le {areas : List Area} (hnd : (areas.map (·.id)).Nodup) {f : Area → Area}
    (hcap : (areas.countP fun t => counts t.status && decide (r ∈ holders t)) ≤
      maxActiveAreasPerRep)
    (hroom : ∀ t ∈ areas, t.id = areaId → counts (f t).status = true → r ∈ holders (f t) →
      (areas.countP fun t => (counts t.status && decide (r ∈ holders t)) && t.id ≠ areaId) <
        maxActiveAreasPerRep) :
    ((areas.map fun t => if t.id = areaId then f t else t).countP fun t =>
      counts t.status && decide (r ∈ holders t)) ≤ maxActiveAreasPerRep := by
  rw [countP_map]
  have hsplit := countP_eq_countP_filter_add areas
    ((fun t => counts t.status && decide (r ∈ holders t)) ∘
      fun t => if t.id = areaId then f t else t) (fun t : Area => t.id ≠ areaId)
  have hothers : ((areas.filter fun t => t.id ≠ areaId).countP
      ((fun t => counts t.status && decide (r ∈ holders t)) ∘
        fun t => if t.id = areaId then f t else t)) =
      areas.countP fun t => (counts t.status && decide (r ∈ holders t)) && t.id ≠ areaId := by
    rw [countP_filter]
    apply countP_congr
    intro t _
    by_cases hid : t.id = areaId
    · simp [hid]
    · simp [hid]
  have hone : ((areas.filter fun t => !decide (t.id ≠ areaId)).countP
      ((fun t => counts t.status && decide (r ∈ holders t)) ∘
        fun t => if t.id = areaId then f t else t)) ≤ 1 := by
    apply Nat.le_trans countP_le_length
    have hsub : ((areas.filter fun t => !decide (t.id ≠ areaId)).map (·.id)).Nodup :=
      hnd.sublist (filter_sublist.map _)
    have hall : ∀ x ∈ (areas.filter fun t => !decide (t.id ≠ areaId)).map (·.id), x = areaId := by
      intro x hx
      obtain ⟨t, ht, rfl⟩ := mem_map.mp hx
      simpa using (mem_filter.mp ht).2
    have hcount := nodup_iff_count_le_one.mp hsub areaId
    rw [count_eq_length.mpr fun x hx => (hall x hx).symm, length_map] at hcount
    exact hcount
  by_cases hroomy : (areas.countP fun t =>
      (counts t.status && decide (r ∈ holders t)) && t.id ≠ areaId) < maxActiveAreasPerRep
  · omega
  · have hnone : ((areas.filter fun t => !decide (t.id ≠ areaId)).countP
        ((fun t => counts t.status && decide (r ∈ holders t)) ∘
          fun t => if t.id = areaId then f t else t)) = 0 := by
      apply countP_eq_zero.mpr
      intro t ht hcount
      obtain ⟨hmem, hid⟩ := mem_filter.mp ht
      have hid' : t.id = areaId := by simpa using hid
      simp only [Function.comp, hid', if_true, Bool.and_eq_true, decide_eq_true_eq] at hcount
      exact hroomy (hroom t hmem hid' hcount.1 hcount.2)
    have hle : (areas.countP fun t =>
        (counts t.status && decide (r ∈ holders t)) && t.id ≠ areaId) ≤
        areas.countP fun t => counts t.status && decide (r ∈ holders t) := by
      apply countP_mono_left
      intro t _ h
      simp only [Bool.and_eq_true] at h
      simp [h.1]
    omega

/-- A clean transaction that commits has room for every rep of an active crew it writes. -/
theorem room_of_clean (hgo : refused w p = false)
    (hclean : cleanRequest w p = true) (hs : newState p = some s)
    (hr : r ∈ s.repIds) : repAtAreaCap w r p.request.areaId = false := by
  obtain ⟨request, snapshot⟩ := p
  cases request with
  | assign areaId repId inside =>
    cases hs
    rw [mem_singleton.mp hr]
    exact hgo
  | complete areaId => cases hs
  | share areaId repIds =>
    cases hs
    have hin : r ∈ repIds := mem_eraseDups.mp hr
    change repAtAreaCap w r areaId = false
    by_cases hon : r ∈ snapshot.assigneeIds.getD []
    · unfold cleanRequest at hclean
      have hroom := all_eq_true.mp hclean r hin
      simpa [hon] using hroom
    · have hany := any_eq_false.mp hgo r (mem_filter.mpr ⟨hin, by simpa using hon⟩)
      simpa using hany
  | unassign areaId repId releaseLeads =>
    cases hs
    rw [unassignRep_repIds] at hr
    change repAtAreaCap w r areaId = false
    unfold cleanRequest at hclean
    simp only [Bool.and_eq_true] at hclean
    have hroom := all_eq_true.mp hclean.1.2 r hr
    simpa using hroom
  | reclaim areaId mode newRepId =>
    cases hs
    cases mode with
    | keepLeads => exact absurd hr not_mem_nil
    | returnToPool => exact absurd hr not_mem_nil
    | reassign =>
      have htarget : newRepId = some r := Option.mem_toList.mp hr
      unfold refused at hgo
      rw [htarget] at hgo
      exact hgo

structure Sound (w : World) : Prop where
  ids : (w.areas.map (·.id)).Nodup
  capped : Capped w

theorem Sound.apply {w : World} (hw : Sound w) {p : Pending} (hgo : refused w p = false)
    (hclean : cleanRequest w p = true) : Sound (apply w p) := by
  constructor
  · rw [ids_apply]
    exact hw.ids
  · intro r
    unfold activeAreas
    rw [apply_areas]
    apply activeAreas_map_le hw.ids (hw.capped r)
    intro t _ _ hcounts hmem
    cases hs : newState p with
    | none =>
      unfold writeArea at hcounts
      rw [hs] at hcounts
      cases hcounts
    | some s =>
      rw [holders_writeArea hs] at hmem
      exact repAtAreaCap_eq_false.mp (room_of_clean hgo hclean hs hmem)

theorem Sound.pending (hw : Sound w) (pending : List Pending) :
    Sound { w with pending } := ⟨hw.ids, hw.capped⟩

theorem Sound.next (hw : Sound w) (hclean : clean w a = true) : Sound (step w a) := by
  rcases step_cases w a with ⟨pending, hstep⟩ | ⟨p, pending, hcommits, -, -, hstep⟩
  · rw [hstep]
    exact hw.pending pending
  · rw [hstep]
    obtain ⟨_, -, -, hgo⟩ := id hcommits
    exact (hw.pending pending).apply hgo (hcommits.clean hclean)

end HomefrontFiber.AreaCrew
