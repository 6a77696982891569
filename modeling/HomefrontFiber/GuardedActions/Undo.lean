import HomefrontFiber.GuardedActions.Executors

/-!
# An undo restores or refuses

A guarded action that moves doors is executed, other paths write assignments, and the action is
undone. The drift check compares a digest of the rep and of the assignment instant of every target,
so a write that keeps both passes unseen and the reversal overwrites it. The reversal comes before
the move of the row, so when that move fails the doors are back and the caller is told that nothing
was changed. `Undisturbed` leaves exactly these cases out.
-/

namespace HomefrontFiber.GuardedActions

open List

structure AssignmentWrite where
  leadId : Int
  assignment : Assignment
  updatedAt : String

variable {world : LeadWorld} {tenantId : Int} {kind : GuardedActionKind}

namespace LeadWorld

def write (world : LeadWorld) (w : AssignmentWrite) : LeadWorld :=
  { world with
    leads := fun id => (world.leads id).map fun l =>
      if id = w.leadId then { l with assignment := w.assignment, updatedAt := w.updatedAt } else l }

def restore (world : LeadWorld) (tenantId : Int) (updatedAt : String)
    (entries : List ReassignInverse) : LeadWorld :=
  entries.foldl (fun w entry => w.assign tenantId [entry.leadId] entry.assignment updatedAt) world

def SameRows (world world' : LeadWorld) : Prop :=
  ∀ id, (world'.leads id).map (·.tenantId) = (world.leads id).map (·.tenantId)

theorem SameRows.trans {a b c : LeadWorld} (hab : a.SameRows b) (hbc : b.SameRows c) :
    a.SameRows c := fun id => (hbc id).trans (hab id)

theorem sameRows_assign (world : LeadWorld) (tenantId : Int) (ids : List Int)
    (assignment : Assignment) (updatedAt : String) :
    world.SameRows (world.assign tenantId ids assignment updatedAt) := by
  intro id
  unfold assign
  rw [Option.map_map]
  congr 1
  funext l
  dsimp only [Function.comp_apply]
  split <;> rfl

theorem sameRows_write (world : LeadWorld) (w : AssignmentWrite) :
    world.SameRows (world.write w) := by
  intro id
  unfold write
  rw [Option.map_map]
  congr 1
  funext l
  dsimp only [Function.comp_apply]
  split <;> rfl

theorem sameRows_writes (world : LeadWorld) (writes : List AssignmentWrite) :
    world.SameRows (writes.foldl write world) := by
  induction writes generalizing world with
  | nil => exact fun _ => rfl
  | cons w writes ih => exact (world.sameRows_write w).trans (ih _)

variable {l : Lead} {assignment : Assignment} {updatedAt : String}

theorem lead_eq_some_iff {id : Int} :
    world.lead tenantId id = some l ↔ world.leads id = some l ∧ l.tenantId = tenantId := by
  unfold lead
  rw [Option.filter_eq_some_iff]
  simp

theorem SameRows.exists_lead {world' : LeadWorld} (h : world.SameRows world')
    {id : Int} (hl : world.lead tenantId id = some l) :
    ∃ l', world'.lead tenantId id = some l' := by
  obtain ⟨hget, htenant⟩ := lead_eq_some_iff.mp hl
  have hsame := h id
  rw [hget] at hsame
  obtain ⟨l', hget', htenant'⟩ := Option.map_eq_some_iff.mp hsame
  exact ⟨l', lead_eq_some_iff.mpr ⟨hget', htenant'.trans htenant⟩⟩

theorem assign_leads_of_not_mem {ids : List Int} {id : Int} (h : id ∉ ids) :
    (world.assign tenantId ids assignment updatedAt).leads id = world.leads id := by
  unfold assign
  cases hget : world.leads id with
  | none => simp [hget]
  | some l => simp [hget, h]

theorem assign_lead_of_mem {ids : List Int} {id : Int} (h : id ∈ ids)
    (hl : world.lead tenantId id = some l) :
    (world.assign tenantId ids assignment updatedAt).lead tenantId id =
      some { l with assignment, updatedAt } := by
  obtain ⟨hget, htenant⟩ := lead_eq_some_iff.mp hl
  apply lead_eq_some_iff.mpr
  unfold assign
  exact ⟨by simp [hget, h, htenant], htenant⟩

theorem restore_leads_of_not_mem {id : Int}
    {entries : List ReassignInverse} (h : ∀ entry ∈ entries, entry.leadId ≠ id)
    (world : LeadWorld) : (world.restore tenantId updatedAt entries).leads id = world.leads id := by
  induction entries generalizing world with
  | nil => rfl
  | cons entry entries ih =>
    have hne : id ∉ [entry.leadId] := fun hmem =>
      h entry mem_cons_self (mem_singleton.mp hmem).symm
    have htail := ih fun e he => h e (mem_cons_of_mem _ he)
    exact (htail _).trans (assign_leads_of_not_mem hne)

theorem restore_lead {id : Int} {a : Assignment} {entries : List ReassignInverse}
    (hone : ∀ entry ∈ entries, entry.leadId = id → entry.assignment = a)
    (hl : world.lead tenantId id = some l)
    (h : l.assignment = a ∨ ∃ entry ∈ entries, entry.leadId = id) :
    ∃ l', (world.restore tenantId updatedAt entries).lead tenantId id = some l' ∧
      l'.assignment = a := by
  induction entries generalizing world l with
  | nil =>
    rcases h with h | ⟨entry, hmem, -⟩
    · exact ⟨l, hl, h⟩
    · exact absurd hmem not_mem_nil
  | cons entry entries ih =>
    have htail : ∀ e ∈ entries, e.leadId = id → e.assignment = a :=
      fun e he => hone e (mem_cons_of_mem _ he)
    by_cases hid : entry.leadId = id
    · have hmem : id ∈ [entry.leadId] := mem_singleton.mpr hid.symm
      exact ih htail (assign_lead_of_mem hmem hl)
        (Or.inl (hone entry mem_cons_self hid))
    · have hmem : id ∉ [entry.leadId] := fun hmem => hid (mem_singleton.mp hmem).symm
      have hl' : (world.assign tenantId [entry.leadId] entry.assignment updatedAt).lead
          tenantId id = some l := by
        unfold lead
        rw [assign_leads_of_not_mem hmem]
        exact hl
      apply ih htail hl'
      rcases h with h | ⟨e, he, heid⟩
      · exact Or.inl h
      · rcases mem_cons.mp he with rfl | he
        · exact absurd heid hid
        · exact Or.inr ⟨e, he, heid⟩

end LeadWorld

def StoredPayload.leadIds : StoredPayload → List Int
  | .reassign p => [p.leadId]
  | .bulk p => p.leadIds

/-- The entries of an inverse are the assignments of the selected doors before the write. -/
structure Captures (world : LeadWorld) (tenantId : Int) (ids : List Int)
    (entries : List ReassignInverse) : Prop where
  sound : ∀ entry ∈ entries, entry.leadId ∈ ids ∧
    ∃ l, world.lead tenantId entry.leadId = some l ∧ entry.assignment = l.assignment
  complete : ∀ id ∈ ids, ∀ l, world.lead tenantId id = some l →
    ∃ entry ∈ entries, entry.leadId = id

/-- An executor that moves doors captures them first, and its reversal puts them back. -/
def Moves (x : GuardedActionExecutor LeadWorld RawPayload StoredPayload StoredInverse) : Prop :=
  ∀ payload actor now world result world',
    x.execute payload actor now world = (.ok result, world') →
      world.SameRows world' ∧ ∃ inverse, result.inverse = some inverse ∧ ∃ entries,
        Captures world actor.tenantId payload.leadIds entries ∧
        ∀ actor' now' w, ∃ summary, x.reverse inverse actor' now' w =
          (.ok summary, w.restore actor'.tenantId (nowIso now') entries)

theorem moves_leadReassign (sha : String → String) :
    Moves ((leadReassign sha).stored reassignPayloads reassignInverses) := by
  intro payload actor now world result world' h
  cases payload with
  | bulk p => cases congrArg Prod.fst h
  | reassign p =>
    change (Except.map _ ((leadReassign sha).execute p actor now world).1,
      ((leadReassign sha).execute p actor now world).2) = _ at h
    unfold leadReassign at h
    dsimp only at h
    cases hlead : world.lead actor.tenantId p.leadId with
    | none =>
      rw [hlead] at h
      cases congrArg Prod.fst h
    | some before =>
      rw [hlead] at h
      cases h
      refine ⟨world.sameRows_assign _ _ _ _, _, rfl,
        [{ leadId := p.leadId, assignment := before.assignment }], ?_, ?_⟩
      · constructor
        · intro entry hentry
          rw [mem_singleton.mp hentry]
          exact ⟨mem_cons_self, before, hlead, rfl⟩
        · intro id hid l _
          exact ⟨_, mem_cons_self, (mem_singleton.mp hid).symm⟩
      · exact fun actor' now' w => ⟨_, rfl⟩

theorem mem_selection {ids : List Int} {r : Int × Lead} :
    r ∈ world.selection tenantId ids ↔ r.1 ∈ ids ∧ world.lead tenantId r.1 = some r.2 := by
  unfold LeadWorld.selection
  rw [mem_filterMap]
  constructor
  · rintro ⟨id, hid, hr⟩
    obtain ⟨l, hl, rfl⟩ := Option.map_eq_some_iff.mp hr
    rw [mem_mergeSort, mem_dedup] at hid
    exact ⟨hid, hl⟩
  · rintro ⟨hid, hl⟩
    refine ⟨r.1, ?_, ?_⟩
    · rw [mem_mergeSort, mem_dedup]
      exact hid
    · rw [hl]
      rfl

theorem moves_leadBulkAssign (sha : String → String) :
    Moves ((leadBulkAssign sha).stored bulkPayloads bulkInverses) := by
  intro payload actor now world result world' h
  cases payload with
  | reassign p => cases congrArg Prod.fst h
  | bulk p =>
    cases h
    refine ⟨world.sameRows_assign _ _ _ _, _, rfl,
      (world.selection actor.tenantId p.leadIds).map fun r =>
        { leadId := r.1, assignment := r.2.assignment }, ?_, ?_⟩
    · constructor
      · intro entry hentry
        obtain ⟨r, hr, rfl⟩ := mem_map.mp hentry
        obtain ⟨hid, hl⟩ := mem_selection.mp hr
        exact ⟨hid, r.2, hl, rfl⟩
      · intro id hid l hl
        have hmem : (id, l) ∈ world.selection actor.tenantId p.leadIds :=
          mem_selection.mpr ⟨hid, hl⟩
        exact ⟨_, mem_map_of_mem hmem, rfl⟩
    · exact fun actor' now' w => ⟨_, rfl⟩

theorem moves_of_executorFor {sha : String → String} {can : Option String → Capability → Bool}
    {x : GuardedActionExecutor LeadWorld RawPayload StoredPayload StoredInverse}
    (h : (leadEngine sha can).executors kind = some x) : Moves x := by
  cases kind with
  | leadReassign =>
    cases h
    exact moves_leadReassign sha
  | leadBulkAssign =>
    cases h
    exact moves_leadBulkAssign sha
  | recoveryCaseAssign => cases h
  | contactSuppressionLift => cases h

/-- An approved action that is executed, what other paths do to the leads and the roster, and an
undo of it. -/
structure GuardedUndo where
  server : Server LeadWorld StoredPayload StoredInverse
  action : GuardedActionRow StoredPayload StoredInverse
  stored : server.getAction action.tenantId action.id = some action
  approved : action.state = .approved
  approver : User
  policy : GatePolicy
  writes : List AssignmentWrite
  members : Int → Option TeamMember
  now : Int
  undoer : User
  reason : Option String
  fault : Option Engine.UndoFault

namespace GuardedUndo

variable (sha : String → String) (can : Option String → Capability → Bool) (u : GuardedUndo)

def executed : Server LeadWorld StoredPayload StoredInverse :=
  (leadEngine sha can).runExecution u.server u.action (actorOf u.approver u.action.tenantId)
    u.policy

def later : Server LeadWorld StoredPayload StoredInverse :=
  { u.executed sha can with
    world := { (u.writes.foldl LeadWorld.write (u.executed sha can).world) with
      members := u.members }
    now := u.now }

def actor : ActorContext := actorOf u.undoer u.action.tenantId

def undone : Except Failure (Option (GuardedActionRow StoredPayload StoredInverse)) ×
    Server LeadWorld StoredPayload StoredInverse :=
  (leadEngine sha can).undoAction (u.later sha can) u.fault u.action.id u.actor u.reason

def Targeted (id : Int) : Prop :=
  id ∈ u.action.payload.leadIds ∧ ∃ l, u.server.world.lead u.action.tenantId id = some l

/-- The undo puts every targeted door back as it was before the execution, touches no other and
comes only when no targeted door was assigned since; or it refuses and changes no door. After it,
every further undo of the action refuses. -/
structure RestoresOrRefuses : Prop where
  restored : ∀ row, (u.undone sha can).1 = .ok row → ∀ id ∈ u.action.payload.leadIds,
    ∀ l, u.server.world.lead u.action.tenantId id = some l →
      ∃ l', (u.undone sha can).2.world.lead u.action.tenantId id = some l' ∧
        l'.assignment = l.assignment
  untouched : ∀ row, (u.undone sha can).1 = .ok row → ∀ id, ¬ u.Targeted id →
    (u.undone sha can).2.world.leads id = (u.later sha can).world.leads id
  unwritten : ∀ row, (u.undone sha can).1 = .ok row → ∀ w ∈ u.writes, ¬ u.Targeted w.leadId
  refused : ∀ failure, (u.undone sha can).1 = .error failure →
    (u.undone sha can).2.world.leads = (u.later sha can).world.leads
  once : ∀ row, (u.undone sha can).1 = .ok row → ∀ (user : User) (reason : Option String)
    (fault : Option Engine.UndoFault) (world : LeadWorld) (now : Int), ∃ failure,
      (leadEngine sha can).undoAction { (u.undone sha can).2 with world, now } fault u.action.id
        (actorOf user u.action.tenantId) reason =
          (.error failure, { (u.undone sha can).2 with world, now })

/-- Whenever the undo gets as far as the reversal, no targeted door was assigned since the
execution; and where the storage then fails the move of the row, the reversal changes nothing. -/
def Undisturbed : Prop :=
  ∀ row executor inverse, (u.later sha can).getAction u.action.tenantId u.action.id = some row →
    row.record.inverse = some inverse → (leadEngine sha can).executorFor row.kind = .ok executor →
    (leadEngine sha can).Undoable (u.later sha can) row executor u.actor →
      match u.fault with
      | none => ∀ w ∈ u.writes, ¬ u.Targeted w.leadId
      | some .reversal => True
      | some .transition =>
        (executor.reverse inverse u.actor u.now (u.later sha can).world).2.leads =
          (u.later sha can).world.leads

variable {sha can u}

theorem executorFor_ok {x : GuardedActionExecutor LeadWorld RawPayload StoredPayload StoredInverse}
    (h : (leadEngine sha can).executorFor kind = .ok x) :
    (leadEngine sha can).executors kind = some x := by
  unfold Engine.executorFor at h
  split at h
  · cases h
    assumption
  · cases h

variable {s : Server LeadWorld StoredPayload StoredInverse}
  {action : GuardedActionRow StoredPayload StoredInverse} {fault : Option Engine.UndoFault}
  {reason : Option String}

theorem perform_ok {x : GuardedActionExecutor LeadWorld RawPayload StoredPayload StoredInverse}
    {actor : ActorContext} {result : ExecutorResult StoredInverse}
    (h : (Engine.perform s x action actor).1 = .ok result) :
    x.execute action.payload actor s.now s.world =
      (.ok result, (Engine.perform s x action actor).2.world) := by
  unfold Engine.perform at h ⊢
  cases hpre : x.preflight action.payload actor s.world with
  | error failure =>
    rw [hpre] at h
    cases h
  | ok _ =>
    rw [hpre] at h
    exact Prod.ext h rfl

theorem perform_getAction
    {x : GuardedActionExecutor LeadWorld RawPayload StoredPayload StoredInverse}
    {actor : ActorContext} (tenantId : Int)
    (id : Nat) : (Engine.perform s x action actor).2.getAction tenantId id =
      s.getAction tenantId id := by
  unfold Engine.perform
  split <;> rfl

/-- When the undo finds its row executed, the inverse it finds was captured by the execution. -/
theorem captured {row : GuardedActionRow StoredPayload StoredInverse}
    {x : GuardedActionExecutor LeadWorld RawPayload StoredPayload StoredInverse}
    {inverse : StoredInverse}
    (hget : (u.later sha can).getAction u.action.tenantId u.action.id = some row)
    (hinv : row.record.inverse = some inverse)
    (hx : (leadEngine sha can).executorFor row.kind = .ok x) (hstate : row.state = .executed) :
    row.id = u.action.id ∧ u.server.world.SameRows (u.later sha can).world ∧ ∃ entries,
      Captures u.server.world u.action.tenantId u.action.payload.leadIds entries ∧
        ∀ actor' now' w, ∃ summary, x.reverse inverse actor' now' w =
          (.ok summary, w.restore actor'.tenantId (nowIso now') entries) := by
  have hrow : (u.executed sha can).getAction u.action.tenantId u.action.id = some row := hget
  have hid := (Server.mem_of_getAction hrow).2.2
  unfold executed Engine.runExecution at hrow
  cases hex : (leadEngine sha can).executors u.action.kind with
  | none =>
    rw [hex] at hrow
    cases u.stored.symm.trans hrow
    exact absurd (u.approved.symm.trans hstate) GuardedActionState.noConfusion
  | some y =>
    rw [hex] at hrow
    dsimp only at hrow
    have hbefore : (Engine.perform u.server y u.action
        (actorOf u.approver u.action.tenantId)).2.getAction u.action.tenantId u.action.id =
          some u.action := (perform_getAction _ _).trans u.stored
    cases hresult : (Engine.perform u.server y u.action
        (actorOf u.approver u.action.tenantId)).1 with
    | error failure =>
      rw [hresult] at hrow
      have hfailed := hrow.symm.trans (Server.getAction_transition hbefore)
      rw [if_pos u.approved] at hfailed
      cases hfailed
      cases hstate
    | ok result =>
      rw [hresult] at hrow
      have hdone := hrow.symm.trans (Server.getAction_transition hbefore)
      rw [if_pos u.approved] at hdone
      cases hdone
      have hxy : x = y := Option.some.inj ((executorFor_ok hx).symm.trans hex)
      subst hxy
      obtain ⟨hrows, i, hi, entries, hentries, hreverse⟩ :=
        moves_of_executorFor hex _ _ _ _ _ _ (perform_ok hresult)
      have hii : i = inverse := Option.some.inj (hi.symm.trans hinv)
      subst hii
      refine ⟨rfl, ?_, entries, hentries, hreverse⟩
      have hworld : (u.executed sha can).world = (Engine.perform u.server x u.action
          (actorOf u.approver u.action.tenantId)).2.world := by
        unfold executed Engine.runExecution
        rw [hex]
        dsimp only
        rw [hresult]
        rfl
      apply hrows.trans
      rw [← hworld]
      exact (u.executed sha can).world.sameRows_writes u.writes

theorem undoAction_refused {id : Nat} {actor : ActorContext}
    {failure : Failure} (h : (leadEngine sha can).checkUndo s id actor = .error failure) :
    (leadEngine sha can).undoAction s fault id actor reason = (.error failure, s) := by
  unfold Engine.undoAction
  rw [h]

theorem undoAction_of_state {id : Nat} {actor : ActorContext}
    {row : GuardedActionRow StoredPayload StoredInverse}
    (hget : s.getAction actor.tenantId id = some row) (hstate : row.state ≠ .executed) :
    ∃ failure, (leadEngine sha can).undoAction s fault id actor reason = (.error failure, s) := by
  cases hcheck : (leadEngine sha can).checkUndo s id actor with
  | error failure => exact ⟨failure, undoAction_refused hcheck⟩
  | ok found =>
    obtain ⟨hfound, -, -, hundoable⟩ := Engine.checkUndo_ok_iff.mp hcheck
    cases hget.symm.trans hfound
    exact absurd hundoable.executed.2 hstate

theorem restoresOrRefuses_of_error {failure : Failure}
    (h : u.undone sha can = (.error failure, s)) :
    u.RestoresOrRefuses sha can ↔ s.world.leads = (u.later sha can).world.leads := by
  have hno : ∀ row, (u.undone sha can).1 ≠ .ok row := by
    intro row hrow
    rw [h] at hrow
    cases hrow
  constructor
  · intro hclaim
    have hsame := hclaim.refused failure (by rw [h])
    rw [h] at hsame
    exact hsame
  · intro hsame
    constructor
    · exact fun row hrow => absurd hrow (hno row)
    · exact fun row hrow => absurd hrow (hno row)
    · exact fun row hrow => absurd hrow (hno row)
    · intro _ _
      rw [h]
      exact hsame
    · exact fun row hrow => absurd hrow (hno row)

/-- An undo that gets as far as the reversal, with what its execution captured. -/
structure Reached (u : GuardedUndo) (sha : String → String)
    (can : Option String → Capability → Bool)
    (row : GuardedActionRow StoredPayload StoredInverse)
    (x : GuardedActionExecutor LeadWorld RawPayload StoredPayload StoredInverse)
    (inverse : StoredInverse) (entries : List ReassignInverse) : Prop where
  check : (leadEngine sha can).checkUndo (u.later sha can) u.action.id u.actor =
    .ok (row, x, inverse)
  found : (u.later sha can).getAction u.action.tenantId u.action.id = some row
  state : row.state = .executed
  id : row.id = u.action.id
  rows : u.server.world.SameRows (u.later sha can).world
  captures : Captures u.server.world u.action.tenantId u.action.payload.leadIds entries
  reverse : ∃ summary, x.reverse inverse u.actor (u.later sha can).now (u.later sha can).world =
    (.ok summary, (u.later sha can).world.restore u.action.tenantId (nowIso u.now) entries)

theorem reached_of_check {row : GuardedActionRow StoredPayload StoredInverse}
    {x : GuardedActionExecutor LeadWorld RawPayload StoredPayload StoredInverse}
    {inverse : StoredInverse}
    (h : (leadEngine sha can).checkUndo (u.later sha can) u.action.id u.actor =
      .ok (row, x, inverse)) : ∃ entries, Reached u sha can row x inverse entries := by
  obtain ⟨hget, hinv, hx, hundoable⟩ := Engine.checkUndo_ok_iff.mp h
  obtain ⟨hid, hrows, entries, hentries, hreverse⟩ :=
    captured hget hinv hx hundoable.executed.2
  exact ⟨entries, h, hget, hundoable.executed.2, hid, hrows, hentries, hreverse _ _ _⟩

def reversed (u : GuardedUndo) (sha : String → String)
    (can : Option String → Capability → Bool) (entries : List ReassignInverse) :
    Server LeadWorld StoredPayload StoredInverse :=
  { u.later sha can with
    world := (u.later sha can).world.restore u.action.tenantId (nowIso u.now) entries }

section

variable {row : GuardedActionRow StoredPayload StoredInverse}
  {x : GuardedActionExecutor LeadWorld RawPayload StoredPayload StoredInverse}
  {inverse : StoredInverse} {entries : List ReassignInverse}

theorem Reached.undone_reversal (h : Reached u sha can row x inverse entries)
    (hfault : u.fault = some .reversal) :
    u.undone sha can = (.error Engine.undoFailed, u.later sha can) := by
  unfold undone Engine.undoAction
  rw [h.check]
  dsimp only
  rw [if_pos hfault]

theorem Reached.undone_transition (h : Reached u sha can row x inverse entries)
    (hfault : u.fault = some .transition) :
    u.undone sha can = (.error Engine.undoFailed, u.reversed sha can entries) := by
  obtain ⟨summary, hreverse⟩ := h.reverse
  have hne : u.fault ≠ some .reversal := by
    rw [hfault]
    decide
  unfold undone Engine.undoAction
  rw [h.check]
  dsimp only
  rw [if_neg hne]
  rw [hreverse]
  dsimp only
  rw [if_pos hfault]
  rfl

theorem matching_of_getAction
    {id : Nat} {st : GuardedActionState} (hget : s.getAction tenantId id = some row)
    (hstate : row.state = st) : ∃ r, s.matching tenantId id st = some r := by
  obtain ⟨hmem, htenant, hid⟩ := Server.mem_of_getAction hget
  apply Option.isSome_iff_exists.mp
  unfold Server.matching
  rw [find?_isSome]
  exact ⟨row, hmem, decide_eq_true ⟨htenant, hid, hstate⟩⟩

theorem Reached.undone_none (h : Reached u sha can row x inverse entries)
    (hfault : u.fault = none) : ∃ answer, u.undone sha can =
      (.ok answer, Engine.recordUndo (u.reversed sha can entries) u.actor u.action.id u.reason) := by
  obtain ⟨summary, hreverse⟩ := h.reverse
  obtain ⟨r, hmatching⟩ := matching_of_getAction h.found h.state
  have hmatching' : (u.later sha can).matching u.actor.tenantId row.id .executed = some r := by
    rw [h.id]
    exact hmatching
  unfold undone Engine.undoAction
  rw [h.check]
  dsimp only
  rw [if_neg (by simp [hfault])]
  rw [hreverse]
  dsimp only
  rw [if_neg (by simp [hfault])]
  rw [hmatching', h.id]
  exact ⟨_, rfl⟩

theorem Reached.restored (h : Reached u sha can row x inverse entries) :
    (∀ id ∈ u.action.payload.leadIds, ∀ l,
      u.server.world.lead u.action.tenantId id = some l →
        ∃ l', (u.reversed sha can entries).world.lead u.action.tenantId id = some l' ∧
          l'.assignment = l.assignment) ∧
    ∀ id, ¬ u.Targeted id →
      (u.reversed sha can entries).world.leads id = (u.later sha can).world.leads id := by
  constructor
  · intro id hid l hl
    obtain ⟨entry, hentry, heid⟩ := h.captures.complete id hid l hl
    obtain ⟨l', hl'⟩ := h.rows.exists_lead hl
    apply LeadWorld.restore_lead _ hl' (Or.inr ⟨entry, hentry, heid⟩)
    intro e he heid
    obtain ⟨-, before, hbefore, hassignment⟩ := h.captures.sound e he
    rw [heid] at hbefore
    cases hl.symm.trans hbefore
    exact hassignment
  · intro id hid
    apply LeadWorld.restore_leads_of_not_mem
    intro entry hentry heid
    obtain ⟨hmem, before, hbefore, -⟩ := h.captures.sound entry hentry
    rw [heid] at hmem hbefore
    exact hid ⟨hmem, before, hbefore⟩

end

def releaseAction : GuardedActionRow StoredPayload StoredInverse where
  id := 1
  tenantId := 1
  kind := .leadReassign
  payload := .reassign { leadId := 7, toRepId := none }
  magnitude := 1
  targetLabel := some "12 Oak St, Reno to nobody"
  requestedByUserId := some 5
  requestedByName := some "Ada"
  requestedAt := 0
  requestReason := none
  gateOutcome := .execute
  gateReason := "Within this organization's automatic limits."
  policySnapshot := defaultPolicy .leadReassign
  idempotencyKey := none
  expiresAt := none
  state := .approved
  record := .blank

/-- A door is released from its rep; half a minute later its whole territory is released, which
clears where the assignment came from and keeps its instant; then the release is undone. -/
def quietRelease : GuardedUndo where
  server := {
    enabled := true
    world := {
      leads := fun id => if id = 7 then some {
        tenantId := 1
        address := "12 Oak St"
        city := "Reno"
        assignment := {
          repId := some 3
          source := some "import"
          assignedBy := some "Mona"
          assignedAt := some "2026-01-01T00:00:00.000Z" }
        updatedAt := "2026-01-01T00:00:00.000Z" } else none
      members := fun _ => none }
    rows := [releaseAction]
    policies := fun _ _ => none
    now := 0 }
  action := releaseAction
  stored := rfl
  approved := rfl
  approver := { id := 5, name := some "Ada", role := some "manager" }
  policy := defaultPolicy .leadReassign
  writes := [{
    leadId := 7
    assignment := {
      repId := none
      source := none
      assignedBy := some "Ada"
      assignedAt := some (nowIso 0) }
    updatedAt := nowIso 30000 }]
  members := fun _ => none
  now := 60000
  undoer := { id := 5, name := some "Ada", role := some "manager" }
  reason := none
  fault := none

end GuardedUndo

end HomefrontFiber.GuardedActions
