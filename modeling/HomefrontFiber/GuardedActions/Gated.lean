import Mathlib.Data.List.Induction
import HomefrontFiber.Foundation.Runs
import HomefrontFiber.GuardedActions.Engine

/-!
# A guarded action runs at most once and never below its gate

Any number of processes call the engine. A call is a chain of tasks, one for each block that no
other write can split, and the tasks of all calls go on in any order; a task that is dropped is a
crash. A pending row holds no licence to run; leaving `pending` for `approved`, or being created
`approved`, gives out one, which the executor consumes.
-/

namespace HomefrontFiber.GuardedActions

open List

inductive Task (P I : Type) where
  | create (input : CreateActionInput P) (actor : ActorContext) (stored : Option PolicyRow)
  | approve (action : GuardedActionRow P I) (actor : ActorContext) (note : Option String)
  | reject (action : GuardedActionRow P I) (actor : ActorContext) (note : Option String)
  | run (action : GuardedActionRow P I) (actor : ActorContext) (policy : GatePolicy)
  | record (action : GuardedActionRow P I) (actor : ActorContext) (policy : GatePolicy)
      (result : Except Failure (ExecutorResult I))
  | reverse (action : GuardedActionRow P I) (actor : ActorContext) (inverse : I)
      (reason : Option String)
  | undone (action : GuardedActionRow P I) (actor : ActorContext) (reason : Option String)
  | expire (action : GuardedActionRow P I)

structure Submission where
  id : Nat
  kind : GuardedActionKind
  stored : Option PolicyRow
  magnitude : Int

structure Approval (P I : Type) where
  before : GuardedActionRow P I
  actor : ActorContext
  decidedAt : Int

structure Call where
  id : Nat
  kind : GuardedActionKind

structure Machine (W P I : Type) where
  server : Server W P I
  tasks : List (Task P I)
  submissions : List Submission
  approvals : List (Approval P I)
  executions : List Call
  reversals : List Call

inductive GateAction (W R P I : Type) where
  | submit (user : User) (tenantId : Int) (kind : GuardedActionKind) (payload : R)
      (reason idempotencyKey : Option String)
  | approve (user : User) (tenantId : Int) (actionId : Nat) (note : Option String)
  | reject (user : User) (tenantId : Int) (actionId : Nat) (note : Option String)
  | undo (user : User) (tenantId : Int) (actionId : Nat) (reason : Option String)
  | sweepExpiredActions (limit : Nat)
  | proceed (i : Nat)
  | crash (i : Nat)
  | savePolicy (tenantId : Int) (input : PolicyInput)
  /-- A row of an earlier deploy, or one that is gone. -/
  | storePolicy (tenantId : Int) (kind : GuardedActionKind) (row : Option PolicyRow)
  /-- Any other write to the tables of the domain. -/
  | elsewhere (world : W)
  | clock (now : Int)
  | deploy (enabled : Bool)

variable {W R P I : Type}

namespace Machine

variable (e : Engine W R P I) (m : Machine W P I)

def start (enabled : Bool) (world : W)
    (policies : Int → GuardedActionKind → Option PolicyRow) (now : Int) : Machine W P I where
  server := { enabled, world, rows := [], policies, now }
  tasks := []
  submissions := []
  approvals := []
  executions := []
  reversals := []

def push (task : Task P I) : Machine W P I := { m with tasks := m.tasks ++ [task] }

/-- The insert of a submit, which goes on to run the action when the gate let it through. -/
def workCreate (input : CreateActionInput P) (actor : ActorContext) (stored : Option PolicyRow) :
    Machine W P I :=
  if m.server.keyTaken input then m
  else
    let (server, row) := m.server.createAction input
    let m := { m with
      server
      submissions := m.submissions ++
        [{ id := row.id, kind := row.kind, stored, magnitude := input.magnitude }] }
    if row.state = .approved then m.push (.run row actor input.policy) else m

/-- The rest of `approveAction`: the deadline, and the move that only one approver wins. -/
def workApprove (action : GuardedActionRow P I) (actor : ActorContext) (note : Option String) :
    Machine W P I :=
  if action.expiresAt.any (· ≤ m.server.now) then
    { m with server := Engine.expire m.server action }
  else match m.server.matching actor.tenantId action.id .pending with
    | none => m
    | some before =>
      let server := m.server.transition actor.tenantId action.id .pending .approved
        (Engine.decided actor note m.server.now)
      let m := { m with
        server
        approvals := m.approvals ++ [{ before, actor, decidedAt := m.server.now }] }
      match server.getAction actor.tenantId action.id with
      | none => m
      | some fresh => m.push (.run fresh actor (snapshotPolicy action.toActionRequest))

def workRun (action : GuardedActionRow P I) (actor : ActorContext) (policy : GatePolicy) :
    Machine W P I :=
  match e.executors action.kind with
  | none => m
  | some executor =>
    let (result, server) := Engine.perform m.server executor action actor
    let executions := match executor.preflight action.payload actor m.server.world with
      | .error _ => m.executions
      | .ok () => m.executions ++ [{ id := action.id, kind := action.kind }]
    { m with server, executions }.push (.record action actor policy result)

def workRecord (action : GuardedActionRow P I) (actor : ActorContext) (policy : GatePolicy)
    (result : Except Failure (ExecutorResult I)) : Machine W P I :=
  match e.executors action.kind with
  | none => m
  | some executor =>
    { m with server := Engine.recordExecution m.server executor action actor policy result }

def workReverse (action : GuardedActionRow P I) (actor : ActorContext) (inverse : I)
    (reason : Option String) : Machine W P I :=
  match e.executors action.kind with
  | none => m
  | some executor =>
    let (result, world) := executor.reverse inverse actor m.server.now m.server.world
    let m := { m with
      server := { m.server with world }
      reversals := m.reversals ++ [{ id := action.id, kind := action.kind }] }
    match result with
    | .error _ => m
    | .ok _ => m.push (.undone action actor reason)

def workReject (action : GuardedActionRow P I) (actor : ActorContext) (note : Option String) :
    Machine W P I :=
  { m with
    server := m.server.transition actor.tenantId action.id .pending .rejected
      (Engine.decided actor note m.server.now) }

def work : Task P I → Machine W P I
  | .create input actor stored => m.workCreate input actor stored
  | .approve action actor note => m.workApprove action actor note
  | .reject action actor note => m.workReject action actor note
  | .run action actor policy => m.workRun e action actor policy
  | .record action actor policy result => m.workRecord e action actor policy result
  | .reverse action actor inverse reason => m.workReverse e action actor inverse reason
  | .undone action actor reason =>
    { m with server := Engine.recordUndo m.server actor action.id reason }
  | .expire action => { m with server := Engine.expire m.server action }

def step : GateAction W R P I → Machine W P I
  | .submit user tenantId kind payload reason idempotencyKey =>
    let actor := actorOf user tenantId
    match e.judgeSubmit m.server { kind, payload, actor, reason, idempotencyKey } with
    | .ok (.create input) => m.push (.create input actor (m.server.policies tenantId kind))
    | .ok (.answer _) | .error _ => m
  | .approve user tenantId actionId note =>
    match e.checkApproval m.server actionId (actorOf user tenantId) with
    | .ok action => m.push (.approve action (actorOf user tenantId) note)
    | .error _ => m
  | .reject user tenantId actionId note =>
    match e.checkRejection m.server actionId (actorOf user tenantId) with
    | .ok action => m.push (.reject action (actorOf user tenantId) note)
    | .error _ => m
  | .undo user tenantId actionId reason =>
    match e.checkUndo m.server actionId (actorOf user tenantId) with
    | .ok (action, _, inverse) => m.push (.reverse action (actorOf user tenantId) inverse reason)
    | .error _ => m
  | .sweepExpiredActions limit =>
    { m with tasks := m.tasks ++ (m.server.findExpirable limit).map .expire }
  | .proceed i =>
    match m.tasks[i]? with
    | none => m
    | some task => { m with tasks := m.tasks.eraseIdx i }.work e task
  | .crash i => { m with tasks := m.tasks.eraseIdx i }
  | .savePolicy tenantId input => { m with server := m.server.savePolicy tenantId input }
  | .storePolicy tenantId kind row => { m with server := m.server.setPolicyRow tenantId kind row }
  | .elsewhere world => { m with server := { m.server with world } }
  | .clock now => { m with server := { m.server with now } }
  | .deploy enabled => { m with server := { m.server with enabled } }

end Machine

/-- The gate let the action through at submit, under the clamped policy. -/
def Submission.AutoExecutes (sub : Submission) : Prop :=
  (decideGate sub.kind (effectivePolicy sub.kind sub.stored) sub.magnitude).outcome = .execute

/-- A second person who may approve moved the row from pending before its deadline. -/
structure Approval.Lawful (e : Engine W R P I) (a : Approval P I) : Prop where
  pending : a.before.state = .pending
  capable : e.can a.actor.role (guardedActionSpec a.before.kind).approveCapability = true
  before_expiry : ∃ deadline, a.before.expiresAt = some deadline ∧ a.decidedAt < deadline
  second : (snapshotPolicy a.before.toActionRequest).selfApproval = true ∨
    a.before.requestedByUserId ≠ a.actor.userId

namespace Machine

variable (e : Engine W R P I) (m : Machine W P I)

def AutoExecuted (id : Nat) (kind : GuardedActionKind) : Prop :=
  ∃ sub ∈ m.submissions, sub.id = id ∧ sub.kind = kind ∧ sub.AutoExecutes

def Approved (id : Nat) (kind : GuardedActionKind) : Prop :=
  ∃ a ∈ m.approvals, a.before.id = id ∧ a.before.kind = kind ∧ a.Lawful e

/-- Every executor was called at most once for an action and not below the gate; lifting a
suppression was never let through at submit, and was never reversed. -/
structure RunsOnceGated : Prop where
  once : ∀ id, m.executions.countP (·.id = id) ≤ 1
  gated : ∀ x ∈ m.executions, m.AutoExecuted x.id x.kind ∨ m.Approved e x.id x.kind
  lift_waits : ∀ x ∈ m.executions, x.kind = .contactSuppressionLift →
    ¬ m.AutoExecuted x.id x.kind ∧ m.Approved e x.id x.kind
  lift_kept : (∀ x ∈ m.reversals, x.kind ≠ .contactSuppressionLift) ∧
    ∀ r ∈ m.server.rows, r.kind = .contactSuppressionLift → r.state ≠ .undone

end Machine

def Task.isRun (id : Nat) : Task P I → Bool
  | .run action _ _ => decide (action.id = id)
  | .create .. | .approve .. | .reject .. | .record .. | .reverse .. | .undone .. | .expire .. =>
    false

namespace Machine

section

variable (e : Engine W R P I) (m : Machine W P I)

/-- The calls of an executor for an action, made and still to be made. -/
def licences (id : Nat) : Nat :=
  m.tasks.countP (Task.isRun id) + m.executions.countP (·.id = id)

def Justified (action : ActionRequest P) : Prop :=
  m.AutoExecuted action.id action.kind ∨ m.Approved e action.id action.kind

/-- The row that the call has read is still in the table, whatever its state. -/
def Known (action : ActionRequest P) : Prop :=
  ∃ r ∈ m.server.rows, r.toActionRequest = action

def Reversible (kind : GuardedActionKind) : Prop :=
  (guardedActionSpec kind).reversibility = .reversible

/-- What the checks of a call have established for the task they left. -/
def TaskOk : Task P I → Prop
  | .create input _ stored => input.policy = effectivePolicy input.kind stored ∧
      input.state =
        Engine.createdState (decideGate input.kind input.policy input.magnitude).outcome ∧
      (input.state = .pending → input.expiresAt.isSome = true)
  | .approve action actor _ => m.Known action.toActionRequest ∧
      e.can actor.role (guardedActionSpec action.kind).approveCapability = true ∧
      ((snapshotPolicy action.toActionRequest).selfApproval = true ∨
        action.requestedByUserId ≠ actor.userId)
  | .run action _ _ => m.Justified e action.toActionRequest
  | .reverse action _ _ _ | .undone action _ _ =>
    m.Known action.toActionRequest ∧ Reversible action.kind
  | .reject .. | .record .. | .expire .. => True

structure Gated : Prop where
  numbered : Numbered (·.id) m.server.rows
  single : ∀ id, m.licences id ≤ 1
  licensed : ∀ id, 0 < m.licences id → ∃ r ∈ m.server.rows, r.id = id ∧ r.state ≠ .pending
  tasks : ∀ t ∈ m.tasks, m.TaskOk e t
  executions : ∀ x ∈ m.executions, m.AutoExecuted x.id x.kind ∨ m.Approved e x.id x.kind
  submissions : ∀ sub ∈ m.submissions, sub.AutoExecutes →
    (guardedActionSpec sub.kind).floor = .auto
  deadlines : ∀ r ∈ m.server.rows, r.state = .pending → r.expiresAt.isSome = true
  undone : ∀ r ∈ m.server.rows, r.state = .undone → Reversible r.kind
  reversals : ∀ x ∈ m.reversals, Reversible x.kind

end

variable {e : Engine W R P I} {m : Machine W P I}

theorem gated_start (enabled : Bool) (world : W)
    (policies : Int → GuardedActionKind → Option PolicyRow) (now : Int) :
    Gated e (start enabled world policies now : Machine W P I) where
  numbered := Numbered.nil
  single _ := Nat.zero_le 1
  licensed _ h := absurd h (Nat.lt_irrefl 0)
  tasks _ ht := absurd ht not_mem_nil
  executions _ hx := absurd hx not_mem_nil
  submissions _ hsub := absurd hsub not_mem_nil
  deadlines _ hr := absurd hr not_mem_nil
  undone _ hr := absurd hr not_mem_nil
  reversals _ hx := absurd hx not_mem_nil

/-- A later machine: rows keep their requests and do not come back to pending, and the logs grow. -/
structure Later (m m' : Machine W P I) : Prop where
  rows : ∀ r ∈ m.server.rows, ∃ r' ∈ m'.server.rows, r'.toActionRequest = r.toActionRequest ∧
    (r.state ≠ .pending → r'.state ≠ .pending)
  submissions : ∀ sub ∈ m.submissions, sub ∈ m'.submissions
  approvals : ∀ a ∈ m.approvals, a ∈ m'.approvals

variable {m' : Machine W P I} {kind : GuardedActionKind} {tenantId : Int} {st : GuardedActionState}
  {patch : ActionRecord I → ActionRecord I} {task : Task P I} {i : Nat}
  {action : GuardedActionRow P I} {note : Option String} {x : Call}

theorem later_of_rows (hrows : m'.server.rows = m.server.rows)
    (hsub : m'.submissions = m.submissions) (happ : m'.approvals = m.approvals) : Later m m' where
  rows r hr := ⟨r, hrows ▸ hr, rfl, id⟩
  submissions _ h := hsub ▸ h
  approvals _ h := happ ▸ h

theorem AutoExecuted.later (hl : Later m m') {id : Nat}
    (h : m.AutoExecuted id kind) : m'.AutoExecuted id kind := by
  obtain ⟨sub, hmem, hsub⟩ := h
  exact ⟨sub, hl.submissions sub hmem, hsub⟩

theorem Approved.later (hl : Later m m') {id : Nat}
    (h : m.Approved e id kind) : m'.Approved e id kind := by
  obtain ⟨a, hmem, ha⟩ := h
  exact ⟨a, hl.approvals a hmem, ha⟩

theorem Known.later (hl : Later m m') {action : ActionRequest P}
    (h : m.Known action) : m'.Known action := by
  obtain ⟨r, hmem, rfl⟩ := h
  obtain ⟨r', hmem', hreq, -⟩ := hl.rows r hmem
  exact ⟨r', hmem', hreq⟩

theorem TaskOk.later (hl : Later m m') {t : Task P I} (h : m.TaskOk e t) : m'.TaskOk e t := by
  cases t with
  | create input actor stored => exact h
  | approve action actor note => exact ⟨h.1.later hl, h.2⟩
  | reject action actor note => trivial
  | run action actor policy =>
    rcases h with h | h
    · exact .inl (h.later hl)
    · exact .inr (h.later hl)
  | record action actor policy result => trivial
  | reverse action actor inverse reason => exact ⟨h.1.later hl, h.2⟩
  | undone action actor reason => exact ⟨h.1.later hl, h.2⟩
  | expire action => trivial

/-- A step that gives out no licence and calls no executor keeps the invariant, when the rows and
the new submissions and reversals are in order. -/
theorem Gated.later (h : Gated e m) (hl : Later m m')
    (htasks : m'.tasks = m.tasks) (hexec : m'.executions = m.executions)
    (hnumbered : Numbered (·.id) m'.server.rows)
    (hsub : ∀ sub ∈ m'.submissions, sub ∈ m.submissions ∨
      (sub.AutoExecutes → (guardedActionSpec sub.kind).floor = .auto))
    (hdeadlines : ∀ r ∈ m'.server.rows, r.state = .pending → r.expiresAt.isSome = true)
    (hundone : ∀ r ∈ m'.server.rows, r.state = .undone → Reversible r.kind)
    (hrev : ∀ x ∈ m'.reversals, Reversible x.kind) : Gated e m' := by
  have hlic : ∀ id, m'.licences id = m.licences id := by
    intro id
    unfold licences
    rw [htasks, hexec]
  constructor
  · exact hnumbered
  · intro id
    rw [hlic]
    exact h.single id
  · intro id hpos
    rw [hlic] at hpos
    obtain ⟨r, hmem, hid, hstate⟩ := h.licensed id hpos
    obtain ⟨r', hmem', hreq, hkept⟩ := hl.rows r hmem
    exact ⟨r', hmem', (congrArg ActionRequest.id hreq).trans hid, hkept hstate⟩
  · intro t ht
    exact (h.tasks t (htasks ▸ ht)).later hl
  · intro x hx
    rw [hexec] at hx
    rcases h.executions x hx with hauto | happ
    · exact .inl (hauto.later hl)
    · exact .inr (happ.later hl)
  · intro sub hmem
    rcases hsub sub hmem with hold | hnew
    · exact h.submissions sub hold
    · exact hnew
  · exact hdeadlines
  · exact hundone
  · exact hrev

theorem Gated.of_rows (h : Gated e m) {server : Server W P I}
    (hrows : server.rows = m.server.rows) : Gated e { m with server } := by
  have hl : Later m { m with server } := later_of_rows hrows rfl rfl
  apply h.later hl rfl rfl
  · change Numbered (·.id) server.rows
    rw [hrows]
    exact h.numbered
  · exact fun sub hsub => .inl hsub
  · change ∀ r ∈ server.rows, _
    rw [hrows]
    exact h.deadlines
  · change ∀ r ∈ server.rows, _
    rw [hrows]
    exact h.undone
  · exact h.reversals

theorem later_transition {id : Nat} {next : GuardedActionState} (hnext : next ≠ .pending) :
    Later m { m with server := m.server.transition tenantId id st next patch } where
  rows r hr := by
    obtain ⟨r', hmem, hreq, hstate⟩ := Server.exists_mem_transition hr
    refine ⟨r', hmem, hreq, fun hne => ?_⟩
    rcases hstate with hstate | hstate
    · rw [hstate]
      exact hne
    · rw [hstate]
      exact hnext
  submissions _ hsub := hsub
  approvals _ ha := ha

theorem Gated.transition (h : Gated e m) {id : Nat} {next : GuardedActionState}
    (hnext : next ≠ .pending)
    (hundone : next = .undone → ∀ r ∈ m.server.rows, r.id = id → Reversible r.kind) :
    Gated e { m with server := m.server.transition tenantId id st next patch } := by
  apply h.later (later_transition hnext) rfl rfl
  · exact Server.numbered_transition h.numbered
  · exact fun sub hsub => .inl hsub
  · intro r hr hstate
    obtain ⟨r', hmem, hreq, ⟨rfl, -⟩ | ⟨-, -, hmoved⟩⟩ := Server.mem_transition hr
    · exact h.deadlines r hmem hstate
    · exact absurd (hmoved.symm.trans hstate) hnext
  · intro r hr hstate
    obtain ⟨r', hmem, hreq, ⟨rfl, -⟩ | ⟨hid, -, hmoved⟩⟩ := Server.mem_transition hr
    · exact h.undone r hmem hstate
    · have hrev := hundone (hmoved.symm.trans hstate) r' hmem hid
      rw [congrArg ActionRequest.kind hreq]
      exact hrev
  · exact h.reversals

theorem licences_push (task : Task P I) (id : Nat) :
    (m.push task).licences id = m.licences id + if task.isRun id then 1 else 0 := by
  unfold licences push
  dsimp only
  rw [countP_append, countP_singleton]
  omega

theorem Gated.push (h : Gated e m) (hok : m.TaskOk e task)
    (hlic : ∀ id, task.isRun id = true → m.licences id = 0 ∧
      ∃ r ∈ m.server.rows, r.id = id ∧ r.state ≠ .pending) : Gated e (m.push task) := by
  constructor
  · exact h.numbered
  · intro id
    rw [licences_push]
    split
    · rename_i hrun
      rw [(hlic id hrun).1]
    · exact h.single id
  · intro id hpos
    rw [licences_push] at hpos
    by_cases hrun : task.isRun id = true
    · exact (hlic id hrun).2
    · rw [if_neg hrun] at hpos
      exact h.licensed id hpos
  · intro t ht
    rcases mem_append.mp ht with ht | ht
    · exact h.tasks t ht
    · rw [mem_singleton.mp ht]
      exact hok
  · exact h.executions
  · exact h.submissions
  · exact h.deadlines
  · exact h.undone
  · exact h.reversals

theorem Gated.push_idle (h : Gated e m) (hok : m.TaskOk e task)
    (hidle : ∀ id, task.isRun id = false) : Gated e (m.push task) := by
  apply h.push hok
  intro id hrun
  rw [hidle id] at hrun
  cases hrun

theorem Gated.sublist (h : Gated e m) {tasks : List (Task P I)} (hsub : tasks.Sublist m.tasks) :
    Gated e { m with tasks } := by
  have hle : ∀ id, licences { m with tasks } id ≤ m.licences id := fun id =>
    Nat.add_le_add_right (hsub.countP_le) _
  constructor
  · exact h.numbered
  · exact fun id => Nat.le_trans (hle id) (h.single id)
  · exact fun id hpos => h.licensed id (Nat.lt_of_lt_of_le hpos (hle id))
  · exact fun t ht => h.tasks t (hsub.subset ht)
  · exact h.executions
  · exact h.submissions
  · exact h.deadlines
  · exact h.undone
  · exact h.reversals

theorem licences_eraseIdx (hi : m.tasks[i]? = some task) (id : Nat) :
    m.licences id = licences { m with tasks := m.tasks.eraseIdx i } id +
      if task.isRun id then 1 else 0 := by
  obtain ⟨hlt, rfl⟩ := List.getElem?_eq_some_iff.mp hi
  have hperm := getElem_cons_eraseIdx_perm hlt
  have hcount := hperm.countP_eq (Task.isRun id)
  rw [countP_cons] at hcount
  unfold licences
  dsimp only
  omega

/-- The task that is taken up is in order, and the licence it holds is given back with it. -/
theorem Gated.take (h : Gated e m) (hi : m.tasks[i]? = some task) :
    Gated e { m with tasks := m.tasks.eraseIdx i } ∧ m.TaskOk e task ∧
      ∀ id, task.isRun id = true →
        licences { m with tasks := m.tasks.eraseIdx i } id = 0 ∧
          ∃ r ∈ m.server.rows, r.id = id ∧ r.state ≠ .pending := by
  refine ⟨h.sublist (eraseIdx_sublist _ _), h.tasks task (mem_of_getElem? hi), ?_⟩
  intro id hrun
  have hcount := licences_eraseIdx hi id
  rw [if_pos hrun] at hcount
  have hsingle := h.single id
  exact ⟨by omega, h.licensed id (by omega)⟩

theorem expire_eq (action : GuardedActionRow P I) :
    Engine.expire m.server action = m.server.transition action.tenantId action.id .pending .expired
      fun record => { record with
        decisionNote := some "No decision before the request expired." } := rfl

theorem Gated.expire (h : Gated e m) (action : GuardedActionRow P I) :
    Gated e { m with server := Engine.expire m.server action } := by
  rw [expire_eq]
  apply h.transition
  · exact GuardedActionState.noConfusion
  · exact fun heq => GuardedActionState.noConfusion heq

theorem createdState_pending {outcome : GateOutcome}
    (h : Engine.createdState outcome = .pending) : outcome = .approval := by
  cases outcome with
  | approval => rfl
  | execute => cases h
  | deny => cases h

theorem createdState_approved {outcome : GateOutcome}
    (h : Engine.createdState outcome = .approved) : outcome = .execute := by
  cases outcome with
  | execute => rfl
  | approval => cases h
  | deny => cases h

theorem createdState_ne_undone (outcome : GateOutcome) :
    Engine.createdState outcome ≠ .undone := by
  cases outcome <;> exact GuardedActionState.noConfusion

theorem Gated.workCreate (h : Gated e m) {input : CreateActionInput P} {actor : ActorContext}
    {stored : Option PolicyRow} (hok : m.TaskOk e (.create input actor stored)) :
    Gated e (m.workCreate input actor stored) := by
  obtain ⟨hpolicy, hstate, hexpires⟩ := hok
  unfold Machine.workCreate
  split
  · exact h
  · dsimp only
    generalize hsub : (Submission.mk (m.server.createAction input).2.id
      (m.server.createAction input).2.kind stored input.magnitude) = sub
    have hauto : sub.AutoExecutes ↔ input.state = .approved := by
      rw [← hsub, hstate]
      unfold Submission.AutoExecutes
      change (decideGate input.kind (effectivePolicy input.kind stored) input.magnitude).outcome =
        .execute ↔ _
      rw [← hpolicy]
      constructor
      · intro hexec
        rw [hexec]
        rfl
      · exact createdState_approved
    have hnew : ∀ r ∈ (m.server.createAction input).1.rows, r ∈ m.server.rows ∨
        r = (m.server.createAction input).2 := by
      intro r hr
      rcases mem_append.mp hr with hr | hr
      · exact Or.inl hr
      · exact Or.inr (mem_singleton.mp hr)
    have hl : Later m { m with
        server := (m.server.createAction input).1
        submissions := m.submissions ++ [sub] } := {
      rows := fun r hr => ⟨r, mem_append_left _ hr, rfl, fun hne => hne⟩
      submissions := fun _ hmem => mem_append_left _ hmem
      approvals := fun _ hmem => hmem }
    have hcreated : Gated e { m with
        server := (m.server.createAction input).1
        submissions := m.submissions ++ [sub] } := by
      apply h.later hl rfl rfl
      · exact Server.numbered_createAction h.numbered
      · intro sub' hmem
        rcases mem_append.mp hmem with hmem | hmem
        · exact Or.inl hmem
        · apply Or.inr
          intro hexec
          rw [mem_singleton.mp hmem] at hexec ⊢
          exact floor_of_decideGate_execute (effectivePolicy_kind _ _) hexec
      · intro r hr hpending
        rcases hnew r hr with hr | rfl
        · exact h.deadlines r hr hpending
        · exact hexpires hpending
      · intro r hr hundone
        rcases hnew r hr with hr | rfl
        · exact h.undone r hr hundone
        · exact absurd (hstate.symm.trans hundone) (createdState_ne_undone _)
      · exact h.reversals
    split
    · rename_i happroved
      apply hcreated.push
      · exact Or.inl ⟨sub, mem_append_right _ mem_cons_self, hsub ▸ rfl, hsub ▸ rfl,
          hauto.mpr happroved⟩
      · intro id hrun
        have hid : (m.server.createAction input).2.id = id := of_decide_eq_true hrun
        refine ⟨?_, (m.server.createAction input).2,
          mem_append_right _ mem_cons_self, hid, ?_⟩
        · -- No row has had the new number yet, so no licence is out for it.
          by_contra hne
          obtain ⟨r, hmem, hrid, -⟩ := h.licensed id (Nat.pos_of_ne_zero hne)
          have hle := h.numbered.le_length hmem
          have hlen : (m.server.createAction input).2.id = m.server.rows.length + 1 := rfl
          omega
        · rw [happroved]
          exact GuardedActionState.noConfusion
    · exact hcreated

theorem Gated.log_approval (h : Gated e m) (a : Approval P I) :
    Gated e { m with approvals := m.approvals ++ [a] } := by
  have hl : Later m { m with approvals := m.approvals ++ [a] } :=
    ⟨fun r hr => ⟨r, hr, rfl, fun hne => hne⟩, fun _ hsub => hsub,
      fun _ ha => mem_append_left _ ha⟩
  exact h.later hl rfl rfl h.numbered (fun _ hsub => .inl hsub) h.deadlines h.undone h.reversals

/-- A row that is still pending when the approver's write finds it is the row that was checked. -/
theorem Gated.before_eq (h : Gated e m) {before : GuardedActionRow P I}
    (hknown : m.Known action.toActionRequest) (hmem : before ∈ m.server.rows)
    (hid : before.id = action.id) : before.toActionRequest = action.toActionRequest := by
  obtain ⟨known, hmem', hreq⟩ := hknown
  have hkey : known.id = before.id := (congrArg ActionRequest.id hreq).trans hid.symm
  rw [← h.numbered.eq_of_key hmem' hmem hkey]
  exact hreq

theorem Gated.lawful (h : Gated e m) {before : GuardedActionRow P I} {actor : ActorContext}
    (hok : m.TaskOk e (.approve action actor note))
    (hopen : ¬ action.expiresAt.any (· ≤ m.server.now) = true)
    (hbefore : m.server.matching actor.tenantId action.id .pending = some before) :
    Approval.Lawful e ⟨before, actor, m.server.now⟩ := by
  obtain ⟨hknown, hcan, hsecond⟩ := hok
  obtain ⟨hmem, -, hid, hpending⟩ := Server.mem_of_matching hbefore
  have hsame := h.before_eq hknown hmem hid
  obtain ⟨deadline, hdeadline⟩ := Option.isSome_iff_exists.mp (h.deadlines before hmem hpending)
  constructor
  · exact hpending
  · change e.can actor.role (guardedActionSpec before.kind).approveCapability = true
    rw [congrArg ActionRequest.kind hsame]
    exact hcan
  · refine ⟨deadline, hdeadline, ?_⟩
    rw [← congrArg ActionRequest.expiresAt hsame, hdeadline] at hopen
    simpa using hopen
  · change (snapshotPolicy before.toActionRequest).selfApproval = true ∨
      before.requestedByUserId ≠ actor.userId
    rw [hsame]
    exact hsecond

theorem approved_of_matching (hnum : Numbered (·.id) m.server.rows) {id : Nat}
    {before fresh : GuardedActionRow P I}
    (hbefore : m.server.matching tenantId id .pending = some before)
    (hfresh : (m.server.transition tenantId id .pending .approved patch).getAction tenantId id =
      some fresh) :
    fresh ∈ (m.server.transition tenantId id .pending .approved patch).rows ∧
      fresh.toActionRequest = before.toActionRequest ∧ fresh.state = .approved := by
  obtain ⟨hmem, htenant, hid, hpending⟩ := Server.mem_of_matching hbefore
  obtain ⟨hfmem, -, hfid⟩ := Server.mem_of_getAction hfresh
  obtain ⟨r, hr, hreq, hcase⟩ := Server.mem_transition hfmem
  have hsame : r = before := by
    have hkey : r.id = before.id :=
      (congrArg ActionRequest.id hreq).symm.trans (hfid.trans hid.symm)
    exact hnum.eq_of_key hr hmem hkey
  subst hsame
  rcases hcase with ⟨-, hnot⟩ | ⟨-, -, hmoved⟩
  · exact absurd ⟨htenant, hid, hpending⟩ hnot
  · exact ⟨hfmem, hreq, hmoved⟩

theorem Gated.workApprove (h : Gated e m) {actor : ActorContext}
    (hok : m.TaskOk e (.approve action actor note)) :
    Gated e (m.workApprove action actor note) := by
  unfold Machine.workApprove
  split
  · exact h.expire action
  · rename_i hopen
    split
    · exact h
    · rename_i before hbefore
      have hlawful := h.lawful hok hopen hbefore
      obtain ⟨hmem, htenant, hid, hpending⟩ := Server.mem_of_matching hbefore
      have hmoved : Gated e { m with
          server := m.server.transition actor.tenantId action.id .pending .approved
            (Engine.decided actor note m.server.now) } := by
        apply h.transition
        · exact GuardedActionState.noConfusion
        · exact fun heq => GuardedActionState.noConfusion heq
      have hlogged := hmoved.log_approval ⟨before, actor, m.server.now⟩
      dsimp only
      split
      · exact hlogged
      · rename_i fresh hfresh
        obtain ⟨hfmem, hfreq, hstate⟩ := approved_of_matching h.numbered hbefore hfresh
        have hfid : fresh.id = before.id := congrArg ActionRequest.id hfreq
        apply hlogged.push
        · refine .inr ⟨_, mem_append_right _ mem_cons_self, hfid.symm, ?_, hlawful⟩
          exact (congrArg ActionRequest.kind hfreq).symm
        · intro id' hrun
          have hkey : fresh.id = id' := of_decide_eq_true hrun
          refine ⟨?_, fresh, hfmem, hkey, ?_⟩
          · by_contra hne
            obtain ⟨r, hr, hrid, hrstate⟩ := h.licensed id' (Nat.pos_of_ne_zero hne)
            have hrb : r = before :=
              h.numbered.eq_of_key hr hmem (hrid.trans (hkey.symm.trans hfid))
            rw [hrb] at hrstate
            exact hrstate hpending
          · rw [hstate]
            exact GuardedActionState.noConfusion

theorem licences_call (x : Call) (id : Nat) :
    licences { m with executions := m.executions ++ [x] } id =
      m.licences id + if x.id = id then 1 else 0 := by
  unfold licences
  rw [countP_append, countP_singleton]
  simp only [decide_eq_true_eq]
  omega

theorem Gated.log_execution (h : Gated e m)
    (hjust : m.AutoExecuted x.id x.kind ∨ m.Approved e x.id x.kind)
    (hlic : m.licences x.id = 0 ∧ ∃ r ∈ m.server.rows, r.id = x.id ∧ r.state ≠ .pending) :
    Gated e { m with executions := m.executions ++ [x] } := by
  constructor
  · exact h.numbered
  · intro id
    rw [licences_call]
    split
    · rename_i hid
      rw [← hid, hlic.1]
    · exact h.single id
  · intro id hpos
    rw [licences_call] at hpos
    by_cases hid : x.id = id
    · rw [← hid]
      exact hlic.2
    · rw [if_neg hid] at hpos
      exact h.licensed id hpos
  · exact h.tasks
  · intro y hy
    rcases mem_append.mp hy with hy | hy
    · exact h.executions y hy
    · rw [mem_singleton.mp hy]
      exact hjust
  · exact h.submissions
  · exact h.deadlines
  · exact h.undone
  · exact h.reversals

theorem Gated.workRun (h : Gated e m) {actor : ActorContext}
    {policy : GatePolicy} (hok : m.TaskOk e (.run action actor policy))
    (hlic : m.licences action.id = 0 ∧ ∃ r ∈ m.server.rows, r.id = action.id ∧ r.state ≠ .pending) :
    Gated e (m.workRun e action actor policy) := by
  unfold Machine.workRun
  split
  · exact h
  · rename_i executor _
    dsimp only
    have hrows : (Engine.perform m.server executor action actor).2.rows = m.server.rows := by
      unfold Engine.perform
      split <;> rfl
    have hserver := h.of_rows hrows
    split
    · exact hserver.push_idle trivial fun _ => rfl
    · have hlic' : m.licences action.id = 0 ∧
          ∃ r ∈ (Engine.perform m.server executor action actor).2.rows,
            r.id = action.id ∧ r.state ≠ .pending := by
        rw [hrows]
        exact hlic
      have hlogged := hserver.log_execution (x := ⟨action.id, action.kind⟩) hok hlic'
      exact hlogged.push_idle trivial fun _ => rfl

theorem Gated.workRecord (h : Gated e m) {actor : ActorContext}
    {policy : GatePolicy} {result : Except Failure (ExecutorResult I)} :
    Gated e (m.workRecord e action actor policy result) := by
  unfold Machine.workRecord Engine.recordExecution
  split
  · exact h
  · split
    all_goals
      apply h.transition
      · exact GuardedActionState.noConfusion
      · exact fun heq => GuardedActionState.noConfusion heq

theorem Gated.log_reversal (h : Gated e m) (hrev : Reversible x.kind) :
    Gated e { m with reversals := m.reversals ++ [x] } := by
  have hl : Later m { m with reversals := m.reversals ++ [x] } := later_of_rows rfl rfl rfl
  apply h.later hl rfl rfl h.numbered (fun _ hsub => .inl hsub) h.deadlines h.undone
  intro y hy
  rcases mem_append.mp hy with hy | hy
  · exact h.reversals y hy
  · rw [mem_singleton.mp hy]
    exact hrev

theorem Gated.workReverse (h : Gated e m) {actor : ActorContext}
    {inverse : I} {reason : Option String}
    (hok : m.TaskOk e (.reverse action actor inverse reason)) :
    Gated e (m.workReverse e action actor inverse reason) := by
  unfold Machine.workReverse
  split
  · exact h
  · rename_i executor _
    dsimp only
    have hserver : Gated e { m with server := { m.server with
        world := (executor.reverse inverse actor m.server.now m.server.world).2 } } :=
      h.of_rows rfl
    have hlogged := hserver.log_reversal (x := ⟨action.id, action.kind⟩) hok.2
    split
    · exact hlogged
    · exact hlogged.push_idle hok fun _ => rfl

theorem Gated.work (h : Gated e m) (hok : m.TaskOk e task)
    (hlic : ∀ id, task.isRun id = true → m.licences id = 0 ∧
      ∃ r ∈ m.server.rows, r.id = id ∧ r.state ≠ .pending) : Gated e (m.work e task) := by
  cases task with
  | create input actor stored => exact h.workCreate hok
  | approve action actor note => exact h.workApprove hok
  | reject action actor note =>
    apply h.transition
    · exact GuardedActionState.noConfusion
    · exact fun heq => GuardedActionState.noConfusion heq
  | run action actor policy => exact h.workRun hok (hlic action.id (decide_eq_true rfl))
  | record action actor policy result => exact h.workRecord
  | reverse action actor inverse reason => exact h.workReverse hok
  | undone action actor reason =>
    apply h.transition
    · exact GuardedActionState.noConfusion
    · intro _ r hr hid
      obtain ⟨hknown, hrev⟩ := hok
      rw [congrArg ActionRequest.kind (h.before_eq hknown hr hid)]
      exact hrev
  | expire action => exact h.expire action

theorem gated_step (m : Machine W P I) (a : GateAction W R P I) (h : Gated e m) :
    Gated e (m.step e a) := by
  cases a with
  | submit user tenantId kind payload reason idempotencyKey =>
    unfold step
    dsimp only
    split
    · rename_i input hjudge
      obtain ⟨executor, parsed, rfl⟩ := Engine.judgeSubmit_create hjudge
      apply h.push_idle _ fun _ => rfl
      refine ⟨rfl, rfl, ?_⟩
      intro hpending
      change (if _ then _ else _ : Option Int).isSome = true
      rw [if_pos (createdState_pending hpending)]
      rfl
    · exact h
    · exact h
  | approve user tenantId actionId note =>
    unfold step
    dsimp only
    split
    · rename_i action hcheck
      obtain ⟨hmem, -, -, hcan, hsecond⟩ := Engine.checkApproval_ok hcheck
      apply h.push_idle _ fun _ => rfl
      refine ⟨⟨action, hmem, rfl⟩, hcan, ?_⟩
      rcases hsecond with hself | hnone | hne
      · exact Or.inl hself
      · -- The routes never leave the id of the approver out.
        apply Or.inr
        rw [hnone]
        exact (Option.some_ne_none _).symm
      · exact Or.inr hne
    · exact h
  | reject user tenantId actionId note =>
    unfold step
    dsimp only
    split
    · exact h.push_idle trivial fun _ => rfl
    · exact h
  | undo user tenantId actionId reason =>
    unfold step
    dsimp only
    split
    · rename_i action executor inverse hcheck
      obtain ⟨hget, -, -, hundoable⟩ := Engine.checkUndo_ok_iff.mp hcheck
      exact h.push_idle ⟨⟨action, (Server.mem_of_getAction hget).1, rfl⟩, hundoable.executed.1⟩
        fun _ => rfl
    · exact h
  | sweepExpiredActions limit =>
    unfold step
    dsimp only
    induction m.server.findExpirable limit using List.reverseRecOn with
    | nil =>
      rw [map_nil, append_nil]
      exact h
    | append_singleton rows row ih =>
      rw [map_append, map_singleton, ← append_assoc]
      exact Gated.push_idle ih trivial fun _ => rfl
  | proceed i =>
    unfold step
    dsimp only
    cases hi : m.tasks[i]? with
    | none => exact h
    | some task =>
      obtain ⟨hrest, hok, hlic⟩ := h.take hi
      exact hrest.work hok hlic
  | crash i => exact h.sublist (eraseIdx_sublist _ _)
  | savePolicy tenantId input => exact h.of_rows rfl
  | storePolicy tenantId kind row => exact h.of_rows rfl
  | elsewhere world => exact h.of_rows rfl
  | clock now => exact h.of_rows rfl
  | deploy enabled => exact h.of_rows rfl

theorem Gated.runsOnceGated (h : Gated e m) : m.RunsOnceGated e := by
  constructor
  · intro id
    have hle := h.single id
    unfold licences at hle
    omega
  · exact h.executions
  · intro x hx hlift
    have hnot : ¬ m.AutoExecuted x.id x.kind := by
      rintro ⟨sub, hmem, -, hkind, hauto⟩
      have hfloor := h.submissions sub hmem hauto
      rw [hkind, hlift] at hfloor
      cases hfloor
    exact ⟨hnot, (h.executions x hx).resolve_left hnot⟩
  · constructor
    · intro x hx hlift
      have hrev := h.reversals x hx
      rw [hlift] at hrev
      cases hrev
    · intro r hr hlift hundone
      have hrev := h.undone r hr hundone
      rw [hlift] at hrev
      cases hrev

/-- Whatever the executors do and however policies, calls and crashes interleave, every action runs
at most once and never below its gate. -/
theorem runsOnceGated_run (e : Engine W R P I) (enabled : Bool) (world : W)
    (policies : Int → GuardedActionKind → Option PolicyRow) (now : Int)
    (actions : List (GateAction W R P I)) :
    (run (step e) (start enabled world policies now) actions).RunsOnceGated e :=
  (run_invariant_all gated_step actions (gated_start enabled world policies now)).runsOnceGated

end Machine

end HomefrontFiber.GuardedActions
