import HomefrontFiber.GuardedActions.Store

/-!
# The engine of the guarded actions

The operations of `guardedActionEngine.ts` over arbitrary executors, cut where another process may
come between: every definition here is a block of one operation that no write of another caller can
split. A block that refuses throws and leaves the server as it was.
-/

namespace HomefrontFiber.GuardedActions

structure GuardedActionError where
  status : Nat
  message : String
  code : String

/-- What is thrown: a refusal that the caller may see, or anything else. -/
inductive Failure where
  | refused (error : GuardedActionError)
  | other (message : String)

structure ExecutorResult (I : Type) where
  summary : String
  inverse : Option I

/-- The contract of an executor over the tables `W` of its domain. A fingerprint or a label that
throws is `none`. -/
structure GuardedActionExecutor (W R P I : Type) where
  parse : R → ActorContext → Except Failure P
  magnitude : P → Int
  label : P → ActorContext → W → Option String
  preflight : P → ActorContext → W → Except Failure Unit
  execute : P → ActorContext → Int → W → Except Failure (ExecutorResult I) × W
  fingerprint : P → ActorContext → W → Option String
  reverse : I → ActorContext → Int → W → Except Failure String × W

structure Engine (W R P I : Type) where
  can : Option String → Capability → Bool
  executors : GuardedActionKind → Option (GuardedActionExecutor W R P I)

/-- Who is signed in; the routes build the actor of every call from this. -/
structure User where
  id : Int
  name : Option String
  role : Option String

def actorOf (user : User) (tenantId : Int) : ActorContext where
  tenantId := tenantId
  userId := some user.id
  name := user.name
  role := user.role

structure SubmitInput (R : Type) where
  kind : GuardedActionKind
  payload : R
  actor : ActorContext
  reason : Option String
  idempotencyKey : Option String

inductive SubmitResult (P I : Type) where
  | passthrough
  | executed (action : GuardedActionRow P I)
  | pending (action : GuardedActionRow P I)
  | denied (action : GuardedActionRow P I)

/-- What a submit goes on with after its checks: an answer, or a row to create. -/
inductive Judged (P I : Type) where
  | answer (result : SubmitResult P I)
  | create (input : CreateActionInput P)

variable {W R P I : Type}

def replayResult (action : GuardedActionRow P I) : SubmitResult P I :=
  match action.state with
  | .pending => .pending action
  | .rejected => if action.gateOutcome = .deny then .denied action else .executed action
  | .approved | .expired | .executed | .failed | .undone => .executed action

def safeLabel (executor : GuardedActionExecutor W R P I) (kind : GuardedActionKind) (payload : P)
    (actor : ActorContext) (world : W) : String :=
  match executor.label payload actor world with
  | some label => label.take 200 |>.toString
  | none => (guardedActionSpec kind).label

def safeFingerprint (executor : GuardedActionExecutor W R P I) (payload : P) (actor : ActorContext)
    (world : W) : String :=
  match executor.fingerprint payload actor world with
  | some fingerprint => fingerprint.take 200 |>.toString
  | none => ""

/-- The policy frozen onto the action, clamped through the current catalogue. -/
def snapshotPolicy (action : ActionRequest P) : GatePolicy :=
  clampPolicy { action.policySnapshot.toInput with kind := action.kind }

namespace Engine

variable (e : Engine W R P I) (s : Server W P I)

def executorFor (kind : GuardedActionKind) : Except Failure (GuardedActionExecutor W R P I) :=
  match e.executors kind with
  | some executor => .ok executor
  | none => .error (.refused ⟨500, "That action is not available on this server.", "no_executor"⟩)

def createdState : GateOutcome → GuardedActionState
  | .deny => .rejected
  | .approval => .pending
  | .execute => .approved

/-- The row that a submit creates once its payload has passed the preflight. -/
def judge (input : SubmitInput R) (executor : GuardedActionExecutor W R P I) (payload : P) :
    CreateActionInput P :=
  let magnitude := max 1 (executor.magnitude payload)
  let policy := s.getPolicy input.actor.tenantId input.kind
  let verdict := decideGate input.kind policy magnitude
  { tenantId := input.actor.tenantId
    kind := input.kind
    state := createdState verdict.outcome
    payload
    magnitude
    targetLabel := safeLabel executor input.kind payload input.actor s.world
    requestedByUserId := input.actor.userId
    requestedByName := input.actor.name
    requestReason := input.reason
    verdict
    policy
    idempotencyKey := input.idempotencyKey
    expiresAt := if verdict.outcome = .approval then
      some (s.now + policy.pendingExpiryMinutes * 60000) else none }

/-- The row of an earlier submit with the key; the empty key is none. -/
def existing (input : SubmitInput R) : Option (GuardedActionRow P I) :=
  (input.idempotencyKey.filter (· ≠ "")).bind (s.findByIdempotencyKey input.actor.tenantId)

/-- `submitGuardedAction` up to the row it creates. -/
def judgeSubmit (input : SubmitInput R) : Except Failure (Judged P I) :=
  if ¬ s.enabled then .ok (.answer .passthrough)
  else match e.executorFor input.kind with
    | .error failure => .error failure
    | .ok executor =>
      if ¬ e.can input.actor.role (guardedActionSpec input.kind).requestCapability then
        .error (.refused
          ⟨403, "You do not have permission to request this action.", "forbidden"⟩)
      else match existing s input with
        | some action => .ok (.answer (replayResult action))
        | none =>
          match executor.parse input.payload input.actor with
          | .error failure => .error failure
          | .ok payload =>
            match executor.preflight payload input.actor s.world with
            | .error failure => .error failure
            | .ok () => .ok (.create (judge s input executor payload))

def requirePending (actionId : Nat) (actor : ActorContext) :
    Except Failure (GuardedActionRow P I) :=
  match s.getAction actor.tenantId actionId with
  | none => .error (.refused ⟨404, "That request does not exist.", "not_found"⟩)
  | some action =>
    if action.state ≠ .pending then
      .error (.refused ⟨409, "This request is already " ++ action.state.text ++ ".", "not_pending"⟩)
    else .ok action

/-- `approveAction` up to the check of the deadline. -/
def checkApproval (actionId : Nat) (actor : ActorContext) :
    Except Failure (GuardedActionRow P I) :=
  match requirePending s actionId actor with
  | .error failure => .error failure
  | .ok action =>
    if ¬ e.can actor.role (guardedActionSpec action.kind).approveCapability then
      .error (.refused ⟨403, "You do not have permission to approve this action.", "forbidden"⟩)
    else if ¬ (snapshotPolicy action.toActionRequest).selfApproval ∧ action.requestedByUserId ≠ none ∧
        action.requestedByUserId = actor.userId then
      .error (.refused ⟨403, "This action needs a second person. You submitted it, so somebody " ++
        "else has to approve it.", "self_approval"⟩)
    else .ok action

/-- `rejectAction` up to its write. -/
def checkRejection (actionId : Nat) (actor : ActorContext) :
    Except Failure (GuardedActionRow P I) :=
  match requirePending s actionId actor with
  | .error failure => .error failure
  | .ok action =>
    if ¬ e.can actor.role (guardedActionSpec action.kind).approveCapability then
      .error (.refused ⟨403, "You do not have permission to decide this action.", "forbidden"⟩)
    else .ok action

def decided (actor : ActorContext) (note : Option String) (now : Int) (record : ActionRecord I) :
    ActionRecord I :=
  { record with
    decidedByUserId := actor.userId
    decidedByName := actor.name
    decidedAt := some now
    decisionNote := note }

def expire (action : GuardedActionRow P I) : Server W P I :=
  s.transition action.tenantId action.id .pending .expired fun record =>
    { record with decisionNote := some "No decision before the request expired." }

/-- `runExecution` up to what it writes about the action: the second preflight, then the executor,
which is called at most once. -/
def perform (executor : GuardedActionExecutor W R P I) (action : GuardedActionRow P I)
    (actor : ActorContext) : Except Failure (ExecutorResult I) × Server W P I :=
  match executor.preflight action.payload actor s.world with
  | .error failure => (.error failure, s)
  | .ok () =>
    let (result, world) := executor.execute action.payload actor s.now s.world
    (result, { s with world })

def failureReason : Failure → String
  | .refused error => error.message
  | .other _ => "The action could not be completed."

def undoDeadline (action : GuardedActionRow P I) (policy : GatePolicy)
    (result : ExecutorResult I) : Option Int :=
  let spec := guardedActionSpec action.kind
  let undoWindow := if spec.reversibility = .reversible then
    min policy.undoWindowMinutes spec.maxUndoWindowMinutes else 0
  if 0 < undoWindow ∧ result.inverse.isSome then some (s.now + undoWindow * 60000) else none

/-- What `runExecution` writes about the action. -/
def recordExecution (executor : GuardedActionExecutor W R P I) (action : GuardedActionRow P I)
    (actor : ActorContext) (policy : GatePolicy) (result : Except Failure (ExecutorResult I)) :
    Server W P I :=
  match result with
  | .ok result =>
    s.transition actor.tenantId action.id .approved .executed fun record =>
      { record with
        executedAt := some s.now
        resultSummary := some result.summary
        inverse := result.inverse
        postFingerprint := some (safeFingerprint executor action.payload actor s.world)
        undoDeadline := undoDeadline s action policy result }
  | .error failure =>
    s.transition actor.tenantId action.id .approved .failed fun record =>
      { record with failureReason := some (failureReason failure) }

def driftRefusal : Failure :=
  .refused ⟨409, "Something else changed these records after this action ran. Reversing now would " ++
    "overwrite that, so it was not applied.", "drift"⟩

/-- `undoAction` up to the reversal: the action and the inverse that was recorded for it. -/
def checkUndo (actionId : Nat) (actor : ActorContext) :
    Except Failure (GuardedActionRow P I × GuardedActionExecutor W R P I × I) :=
  match s.getAction actor.tenantId actionId with
  | none => .error (.refused ⟨404, "That action does not exist.", "not_found"⟩)
  | some action =>
    let spec := guardedActionSpec action.kind
    if ¬ e.can actor.role spec.approveCapability then
      .error (.refused ⟨403, "You do not have permission to reverse this action.", "forbidden"⟩)
    else
      let policy := snapshotPolicy action.toActionRequest
      match undoAvailability action.kind action.state action.record.executedAt
        policy.undoWindowMinutes action.record.inverse.isSome s.now, action.record.inverse with
      | .error because, _ =>
        .error (.refused ⟨409, undoUnavailableReason because, because.code⟩)
      | .ok _, none => .error (.refused ⟨409, undoUnavailableReason .noInverse, "no_inverse"⟩)
      | .ok _, some inverse =>
        match e.executorFor action.kind with
        | .error failure => .error failure
        | .ok executor =>
          let current := safeFingerprint executor action.payload actor s.world
          -- No drift check is possible against an empty fingerprint.
          if action.record.postFingerprint.any fun post => post ≠ "" ∧ current ≠ post then
            .error driftRefusal
          else .ok (action, executor, inverse)

def undone (actor : ActorContext) (reason : Option String) (now : Int) (record : ActionRecord I) :
    ActionRecord I :=
  { record with
    undoneAt := some now
    undoneByUserId := actor.userId
    undoneByName := actor.name
    undoReason := reason }

def recordUndo (actor : ActorContext) (actionId : Nat) (reason : Option String) : Server W P I :=
  s.transition actor.tenantId actionId .executed .undone (undone actor reason s.now)

def runExecution (action : GuardedActionRow P I) (actor : ActorContext) (policy : GatePolicy) :
    Server W P I :=
  match e.executors action.kind with
  | none => s
  | some executor =>
    recordExecution (perform s executor action actor).2 executor action actor policy
      (perform s executor action actor).1

/-- Where the storage fails an undo that has got past its checks. -/
inductive UndoFault where
  | reversal
  | transition
deriving DecidableEq

def undoFailed : Failure :=
  .refused ⟨500, "The reversal did not complete. Nothing was changed.", "undo_failed"⟩

def undoFailure : Failure → Failure
  | .refused error => .refused error
  | .other _ => undoFailed

/-- `undoAction` as one call. A reversal that fails is rolled back; the move of the row comes after
the reversal. -/
def undoAction (fault : Option UndoFault) (actionId : Nat) (actor : ActorContext)
    (reason : Option String) :
    Except Failure (Option (GuardedActionRow P I)) × Server W P I :=
  match e.checkUndo s actionId actor with
  | .error failure => (.error failure, s)
  | .ok (action, executor, inverse) =>
    if fault = some .reversal then (.error undoFailed, s)
    else match executor.reverse inverse actor s.now s.world with
      | (.error failure, world) => (.error (undoFailure failure), { s with world })
      | (.ok _, world) =>
        if fault = some .transition then (.error undoFailed, { s with world })
        else match s.matching actor.tenantId action.id .executed with
          | none =>
            (.error (.refused ⟨409, "This action was already reversed.", "race"⟩), { s with world })
          | some _ =>
            let s := recordUndo { s with world } actor action.id reason
            (.ok (s.getAction actor.tenantId action.id), s)

/-- An undo gets as far as the reversal: its caller may approve the kind, the window is open, and
the fingerprint of the targets is the recorded one, unless the recorded one is empty. -/
structure Undoable (action : GuardedActionRow P I) (executor : GuardedActionExecutor W R P I)
    (actor : ActorContext) : Prop where
  capable : e.can actor.role (guardedActionSpec action.kind).approveCapability = true
  available : ∃ deadline, undoAvailability action.kind action.state action.record.executedAt
    (snapshotPolicy action.toActionRequest).undoWindowMinutes action.record.inverse.isSome s.now =
      .ok deadline
  unseen : ∀ post ∈ action.record.postFingerprint, post = "" ∨
    safeFingerprint executor action.payload actor s.world = post

variable {e s}

variable {actionId : Nat} {action : GuardedActionRow P I} {executor : GuardedActionExecutor W R P I}

theorem requirePending_ok {actor : ActorContext}
    (h : requirePending s actionId actor = .ok action) :
    action ∈ s.rows ∧ action.tenantId = actor.tenantId ∧ action.id = actionId ∧
      action.state = .pending := by
  unfold requirePending at h
  split at h
  · cases h
  · rename_i found hget
    split at h
    · cases h
    · rename_i hstate
      cases h
      obtain ⟨hmem, htenant, hid⟩ := Server.mem_of_getAction hget
      exact ⟨hmem, htenant, hid, not_ne_iff.mp hstate⟩

/-- An approver who gets past the checks holds the capability, and is not the requester unless the
frozen policy allows it. -/
theorem checkApproval_ok {actor : ActorContext}
    (h : e.checkApproval s actionId actor = .ok action) :
    action ∈ s.rows ∧ action.state = .pending ∧ action.tenantId = actor.tenantId ∧
      e.can actor.role (guardedActionSpec action.kind).approveCapability = true ∧
      ((snapshotPolicy action.toActionRequest).selfApproval = true ∨ action.requestedByUserId = none ∨
        action.requestedByUserId ≠ actor.userId) := by
  unfold checkApproval at h
  split at h
  · cases h
  · rename_i found hpending
    obtain ⟨hmem, htenant, -, hstate⟩ := requirePending_ok hpending
    split at h
    · cases h
    · rename_i hcan
      split at h
      · cases h
      · rename_i hself
        cases h
        refine ⟨hmem, hstate, htenant, not_not.mp hcan, ?_⟩
        by_contra hnone
        simp only [not_or, not_not] at hnone
        exact hself ⟨hnone.1, hnone.2.1, hnone.2.2⟩

theorem judgeSubmit_create {input : SubmitInput R} {created : CreateActionInput P}
    (h : e.judgeSubmit s input = .ok (.create created)) :
    ∃ executor payload, created = judge s input executor payload := by
  unfold judgeSubmit at h
  split at h
  · cases h
  · split at h
    · cases h
    · rename_i executor _
      split at h
      · cases h
      · split at h
        · cases h
        · split at h
          · cases h
          · rename_i payload _
            split at h
            · cases h
            · cases h
              exact ⟨executor, payload, rfl⟩

theorem checkUndo_ok_iff {actor : ActorContext} {inverse : I} :
    e.checkUndo s actionId actor = .ok (action, executor, inverse) ↔
      s.getAction actor.tenantId actionId = some action ∧ action.record.inverse = some inverse ∧
        e.executorFor action.kind = .ok executor ∧ e.Undoable s action executor actor := by
  unfold checkUndo
  constructor
  · intro h
    split at h
    · cases h
    · rename_i found hget
      dsimp only at h
      split at h
      · cases h
      · rename_i hcan
        split at h
        · cases h
        · cases h
        · rename_i deadline inv havailable hinv
          split at h
          · cases h
          · rename_i ex hex
            split at h
            · cases h
            · rename_i hdrift
              cases h
              refine ⟨hget, hinv, hex, not_not.mp hcan, ⟨deadline, havailable⟩, ?_⟩
              intro post hpost
              rw [Option.mem_def.mp hpost] at hdrift
              by_contra hne
              simp only [not_or] at hne
              exact hdrift (decide_eq_true hne)
  · rintro ⟨hget, hinv, hex, hcan, ⟨deadline, havailable⟩, hunseen⟩
    have hdrift : ¬ (action.record.postFingerprint.any fun post =>
        post ≠ "" ∧ safeFingerprint executor action.payload actor s.world ≠ post) = true := by
      intro hany
      cases hpost : action.record.postFingerprint with
      | none =>
        rw [hpost] at hany
        cases hany
      | some post =>
        rw [hpost] at hany
        obtain ⟨hne, hdiff⟩ := of_decide_eq_true hany
        rcases hunseen post hpost with hempty | hsame
        · exact hne hempty
        · exact hdiff hsame
    rw [hinv] at havailable
    simp only [hget, hcan, hinv, havailable, hex, not_true, if_false, if_neg hdrift]

theorem Undoable.executed {actor : ActorContext} (h : e.Undoable s action executor actor) :
    (guardedActionSpec action.kind).reversibility = .reversible ∧ action.state = .executed := by
  obtain ⟨deadline, havailable⟩ := h.available
  obtain ⟨hrev, hstate, -⟩ := undoAvailability_ok havailable
  exact ⟨hrev, hstate⟩

end Engine

end HomefrontFiber.GuardedActions
