import Mathlib.Order.Basic
import Mathlib.Data.Int.Order.Basic
import Mathlib.Data.Rat.Defs
import HomefrontFiber.Foundation.Table

/-!
# The rules of the guarded actions

The catalogue, the policies and the pure decisions of `shared/guardedActions.ts`. Every kind of
action declares the loosest gate it may run under; what an organization stores or submits is forced
back inside the catalogue by `clampPolicy`, whose fixed points are the policies that a decision is
made under.
-/

namespace HomefrontFiber.GuardedActions

inductive GuardedActionKind where
  | leadReassign
  | leadBulkAssign
  | recoveryCaseAssign
  | contactSuppressionLift
deriving DecidableEq

inductive GateMode where
  | auto
  | approval
  | deny
deriving DecidableEq

def GateMode.rank : GateMode → Nat
  | .auto => 0
  | .approval => 1
  | .deny => 2

def atLeast (a b : GateMode) : GateMode := if b.rank ≤ a.rank then a else b

inductive Reversibility where
  | reversible
  | irreversible
deriving DecidableEq

inductive Capability where
  | leadReassign
  | leadAssign
  | recoveryManage
  | contactSuppressionManage

structure GuardedActionSpec where
  kind : GuardedActionKind
  label : String
  requestCapability : Capability
  approveCapability : Capability
  floor : GateMode
  defaultMode : GateMode
  reversibility : Reversibility
  maxUndoWindowMinutes : Int
  magnitudeUnit : String
  defaultApprovalAboveMagnitude : Option Int

def guardedActionSpec : GuardedActionKind → GuardedActionSpec
  | .leadReassign => {
      kind := .leadReassign
      label := "Reassign a door"
      requestCapability := .leadReassign
      approveCapability := .leadAssign
      floor := .auto
      defaultMode := .auto
      reversibility := .reversible
      maxUndoWindowMinutes := 24 * 60
      magnitudeUnit := "door"
      defaultApprovalAboveMagnitude := none }
  | .leadBulkAssign => {
      kind := .leadBulkAssign
      label := "Bulk assign doors"
      requestCapability := .leadAssign
      approveCapability := .leadReassign
      floor := .auto
      defaultMode := .auto
      reversibility := .reversible
      maxUndoWindowMinutes := 24 * 60
      magnitudeUnit := "doors"
      defaultApprovalAboveMagnitude := some 200 }
  | .recoveryCaseAssign => {
      kind := .recoveryCaseAssign
      label := "Assign a recovery case"
      requestCapability := .recoveryManage
      approveCapability := .recoveryManage
      floor := .auto
      defaultMode := .auto
      reversibility := .reversible
      maxUndoWindowMinutes := 24 * 60
      magnitudeUnit := "case"
      defaultApprovalAboveMagnitude := none }
  | .contactSuppressionLift => {
      kind := .contactSuppressionLift
      label := "Lift a contact suppression"
      requestCapability := .contactSuppressionManage
      approveCapability := .contactSuppressionManage
      floor := .approval
      defaultMode := .approval
      reversibility := .irreversible
      maxUndoWindowMinutes := 0
      magnitudeUnit := "contact"
      defaultApprovalAboveMagnitude := none }

inductive GuardedActionState where
  | pending | approved | rejected | expired | executed | failed | undone
deriving DecidableEq

def GuardedActionState.text : GuardedActionState → String
  | .pending => "pending"
  | .approved => "approved"
  | .rejected => "rejected"
  | .expired => "expired"
  | .executed => "executed"
  | .failed => "failed"
  | .undone => "undone"

inductive JsNumber where
  | nan
  | finite (q : Rat)
  | infinite (positive : Bool)

/-- `Math.max(low, Math.min(Math.floor(x || 0) || orElse, high))`. -/
def JsNumber.clamp (low high orElse : Int) : JsNumber → Int
  | .nan => max low (min orElse high)
  | .finite q => max low (min (if q.floor = 0 then orElse else q.floor) high)
  | .infinite true => max low high
  | .infinite false => low

structure GatePolicy where
  kind : GuardedActionKind
  mode : GateMode
  approvalAboveMagnitude : Option Int
  selfApproval : Bool
  undoWindowMinutes : Int
  pendingExpiryMinutes : Int

/-- A policy before it is clamped; a mode that is not in the list is `none`. -/
structure PolicyInput where
  kind : GuardedActionKind
  mode : Option GateMode
  approvalAboveMagnitude : Option JsNumber
  selfApproval : Bool
  undoWindowMinutes : JsNumber
  pendingExpiryMinutes : JsNumber

def GatePolicy.toInput (p : GatePolicy) : PolicyInput where
  kind := p.kind
  mode := some p.mode
  approvalAboveMagnitude := p.approvalAboveMagnitude.map fun n => .finite n
  selfApproval := p.selfApproval
  undoWindowMinutes := .finite p.undoWindowMinutes
  pendingExpiryMinutes := .finite p.pendingExpiryMinutes

def maxPendingExpiryMinutes : Int := 30 * 24 * 60

def defaultPolicy (kind : GuardedActionKind) : GatePolicy :=
  let spec := guardedActionSpec kind
  { kind
    mode := spec.defaultMode
    approvalAboveMagnitude := spec.defaultApprovalAboveMagnitude
    selfApproval := false
    undoWindowMinutes :=
      if spec.reversibility = .reversible then min 60 spec.maxUndoWindowMinutes else 0
    pendingExpiryMinutes := 3 * 24 * 60 }

/-- A threshold that is not a finite number of at least one disables the rule. -/
def clampThreshold : Option JsNumber → Option Int
  | some (.finite q) => if q < 1 then none else some q.floor
  | _ => none

def clampPolicy (input : PolicyInput) : GatePolicy :=
  let spec := guardedActionSpec input.kind
  let undoCeiling := if spec.reversibility = .reversible then spec.maxUndoWindowMinutes else 0
  { kind := input.kind
    mode := (input.mode.map (atLeast · spec.floor)).getD spec.floor
    approvalAboveMagnitude := clampThreshold input.approvalAboveMagnitude
    selfApproval := input.selfApproval
    undoWindowMinutes := input.undoWindowMinutes.clamp 0 undoCeiling 0
    pendingExpiryMinutes := input.pendingExpiryMinutes.clamp 5 maxPendingExpiryMinutes 5 }

inductive GateOutcome where
  | execute
  | approval
  | deny
deriving DecidableEq

structure GateVerdict where
  outcome : GateOutcome
  reason : String

def decideGate (kind : GuardedActionKind) (policy : GatePolicy) (magnitude : Int) : GateVerdict :=
  let spec := guardedActionSpec kind
  let effective := clampPolicy policy.toInput
  let magnitude := max 1 magnitude
  match effective.mode with
  | .deny => ⟨.deny, spec.label ++ " is turned off for this organization."⟩
  | .approval =>
    ⟨.approval, if spec.floor = .approval then spec.label ++ " always needs a second approver."
      else "This organization requires approval for " ++ spec.label.toLower ++ "."⟩
  | .auto =>
    match effective.approvalAboveMagnitude with
    | some threshold =>
      if threshold < magnitude then
        ⟨.approval, toString magnitude ++ " " ++ spec.magnitudeUnit ++ " is over the " ++
          toString threshold ++ " " ++ spec.magnitudeUnit ++ " limit for automatic approval."⟩
      else ⟨.execute, "Within this organization's automatic limits."⟩
    | none => ⟨.execute, "Within this organization's automatic limits."⟩

inductive UndoRefusal where
  | irreversible
  | disabled
  | expired
  | alreadyUndone
  | noInverse

def UndoRefusal.code : UndoRefusal → String
  | .irreversible => "irreversible"
  | .disabled => "disabled"
  | .expired => "expired"
  | .alreadyUndone => "already_undone"
  | .noInverse => "no_inverse"

def undoAvailability (kind : GuardedActionKind) (state : GuardedActionState)
    (executedAt : Option Int) (undoWindowMinutes : Int) (hasInverse : Bool) (now : Int) :
    Except UndoRefusal Int :=
  let spec := guardedActionSpec kind
  if spec.reversibility = .irreversible then .error .irreversible
  else if state = .undone then .error .alreadyUndone
  else match executedAt with
    | none => .error .expired
    | some executed =>
      if state ≠ .executed then .error .expired
      else if ¬ hasInverse then .error .noInverse
      else
        let window := min undoWindowMinutes spec.maxUndoWindowMinutes
        if window ≤ 0 then .error .disabled
        else if now ≤ executed + window * 60000 then .ok (executed + window * 60000)
        else .error .expired

def undoUnavailableReason : UndoRefusal → String
  | .irreversible =>
    "This action cannot be undone. It was gated before it ran for exactly that reason."
  | .disabled => "This organization does not keep an undo window for this action."
  | .expired => "The undo window for this action has closed."
  | .alreadyUndone => "This action has already been reversed."
  | .noInverse => "No reversal was recorded for this action, so it cannot be undone safely."

theorem rank_le_atLeast (a b : GateMode) : b.rank ≤ (atLeast a b).rank := by
  unfold atLeast
  split
  · exact ‹_›
  · exact Nat.le_refl _

theorem floor_le_clampPolicy (input : PolicyInput) :
    (guardedActionSpec input.kind).floor.rank ≤ (clampPolicy input).mode.rank := by
  unfold clampPolicy
  cases input.mode with
  | none => exact Nat.le_refl _
  | some mode => exact rank_le_atLeast mode _

variable {kind : GuardedActionKind} {magnitude : Int}

/-- An action runs at once only under an effective mode of `auto`. -/
theorem decideGate_execute {policy : GatePolicy}
    (h : (decideGate kind policy magnitude).outcome = .execute) :
    (clampPolicy policy.toInput).mode = .auto := by
  unfold decideGate at h
  dsimp only at h
  cases hmode : (clampPolicy policy.toInput).mode with
  | auto => rfl
  | approval =>
    rw [hmode] at h
    cases h
  | deny =>
    rw [hmode] at h
    cases h

theorem floor_of_decideGate_execute {policy : GatePolicy} (hkind : policy.kind = kind)
    (h : (decideGate kind policy magnitude).outcome = .execute) :
    (guardedActionSpec kind).floor = .auto := by
  have hle := floor_le_clampPolicy policy.toInput
  rw [decideGate_execute h] at hle
  change (guardedActionSpec policy.kind).floor.rank ≤ 0 at hle
  rw [hkind] at hle
  cases kind with
  | leadReassign => rfl
  | leadBulkAssign => rfl
  | recoveryCaseAssign => rfl
  | contactSuppressionLift => cases hle

theorem undoAvailability_ok {state : GuardedActionState}
    {executedAt : Option Int} {undoWindowMinutes : Int} {hasInverse : Bool} {now deadline : Int}
    (h : undoAvailability kind state executedAt undoWindowMinutes hasInverse now = .ok deadline) :
    (guardedActionSpec kind).reversibility = .reversible ∧ state = .executed ∧
      hasInverse = true := by
  unfold undoAvailability at h
  dsimp only at h
  split at h
  · cases h
  · rename_i hrev
    split at h
    · cases h
    · split at h
      · cases h
      · split at h
        · cases h
        · rename_i hstate
          split at h
          · cases h
          · rename_i hinverse
            refine ⟨?_, not_ne_iff.mp hstate, by simpa using hinverse⟩
            cases hspec : (guardedActionSpec kind).reversibility with
            | reversible => rfl
            | irreversible => exact absurd hspec hrev

end HomefrontFiber.GuardedActions

/-!
## The store of the guarded actions

The policies and the requests of `guardedActionStore.ts`. The columns of a request that are written
at submit are never written again, so a row keeps them apart from its state and from the columns
that a transition patches.
-/

namespace HomefrontFiber.GuardedActions

structure PolicyRow where
  mode : GateMode
  approvalAboveMagnitude : Option Int
  selfApproval : Bool
  undoWindowMinutes : Int
  pendingExpiryMinutes : Int

def rowToPolicy (kind : GuardedActionKind) (row : PolicyRow) : GatePolicy :=
  clampPolicy {
    kind
    mode := some row.mode
    approvalAboveMagnitude := row.approvalAboveMagnitude.map fun n => .finite n
    selfApproval := row.selfApproval
    undoWindowMinutes := .finite row.undoWindowMinutes
    pendingExpiryMinutes := .finite row.pendingExpiryMinutes }

/-- The policy that stands for what is stored, the catalogue's default where nothing is. -/
def effectivePolicy (kind : GuardedActionKind) (stored : Option PolicyRow) : GatePolicy :=
  (stored.map (rowToPolicy kind)).getD (defaultPolicy kind)

@[simp] theorem effectivePolicy_kind (kind : GuardedActionKind) (stored : Option PolicyRow) :
    (effectivePolicy kind stored).kind = kind := by
  cases stored <;> rfl

structure ActorContext where
  tenantId : Int
  userId : Option Int
  name : Option String
  role : Option String

structure ActionRequest (P : Type) where
  id : Nat
  tenantId : Int
  kind : GuardedActionKind
  payload : P
  magnitude : Int
  targetLabel : Option String
  requestedByUserId : Option Int
  requestedByName : Option String
  requestedAt : Int
  requestReason : Option String
  gateOutcome : GateOutcome
  gateReason : String
  policySnapshot : GatePolicy
  idempotencyKey : Option String
  expiresAt : Option Int

structure ActionRecord (I : Type) where
  decidedByUserId : Option Int
  decidedByName : Option String
  decidedAt : Option Int
  decisionNote : Option String
  executedAt : Option Int
  resultSummary : Option String
  inverse : Option I
  postFingerprint : Option String
  undoDeadline : Option Int
  failureReason : Option String
  undoneAt : Option Int
  undoneByUserId : Option Int
  undoneByName : Option String
  undoReason : Option String

def ActionRecord.blank {I : Type} : ActionRecord I where
  decidedByUserId := none
  decidedByName := none
  decidedAt := none
  decisionNote := none
  executedAt := none
  resultSummary := none
  inverse := none
  postFingerprint := none
  undoDeadline := none
  failureReason := none
  undoneAt := none
  undoneByUserId := none
  undoneByName := none
  undoReason := none

structure GuardedActionRow (P I : Type) extends ActionRequest P where
  state : GuardedActionState
  record : ActionRecord I

/-- A server: whether the gate is deployed, the tables of the domain, the requests and policies of
every organization, and its clock. -/
structure Server (W P I : Type) where
  enabled : Bool
  world : W
  rows : List (GuardedActionRow P I)
  policies : Int → GuardedActionKind → Option PolicyRow
  now : Int

variable {W P I : Type}

structure CreateActionInput (P : Type) where
  tenantId : Int
  kind : GuardedActionKind
  state : GuardedActionState
  payload : P
  magnitude : Int
  targetLabel : Option String
  requestedByUserId : Option Int
  requestedByName : Option String
  requestReason : Option String
  verdict : GateVerdict
  policy : GatePolicy
  idempotencyKey : Option String
  expiresAt : Option Int

def CreateActionInput.row (input : CreateActionInput P) (id : Nat) (now : Int) :
    GuardedActionRow P I where
  id := id
  tenantId := input.tenantId
  kind := input.kind
  payload := input.payload
  magnitude := max 1 input.magnitude
  targetLabel := input.targetLabel
  requestedByUserId := input.requestedByUserId
  requestedByName := input.requestedByName
  requestedAt := now
  requestReason := input.requestReason
  gateOutcome := input.verdict.outcome
  gateReason := input.verdict.reason
  policySnapshot := input.policy
  idempotencyKey := input.idempotencyKey
  expiresAt := input.expiresAt
  state := input.state
  record := .blank

def moveRow (tenantId : Int) (id : Nat) (expectedState next : GuardedActionState)
    (patch : ActionRecord I → ActionRecord I) (r : GuardedActionRow P I) : GuardedActionRow P I :=
  if r.tenantId = tenantId ∧ r.id = id ∧ r.state = expectedState then
    { r with state := next, record := patch r.record }
  else r

theorem moveRow_request (tenantId : Int) (id : Nat) (st next : GuardedActionState)
    (patch : ActionRecord I → ActionRecord I) (r : GuardedActionRow P I) :
    (moveRow tenantId id st next patch r).toActionRequest = r.toActionRequest := by
  unfold moveRow
  split <;> rfl

namespace Server

variable (s : Server W P I)

def getPolicy (tenantId : Int) (kind : GuardedActionKind) : GatePolicy :=
  effectivePolicy kind (s.policies tenantId kind)

def setPolicyRow (tenantId : Int) (kind : GuardedActionKind) (row : Option PolicyRow) :
    Server W P I :=
  { s with policies := fun t k => if t = tenantId ∧ k = kind then row else s.policies t k }

def savePolicy (tenantId : Int) (input : PolicyInput) : Server W P I :=
  let policy := clampPolicy input
  s.setPolicyRow tenantId policy.kind (some {
    mode := policy.mode
    approvalAboveMagnitude := policy.approvalAboveMagnitude
    selfApproval := policy.selfApproval
    undoWindowMinutes := policy.undoWindowMinutes
    pendingExpiryMinutes := policy.pendingExpiryMinutes })

def getAction (tenantId : Int) (id : Nat) : Option (GuardedActionRow P I) :=
  s.rows.find? fun r => r.tenantId = tenantId ∧ r.id = id

def findByIdempotencyKey (tenantId : Int) (key : String) : Option (GuardedActionRow P I) :=
  s.rows.find? fun r => r.tenantId = tenantId ∧ r.idempotencyKey = some key

def keyTaken (input : CreateActionInput P) : Bool :=
  input.idempotencyKey.any fun key => (s.findByIdempotencyKey input.tenantId key).isSome

def createAction (input : CreateActionInput P) : Server W P I × GuardedActionRow P I :=
  let row := input.row (s.rows.length + 1) s.now
  ({ s with rows := s.rows ++ [row] }, row)

/-- `UPDATE guarded_actions ... WHERE tenant_id = ? AND id = ? AND state = ?`. -/
def transition (tenantId : Int) (id : Nat) (expectedState next : GuardedActionState)
    (patch : ActionRecord I → ActionRecord I) : Server W P I :=
  { s with rows := s.rows.map (moveRow tenantId id expectedState next patch) }

def matching (tenantId : Int) (id : Nat) (expectedState : GuardedActionState) :
    Option (GuardedActionRow P I) :=
  s.rows.find? fun r => r.tenantId = tenantId ∧ r.id = id ∧ r.state = expectedState

def findExpirable (limit : Nat) : List (GuardedActionRow P I) :=
  ((s.rows.filter fun r => r.state = .pending ∧ r.expiresAt.any (· ≤ s.now)).mergeSort
    fun a b => a.expiresAt.getD 0 ≤ b.expiresAt.getD 0).take (max 1 (min limit 1000))

variable {s}

variable {tenantId : Int} {r : GuardedActionRow P I} {st : GuardedActionState}
  {patch : ActionRecord I → ActionRecord I}

theorem mem_of_getAction {id : Nat}
    (h : s.getAction tenantId id = some r) : r ∈ s.rows ∧ r.tenantId = tenantId ∧ r.id = id := by
  have hkey := List.find?_some h
  rw [decide_eq_true_eq] at hkey
  exact ⟨List.mem_of_find?_eq_some h, hkey⟩

theorem mem_of_matching {id : Nat} (h : s.matching tenantId id st = some r) :
    r ∈ s.rows ∧ r.tenantId = tenantId ∧ r.id = id ∧ r.state = st := by
  have hkey := List.find?_some h
  rw [decide_eq_true_eq] at hkey
  exact ⟨List.mem_of_find?_eq_some h, hkey⟩

/-- A row after a transition: a row before it that the transition leaves alone, or the one that it
moves. -/
theorem mem_transition {id : Nat} {next : GuardedActionState}
    (h : r ∈ (s.transition tenantId id st next patch).rows) :
    ∃ r' ∈ s.rows, r.toActionRequest = r'.toActionRequest ∧
      ((r = r' ∧ ¬ (r'.tenantId = tenantId ∧ r'.id = id ∧ r'.state = st)) ∨
        (r'.id = id ∧ r'.state = st ∧ r.state = next)) := by
  obtain ⟨r', hmem, rfl⟩ := List.mem_map.mp h
  refine ⟨r', hmem, moveRow_request _ _ _ _ _ r', ?_⟩
  unfold moveRow
  split
  · rename_i hkey
    exact Or.inr ⟨hkey.2.1, hkey.2.2, rfl⟩
  · rename_i hkey
    exact Or.inl ⟨rfl, hkey⟩

theorem exists_mem_transition {id : Nat} {next : GuardedActionState} (h : r ∈ s.rows) :
    ∃ r' ∈ (s.transition tenantId id st next patch).rows,
      r'.toActionRequest = r.toActionRequest ∧ (r'.state = r.state ∨ r'.state = next) := by
  refine ⟨_, List.mem_map_of_mem h, moveRow_request _ _ _ _ _ r, ?_⟩
  unfold moveRow
  split
  · exact Or.inr rfl
  · exact Or.inl rfl

theorem getAction_transition {id : Nat} {next : GuardedActionState}
    (h : s.getAction tenantId id = some r) :
    (s.transition tenantId id st next patch).getAction tenantId id =
      some (if r.state = st then { r with state := next, record := patch r.record } else r) := by
  obtain ⟨-, htenant, hid⟩ := mem_of_getAction h
  have hkeys : (fun r : GuardedActionRow P I => decide (r.tenantId = tenantId ∧ r.id = id)) ∘
      moveRow tenantId id st next patch =
        fun r : GuardedActionRow P I => decide (r.tenantId = tenantId ∧ r.id = id) := by
    funext r'
    have hreq := moveRow_request tenantId id st next patch r'
    simp only [Function.comp_apply, congrArg ActionRequest.tenantId hreq,
      congrArg ActionRequest.id hreq]
  unfold getAction at h ⊢
  unfold transition
  rw [List.find?_map, hkeys, h, Option.map_some]
  unfold moveRow
  simp only [htenant, hid, true_and]

theorem numbered_transition {id : Nat} {next : GuardedActionState} (h : Numbered (·.id) s.rows) :
    Numbered (·.id) (s.transition tenantId id st next patch).rows := by
  apply h.map
  intro r _
  exact congrArg ActionRequest.id (moveRow_request tenantId id st next patch r)

theorem numbered_createAction {input : CreateActionInput P} (h : Numbered (·.id) s.rows) :
    Numbered (·.id) (s.createAction input).1.rows := h.snoc rfl

end Server

end HomefrontFiber.GuardedActions
