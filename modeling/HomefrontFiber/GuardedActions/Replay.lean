import Mathlib.Data.List.Pairwise
import HomefrontFiber.GuardedActions.Gated

/-!
# What a repeated submit is told

A submit with the key of an earlier one writes nothing and is answered from the row alone. The
answer is read off the state, and the state does not tell a run from a refusal by a person, an
expiry or a failed preflight, nor the kind that was asked for.
-/

namespace HomefrontFiber.GuardedActions

open List

variable {W R P I : Type}

/-- The states that an action reaches through a licence to run. -/
def GuardedActionState.licensed : GuardedActionState → Bool
  | .approved | .executed | .failed | .undone => true
  | .pending | .rejected | .expired => false

def Task.Recorded (executions : List Call) : Task P I → Prop
  | .record action _ _ (.ok _) => ∃ x ∈ executions, x.id = action.id
  | _ => True

namespace Machine

def Ran (m : Machine W P I) (id : Nat) : Prop := ∃ x ∈ m.executions, x.id = id

def ToldRight (m : Machine W P I) (kind : GuardedActionKind) : SubmitResult P I → Prop
  | .executed action => action.kind = kind ∧ m.Ran action.id
  | .pending action => action.kind = kind ∧ action.state = .pending
  | .denied action => action.kind = kind ∧ action.state = .rejected
  | .passthrough => False

/-- The rows whose state is told as it is to a submit of this kind. -/
def Retells (m : Machine W P I) (kind : GuardedActionKind) (r : GuardedActionRow P I) : Prop :=
  r.kind = kind ∧ match r.state with
    | .pending | .executed | .undone => True
    | .rejected => r.gateOutcome = .deny
    | .expired => False
    | .approved | .failed => m.Ran r.id

/-- A submit repeats the key of the row and gets past the checks before it. -/
structure Repeats (e : Engine W R P I) (m : Machine W P I) (r : GuardedActionRow P I) (user : User)
    (kind : GuardedActionKind) (key : String) : Prop where
  row : r ∈ m.server.rows
  keyed : r.idempotencyKey = some key
  nonempty : key ≠ ""
  enabled : m.server.enabled = true
  available : (e.executors kind).isSome = true
  capable : e.can user.role (guardedActionSpec kind).requestCapability = true

structure Told (m : Machine W P I) : Prop where
  keys : (m.server.rows.map (·.toActionRequest)).Pairwise fun a b =>
    a.tenantId = b.tenantId → a.idempotencyKey = b.idempotencyKey → a.idempotencyKey = none
  licensed : ∀ r ∈ m.server.rows, 0 < m.licences r.id → r.state.licensed = true
  ran : ∀ r ∈ m.server.rows, r.state = .executed ∨ r.state = .undone → m.Ran r.id
  recorded : ∀ t ∈ m.tasks, t.Recorded m.executions

variable {e : Engine W R P I} {m : Machine W P I}

theorem told_start (enabled : Bool) (world : W)
    (policies : Int → GuardedActionKind → Option PolicyRow) (now : Int) :
    Told (start enabled world policies now : Machine W P I) where
  keys := List.Pairwise.nil
  licensed _ hr := absurd hr not_mem_nil
  ran _ hr := absurd hr not_mem_nil
  recorded _ ht := absurd ht not_mem_nil

section

variable (h : Told m)
include h

theorem Told.grow (m' : Machine W P I) (hrows : m'.server.rows = m.server.rows)
    (hexec : ∀ x ∈ m.executions, x ∈ m'.executions)
    (htasks : ∀ t ∈ m'.tasks, t.Recorded m'.executions)
    (hlic : ∀ r ∈ m.server.rows, 0 < m'.licences r.id →
      0 < m.licences r.id ∨ r.state.licensed = true) : Told m' where
  keys := hrows ▸ h.keys
  licensed r hr hpos := by
    rw [hrows] at hr
    exact (hlic r hr hpos).elim (h.licensed r hr) id
  ran r hr hstate := by
    rw [hrows] at hr
    obtain ⟨x, hx, hid⟩ := h.ran r hr hstate
    exact ⟨x, hexec x hx, hid⟩
  recorded := htasks

theorem Told.of_server {server : Server W P I} (hrows : server.rows = m.server.rows) :
    Told { m with server } :=
  h.grow _ hrows (fun _ hx => hx) h.recorded fun _ _ hpos => .inl hpos

theorem Told.push {task : Task P I} (hrecorded : task.Recorded m.executions)
    (hrun : ∀ r ∈ m.server.rows, task.isRun r.id = true → r.state.licensed = true) :
    Told (m.push task) := by
  refine h.grow _ rfl (fun _ hx => hx) ?_ ?_
  · intro t ht
    rcases mem_append.mp ht with ht | ht
    · exact h.recorded t ht
    · rw [mem_singleton.mp ht]
      exact hrecorded
  · intro r hr hpos
    rw [licences_push] at hpos
    by_cases hcase : task.isRun r.id = true
    · exact .inr (hrun r hr hcase)
    · rw [if_neg hcase] at hpos
      exact .inl hpos

theorem Told.sublist {tasks : List (Task P I)} (hsub : tasks.Sublist m.tasks) :
    Told { m with tasks } :=
  h.grow _ rfl (fun _ hx => hx) (fun t ht => h.recorded t (hsub.subset ht)) fun _ _ hpos =>
    .inl (lt_of_lt_of_le hpos (Nat.add_le_add_right hsub.countP_le _))

theorem Told.transition {tenantId : Int} {id : Nat} {st next : GuardedActionState}
    {patch : ActionRecord I → ActionRecord I} (hnext : st.licensed = true → next.licensed = true)
    (hran : next = .executed ∨ next = .undone →
      ∀ r ∈ m.server.rows, r.id = id → r.state = st → m.Ran r.id) :
    Told { m with server := m.server.transition tenantId id st next patch } where
  keys := by
    have hsame : (m.server.transition tenantId id st next patch).rows.map (·.toActionRequest) =
        m.server.rows.map (·.toActionRequest) := by
      unfold Server.transition
      rw [map_map]
      exact map_congr_left fun _ _ => moveRow_request tenantId id st next patch _
    rw [hsame]
    exact h.keys
  licensed r hr hpos := by
    obtain ⟨r', hmem, hreq, ⟨rfl, -⟩ | ⟨-, hst, hmoved⟩⟩ := Server.mem_transition hr
    · exact h.licensed r hmem hpos
    · rw [congrArg ActionRequest.id hreq] at hpos
      rw [hmoved]
      exact hnext (hst ▸ h.licensed r' hmem hpos)
  ran r hr hstate := by
    obtain ⟨r', hmem, hreq, ⟨rfl, -⟩ | ⟨hid, hst, hmoved⟩⟩ := Server.mem_transition hr
    · exact h.ran r hmem hstate
    · rw [congrArg ActionRequest.id hreq]
      exact hran (hmoved ▸ hstate) r' hmem hid hst
  recorded := h.recorded

theorem Told.workCreate (hg : Gated e m) {input : CreateActionInput P}
    {actor : ActorContext} {stored : Option PolicyRow}
    (hok : m.TaskOk e (.create input actor stored)) : Told (m.workCreate input actor stored) := by
  unfold Machine.workCreate
  split
  · exact h
  · rename_i hfree
    dsimp only
    have hnew : ∀ r ∈ (m.server.createAction input).1.rows, r ∈ m.server.rows ∨
        r = (m.server.createAction input).2 := fun r hr =>
      (mem_append.mp hr).imp id mem_singleton.mp
    have hid : (m.server.createAction input).2.id = m.server.rows.length + 1 := rfl
    -- no licence is out for a number that no row has had
    have hnone : ¬ 0 < m.licences (m.server.createAction input).2.id := by
      intro hpos
      obtain ⟨r, hr, hrid, -⟩ := hg.licensed _ hpos
      have hle := hg.numbered.le_length hr
      omega
    have hcreated : Told { m with
        server := (m.server.createAction input).1
        submissions := m.submissions ++ [{
          id := (m.server.createAction input).2.id
          kind := (m.server.createAction input).2.kind
          stored
          magnitude := input.magnitude }] } := by
      constructor
      · change (List.map _ (m.server.rows ++ [_])).Pairwise _
        rw [map_append, pairwise_append]
        refine ⟨h.keys, pairwise_singleton _ _, ?_⟩
        intro a ha b hb htenant hkey
        obtain ⟨r, hr, rfl⟩ := mem_map.mp ha
        rw [mem_singleton.mp hb] at htenant hkey
        cases hinput : input.idempotencyKey with
        | none => exact hkey.trans hinput
        | some key =>
          unfold Server.keyTaken Server.findByIdempotencyKey at hfree
          rw [hinput, Option.any_some, find?_isSome] at hfree
          exact absurd ⟨r, hr, decide_eq_true ⟨htenant, hkey.trans hinput⟩⟩ hfree
      · intro r hr hpos
        rcases hnew r hr with hr | rfl
        · exact h.licensed r hr hpos
        · exact absurd hpos hnone
      · intro r hr hstate
        rcases hnew r hr with hr | rfl
        · exact h.ran r hr hstate
        · have hinput : input.state = .executed ∨ input.state = .undone := hstate
          rw [hok.2.1] at hinput
          generalize (decideGate input.kind input.policy input.magnitude).outcome = outcome at hinput
          cases outcome <;> simp [Engine.createdState] at hinput
      · exact h.recorded
    split
    · rename_i happroved
      refine hcreated.push ?_ fun r hr hrun => ?_
      · trivial
      · have hkey := (hg.numbered.snoc hid).eq_of_key hr
          (mem_append_right _ mem_cons_self) (of_decide_eq_true hrun).symm
        rw [hkey, happroved]
        rfl
    · exact hcreated

theorem Told.expire (action : GuardedActionRow P I) :
    Told { m with server := Engine.expire m.server action } := by
  rw [expire_eq]
  exact h.transition (fun hst => nomatch hst) fun hnext => nomatch hnext

theorem Told.workApprove (hg : Gated e m) (action : GuardedActionRow P I)
    (actor : ActorContext) (note : Option String) : Told (m.workApprove action actor note) := by
  unfold Machine.workApprove
  split
  · exact h.expire action
  · split
    · exact h
    · rename_i before hbefore
      have hmoved : Told { m with
          server := m.server.transition actor.tenantId action.id .pending .approved
            (Engine.decided actor note m.server.now) } :=
        h.transition (fun hst => nomatch hst) fun hnext => by simp at hnext
      dsimp only
      split
      · exact hmoved.grow _ rfl (fun _ hx => hx) hmoved.recorded fun _ _ hpos => .inl hpos
      · rename_i fresh hfresh
        obtain ⟨hfmem, -, hstate⟩ := approved_of_matching hg.numbered hbefore hfresh
        have hlogged := hmoved.grow { m with
            server := m.server.transition actor.tenantId action.id .pending .approved
              (Engine.decided actor note m.server.now)
            approvals := m.approvals ++ [{ before, actor, decidedAt := m.server.now }] }
          rfl (fun _ hx => hx) hmoved.recorded fun _ _ hpos => .inl hpos
        refine hlogged.push ?_ fun r hr hrun => ?_
        · trivial
        · have hkey := (Server.numbered_transition hg.numbered).eq_of_key hr hfmem
            (of_decide_eq_true hrun).symm
          rw [hkey, hstate]
          rfl

theorem Told.workRun {action : GuardedActionRow P I} {actor : ActorContext} {policy : GatePolicy}
    (hlic : ∀ r ∈ m.server.rows, r.id = action.id → r.state.licensed = true) :
    Told (m.workRun e action actor policy) := by
  unfold Machine.workRun
  split
  · exact h
  · rename_i executor _
    unfold Engine.perform
    cases hpreflight : executor.preflight action.payload actor m.server.world with
    | error failure => exact (h.of_server rfl).push trivial fun _ _ hrun => nomatch hrun
    | ok =>
      have hcalled := h.grow { m with
          server := { m.server with
            world := (executor.execute action.payload actor m.server.now m.server.world).2 }
          executions := m.executions ++ [{ id := action.id, kind := action.kind }] }
        rfl (fun _ hx => mem_append_left _ hx) (fun t ht => by
          cases t with
          | record a _ _ result =>
            cases result with
            | error => trivial
            | ok =>
              obtain ⟨x, hx, hid⟩ := h.recorded _ ht
              exact ⟨x, mem_append_left _ hx, hid⟩
          | _ => trivial) fun r hr hpos => by
          change 0 < licences { m with executions := m.executions ++ [_] } r.id at hpos
          rw [licences_call] at hpos
          by_cases hid : action.id = r.id
          · exact .inr (hlic r hr hid.symm)
          · rw [if_neg hid] at hpos
            exact .inl hpos
      refine hcalled.push ?_ fun _ _ hrun => Bool.noConfusion hrun
      cases (executor.execute action.payload actor m.server.now m.server.world).1 with
      | error => trivial
      | ok => exact ⟨_, mem_append_right _ mem_cons_self, rfl⟩

theorem Told.work (hg : Gated e m) {task : Task P I} (hok : m.TaskOk e task)
    (hrecorded : task.Recorded m.executions)
    (hlic : ∀ r ∈ m.server.rows, task.isRun r.id = true → r.state.licensed = true) :
    Told (m.work e task) := by
  cases task with
  | create input actor stored => exact h.workCreate hg hok
  | approve action actor note => exact h.workApprove hg action actor note
  | reject action actor note =>
    exact h.transition (fun hst => nomatch hst) fun hnext => by simp at hnext
  | run action actor policy =>
    exact h.workRun fun r hr hid => hlic r hr (decide_eq_true hid.symm)
  | record action actor policy result =>
    change Told (m.workRecord e action actor policy result)
    unfold Machine.workRecord Engine.recordExecution
    split
    · exact h
    · cases result with
      | error => exact h.transition (fun _ => rfl) fun hnext => by simp at hnext
      | ok =>
        obtain ⟨x, hx, hid⟩ := hrecorded
        exact h.transition (fun _ => rfl) fun _ r _ hr _ => ⟨x, hx, hid.trans hr.symm⟩
  | reverse action actor inverse reason =>
    change Told (m.workReverse e action actor inverse reason)
    unfold Machine.workReverse
    split
    · exact h
    · rename_i executor _
      have hreversed := h.grow { m with
          server := { m.server with
            world := (executor.reverse inverse actor m.server.now m.server.world).2 }
          reversals := m.reversals ++ [{ id := action.id, kind := action.kind }] }
        rfl (fun _ hx => hx) h.recorded fun _ _ hpos => .inl hpos
      dsimp only
      split
      · exact hreversed
      · exact hreversed.push trivial fun _ _ hrun => nomatch hrun
  | undone action actor reason =>
    exact h.transition (fun _ => rfl) fun _ r hr _ hst => h.ran r hr (.inl hst)
  | expire action => exact h.expire action

end

theorem told_step (m : Machine W P I) (a : GateAction W R P I) (h : Gated e m ∧ Told m) :
    Gated e (m.step e a) ∧ Told (m.step e a) := by
  obtain ⟨hg, h⟩ := h
  refine ⟨gated_step m a hg, ?_⟩
  have hpush : ∀ task : Task P I, task.Recorded m.executions → (∀ id, task.isRun id = false) →
      Told (m.push task) := fun task hrecorded hidle =>
    h.push hrecorded fun r _ hrun => by simp [hidle] at hrun
  cases a with
  | submit user tenantId kind payload reason idempotencyKey =>
    unfold step
    dsimp only
    split
    · exact hpush _ trivial fun _ => rfl
    · exact h
    · exact h
  | approve user tenantId actionId note =>
    unfold step
    dsimp only
    split
    · exact hpush _ trivial fun _ => rfl
    · exact h
  | reject user tenantId actionId note =>
    unfold step
    dsimp only
    split
    · exact hpush _ trivial fun _ => rfl
    · exact h
  | undo user tenantId actionId reason =>
    unfold step
    dsimp only
    split
    · exact hpush _ trivial fun _ => rfl
    · exact h
  | sweepExpiredActions limit =>
    refine h.grow _ rfl (fun _ hx => hx) ?_ ?_
    · intro t ht
      rcases mem_append.mp ht with ht | ht
      · exact h.recorded t ht
      · obtain ⟨r, -, rfl⟩ := mem_map.mp ht
        trivial
    · intro r _ hpos
      have hidle : ((m.server.findExpirable limit).map Task.expire).countP (Task.isRun r.id) = 0 := by
        rw [countP_eq_zero]
        intro t ht
        obtain ⟨r', -, rfl⟩ := mem_map.mp ht
        exact fun hrun => nomatch hrun
      unfold licences at hpos ⊢
      change 0 < (m.tasks ++ _).countP _ + _ at hpos
      rw [countP_append, hidle] at hpos
      exact .inl hpos
  | proceed i =>
    unfold step
    dsimp only
    cases hi : m.tasks[i]? with
    | none => exact h
    | some task =>
      obtain ⟨hrest, hok, -⟩ := hg.take hi
      apply (h.sublist (eraseIdx_sublist _ _)).work hrest hok
        (h.recorded task (mem_of_getElem? hi))
      intro r hr hrun
      apply h.licensed r hr
      rw [licences_eraseIdx hi, if_pos hrun]
      exact Nat.succ_pos _
  | crash i => exact h.sublist (eraseIdx_sublist _ _)
  | savePolicy tenantId input => exact h.of_server rfl
  | storePolicy tenantId kind row => exact h.of_server rfl
  | elsewhere world => exact h.of_server rfl
  | clock now => exact h.of_server rfl
  | deploy enabled => exact h.of_server rfl

theorem Told.find (h : Told m) {r : GuardedActionRow P I} (hr : r ∈ m.server.rows) {key : String}
    (hkey : r.idempotencyKey = some key) :
    m.server.findByIdempotencyKey r.tenantId key = some r := by
  cases hfind : m.server.findByIdempotencyKey r.tenantId key with
  | none =>
    have hnone := find?_eq_none.mp hfind r hr
    simp [hkey] at hnone
  | some r' =>
    have hmem := mem_of_find?_eq_some hfind
    have hfound := find?_some hfind
    rw [decide_eq_true_eq] at hfound
    have hsymm : Std.Symm fun a b : GuardedActionRow P I => a.tenantId = b.tenantId →
        a.idempotencyKey = b.idempotencyKey → a.idempotencyKey = none :=
      ⟨fun a b hab htenant hsame => hsame.trans (hab htenant.symm hsame.symm)⟩
    by_contra hne
    have hapart := (pairwise_map.mp h.keys).forall hmem hr
      (fun hsame => hne (congrArg some hsame)) hfound.1 (hfound.2.trans hkey.symm)
    rw [hfound.2] at hapart
    cases hapart

/-- A repeated submit writes nothing, and is told right exactly by a row that retells. -/
theorem Told.repeats (h : Told m) {r : GuardedActionRow P I} {user : User}
    {kind : GuardedActionKind} {key : String} (hr : Repeats e m r user kind key) (payload : R)
    (reason : Option String) :
    ∃ result, e.judgeSubmit m.server
        { kind, payload, actor := actorOf user r.tenantId, reason, idempotencyKey := some key } =
          .ok (.answer result) ∧
      m.step e (.submit user r.tenantId kind payload reason (some key)) = m ∧
      (m.ToldRight kind result ↔ m.Retells kind r) := by
  obtain ⟨executor, hexecutor⟩ := Option.isSome_iff_exists.mp hr.available
  have hfor : e.executorFor kind = .ok executor := by
    unfold Engine.executorFor
    rw [hexecutor]
  have hexisting : Engine.existing m.server
      { kind, payload, actor := actorOf user r.tenantId, reason, idempotencyKey := some key } =
        some r := by
    unfold Engine.existing
    rw [Option.filter_some_pos (by simpa using hr.nonempty), Option.bind_some]
    exact h.find hr.row hr.keyed
  have hjudge : e.judgeSubmit m.server
      { kind, payload, actor := actorOf user r.tenantId, reason, idempotencyKey := some key } =
        .ok (.answer (replayResult r)) := by
    unfold Engine.judgeSubmit
    rw [if_neg (not_not.mpr hr.enabled), hfor]
    dsimp only
    have hcan : ¬ ¬ e.can (actorOf user r.tenantId).role (guardedActionSpec kind).requestCapability =
        true := not_not.mpr hr.capable
    rw [if_neg hcan, hexisting]
  refine ⟨replayResult r, hjudge, ?_, ?_⟩
  · unfold step
    dsimp only
    rw [hjudge]
  · have hidle : r.state.licensed = false → ¬ m.Ran r.id := by
      rintro hstate ⟨x, hx, hid⟩
      have hpos : 0 < m.licences r.id := by
        unfold licences
        exact Nat.add_pos_right _ (countP_pos_iff.mpr ⟨x, hx, decide_eq_true hid⟩)
      rw [h.licensed r hr.row hpos] at hstate
      cases hstate
    unfold replayResult Retells
    cases hstate : r.state with
    | pending => simp [ToldRight, hstate]
    | approved | failed => exact Iff.rfl
    | expired => simp [ToldRight, hidle (by rw [hstate]; rfl)]
    | executed | undone => simp [ToldRight, h.ran r hr.row (by simp [hstate])]
    | rejected =>
      by_cases hdeny : r.gateOutcome = .deny
      · simp [ToldRight, hdeny, hstate]
      · simp [ToldRight, hdeny, hidle (by rw [hstate]; rfl)]

/-- In every state that any calls, crashes and policies lead to, a submit that repeats a key has no
effect, and is told right exactly when the row retells to its kind. -/
theorem repeats_run (e : Engine W R P I) (enabled : Bool) (world : W)
    (policies : Int → GuardedActionKind → Option PolicyRow) (now : Int)
    (actions : List (GateAction W R P I)) (r : GuardedActionRow P I) (user : User)
    (kind : GuardedActionKind) (key : String) (payload : R) (reason : Option String)
    (h : Repeats e (run (step e) (start enabled world policies now) actions) r user kind key) :
    ∃ result, e.judgeSubmit (run (step e) (start enabled world policies now) actions).server
        { kind, payload, actor := actorOf user r.tenantId, reason, idempotencyKey := some key } =
          .ok (.answer result) ∧
      step e (run (step e) (start enabled world policies now) actions)
        (.submit user r.tenantId kind payload reason (some key)) =
          run (step e) (start enabled world policies now) actions ∧
      (ToldRight (run (step e) (start enabled world policies now) actions) kind result ↔
        Retells (run (step e) (start enabled world policies now) actions) kind r) :=
  (run_invariant_all told_step actions
    ⟨gated_start enabled world policies now, told_start enabled world policies now⟩).2.repeats h
      payload reason

/-- Executors that have nothing to check or to change, for whoever asks. -/
def openEngine : Engine Unit Unit Unit Unit where
  can _ _ := true
  executors _ := some {
    parse := fun _ _ => .ok ()
    magnitude := fun _ => 1
    label := fun _ _ _ => none
    preflight := fun _ _ _ => .ok ()
    execute := fun _ _ _ _ => (.ok { summary := "", inverse := none }, ())
    fingerprint := fun _ _ _ => none
    reverse := fun _ _ _ _ => (.ok "", ()) }

def requester : User where
  id := 1
  name := none
  role := none

def lift : List (GateAction Unit Unit Unit Unit) :=
  [.submit requester 1 .contactSuppressionLift () none (some "k"), .proceed 0]

def afterRun (actions : List (GateAction Unit Unit Unit Unit)) : Machine Unit Unit Unit :=
  run (step openEngine) (start true () (fun _ _ => none) 0) actions

def again : SubmitInput Unit where
  kind := .contactSuppressionLift
  payload := ()
  actor := actorOf requester 1
  reason := none
  idempotencyKey := some "k"

theorem repeats_run_pending : ∃ r, r.state = .pending ∧
    ∃ result, openEngine.judgeSubmit (afterRun lift).server again = .ok (.answer result) ∧
      step openEngine (afterRun lift)
        (.submit requester 1 .contactSuppressionLift () none (some "k")) = afterRun lift ∧
      (ToldRight (afterRun lift) .contactSuppressionLift result ↔
        Retells (afterRun lift) .contactSuppressionLift r) :=
  ⟨_, rfl, repeats_run openEngine true () (fun _ _ => none) 0 lift _ requester
    .contactSuppressionLift "k" () none
    ⟨mem_cons_self, rfl, by decide, rfl, rfl, rfl⟩⟩

/-- A second person rejects the lift, and the requester is told that it was executed. -/
theorem not_toldRight_rejected : ∃ result, openEngine.judgeSubmit
        (afterRun (lift ++ [.reject { requester with id := 2 } 1 1 none, .proceed 0])).server again =
          .ok (.answer result) ∧
      ¬ ToldRight (afterRun (lift ++ [.reject { requester with id := 2 } 1 1 none, .proceed 0]))
        .contactSuppressionLift result := by
  refine ⟨.executed _, rfl, ?_⟩
  rintro ⟨-, x, hx, -⟩
  cases hx

end Machine

end HomefrontFiber.GuardedActions
