import Mathlib.Logic.Function.Basic
import HomefrontFiber.ScanRun.Ledger

/-!
# The engine around one run

Workers run from one suspension to the next without a break: the token mint, the breaker wait, the
pacing between a claim and its checks, each provider check, and the back-off after a batch. The
operator's actions and the reaper's ticks come in between.
-/

namespace HomefrontFiber.ScanRun

inductive Phase where
  | ended
  | starting
  | breakerWait
  | pacing (batch : List Int) (inspected : Nat)
  | checking
  | backoff
  deriving DecidableEq

structure Engine where
  db : RunDb
  phase : Nat → Phase := fun _ => .ended
  /-- The checks that are out, with the worker that began them. -/
  checks : List (Nat × Int) := []
  /-- `activeRuns.has(run.id)` in each process. -/
  active : Nat → Bool := fun _ => false

inductive EngineAction where
  | runScanWorker (worker : Nat)
  | heartbeat (worker : Nat) (now : Int)
  /-- The worker's timer fires, and it runs to its next suspension. -/
  | wake (worker : Nat) (breakerOpen : Bool) (batch : Nat) (policy : ClaimPolicy)
      (views : TargetViews) (now : Int)
  | answer (worker : Nat) (targetId : Int) (answer : CheckAnswer) (now : Int)
  /-- Something outside a check throws in the worker. -/
  | fail (worker : Nat) (message : String) (now : Int)
  | pause (now : Int)
  | cancel (now : Int)
  | resume (worker : Nat) (now : Int)
  | resumeInterruptedRuns (process : Nat) (drained : Bool) (now : Int)
  | resumeCriticalRuns (process : Nat) (now : Int)

def CheckAnswer.throws : CheckAnswer → Bool
  | .exception .. => true
  | _ => false

section Engine

variable (home : Nat → Nat) (reopenBudget : Nat)

def setPhase (s : Engine) (worker : Nat) (phase : Phase) : Engine :=
  { s with phase := Function.update s.phase worker phase }

/-- The worker's `finally`. -/
def leave (s : Engine) (worker : Nat) : Engine :=
  { setPhase s worker .ended with active := Function.update s.active (home worker) false }

def startWorker (s : Engine) (worker : Nat) : Engine :=
  if s.active (home worker) || s.phase worker ≠ .ended || s.checks.any (·.1 = worker) then s
  else { setPhase s worker .starting with active := Function.update s.active (home worker) true }

def loopTop (s : Engine) (worker : Nat) (breakerOpen : Bool) (batch : Nat) (policy : ClaimPolicy)
    (views : TargetViews) (now : Int) : Engine :=
  if s.db.run.status ≠ .running then leave home s worker
  else if breakerOpen && s.db.run.verified + s.db.run.failed < s.db.run.budget then
    setPhase { s with db := touchRun s.db now } worker .breakerWait
  else
    let (db, cycle) := workerTop s.db batch policy views now
    if s.db.run.budget ≤ s.db.run.verified + s.db.run.failed then leave home { s with db } worker
    else setPhase { s with db } worker (.pacing cycle.targets cycle.inspected)

def wake (s : Engine) (worker : Nat) (breakerOpen : Bool) (batch : Nat) (policy : ClaimPolicy)
    (views : TargetViews) (now : Int) : Engine :=
  match s.phase worker with
  | .ended | .checking => s
  | .pacing [] 0 => leave home { s with db := setRunStatus s.db .done none now } worker
  | .pacing (targetId :: rest) _ =>
    let db := touchRun s.db now
    if s.db.run.status = .running then
      { setPhase { s with db } worker .checking with
        checks := s.checks ++ (targetId :: rest).map fun targetId => (worker, targetId) }
    else setPhase { s with db } worker .backoff
  | .starting | .breakerWait | .backoff | .pacing [] (_ + 1) =>
    loopTop home s worker breakerOpen batch policy views now

/-- A check comes back. Its answer is recorded on a running run only; a throw is recorded always. -/
def answerCheck (s : Engine) (worker : Nat) (targetId : Int) (answer : CheckAnswer) (now : Int) :
    Engine :=
  if (worker, targetId) ∈ s.checks then
    let db :=
      if answer.throws || s.db.run.status = .running then recordAnswer s.db targetId answer now
      else s.db
    let checks := s.checks.erase (worker, targetId)
    let next := { s with db, checks }
    if s.phase worker = .checking && !checks.any (·.1 = worker) then setPhase next worker .backoff
    else next
  else s

/-- The reclaim of a running run that no worker of the process owns. -/
def reclaim (db : RunDb) (now : Int) : RunDb :=
  let reset := resetInflightTargets db
  if countQueued reset = 0 then setRunStatus reset .done none now else reset

def STUCK_RECLAIM_SECONDS : Int := 300

/-- One tick of the reaper, as far as it is about this run; `drained` says that the run is among
the stranded ones that the tick takes. -/
def resumeInterruptedRuns (s : Engine) (process : Nat) (drained : Bool) (now : Int) : Engine :=
  let active :=
    if resumable s.db STUCK_RECLAIM_SECONDS now then Function.update s.active process false
    else s.active
  let db := if resumable s.db 30 now && !active process then reclaim s.db now else s.db
  let drain := drained && stranded db now && !active process
  { s with active, db := if drain then reopenStranded reopenBudget db db.run now else db }

def resumeCriticalRuns (s : Engine) (process : Nat) (now : Int) : Engine :=
  if resumable s.db 0 now && !s.active process then { s with db := reclaim s.db now } else s

def engineStep (s : Engine) : EngineAction → Engine
  | .runScanWorker worker => startWorker home s worker
  | .heartbeat worker now =>
    if s.phase worker = .ended then s else { s with db := touchRun s.db now }
  | .wake worker breakerOpen batch policy views now =>
    wake home s worker breakerOpen batch policy views now
  | .answer worker targetId answer now => answerCheck s worker targetId answer now
  | .fail worker message now =>
    if s.phase worker = .ended then s
    else leave home { s with db := setRunStatus s.db .error (some message) now } worker
  | .pause now =>
    if s.db.run.status = .running then { s with db := setRunStatus s.db .paused none now } else s
  | .cancel now => { s with db := setRunStatus s.db .cancelled none now }
  | .resume worker now =>
    if s.db.run.status = .paused then
      startWorker home { s with db := setRunStatus s.db .running none now } worker
    else s
  | .resumeInterruptedRuns process drained now =>
    resumeInterruptedRuns reopenBudget s process drained now
  | .resumeCriticalRuns process now => resumeCriticalRuns s process now

end Engine

def Stopped (db : RunDb) : Prop := db.run.status = .paused ∨ db.run.status = .cancelled

def counters (run : ScanRunRow) : List Nat :=
  [run.verified, run.newFiber, run.newlyLive, run.failed, run.estBytes, run.reopenCount]

/-- The status and the counters stay, and no target is claimed. -/
structure Untouched (db db' : RunDb) : Prop where
  status : db'.run.status = db.run.status
  counters : counters db'.run = counters db.run
  unclaimed : List.Forall₂ (fun t t' => t'.state = .inflight → t.state = .inflight)
    db.targets db'.targets

def EngineAction.operator : EngineAction → Bool
  | .pause _ | .cancel _ | .resume _ _ => true
  | _ => false

/-- A step of a worker or a reaper leaves a stopped run as it is. -/
def StopHolds (home : Nat → Nat) (reopenBudget : Nat) (s : Engine) (a : EngineAction) : Prop :=
  Stopped s.db → a.operator = false → Untouched s.db (engineStep home reopenBudget s a).db

/-- On a stopped run: a worker wakes to an empty claim, fails, or gets a throw from a check. -/
def Overwrites (s : Engine) : EngineAction → Prop
  | .wake worker _ _ _ _ _ => Stopped s.db ∧ s.phase worker = .pacing [] 0
  | .fail worker _ _ => Stopped s.db ∧ s.phase worker ≠ .ended
  | .answer worker targetId answer _ =>
    Stopped s.db ∧ (worker, targetId) ∈ s.checks ∧ answer.throws = true
  | _ => False

instance (db : RunDb) : Decidable (Stopped db) := inferInstanceAs (Decidable (_ ∨ _))

instance (s : Engine) : ∀ a, Decidable (Overwrites s a)
  | .wake _ _ _ _ _ _ | .fail _ _ _ => inferInstanceAs (Decidable (_ ∧ _))
  | .answer _ _ _ _ => inferInstanceAs (Decidable (_ ∧ _ ∧ _))
  | .runScanWorker _ | .heartbeat _ _ | .pause _ | .cancel _ | .resume _ _
  | .resumeInterruptedRuns _ _ _ | .resumeCriticalRuns _ _ => isFalse id

end HomefrontFiber.ScanRun

/-!
## Stopped runs

A stopped run is left alone by every worker and every reaper, but for three steps: a worker that
wakes to an empty claim closes the run without reading its status again, a worker that fails sets it
to `error`, and a check that throws charges its bytes.
-/

namespace HomefrontFiber.ScanRun

variable {home : Nat → Nat} {reopenBudget : Nat} {s : Engine}

theorem Untouched.refl (db : RunDb) : Untouched db db :=
  ⟨rfl, rfl, List.forall₂_same.mpr fun _ _ h => h⟩

variable {db db' : RunDb} {worker : Nat} {a : EngineAction}

theorem Untouched.of_eq (h : db' = db) : Untouched db db' := by
  rw [h]
  exact Untouched.refl db

theorem untouched_touchRun (db : RunDb) (now : Int) : Untouched db (touchRun db now) :=
  ⟨rfl, rfl, List.forall₂_same.mpr fun _ _ h => h⟩

theorem Stopped.not_running (h : Stopped db) : db.run.status ≠ .running := by
  rintro hrunning
  unfold Stopped at h
  rw [hrunning] at h
  obtain h | h := h <;> cases h

theorem Stopped.not_resumable (h : Stopped db) (staleSeconds now : Int) :
    resumable db staleSeconds now = false := by
  unfold resumable
  rw [decide_eq_false h.not_running, Bool.false_and]

theorem Stopped.not_stranded (h : Stopped db) (now : Int) : stranded db now = false := by
  have hstatus : db.run.status ≠ .done ∧ db.run.status ≠ .error := by
    unfold Stopped at h
    constructor <;> intro hbad <;> rw [hbad] at h <;> obtain h | h := h <;> cases h
  unfold stranded
  rw [decide_eq_false hstatus.1, decide_eq_false hstatus.2, Bool.or_false, Bool.false_and]

@[simp] theorem startWorker_db (s : Engine) (worker : Nat) :
    (startWorker home s worker).db = s.db := by
  unfold startWorker
  split <;> rfl

theorem Stopped.loopTop (h : Stopped s.db) (worker : Nat) (breakerOpen : Bool) (batch : Nat)
    (policy : ClaimPolicy) (views : TargetViews) (now : Int) :
    (loopTop home s worker breakerOpen batch policy views now).db = s.db := by
  unfold ScanRun.loopTop
  rw [if_pos h.not_running]
  rfl

theorem Stopped.wake (h : Stopped s.db) (hphase : s.phase worker ≠ .pacing [] 0)
    (breakerOpen : Bool) (batch : Nat) (policy : ClaimPolicy) (views : TargetViews) (now : Int) :
    Untouched s.db (wake home s worker breakerOpen batch policy views now).db := by
  have htop := Untouched.of_eq (@Stopped.loopTop home s h worker breakerOpen batch policy views now)
  unfold ScanRun.wake
  split
  · exact Untouched.refl s.db
  · exact Untouched.refl s.db
  · rename_i hempty
    exact absurd hempty hphase
  · dsimp only
    rw [if_neg h.not_running]
    exact untouched_touchRun s.db now
  all_goals exact htop

theorem Stopped.answerCheck (h : Stopped s.db) {targetId : Int}
    {answer : CheckAnswer} (hrecorded : (worker, targetId) ∈ s.checks → answer.throws = false)
    (now : Int) : (answerCheck s worker targetId answer now).db = s.db := by
  unfold ScanRun.answerCheck
  split
  · rename_i hmem
    rw [hrecorded hmem, decide_eq_false h.not_running]
    dsimp only
    split <;> rfl
  · rfl

theorem Stopped.resumeInterruptedRuns (h : Stopped s.db) (process : Nat) (drained : Bool)
    (now : Int) :
    (resumeInterruptedRuns reopenBudget s process drained now).db = s.db := by
  unfold ScanRun.resumeInterruptedRuns
  simp only [h.not_resumable, h.not_stranded, Bool.false_and, Bool.and_false, Bool.false_eq_true,
    if_false]

theorem Stopped.resumeCriticalRuns (h : Stopped s.db) (process : Nat) (now : Int) :
    (resumeCriticalRuns s process now).db = s.db := by
  unfold ScanRun.resumeCriticalRuns
  rw [h.not_resumable, Bool.false_and]
  rfl

theorem recordAnswer_exception_estBytes (db : RunDb) (targetId : Int) (admissionTimedOut needsFix : Bool)
    (now : Int) :
    (recordAnswer db targetId (.exception admissionTimedOut needsFix) now).run.estBytes =
      db.run.estBytes + DEFAULT_BYTES_PER_CHECK := rfl

theorem estBytes_of_counters {run run' : ScanRunRow} (h : counters run' = counters run) :
    run'.estBytes = run.estBytes := by
  unfold counters at h
  simp only [List.cons.injEq] at h
  exact h.2.2.2.2.1

theorem not_untouched_of_status (h : Stopped db) {status : RunStatus}
    (hstatus : db'.run.status = status) (hclosed : status = .done ∨ status = .error) :
    ¬ Untouched db db' := by
  intro huntouched
  have hsame := huntouched.status.symm.trans hstatus
  unfold Stopped at h
  rw [hsame] at h
  obtain rfl | rfl := hclosed <;> obtain h | h := h <;> cases h

theorem Overwrites.not_stopHolds (h : Overwrites s a) : ¬ StopHolds home reopenBudget s a := by
  intro hholds
  cases a with
  | wake worker breakerOpen batch policy views now =>
    obtain ⟨hstopped, hphase⟩ := h
    have hdone : (engineStep home reopenBudget s
        (.wake worker breakerOpen batch policy views now)).db.run.status = .done := by
      dsimp only [engineStep]
      unfold ScanRun.wake
      rw [hphase]
      rfl
    exact not_untouched_of_status hstopped hdone (.inl rfl) (hholds hstopped rfl)
  | fail worker message now =>
    obtain ⟨hstopped, hphase⟩ := h
    have herror : (engineStep home reopenBudget s (.fail worker message now)).db.run.status =
        .error := by
      dsimp only [engineStep]
      rw [if_neg hphase]
      rfl
    exact not_untouched_of_status hstopped herror (.inr rfl) (hholds hstopped rfl)
  | answer worker targetId answer now =>
    obtain ⟨hstopped, hmem, hthrows⟩ := h
    have hcounters := (hholds hstopped rfl).counters
    have hdb : (engineStep home reopenBudget s (.answer worker targetId answer now)).db =
        recordAnswer s.db targetId answer now := by
      dsimp only [engineStep]
      unfold ScanRun.answerCheck
      rw [if_pos hmem, hthrows]
      dsimp only [Bool.true_or]
      split <;> rfl
    cases answer with
    | exception admissionTimedOut needsFix =>
      have hbytes := estBytes_of_counters hcounters
      rw [hdb, recordAnswer_exception_estBytes] at hbytes
      have hcharged : 0 < DEFAULT_BYTES_PER_CHECK := by decide
      omega
    | conclusive _ _ _ _ => cases hthrows
    | transient _ _ _ _ => cases hthrows
  | _ => exact h

theorem stopHolds_iff (a : EngineAction) :
    StopHolds home reopenBudget s a ↔ ¬ Overwrites s a := by
  refine ⟨fun hholds hover => hover.not_stopHolds hholds, fun hkept hstopped hoperator => ?_⟩
  cases a with
  | runScanWorker worker => exact Untouched.of_eq (startWorker_db s worker)
  | heartbeat worker now =>
    dsimp only [engineStep]
    split
    · exact Untouched.refl s.db
    · exact untouched_touchRun s.db now
  | wake worker breakerOpen batch policy views now =>
    exact hstopped.wake (fun hphase => hkept ⟨hstopped, hphase⟩) breakerOpen batch policy views now
  | answer worker targetId answer now =>
    refine Untouched.of_eq (hstopped.answerCheck (fun hmem => ?_) now)
    exact eq_false_of_ne_true fun hthrows => hkept ⟨hstopped, hmem, hthrows⟩
  | fail worker message now =>
    dsimp only [engineStep]
    split
    · exact Untouched.refl s.db
    · rename_i hphase
      exact absurd ⟨hstopped, hphase⟩ hkept
  | pause now => cases hoperator
  | cancel now => cases hoperator
  | resume worker now => cases hoperator
  | resumeInterruptedRuns process drained now =>
    exact Untouched.of_eq (hstopped.resumeInterruptedRuns process drained now)
  | resumeCriticalRuns process now => exact Untouched.of_eq (hstopped.resumeCriticalRuns process now)

/-- The run is still stopped as it was, or cancelled by the operator since. -/
structure StaysStopped (db db' : RunDb) : Prop where
  stopped : Stopped db'
  cancelled : db.run.status = .cancelled → db'.run.status = .cancelled
  counters : counters db'.run = counters db.run
  unclaimed : List.Forall₂ (fun t t' => t'.state = .inflight → t.state = .inflight)
    db.targets db'.targets

def EngineAction.resumes : EngineAction → Bool
  | .resume _ _ => true
  | _ => false

theorem forall₂_imp_trans {p : RunTarget → Prop} {l l' l'' : List RunTarget}
    (hfirst : List.Forall₂ (fun t t' => p t' → p t) l l')
    (hsecond : List.Forall₂ (fun t t' => p t' → p t) l' l'') :
    List.Forall₂ (fun t t' => p t' → p t) l l'' := by
  induction hfirst generalizing l'' with
  | nil =>
    cases hsecond
    exact List.Forall₂.nil
  | cons hhead _ ih =>
    cases hsecond with
    | cons hhead' htail' => exact List.Forall₂.cons (fun h => hhead (hhead' h)) (ih htail')

theorem StaysStopped.refl {db : RunDb} (h : Stopped db) : StaysStopped db db :=
  ⟨h, fun h => h, rfl, List.forall₂_same.mpr fun _ _ h => h⟩

theorem StaysStopped.trans {a b c : RunDb} (hab : StaysStopped a b) (hbc : StaysStopped b c) :
    StaysStopped a c where
  stopped := hbc.stopped
  cancelled h := hbc.cancelled (hab.cancelled h)
  counters := hbc.counters.trans hab.counters
  unclaimed := forall₂_imp_trans hab.unclaimed hbc.unclaimed

theorem staysStopped_step (hstopped : Stopped s.db)
    (hkept : ¬ Overwrites s a) (hresumes : a.resumes = false) :
    StaysStopped s.db (engineStep home reopenBudget s a).db := by
  have hstep : ∀ {db : RunDb}, Untouched s.db db → StaysStopped s.db db := by
    intro db h
    refine ⟨?_, fun hcancelled => h.status.trans hcancelled, h.counters, h.unclaimed⟩
    unfold Stopped
    rw [h.status]
    exact hstopped
  by_cases hoperator : a.operator = false
  · exact hstep ((stopHolds_iff a).mpr hkept hstopped hoperator)
  · cases a with
    | pause now =>
      dsimp only [engineStep]
      rw [if_neg hstopped.not_running]
      exact StaysStopped.refl hstopped
    | cancel now =>
      exact ⟨.inr rfl, fun _ => rfl, rfl, List.forall₂_same.mpr fun _ _ h => h⟩
    | resume worker now => cases hresumes
    | _ => exact absurd rfl hoperator

theorem staysStopped_run {as : List EngineAction} (hstopped : Stopped s.db)
    (hresumes : ∀ a ∈ as, a.resumes = false)
    (hkept : Along (engineStep home reopenBudget) (fun s a => ¬ Overwrites s a) s as) :
    StaysStopped s.db (run (engineStep home reopenBudget) s as).db := by
  have hstep : ∀ (t : Engine) (a : EngineAction), StaysStopped s.db t.db →
      (¬ Overwrites t a) ∧ a.resumes = false →
        StaysStopped s.db (engineStep home reopenBudget t a).db :=
    fun t a hstays hcond => hstays.trans (staysStopped_step hstays.stopped hcond.1 hcond.2)
  exact run_invariant hstep (StaysStopped.refl hstopped) (hkept.and_forall hresumes)

/-- The rule holds along a run exactly when no step of it overwrites a stopped run, and then a
stopped run stays stopped until the operator resumes it. -/
theorem stopped_run (home : Nat → Nat) (reopenBudget : Nat) (s : Engine) (as : List EngineAction) :
    (Along (engineStep home reopenBudget) (StopHolds home reopenBudget) s as ↔
      Along (engineStep home reopenBudget) (fun s a => ¬ Overwrites s a) s as) ∧
    (Stopped s.db → (∀ a ∈ as, a.resumes = false) →
      Along (engineStep home reopenBudget) (fun s a => ¬ Overwrites s a) s as →
        StaysStopped s.db (run (engineStep home reopenBudget) s as).db) := by
  constructor
  · constructor
    · exact Along.mono fun s a => (stopHolds_iff a).mp
    · exact Along.mono fun s a => (stopHolds_iff a).mpr
  · intro hstopped hresumes hkept
    exact staysStopped_run hstopped hresumes hkept

def newEngine (tenantId : Int) (budget : Nat) (targetIds : List Int) (now : Int) : Engine where
  db := createScanRun tenantId budget targetIds now

def wakes (worker : Nat) (now : Int) : EngineAction :=
  .wake worker false 100 ⟨false, false, 0⟩ (fun _ => some {}) now

def oneCheck : List EngineAction := [.runScanWorker 1, wakes 1 10, wakes 1 11]

/-- A check that was out comes back to a paused run, and the reaper finds its heartbeat stale. -/
def pausedTail : List EngineAction :=
  [.answer 1 7 (.conclusive true false true 12000) 12, wakes 1 13, .resumeInterruptedRuns 0 true 400,
    .resumeCriticalRuns 1 400, .cancel 410]

theorem stopped_run_paused :
    (run (engineStep id 5) (newEngine 1 5 [7] 0) (oneCheck ++ [.pause 12])).db.run.status = .paused ∧
      StaysStopped (run (engineStep id 5) (newEngine 1 5 [7] 0) (oneCheck ++ [.pause 12])).db
        (run (engineStep id 5) (run (engineStep id 5) (newEngine 1 5 [7] 0) (oneCheck ++ [.pause 12]))
          pausedTail).db := by
  have hpaused : (run (engineStep id 5) (newEngine 1 5 [7] 0)
      (oneCheck ++ [.pause 12])).db.run.status = .paused := by decide +kernel
  refine ⟨hpaused, (stopped_run id 5 _ pausedTail).2 (.inl hpaused) (by decide) ?_⟩
  decide +kernel

/-- The only target waits for its retry, so the next claim is empty; the cancel lands while the
worker paces after it. -/
def cancelledThenReopened : List EngineAction :=
  oneCheck ++ [.answer 1 7 (.transient true 1 true 12000) 12, wakes 1 13, .cancel 14, wakes 1 15,
    .resumeInterruptedRuns 0 true 100]

theorem not_stopHolds_emptyClaim :
    ¬ Along (engineStep id 5) (StopHolds id 5) (newEngine 1 5 [7] 0) cancelledThenReopened ∧
      (run (engineStep id 5) (newEngine 1 5 [7] 0)
        (cancelledThenReopened.take 6)).db.run.status = .cancelled ∧
      (run (engineStep id 5) (newEngine 1 5 [7] 0) cancelledThenReopened).db.run.status =
        .running := by
  refine ⟨fun h => ?_, by decide +kernel, by decide +kernel⟩
  have hkept := h.mono fun s a => (stopHolds_iff a).mp
  exact absurd hkept (by decide +kernel)

end HomefrontFiber.ScanRun
