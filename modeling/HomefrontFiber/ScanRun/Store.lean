import HomefrontFiber.Foundation.Runs
import Mathlib.Algebra.Group.Int.Defs
import Mathlib.Data.List.Count
import Mathlib.Data.List.Sort

/-!
# The tables of a scan run

One run's row in `scan_runs` and its rows in `scan_run_targets`, with the statements that claim,
finalize, requeue and close them. Each function is one statement or one transaction. Instants are
seconds of the database clock. What a claim reads of `scan_targets` is a view that the caller
supplies.
-/

namespace HomefrontFiber.ScanRun

instance checkLawfulBEq : LawfulBEq (Nat × Int) := inferInstance

inductive RunStatus where
  | running | paused | cancelled | done | error
  deriving DecidableEq

inductive TargetState where
  | queued | inflight | verified | failed | skipped | cancelled
  deriving DecidableEq

def TargetState.pending (s : TargetState) : Bool := s = .queued || s = .inflight

structure RunTarget where
  targetId : Int
  seq : Int
  state : TargetState := .queued
  result : Option String := none
  attemptCount : Nat := 0
  nextAttemptAt : Option Int := none
  /-- The last error message names an address that needs a fix. -/
  needsFix : Bool := false

structure ScanRunRow where
  tenantId : Int
  budget : Nat
  verified : Nat := 0
  newFiber : Nat := 0
  newlyLive : Nat := 0
  failed : Nat := 0
  status : RunStatus := .running
  error : Option String := none
  estBytes : Nat := 0
  heartbeatAt : Option Int
  reopenCount : Nat := 0

structure RunDb where
  run : ScanRunRow
  targets : List RunTarget

/-- `UPDATE scan_run_targets SET … WHERE …`, with the number of changed rows. -/
def updateTargets (targets : List RunTarget) (wanted : RunTarget → Bool)
    (set : RunTarget → RunTarget) : List RunTarget × Nat :=
  (targets.map fun t => if wanted t then set t else t, targets.countP wanted)

def due (now : Int) (t : RunTarget) : Bool := t.nextAttemptAt.all (· ≤ now)

/-- `createScanRun` and `enqueueRunTargets`, which skips a repeated target. -/
def createScanRun (tenantId : Int) (budget : Nat) (targetIds : List Int) (now : Int) : RunDb where
  run := { tenantId, budget, heartbeatAt := some now }
  targets := targetIds.dedup.mapIdx fun i targetId => { targetId, seq := i }

/-- What a claim reads of the row in `scan_targets`. -/
structure TargetView where
  frontier : Bool := false
  scanned : Bool := false
  tier : Nat := 2
  inconclusiveAttempts : Nat := 0
  answered : Bool := false
  parked : Bool := false
  recent : Bool := false

/-- The rows of `scan_targets` by id. -/
abbrev TargetViews := Int → Option TargetView

structure ClaimPolicy where
  exempt : Bool
  onceOnly : Bool
  skipSeconds : Int

def ANSWERED : String := "superseded: address already answered (once-only)"
def RECENT : String := "superseded: address conclusively checked within dedup window"
def PARKED : String := "parked: address_not_found quiet window (needs-fix non-answers exhausted)"

def skipReason (policy : ClaimPolicy) (view : TargetView) : Option String :=
  if policy.exempt then none
  else if policy.onceOnly && view.answered then some ANSWERED
  else if !policy.onceOnly && 0 < policy.skipSeconds && view.recent then some RECENT
  else if view.parked then some PARKED
  else none

def yieldKey (row : RunTarget × TargetView) : List Int :=
  [if row.2.frontier then 1 else 0, if row.2.scanned then 1 else 0, row.2.tier,
    row.2.inconclusiveAttempts, row.1.attemptCount, row.1.seq]

def claimable (views : TargetViews) (now : Int) (targets : List RunTarget) :
    List (RunTarget × TargetView) :=
  ((targets.filter fun t => t.state = .queued && due now t).filterMap fun t =>
    (views t.targetId).map fun view => (t, view)).insertionSort
      fun a b => ¬ yieldKey b < yieldKey a

def claimMark (targets : List RunTarget) (targetId now : Int) : List RunTarget × Nat :=
  updateTargets targets (fun t => t.targetId = targetId && t.state = .queued && due now t)
    fun t => { t with state := .inflight, attemptCount := t.attemptCount + 1 }

def boundedSkip (targets : List RunTarget) (reason : String) (targetId : Int) :
    List RunTarget × Nat :=
  updateTargets targets (fun t => t.targetId = targetId && t.state = .queued)
    fun t => { t with state := .skipped, result := some reason, nextAttemptAt := none }

structure ClaimCycle where
  targets : List Int := []
  inspected : Nat := 0
  skipped : Nat := 0

def claimLoop (policy : ClaimPolicy) (limit : Nat) (now : Int) :
    List (RunTarget × TargetView) → List RunTarget × ClaimCycle → List RunTarget × ClaimCycle
  | [], s => s
  | (row, view) :: rows, (targets, cycle) =>
    if limit ≤ cycle.targets.length then (targets, cycle)
    else match skipReason policy view with
      | some reason =>
        let (next, changes) := boundedSkip targets reason row.targetId
        claimLoop policy limit now rows
          (next, { cycle with inspected := cycle.inspected + 1, skipped := cycle.skipped + changes })
      | none =>
        let (next, changes) := claimMark targets row.targetId now
        claimLoop policy limit now rows
          (next, { cycle with
            inspected := cycle.inspected + 1
            targets := if changes = 1 then cycle.targets ++ [row.targetId] else cycle.targets })

def claimLimit (limit : Int) : Nat := (min 500 (max 1 limit)).toNat

def claimRunTargetCycle (db : RunDb) (tenantId : Int) (limit : Int) (policy : ClaimPolicy)
    (views : TargetViews) (now : Int) : RunDb × ClaimCycle :=
  if db.run.tenantId = tenantId && db.run.status = .running then
    let (targets, cycle) := claimLoop policy (claimLimit limit) now
      ((claimable views now db.targets).take 500) (db.targets, {})
    ({ db with targets }, cycle)
  else (db, {})

def skipWhere (targets : List RunTarget) (reason : String) (views : TargetViews) (now : Int)
    (named : TargetView → Bool) : List RunTarget :=
  (updateTargets targets
    (fun t => t.state = .queued && due now t && (views t.targetId).any named)
    fun t => { t with state := .skipped, result := some reason, nextAttemptAt := none }).1

/-- Mark the selected rows, keeping those that this caller flipped. -/
def markLoop (now : Int) : List Int → List RunTarget × List Int → List RunTarget × List Int
  | [], s => s
  | targetId :: ids, (targets, claimed) =>
    let (next, changes) := claimMark targets targetId now
    markLoop now ids (next, if changes = 1 then claimed ++ [targetId] else claimed)

def claimRunTargets (db : RunDb) (limit : Nat) (policy : ClaimPolicy) (views : TargetViews)
    (now : Int) : RunDb × List Int :=
  let swept :=
    if policy.exempt then db.targets
    else
      let superseded :=
        if policy.onceOnly then skipWhere db.targets ANSWERED views now (·.answered)
        else if 0 < policy.skipSeconds then skipWhere db.targets RECENT views now (·.recent)
        else db.targets
      skipWhere superseded PARKED views now (·.parked)
  let rows := ((claimable views now swept).take limit).map (·.1.targetId)
  let (targets, claimed) := markLoop now rows (swept, [])
  ({ db with targets }, claimed)

structure FinalizeDelta where
  verified : Nat := 0
  newFiber : Nat := 0
  newlyLive : Nat := 0
  failed : Nat := 0
  estBytes : Nat := 0

def bumpRun (run : ScanRunRow) (delta : FinalizeDelta) (now : Int) : ScanRunRow :=
  { run with
    verified := run.verified + delta.verified
    newFiber := run.newFiber + delta.newFiber
    newlyLive := run.newlyLive + delta.newlyLive
    failed := run.failed + delta.failed
    estBytes := run.estBytes + delta.estBytes
    heartbeatAt := some now }

/-- Set a target's terminal state and bump the counters when the row was still pending. -/
def finalizeRunTarget (db : RunDb) (targetId : Int) (state : TargetState) (result : Option String)
    (delta : FinalizeDelta) (now : Int) : RunDb :=
  let (targets, changes) := updateTargets db.targets
    (fun t => t.targetId = targetId && t.state.pending)
    fun t => { t with state, result, nextAttemptAt := none }
  { run := if changes = 1 then bumpRun db.run delta now else db.run, targets }

def requeueRunTarget (db : RunDb) (targetId delaySeconds now : Int) : RunDb :=
  { db with targets := (updateTargets db.targets
      (fun t => t.targetId = targetId && t.state = .inflight)
      fun t => { t with
        state := .queued
        nextAttemptAt := if 0 < delaySeconds then some (now + delaySeconds) else none }).1 }

/-- `recordFiberFailure`, as far as it writes the target. -/
def recordFiberFailure (db : RunDb) (targetId : Int) (attempt : Nat) (needsFix : Bool) : RunDb :=
  { db with targets := (updateTargets db.targets (fun t => t.targetId = targetId)
      fun t => { t with attemptCount := max t.attemptCount attempt, needsFix }).1 }

def resetInflightTargets (db : RunDb) : RunDb :=
  { db with targets := (updateTargets db.targets (fun t => t.state = .inflight)
      fun t => { t with state := .queued }).1 }

def terminalizeQueuedTail (db : RunDb) (reason : String) : RunDb × Nat :=
  let (targets, changes) := updateTargets db.targets (fun t => t.state.pending)
    fun t => { t with state := .skipped, result := some reason, nextAttemptAt := none }
  ({ db with targets }, changes)

/-- The rows that `finalizeAddressNotFoundBacklog` selects for the run. -/
def backlogRows (db : RunDb) (attemptCap : Nat) : List (Int × Nat) :=
  (db.targets.filter fun t => t.state = .queued && attemptCap ≤ t.attemptCount && t.needsFix).map
    fun t => (t.targetId, t.attemptCount)

def backlogResult (attempts : Nat) : String :=
  "address_not_found: backfill after " ++ toString attempts ++ " needs-fix attempts"

def finalizeBacklogChunk (db : RunDb) (chunk : List (Int × Nat)) (now : Int) : RunDb :=
  chunk.foldl (fun db row =>
    finalizeRunTarget db row.1 .failed (some (backlogResult row.2)) { failed := 1 } now) db

def addRunBytes (db : RunDb) (bytes : Nat) : RunDb :=
  { db with run := { db.run with estBytes := db.run.estBytes + bytes } }

def touchRun (db : RunDb) (now : Int) : RunDb :=
  { db with run := { db.run with heartbeatAt := some now } }

def setRunStatus (db : RunDb) (status : RunStatus) (error : Option String) (now : Int) : RunDb :=
  { db with run := { db.run with status, error, heartbeatAt := some now } }

def bumpRunReopen (db : RunDb) : RunDb :=
  { db with run := { db.run with reopenCount := db.run.reopenCount + 1 } }

def countQueued (db : RunDb) : Nat := db.targets.countP (·.state.pending)

/-- The run is in `getResumableRuns(staleSeconds)`. -/
def resumable (db : RunDb) (staleSeconds now : Int) : Bool :=
  db.run.status = .running && db.run.heartbeatAt.all (· ≤ now - staleSeconds)

/-- The run is in `getStrandedDoneRuns`. -/
def stranded (db : RunDb) (now : Int) : Bool :=
  (db.run.status = .done || db.run.status = .error) &&
    db.targets.any fun t => t.state = .queued && due now t

def remainingBudget (run : ScanRunRow) : Nat := run.budget - (run.verified + run.failed)

/-- What the worker of a run does before its claim, and the claim, all without a suspension. -/
def workerTop (db : RunDb) (batch : Nat) (policy : ClaimPolicy) (views : TargetViews) (now : Int) :
    RunDb × ClaimCycle :=
  if db.run.status ≠ .running then (db, {})
  else if db.run.budget ≤ db.run.verified + db.run.failed then
    let (closed, _) := terminalizeQueuedTail db "superseded: run budget exhausted"
    (setRunStatus closed .done none now, {})
  else claimRunTargetCycle db db.run.tenantId (min batch (remainingBudget db.run) : Nat) policy views now

def ANF_TERMINAL_ATTEMPTS : Nat := 6

def DEFAULT_BYTES_PER_CHECK : Nat := 12000

/-- How a provider check ended. `needsFixCount` is the ledger of needs-fix non-answers of the
address, and `needsFix` says that the recorded message names one. -/
inductive CheckAnswer where
  | conclusive (isTarget noService newlyLive : Bool) (bytes : Nat)
  | transient (addressNotReady : Bool) (needsFixCount : Nat) (needsFix : Bool) (bytes : Nat)
  | exception (admissionTimedOut needsFix : Bool)

def targetAttempt (db : RunDb) (targetId : Int) : Nat :=
  ((db.targets.find? (·.targetId = targetId)).map (·.attemptCount)).getD 1

def notFound (addressNotReady : Bool) (needsFixCount attempt : Nat) : Bool :=
  addressNotReady && (ANF_TERMINAL_ATTEMPTS ≤ needsFixCount ||
    needsFixCount = 0 && ANF_TERMINAL_ATTEMPTS ≤ attempt)

def notFoundResult (attempt : Nat) : String :=
  "address_not_found: " ++ toString attempt ++ "× needs-fix non-answer, no adoptable suggestion"

def conclusiveResult (isTarget noService : Bool) : String :=
  if isTarget then "new_fiber" else if noService then "no_service" else "other"

/-- What the worker writes when a check of one of its targets ends. -/
def recordAnswer (db : RunDb) (targetId : Int) (answer : CheckAnswer) (now : Int) : RunDb :=
  let attempt := targetAttempt db targetId
  match answer with
  | .conclusive isTarget noService newlyLive bytes =>
    finalizeRunTarget db targetId .verified (some (conclusiveResult isTarget noService))
      { verified := 1
        newFiber := if isTarget then 1 else 0
        newlyLive := if newlyLive then 1 else 0
        estBytes := bytes } now
  | .transient addressNotReady needsFixCount needsFix bytes =>
    if notFound addressNotReady needsFixCount attempt then
      let failed := finalizeRunTarget db targetId .failed (some (notFoundResult attempt))
        { failed := 1, estBytes := bytes } now
      recordFiberFailure failed targetId attempt needsFix
    else
      let backoffSec : Int := if addressNotReady then min 3600 (20 * 2 ^ min attempt 8) else 0
      let requeued := requeueRunTarget db targetId backoffSec now
      recordFiberFailure (addRunBytes requeued bytes) targetId attempt needsFix
  | .exception admissionTimedOut needsFix =>
    let backoffSec : Int := if admissionTimedOut then min 120 (15 * max 1 attempt) else 0
    let requeued := requeueRunTarget db targetId backoffSec now
    recordFiberFailure (addRunBytes requeued DEFAULT_BYTES_PER_CHECK) targetId attempt needsFix

def requeues (db : RunDb) (targetId : Int) : CheckAnswer → Bool
  | .conclusive .. => false
  | .transient addressNotReady needsFixCount _ _ =>
    !notFound addressNotReady needsFixCount (targetAttempt db targetId)
  | .exception .. => true

/-- What a reaper does with a stranded run that it read as `row`. -/
def reopenStranded (reopenBudget : Nat) (db : RunDb) (row : ScanRunRow) (now : Int) : RunDb :=
  if row.budget ≤ row.verified + row.failed then
    (terminalizeQueuedTail db "superseded: run budget exhausted").1
  else if reopenBudget ≤ row.reopenCount then
    let (closed, changes) := terminalizeQueuedTail db
      ("re-open budget exhausted (" ++ toString reopenBudget ++ " failed re-opens)")
    setRunStatus closed .error (some ("re-open budget exhausted after " ++ toString reopenBudget ++
      " failed re-opens - tail terminalized (" ++ toString changes ++ " skipped)")) now
  else
    setRunStatus (bumpRunReopen (resetInflightTargets db)) .running none now

/-- The drain re-opens the run that it read as `row`. -/
def reopens (reopenBudget : Nat) (row : ScanRunRow) : Bool :=
  row.verified + row.failed < row.budget && row.reopenCount < reopenBudget

section Updates

variable {targets : List RunTarget} {wanted : RunTarget → Bool} {set : RunTarget → RunTarget}

theorem updateTargets_fst :
    (updateTargets targets wanted set).1 = targets.map fun t => if wanted t then set t else t := rfl

theorem updateTargets_ids (hset : ∀ t, (set t).targetId = t.targetId) :
    (updateTargets targets wanted set).1.map (·.targetId) = targets.map (·.targetId) := by
  rw [updateTargets_fst, List.map_map]
  apply List.map_congr_left
  intro t _
  simp only [Function.comp_apply]
  split
  · exact hset t
  · rfl

theorem countP_named_le_one (hnodup : (targets.map (·.targetId)).Nodup) {targetId : Int}
    (hnamed : ∀ t, wanted t = true → t.targetId = targetId) : targets.countP wanted ≤ 1 := by
  have hle : targets.countP wanted ≤ (targets.map (·.targetId)).count targetId := by
    rw [List.count, List.countP_map]
    apply List.countP_mono_left
    intro t _ ht
    simpa using hnamed t ht
  exact le_trans hle (List.nodup_iff_count_le_one.mp hnodup targetId)

end Updates

end HomefrontFiber.ScanRun
