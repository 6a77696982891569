import Mathlib.Algebra.Order.Ring.Rat
import Mathlib.Algebra.Order.Group.Abs
import Mathlib.Data.Int.Basic
import Mathlib.Data.List.Sort
import HomefrontFiber.ComingLedger.Answer

/-!
# The watchlist and its two writers

A row of `coming_soon_watchlist` is written by the snapshot lifecycle of `availabilitySnapshot.ts` and
by the ledger of `comingLedger.ts`. One answer goes through both, the lifecycle first. Instants are
milliseconds and promised dates are days since 1970.
-/

namespace HomefrontFiber.ComingLedger

def hourMs : Int := 3600000

def dayMs : Int := 86400000

/-- `LEDGER_CFG`, each knob within the bounds that reading it enforces. -/
structure LedgerConfig where
  hotHours : Int
  soonHours : Int
  hotWindowDays : Int
  flipFromDays : Int
  flipToDays : Int
  expireDays : Int
  undatedDays : Int
  maxWaitDays : Int
  overdueGraceChecks : Nat
  maxWaitDays_pos : 1 ≤ maxWaitDays
  overdueGraceChecks_pos : 1 ≤ overdueGraceChecks

def LedgerConfig.default : LedgerConfig where
  hotHours := 6
  soonHours := 12
  hotWindowDays := 14
  flipFromDays := 2
  flipToDays := 14
  expireDays := 90
  undatedDays := 30
  maxWaitDays := 7
  overdueGraceChecks := 4
  maxWaitDays_pos := by decide
  overdueGraceChecks_pos := by decide

inductive WatchBand
  | hot | soon | watch

structure RecheckInput where
  promisedDate : Option Int
  firstSeenMs : Int
  lastCheckedMs : Int

structure Schedule where
  dueAtMs : Int
  band : WatchBand

def inFlipWindow (cfg : LedgerConfig) (i : RecheckInput) (nowMs : Int) : Bool :=
  let ageMs := nowMs - i.firstSeenMs
  cfg.flipFromDays * dayMs ≤ ageMs && ageMs ≤ cfg.flipToDays * dayMs

def nextRecheckAt (cfg : LedgerConfig) (i : RecheckInput) (nowMs : Int) : Schedule :=
  let weeklyFloor := i.lastCheckedMs + max 1 cfg.maxWaitDays * dayMs
  match i.promisedDate with
  | some date =>
    if date * dayMs ≤ nowMs + cfg.hotWindowDays * dayMs then
      { dueAtMs := i.lastCheckedMs + cfg.hotHours * hourMs, band := .hot }
    else { dueAtMs := min (date * dayMs - cfg.hotWindowDays * dayMs) weeklyFloor, band := .soon }
  | none =>
    if inFlipWindow cfg i nowMs then
      { dueAtMs := i.lastCheckedMs + cfg.soonHours * hourMs, band := .soon }
    else { dueAtMs := min (i.lastCheckedMs + cfg.undatedDays * dayMs) weeklyFloor, band := .watch }

inductive WatchStatus
  | active | promoted | nowActive | closed | overdue | expired
deriving DecidableEq

inductive Confidence
  | dated | high | medium

structure WatchRow where
  tenantId : Int
  targetId : Int
  firstSeenAt : Int
  lastCheckedAt : Option Int
  estimatedCompletion : Option Int
  source : Option String
  confidence : Confidence
  status : WatchStatus
  updatedAt : Int
  promisedDate : Option Int
  datePath : Option String
  providerQuote : Option Text
  signals : List Signal
  band : Option WatchBand
  dueAt : Option Int
  overdueChecks : Nat

def watchOf (rows : List WatchRow) (targetId : Int) : Option WatchRow :=
  rows.find? (·.targetId = targetId)

def updateWhere (p : WatchRow → Bool) (f : WatchRow → WatchRow) (rows : List WatchRow) :
    List WatchRow := rows.map fun r => if p r then f r else r

/-- `INSERT ... ON CONFLICT(scan_target_id) DO UPDATE`. -/
def upsert (new : WatchRow) (f : WatchRow → WatchRow) (rows : List WatchRow) : List WatchRow :=
  if (watchOf rows new.targetId).isSome then updateWhere (·.targetId = new.targetId) f rows
  else rows ++ [new]

structure LatLng where
  lat : ℚ
  lng : ℚ

structure ScanTarget where
  id : Int
  tenantId : Int
  point : Option LatLng
  source : Option String
  lifecycleState : Option LifecycleState
  lifecycleChangedAt : Option Int
  everScanned : Bool
  fiberAvailable : Bool

/-- The tables that one answer touches. `snapshots` holds the keys of `availability_snapshots`. -/
structure World where
  targets : List ScanTarget
  watches : List WatchRow
  snapshots : List (Int × String × Int)

def targetOf (targets : List ScanTarget) (id : Int) : Option ScanTarget := targets.find? (·.id = id)

def updateTarget (id : Int) (f : ScanTarget → ScanTarget) (targets : List ScanTarget) :
    List ScanTarget := targets.map fun t => if t.id = id then f t else t

def snapshotWatch (tenantId : Int) (target : ScanTarget) (confidence : Confidence) (epoch : Int) :
    WatchRow where
  tenantId := tenantId
  targetId := target.id
  firstSeenAt := epoch
  lastCheckedAt := some epoch
  estimatedCompletion := none
  source := target.source.or (some "scan")
  confidence := confidence
  status := .active
  updatedAt := epoch
  promisedDate := none
  datePath := none
  providerQuote := none
  signals := []
  band := none
  dueAt := none
  overdueChecks := 0

/-- The watchlist part of `applyConclusiveLifecycle`. -/
def lifecycleWatches (tenantId : Int) (target : ScanTarget) (sig : LifecycleSignal)
    (confidence : Confidence) (epoch : Int) (rows : List WatchRow) : List WatchRow :=
  if sig.comingSoon then
    upsert (snapshotWatch tenantId target confidence epoch)
      (fun r => { r with
        lastCheckedAt := some epoch
        updatedAt := epoch
        status := .active
        confidence
        source := r.source.or (snapshotWatch tenantId target confidence epoch).source }) rows
  else
    let refreshed := updateWhere (fun r => r.targetId = target.id && r.status = .active)
      (fun r => { r with lastCheckedAt := some epoch }) rows
    if sig.fiberAvailable then
      updateWhere (fun r => r.targetId = target.id && r.status = .active)
        (fun r => { r with status := .promoted, updatedAt := epoch }) refreshed
    else refreshed

/-- Evidence that is older than the last lifecycle write does not count. -/
def outOfOrder (target : ScanTarget) (epoch : Int) : Bool :=
  target.lifecycleChangedAt.any fun changedAt => epoch < changedAt

def applyConclusiveLifecycle (tenantId targetId : Int) (s : ScanResult)
    (transitionStatus : FiberTransitionStatus) (epoch : Int) (w : World) : World :=
  match targetOf w.targets targetId with
  | none => w
  | some target =>
    if outOfOrder target epoch then w
    else
      let sig := lifecycleSignalOf s transitionStatus
      let confidence : Confidence :=
        if comingSoonSegment (upper s.householdSegmentType) then .high else .medium
      { w with
        targets :=
          match nextLifecycleState target.lifecycleState sig with
          | none => w.targets
          | some next => updateTarget target.id
              (fun t => { t with
                lifecycleState := some next, lifecycleChangedAt := some epoch }) w.targets
        watches := lifecycleWatches tenantId target sig confidence epoch w.watches }

structure FlipConfig where
  enabled : Bool
  radiusM : ℚ
  fanout : Nat
  fanout_pos : 1 ≤ fanout

def FlipConfig.default : FlipConfig where
  enabled := true
  radiusM := 800
  fanout := 200
  fanout_pos := by decide

/-- The floating-point trigonometry: the cosine of a latitude in degrees, and `haversineMeters`. -/
structure Earth where
  cosDegrees : ℚ → ℚ
  haversineMeters : LatLng → LatLng → ℚ

def inBox (earth : Earth) (radiusM : ℚ) (origin p : LatLng) : Bool :=
  let dLat := radiusM / 111320
  let dLng := radiusM / (111320 * max (1 / 100) |earth.cosDegrees origin.lat|)
  origin.lat - dLat ≤ p.lat && p.lat ≤ origin.lat + dLat &&
    origin.lng - dLng ≤ p.lng && p.lng ≤ origin.lng + dLng

/-- The stated order: dated promises first, the soonest date first, then by target. -/
def soonerPromise (a b : WatchRow) : Bool :=
  match a.promisedDate, b.promisedDate with
  | some d, some d' => d < d' || (d = d' && a.targetId ≤ b.targetId)
  | some _, none => true
  | none, some _ => false
  | none, none => a.targetId ≤ b.targetId

def pointOf (targets : List ScanTarget) (id : Int) : Option LatLng :=
  (targetOf targets id).bind (·.point)

/-- An active promise of the tenant at another door that is not yet due. -/
def asleep (tenantId originTargetId nowMs : Int) (r : WatchRow) : Bool :=
  r.tenantId = tenantId && r.status = .active && r.targetId ≠ originTargetId &&
    r.dueAt.all fun due => nowMs < due

def originOf (targets : List ScanTarget) (tenantId targetId : Int) : Option LatLng :=
  (targets.find? fun t => t.id = targetId && t.tenantId = tenantId).bind (·.point)

def sleepers (tenantId targetId nowMs : Int) (w : World) : List WatchRow :=
  (w.watches.filter (asleep tenantId targetId nowMs)).insertionSort fun a b => soonerPromise a b

/-- The sleepers that the query finds in the box and the refinement finds in the radius. -/
def insideRows (earth : Earth) (flip : FlipConfig) (origin : LatLng) (targets : List ScanTarget)
    (rows : List WatchRow) : List WatchRow :=
  let near := rows.filter fun r =>
    (pointOf targets r.targetId).any (inBox earth flip.radiusM origin)
  near.filter fun r => (pointOf targets r.targetId).any fun p =>
    earth.haversineMeters origin p ≤ flip.radiusM

def bump (tenantId nowMs : Int) (rows : List WatchRow) (id : Int) : List WatchRow :=
  updateWhere (fun r => r.tenantId = tenantId && r.targetId = id && r.status = .active)
    (fun r => { r with dueAt := some nowMs, band := some .hot }) rows

def propagateFlip (earth : Earth) (flip : FlipConfig) (tenantId targetId nowMs : Int) (w : World) :
    World :=
  if !flip.enabled then w
  else
    match originOf w.targets tenantId targetId with
    | none => w
    | some origin =>
      let inside := insideRows earth flip origin w.targets (sleepers tenantId targetId nowMs w)
      let take := inside.take flip.fanout
      { w with watches := (take.map (·.targetId)).foldl (bump tenantId nowMs) w.watches }

structure Recording where
  tenantId : Int
  targetId : Int
  source : Option String
  fiberAvailable : Option Bool
  nowMs : Int
  observedAt : Option Int

def Recording.observedMs (c : Recording) : Int := c.observedAt.getD c.nowMs

/-- The status with which an answer without a promise closes a row. -/
def closingStatus (c : Recording) (read : FutureServiceRead) : WatchStatus :=
  if c.fiberAvailable = some true then .promoted
  else if read.isNowActive then .nowActive else .closed

def openAt (c : Recording) (r : WatchRow) : Bool :=
  r.tenantId = c.tenantId && r.targetId = c.targetId && r.status = .active

def closeRows (c : Recording) (read : FutureServiceRead) (rows : List WatchRow) : List WatchRow :=
  updateWhere (openAt c)
    (fun r => { r with
      status := closingStatus c read
      lastCheckedAt := some c.nowMs
      updatedAt := c.nowMs
      dueAt := none }) rows

def isOverdue (read : FutureServiceRead) (nowMs : Int) : Bool :=
  read.promisedDate.any fun date => date * dayMs ≤ nowMs

def priorOf (c : Recording) (rows : List WatchRow) : Option WatchRow :=
  rows.find? fun r => r.tenantId = c.tenantId && r.targetId = c.targetId

/-- The count of collections after the promised date, this one included. -/
def overdueChecksOf (c : Recording) (read : FutureServiceRead) (prior : Option WatchRow) : Nat :=
  (prior.map (·.overdueChecks)).getD 0 + if isOverdue read c.nowMs then 1 else 0

def writesOff (cfg : LedgerConfig) (c : Recording) (read : FutureServiceRead)
    (prior : Option WatchRow) : Bool :=
  isOverdue read c.nowMs && cfg.overdueGraceChecks < overdueChecksOf c read prior

def firstSeenOf (c : Recording) (prior : Option WatchRow) : Int :=
  min ((prior.map (·.firstSeenAt)).getD c.observedMs) c.observedMs

def scheduleOf (cfg : LedgerConfig) (c : Recording) (read : FutureServiceRead)
    (prior : Option WatchRow) : Schedule :=
  nextRecheckAt cfg
    { promisedDate := read.promisedDate
      firstSeenMs := firstSeenOf c prior
      lastCheckedMs := c.observedMs } c.nowMs

def promisedRow (cfg : LedgerConfig) (c : Recording) (read : FutureServiceRead)
    (prior : Option WatchRow) : WatchRow where
  tenantId := c.tenantId
  targetId := c.targetId
  firstSeenAt := firstSeenOf c prior
  lastCheckedAt := some c.observedMs
  estimatedCompletion := read.promisedDate
  source := c.source.or (some "provider-answer")
  confidence := if read.promisedDate.isSome then .dated
    else if read.signals.contains .buildPending then .high else .medium
  status := .active
  updatedAt := c.nowMs
  promisedDate := read.promisedDate
  datePath := read.datePath
  providerQuote := read.quote
  signals := read.signals
  band := some (scheduleOf cfg c read prior).band
  dueAt := some (scheduleOf cfg c read prior).dueAtMs
  overdueChecks := overdueChecksOf c read prior

/-- A promise that refreshes a row: a stated date wins over an absent one. -/
def refreshedRow (cfg : LedgerConfig) (c : Recording) (read : FutureServiceRead)
    (prior : Option WatchRow) (r : WatchRow) : WatchRow :=
  { r with
    status := .active
    firstSeenAt := min r.firstSeenAt (firstSeenOf c prior)
    lastCheckedAt := some c.observedMs
    updatedAt := c.nowMs
    promisedDate := read.promisedDate.or r.promisedDate
    estimatedCompletion := read.promisedDate.or r.estimatedCompletion
    datePath := read.datePath.or r.datePath
    providerQuote := read.quote.or r.providerQuote
    signals := read.signals
    band := some (scheduleOf cfg c read prior).band
    dueAt := some (scheduleOf cfg c read prior).dueAtMs
    overdueChecks := overdueChecksOf c read prior }

def writtenOffRow (c : Recording) (read : FutureServiceRead) (prior : Option WatchRow)
    (r : WatchRow) : WatchRow :=
  { r with
    status := .overdue
    updatedAt := c.nowMs
    dueAt := none
    overdueChecks := overdueChecksOf c read prior }

/-- The promise branch of `recordFutureService`. -/
def promiseRows (cfg : LedgerConfig) (c : Recording) (read : FutureServiceRead)
    (rows : List WatchRow) : List WatchRow :=
  let prior := priorOf c rows
  if writesOff cfg c read prior then
    updateWhere (fun r => r.tenantId = c.tenantId && r.targetId = c.targetId)
      (writtenOffRow c read prior) rows
  else upsert (promisedRow cfg c read prior) (refreshedRow cfg c read prior) rows

/-- The close branch ends in a flip when it closed an open promise because fiber arrived. -/
def recordFutureService (cfg : LedgerConfig) (earth : Earth) (flip : FlipConfig) (c : Recording)
    (read : FutureServiceRead) (w : World) : World :=
  if read.isFuture then { w with watches := promiseRows cfg c read w.watches }
  else
    let w' := { w with watches := closeRows c read w.watches }
    if w.watches.any (openAt c) && c.fiberAvailable = some true then
      propagateFlip earth flip c.tenantId c.targetId c.nowMs w'
    else w'

/-- Target columns that the reconciling sweep reads: NEW FIBER with an active account. -/
def reconcileNowActiveWatches (tenantId nowMs : Int) (sold : Int → Bool) (rows : List WatchRow) :
    List WatchRow :=
  updateWhere
    (fun r => r.tenantId = tenantId && r.status = .active && r.promisedDate.isNone &&
      !r.signals.contains .buildPending && !r.signals.contains .futureQual &&
      !r.signals.contains .providerFutureEligible && sold r.targetId)
    (fun r => { r with status := .nowActive, updatedAt := nowMs, dueAt := none }) rows

/-- Parks promises that nobody honoured inside the expiry window. -/
def expireStaleWatches (cfg : LedgerConfig) (tenantId nowMs : Int) (rows : List WatchRow) :
    List WatchRow :=
  let cut := nowMs - cfg.expireDays * 24 * hourMs
  updateWhere
    (fun r => r.tenantId = tenantId && r.status = .active &&
      match r.promisedDate with
      | some date => date < cut / dayMs
      | none => r.firstSeenAt < cut)
    (fun r => { r with status := .expired, updatedAt := nowMs, dueAt := none }) rows

def checkedRow (cfg : LedgerConfig) (nowMs : Int) (r : WatchRow) : WatchRow :=
  let sched := nextRecheckAt cfg
    { promisedDate := r.promisedDate, firstSeenMs := r.firstSeenAt, lastCheckedMs := nowMs } nowMs
  { r with lastCheckedAt := some nowMs, dueAt := some sched.dueAtMs, band := some sched.band }

def markComingChecked (cfg : LedgerConfig) (tenantId nowMs : Int) (targetIds : List Int)
    (rows : List WatchRow) : List WatchRow :=
  targetIds.foldl (fun rows id =>
    updateWhere (fun r => r.tenantId = tenantId && r.targetId = id) (checkedRow cfg nowMs) rows) rows

/-- A valid answer as the scan engine processes it. `epoch` is read when the snapshot is persisted,
`nowMs` when the ledger is. -/
structure Check where
  tenantId : Int
  runId : String
  targetId : Int
  source : Option String
  result : ScanResult
  epoch : Int
  nowMs : Int

def Check.recording (c : Check) : Recording where
  tenantId := c.tenantId
  targetId := c.targetId
  source := c.source
  fiberAvailable := some c.result.fiberAvailable
  nowMs := c.nowMs
  observedAt := none

/-- The fiber transition against what the target has on record. -/
def transitionOf (w : World) (c : Check) : FiberTransitionStatus :=
  match targetOf w.targets c.targetId with
  | none => classifyFiberAvailabilityTransition false false c.result.fiberAvailable
  | some t =>
    classifyFiberAvailabilityTransition t.everScanned t.fiberAvailable c.result.fiberAvailable

def Check.key (c : Check) : Int × String × Int := (c.tenantId, c.runId, c.targetId)

def persistSnapshot (w : World) (c : Check) : World :=
  if w.snapshots.contains c.key then w
  else applyConclusiveLifecycle c.tenantId c.targetId c.result (transitionOf w c) c.epoch
    { w with snapshots := w.snapshots ++ [c.key] }

def recordScanTargetResult (w : World) (c : Check) : World :=
  { w with
    targets := updateTarget c.targetId
      (fun t => { t with everScanned := true, fiberAvailable := c.result.fiberAvailable })
      w.targets }

def applyCheck (cfg : LedgerConfig) (earth : Earth) (flip : FlipConfig) (c : Check) (w : World) :
    World :=
  recordFutureService cfg earth flip c.recording (readFutureService c.result)
    (recordScanTargetResult (persistSnapshot w c) c)

end HomefrontFiber.ComingLedger
