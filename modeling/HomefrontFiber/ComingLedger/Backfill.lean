import Mathlib.Data.Char
import Mathlib.Data.List.Lex
import HomefrontFiber.Foundation.Table
import HomefrontFiber.ComingLedger.Flip

/-!
# The row of one door

The table holds one row a target. What a recorded answer writes to it is a function of the row and of
the answer.
-/

namespace HomefrontFiber.ComingLedger

open List

variable {f : WatchRow → WatchRow} {rows : List WatchRow}

theorem watchOf_updateWhere (hf : ∀ r, (f r).targetId = r.targetId)
    (p : WatchRow → Bool) (rows : List WatchRow) (id : Int) :
    watchOf (updateWhere p f rows) id =
      (watchOf rows id).map fun r => if p r then f r else r := by
  apply find?_key_map
  intro r
  split
  · exact hf r
  · rfl

theorem targetId_of_watchOf {id : Int} {r : WatchRow}
    (h : watchOf rows id = some r) : r.targetId = id := by
  simpa [watchOf] using find?_some h

theorem watchOf_updateWhere_of_ne
    (hf : ∀ r, (f r).targetId = r.targetId) {p : WatchRow → Bool} {id : Int}
    (hp : ∀ r, r.targetId = id → p r = false) :
    watchOf (updateWhere p f rows) id = watchOf rows id := by
  rw [watchOf_updateWhere hf]
  cases hrow : watchOf rows id with
  | none => rfl
  | some r =>
    have hmiss := hp r (targetId_of_watchOf hrow)
    simp [hmiss]

theorem watchOf_append (rows : List WatchRow) (new : WatchRow) (id : Int) :
    watchOf (rows ++ [new]) id =
      (watchOf rows id).or (if new.targetId = id then some new else none) := by
  unfold watchOf
  rw [find?_append]
  by_cases hid : new.targetId = id <;> simp [hid]

theorem watchOf_upsert {new : WatchRow} {f : WatchRow → WatchRow}
    (hf : ∀ r, (f r).targetId = r.targetId) (rows : List WatchRow) :
    watchOf (upsert new f rows) new.targetId =
      some ((watchOf rows new.targetId).elim new f) := by
  unfold upsert
  cases hrow : watchOf rows new.targetId with
  | none =>
    simp only [Option.isSome_none, Bool.false_eq_true, if_false, Option.elim_none]
    rw [watchOf_append, hrow, if_pos rfl]
    rfl
  | some r =>
    have hid : r.targetId = new.targetId := targetId_of_watchOf hrow
    simp only [Option.isSome_some, if_true, Option.elim_some]
    rw [watchOf_updateWhere hf, hrow, Option.map_some]
    simp [hid]

theorem watchOf_upsert_of_ne {new : WatchRow}
    (hf : ∀ r, (f r).targetId = r.targetId) {id : Int} (hid : id ≠ new.targetId)
    (rows : List WatchRow) : watchOf (upsert new f rows) id = watchOf rows id := by
  unfold upsert
  split
  · apply watchOf_updateWhere_of_ne hf
    intro r hr
    simp [hr, hid]
  · rw [watchOf_append, if_neg (Ne.symm hid), Option.or_none]

theorem priorOf_eq {c : Recording} (h : ∀ r ∈ watchOf rows c.targetId, r.tenantId = c.tenantId) :
    priorOf c rows = watchOf rows c.targetId := by
  unfold priorOf watchOf at *
  induction rows with
  | nil => rfl
  | cons r rows ih =>
    by_cases hid : r.targetId = c.targetId
    · have htenant : r.tenantId = c.tenantId := h r (by simp [hid])
      simp [hid, htenant]
    · simp only [hid, decide_false, Bool.and_false, find?_cons_of_neg, Bool.false_eq_true,
        not_false_eq_true] at h ⊢
      exact ih h

section Recorded

variable (cfg : LedgerConfig) (earth : Earth) (flip : FlipConfig) (c : Recording)
  (read : FutureServiceRead)

def recordedRow (row : Option WatchRow) : Option WatchRow :=
  if read.isFuture then
    if writesOff cfg c read row then row.map (writtenOffRow c read row)
    else some (row.elim (promisedRow cfg c read row) (refreshedRow cfg c read row))
  else row.map fun r =>
    if r.status = .active then
      { r with
        status := closingStatus c read
        lastCheckedAt := some c.nowMs
        updatedAt := c.nowMs
        dueAt := none }
    else r

theorem watchOf_closeRows (hread : read.isFuture = false)
    (h : ∀ r ∈ watchOf rows c.targetId, r.tenantId = c.tenantId) :
    watchOf (closeRows c read rows) c.targetId =
      recordedRow cfg c read (watchOf rows c.targetId) := by
  unfold closeRows recordedRow
  rw [watchOf_updateWhere (by exact fun _ => rfl), hread]
  cases hrow : watchOf rows c.targetId with
  | none => rfl
  | some r =>
    have htarget := targetId_of_watchOf hrow
    have htenant := h r hrow
    by_cases hactive : r.status = .active <;> simp [openAt, htarget, htenant, hactive]

theorem watchOf_promiseRows (hread : read.isFuture = true)
    (h : ∀ r ∈ watchOf rows c.targetId, r.tenantId = c.tenantId) :
    watchOf (promiseRows cfg c read rows) c.targetId =
      recordedRow cfg c read (watchOf rows c.targetId) := by
  unfold promiseRows recordedRow
  rw [priorOf_eq h]
  simp only [hread, if_true]
  split
  · rw [watchOf_updateWhere (by exact fun _ => rfl)]
    cases hrow : watchOf rows c.targetId with
    | none => rfl
    | some r =>
      have htarget := targetId_of_watchOf hrow
      have htenant := h r hrow
      simp [htarget, htenant]
  · exact @watchOf_upsert (promisedRow cfg c read (watchOf rows c.targetId)) _
      (by exact fun _ => rfl) rows

theorem propagateFlip_eq (tenantId targetId nowMs : Int) (w : World) :
    ∃ ids : List Int, targetId ∉ ids ∧ propagateFlip earth flip tenantId targetId nowMs w =
      { w with watches := w.watches.map (wakeRow tenantId nowMs ids) } := by
  have hasleep : w = { w with watches := w.watches.map (wakeRow tenantId nowMs []) } := by
    have hid : wakeRow tenantId nowMs [] = id := by
      funext r
      simp [wakeRow]
    rw [hid, map_id]
  unfold propagateFlip
  split
  · exact ⟨[], not_mem_nil, hasleep⟩
  · split
    · exact ⟨[], not_mem_nil, hasleep⟩
    · rename_i origin _
      refine ⟨((insideRows earth flip origin w.targets
        (sleepers tenantId targetId nowMs w)).take flip.fanout).map (·.targetId), ?_, ?_⟩
      · rw [mem_map]
        rintro ⟨r, hr, hid⟩
        have hinside := mem_of_mem_take hr
        simp only [insideRows, mem_filter, sleepers, mem_insertionSort, asleep,
          Bool.and_eq_true, decide_eq_true_eq] at hinside
        exact hinside.1.1.2.1.2 hid
      · simp only
        rw [foldl_bump]

theorem targetId_wakeRow (tenantId nowMs : Int) (ids : List Int) (r : WatchRow) :
    (wakeRow tenantId nowMs ids r).targetId = r.targetId := by
  unfold wakeRow
  split <;> rfl

theorem watchOf_map_wakeRow {tenantId nowMs id : Int} {ids : List Int} (hid : id ∉ ids)
    (rows : List WatchRow) : watchOf (rows.map (wakeRow tenantId nowMs ids)) id =
      watchOf rows id := by
  have hmap : watchOf (rows.map (wakeRow tenantId nowMs ids)) id =
      (watchOf rows id).map (wakeRow tenantId nowMs ids) :=
    find?_key_map (targetId_wakeRow tenantId nowMs ids) id
  rw [hmap]
  cases hrow : watchOf rows id with
  | none => rfl
  | some r =>
    have hasleep : r.targetId ∉ ids := by rwa [targetId_of_watchOf hrow]
    simp [wakeRow, hasleep]

theorem watchOf_recordFutureService {w : World}
    (h : ∀ r ∈ watchOf w.watches c.targetId, r.tenantId = c.tenantId) :
    watchOf (recordFutureService cfg earth flip c read w).watches c.targetId =
      recordedRow cfg c read (watchOf w.watches c.targetId) := by
  unfold recordFutureService
  cases hread : read.isFuture with
  | true => exact watchOf_promiseRows cfg c read hread h
  | false =>
    simp only [if_false, Bool.false_eq_true]
    split
    · obtain ⟨ids, hids, heq⟩ := propagateFlip_eq earth flip c.tenantId c.targetId c.nowMs
        { w with watches := closeRows c read w.watches }
      rw [heq, watchOf_map_wakeRow hids]
      exact watchOf_closeRows cfg c read hread h
    · exact watchOf_closeRows cfg c read hread h

theorem watchOf_recordFutureService_of_ne {w : World} {id : Int} (hid : id ≠ c.targetId)
    (hdark : c.fiberAvailable ≠ some true) :
    watchOf (recordFutureService cfg earth flip c read w).watches id = watchOf w.watches id := by
  unfold recordFutureService
  split
  · unfold promiseRows
    simp only
    split
    · apply watchOf_updateWhere_of_ne (by exact fun _ => rfl)
      intro r hr
      simp [hr, hid]
    · exact watchOf_upsert_of_ne (by exact fun _ => rfl) hid w.watches
  · simp only [hdark, decide_false, Bool.and_false, Bool.false_eq_true, if_false]
    apply watchOf_updateWhere_of_ne (by exact fun _ => rfl)
    intro r hr
    simp [openAt, hr, hid]

theorem recordedRow_tenantId {row : Option WatchRow} (h : ∀ r ∈ row, r.tenantId = c.tenantId) :
    ∀ r ∈ recordedRow cfg c read row, r.tenantId = c.tenantId := by
  intro r hr
  unfold recordedRow at hr
  cases row with
  | none =>
    split at hr
    · split at hr
      · cases hr
      · cases hr
        rfl
    · cases hr
  | some r' =>
    have htenant := h r' rfl
    split at hr
    · split at hr
      · cases hr
        exact htenant
      · cases hr
        exact htenant
    · simp only [Option.map_some, Option.mem_def, Option.some.injEq] at hr
      rw [← hr]
      split <;> exact htenant

end Recorded

end HomefrontFiber.ComingLedger

/-!
## Promises mined out of stored bodies

The backfill replays stored provider bodies through the writer of live answers. The writer counts the
answers that come after a promised date, so that a replay counts as one, and the backfill chooses
its bodies after a text filter, so that the newest body of a door is often not among them.
-/

namespace HomefrontFiber.ComingLedger

def yearMs : Int := 365 * dayMs

/-- The dates that can be turn-on dates at the instant of a read. -/
def inDateWindow (nowMs ms : Int) : Bool := nowMs - 5 * yearMs ≤ ms && ms ≤ nowMs + 10 * yearMs

/-- A value under a key that names a service date, as `findProviderDate` walks over it. -/
structure StatedDate where
  ms : Int
  path : String
  raw : Text

/-- A parsed body. The walk lists the completion date among the others. -/
structure StoredBody where
  addressLine1 : Text
  city : Text
  stateProvinceCd : Option Text
  householdSegmentType : Option Text
  billingStatus : Option Text
  futureEligible : Bool
  buildOutStatus : Option Text
  hasExistingService : Bool
  pendingOrder : Bool
  futureQual : Bool
  futureTechnology : Option Text
  completionText : Option Text
  completionMs : Option Int
  dates : List StatedDate
  completion_listed : ∀ ms ∈ completionMs, ms ∈ dates.map (·.ms)

def findProviderDate (nowMs : Int) (dates : List StatedDate) : Option ProviderDateHit :=
  (dates.find? fun d => inDateWindow nowMs d.ms).map fun d =>
    { date := d.ms / dayMs, path := d.path, raw := d.raw }

/-- What the ledger reads of a stored body: only the segment and the billing status are parsed. -/
def StoredBody.answer (b : StoredBody) (nowMs : Int) : ScanResult where
  fiberAvailable := false
  fiberStatus := .unknown
  householdSegmentType := b.householdSegmentType
  marketSegmentType := none
  serviceStatus := none
  billingStatus := b.billingStatus
  finalQual := none
  maxQual := none
  flags :=
    { futureEligible := b.futureEligible
      buildOutStatus := b.buildOutStatus
      hasExistingService := b.hasExistingService
      pendingOrder := b.pendingOrder
      futureQual := b.futureQual
      futureTechnology := b.futureTechnology
      completionText := b.completionText
      completionIsDate := b.completionMs.any (inDateWindow nowMs) }
  found := findProviderDate nowMs b.dates

def StoredBody.read (b : StoredBody) (nowMs : Int) : FutureServiceRead :=
  readFutureService (b.answer nowMs)

structure StoredCheck where
  tenantId : Int
  address : Text
  result : Text
  checkedAt : Text

/-- The columns of `scan_targets` by which a body finds its door. -/
structure TargetAddress where
  id : Int
  tenantId : Int
  address : Text
  city : Text
  state : Text
  source : Option String

/-- `Date.parse` and `JSON.parse`, the latter followed by the reading of the fields. -/
structure Parsers where
  parseSqlMs : Text → Option Int
  parseBody : Text → Option StoredBody

def lower (t : Text) : Text := t.map Char.toLower

/-- `LIKE '%needle%'`, which ignores case. -/
def like (needle : String) (t : Text) : Bool :=
  t.tails.any fun rest => (lower needle.toList).isPrefixOf (lower rest)

/-- SQL's `trim`, of spaces only. -/
def sqlTrim (t : Text) : Text :=
  ((t.dropWhile (· = ' ')).reverse.dropWhile (· = ' ')).reverse

def mentionsFuture (result : Text) : Bool :=
  like "futureQual" result || like "futureServiceDate" result ||
    like "estimatedCompletionDt" result || like "fiberBuildOutStatus" result

/-- `ORDER BY checked_at ASC`. -/
def byCheckedAt (checks : List StoredCheck) : List StoredCheck :=
  checks.insertionSort fun a b => a.checkedAt ≤ b.checkedAt

def candidates (tenantId : Int) (limit : Nat) (checks : List StoredCheck) : List StoredCheck :=
  (byCheckedAt (checks.filter fun c => c.tenantId = tenantId && mentionsFuture c.result)).take
    (max 1 limit * 20)

/-- `Map.set`: a key that is there keeps its place. -/
def setLatest (latest : List (Text × StoredCheck)) (c : StoredCheck) : List (Text × StoredCheck) :=
  let key := lower (trim c.address)
  if key = [] then latest
  else if latest.any (·.1 = key) then latest.map fun e => if e.1 = key then (key, c) else e
  else latest ++ [(key, c)]

/-- The latest candidate of each address, in the order in which the addresses first came. -/
def latestOf (checks : List StoredCheck) : List StoredCheck :=
  (checks.foldl setLatest []).map (·.2)

def findTarget (targets : List TargetAddress) (line city state : Text) (tenantId : Int) :
    Option TargetAddress :=
  targets.find? fun t => lower (sqlTrim t.address) = line && lower (sqlTrim t.city) = city &&
    (sqlTrim t.state).map Char.toUpper = state && t.tenantId = tenantId

/-- The door of a body: by the echoed address line first, then by the leading part of ours. -/
def doorOf (targets : List TargetAddress) (tenantId : Int) (c : StoredCheck) (b : StoredBody) :
    Option TargetAddress :=
  let parts := (c.address.splitOn ',').map trim
  let state := upper (b.stateProvinceCd.or (some ['N', 'C']))
  let lines := [trim b.addressLine1, parts.headD []].filter (· ≠ [])
  let cities := [trim b.city, (parts.drop 1).headD []].filter (· ≠ [])
  lines.findSome? fun line => cities.findSome? fun city =>
    findTarget targets (lower line) (lower city) state tenantId

structure Replay where
  door : TargetAddress
  body : StoredBody
  checkedAt : Option Int

def replayOf (parsers : Parsers) (targets : List TargetAddress) (tenantId : Int)
    (c : StoredCheck) : Option Replay :=
  (parsers.parseBody c.result).bind fun body =>
    (doorOf targets tenantId c body).map fun door =>
      { door, body, checkedAt := parsers.parseSqlMs c.checkedAt }

/-- The stored evidence and how much of it one run may replay. -/
structure Evidence where
  parsers : Parsers
  targets : List TargetAddress
  checks : List StoredCheck
  tenantId : Int
  limit : Nat

def Evidence.replays (e : Evidence) : List Replay :=
  ((latestOf (candidates e.tenantId e.limit e.checks)).filterMap
    (replayOf e.parsers e.targets e.tenantId)).take e.limit

def Evidence.bodiesOf (e : Evidence) (id : Int) : List StoredBody :=
  (((byCheckedAt (e.checks.filter (·.tenantId = e.tenantId))).filterMap
    (replayOf e.parsers e.targets e.tenantId)).filter (·.door.id = id)).map (·.body)

section Backfill

variable (cfg : LedgerConfig) (earth : Earth) (flip : FlipConfig) (e : Evidence)

/-- What the provider said is dated to the day that it said it. -/
def Replay.recording (r : Replay) (tenantId nowMs : Int) : Recording where
  tenantId := tenantId
  targetId := r.door.id
  source := r.door.source
  fiberAvailable := none
  nowMs := nowMs
  observedAt := some (r.checkedAt.getD nowMs)

structure Backfilled where
  world : World
  scanned : Nat
  recorded : Nat
  dated : Nat

def replayOne (nowMs : Int) (acc : Backfilled) (r : Replay) : Backfilled :=
  let read := r.body.read nowMs
  { world := recordFutureService cfg earth flip (r.recording e.tenantId nowMs) read acc.world
    scanned := acc.scanned + 1
    recorded := acc.recorded + if read.isFuture then 1 else 0
    dated := acc.dated + if read.isFuture && read.promisedDate.isSome then 1 else 0 }

def backfillFromStoredEvidence (nowMs : Int) (w : World) : Backfilled :=
  e.replays.foldl (replayOne cfg earth flip e nowMs)
    { world := w, scanned := 0, recorded := 0, dated := 0 }

structure TenantLedger (tenantId : Int) where
  world : World
  owned : ∀ id, ∀ r ∈ watchOf world.watches id, r.tenantId = tenantId

structure Kept where
  status : WatchStatus
  promisedDate : Option Int
  firstSeenAt : Int
  overdueChecks : Nat

def WatchRow.kept (r : WatchRow) : Kept where
  status := r.status
  promisedDate := r.promisedDate
  firstSeenAt := r.firstSeenAt
  overdueChecks := r.overdueChecks

def keptOf (w : World) (id : Int) : Option Kept := (watchOf w.watches id).map (·.kept)

def isOpen (k : Option Kept) : Bool := k.any (·.status = .active)

def Idempotent (nowMs : Int) (w : World) : Prop :=
  ∀ laterMs, nowMs ≤ laterMs → ∀ id,
    keptOf (backfillFromStoredEvidence cfg earth flip e laterMs
      (backfillFromStoredEvidence cfg earth flip e nowMs w).world).world id =
    keptOf (backfillFromStoredEvidence cfg earth flip e nowMs w).world id

def settled (nowMs : Int) (id : Int) : Bool :=
  (e.bodiesOf id).getLast?.any fun b => !(b.read nowMs).isFuture

def YieldsToNewer (nowMs : Int) (w : World) : Prop :=
  ∀ id, settled e nowMs id = true →
    isOpen (keptOf (backfillFromStoredEvidence cfg earth flip e nowMs w).world id) = true →
    isOpen (keptOf w id) = true

def ReplaysSafely (nowMs : Int) (w : World) : Prop :=
  Idempotent cfg earth flip e nowMs w ∧ YieldsToNewer cfg earth flip e nowMs w

def StoredBody.nowActive (b : StoredBody) : Bool :=
  upper b.householdSegmentType = "NEW FIBER".toList &&
    (upper b.billingStatus = ['Y'] || upper b.billingStatus = ['A'])

def Evidence.replaysOf (e : Evidence) (id : Int) : List Replay :=
  e.replays.filter (·.door.id = id)

/-- No replayed body states a date that a run can ever count against, and the bodies replayed last
are as settled as the newest ones. -/
structure Harmless (nowMs : Int) (w : World) : Prop where
  undated : ∀ r ∈ e.replays, r.body.nowActive = false →
    ∀ d ∈ r.body.dates, d.ms < nowMs - 5 * yearMs
  recent : ∀ id, settled e nowMs id = true → isOpen (keptOf w id) = false →
    (e.replaysOf id).getLast?.all fun r => !(r.body.read nowMs).isFuture

end Backfill

end HomefrontFiber.ComingLedger
