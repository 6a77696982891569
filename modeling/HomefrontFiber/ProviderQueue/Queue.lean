import Mathlib.Data.List.Sort
import Mathlib.Data.Rat.Floor
import HomefrontFiber.Foundation.InsertionMap
import HomefrontFiber.Foundation.Runs
import HomefrontFiber.Foundation.Table

/-!
# The provider queue of a process

Requests for the same normalised key share one task, tasks start by priority within one concurrency
ceiling and one budget of starts a second, and answers are kept in a bounded cache. The clock and
the abort predicates belong to the surroundings: every reading of either has its own number, so a
clock may move on between any two readings and a predicate may change its mind.
-/

namespace HomefrontFiber.ProviderQueue

/-- The clock and the answers of the abort predicates, by the number of the reading. -/
structure Surroundings where
  clock : Nat → Int
  aborts : Nat → Nat → Bool

/-- How a promise settles. `admission` is the rejection by the queue itself. -/
inductive Outcome (V E : Type) where
  | value (v : V)
  | failed (error : E)
  | admission
deriving DecidableEq

inductive Source where
  | manual | lasso | newBuild | comingSoon | discovery | expansion | recheck | market | nightly
  | city

def providerPriority : Source → ℚ
  | .manual => 500
  | .lasso => 400
  | .newBuild => 380
  | .comingSoon => 375
  | .discovery => 370
  | .expansion => 365
  | .recheck => 300
  | .market => 275
  | .nightly => 250
  | .city => 200

def providerAdmissionWaitMs (value : Option ℚ) : Int :=
  value.elim 120000 fun value => min 600000 (max 100 ⌊value⌋)

/-- Numbers that are not finite are `none`. `normalized` is trimming and lower case, and
`admissionMaxWait` is the environment's number. -/
structure QueueOptions (V : Type) where
  maxConcurrency : Option ℚ
  maxRequestsPerSecond : Option ℚ := none
  cacheTtlMs : Option ℚ
  maxCacheEntries : Option ℚ := some 20000
  cacheable : V → Bool := fun _ => true
  clone : V → V := id
  normalized : String → String
  admissionMaxWait : Option ℚ := none

namespace QueueOptions

variable {V : Type} (o : QueueOptions V)

def concurrency : Nat := o.maxConcurrency.elim 8 fun c => (max 1 (min 1000 ⌊c⌋)).toNat

def perSecond : Option Nat :=
  o.maxRequestsPerSecond.bind fun rps =>
    if 0 < rps then some (max 1 (min 10000 ⌊rps⌋)).toNat else none

def ttlMs : Int := o.cacheTtlMs.elim 0 fun ttl => max 0 ⌊ttl⌋

def cacheEntries : Nat := o.maxCacheEntries.elim 20000 fun n => (max 1 ⌊n⌋).toNat

end QueueOptions

structure RequestOptions where
  source : Source := .market
  priority : Option ℚ := none
  deadlineAt : Option Int := none
  abort : Option Nat := none

structure Pending where
  key : String
  sequence : Nat
  priority : ℚ
  deadlineAt : Int
  abort : Option Nat

/-- What the map holds for a key. The promise is the one of the item with this sequence number, and
`pending` says whether the item is still queued. -/
structure InFlight where
  sequence : Nat
  pending : Bool

/-- A started task. `settled` is its result once it has one, and the task is removed by the final
handler. -/
structure Running (V E : Type) where
  key : String
  sequence : Nat
  settled : Option (Outcome V E) := none

structure Cached (V : Type) where
  value : V
  expiresAt : Int

/-- A returned promise: the deadline and the abort predicate of its own request, whose first reading
is `since`, and the item that it follows. One that `shares` the task of another request has a timer,
and one that was `turnedAway` met a full queue. -/
structure Caller (V E : Type) where
  since : Nat
  abort : Option Nat
  deadlineAt : Option Int := none
  entry : Option Nat := none
  shares : Bool := false
  timer : Bool := false
  turnedAway : Bool := false
  outcome : Option (Outcome V E) := none

/-- The queue and the promises it has returned. `reads` numbers the next reading of the
surroundings. -/
structure Queue (V E : Type) where
  pending : List Pending := []
  pendingDirty : Bool := false
  inFlight : InsertionMap String InFlight := .empty
  cache : InsertionMap String (Cached V) := .empty
  requestStarts : List Int := []
  active : Nat := 0
  running : List (Running V E) := []
  pausedUntil : Int := 0
  sequence : Nat := 0
  expiryTimer : Bool := false
  wakeTimer : Bool := false
  reads : Nat := 0
  callers : List (Caller V E) := []

variable {V E : Type} (o : QueueOptions V) (s : Surroundings)

def Outcome.clone : Outcome V E → Outcome V E
  | .value v => .value (o.clone v)
  | outcome => outcome

/-- The order of the queue: the higher priority first, then the earlier sequence number. -/
def Pending.before (a b : Pending) : Bool :=
  b.priority < a.priority || (a.priority = b.priority && a.sequence ≤ b.sequence)

def Caller.settle (outcome : Outcome V E) (c : Caller V E) : Caller V E :=
  if c.outcome.isNone then { c with outcome := some (outcome.clone o), timer := false } else c

namespace Queue

def read (q : Queue V E) : Queue V E := { q with reads := q.reads + 1 }

def now (q : Queue V E) : Int := s.clock q.reads

def aborted (q : Queue V E) (abort : Option Nat) : Bool := abort.any (s.aborts q.reads)

def answer (q : Queue V E) (c : Caller V E) (outcome : Outcome V E) : Queue V E :=
  { q with callers := q.callers ++ [{ c with outcome := some outcome }] }

/-- The promise of an item settles, and with it every promise that follows it. -/
def settleEntry (q : Queue V E) (sequence : Nat) (outcome : Outcome V E) : Queue V E :=
  { q with callers := q.callers.map fun c =>
      if c.entry = some sequence then c.settle o outcome else c }

def rejectItem (q : Queue V E) (item : Pending) : Queue V E :=
  { q with inFlight := q.inFlight.delete item.key }.settleEntry o item.sequence .admission

def readCache (q : Queue V E) (key : String) : Option V × Queue V E :=
  match q.cache.get? key with
  | none => (none, q)
  | some entry =>
    if entry.expiresAt ≤ q.now s then (none, { q.read with cache := q.cache.delete key })
    else (some entry.value, { q.read with cache := (q.cache.delete key).set key entry })

/-- The oldest entries go until at most `n` are left. -/
def evict (m : InsertionMap String (Cached V)) (n : Nat) : InsertionMap String (Cached V) where
  entries := m.entries.drop (m.size - n)
  nodup := m.nodup.sublist ((List.drop_sublist _ _).map Prod.fst)

def writeCache (q : Queue V E) (key : String) (value : V) : Queue V E :=
  let entry : Cached V := { value := o.clone value, expiresAt := q.now s + o.ttlMs }
  { q.read with cache := evict ((q.cache.delete key).set key entry) o.cacheEntries }

def sortPending (q : Queue V E) : Queue V E :=
  if q.pendingDirty then
    { q with pending := q.pending.insertionSort (fun a b => a.before b), pendingDirty := false }
  else q

def pruneStarts (q : Queue V E) (now : Int) : Queue V E :=
  { q with requestStarts := q.requestStarts.dropWhile (· ≤ now - 1000) }

def scheduleWake (q : Queue V E) : Queue V E := { q with wakeTimer := true }

def start (q : Queue V E) (item : Pending) : Queue V E :=
  { q.read with
    inFlight := match q.inFlight.get? item.key with
      | some tracked => q.inFlight.set item.key { tracked with pending := false }
      | none => q.inFlight
    active := q.active + 1
    requestStarts := q.requestStarts ++ [q.now s]
    running := q.running ++ [{ key := item.key, sequence := item.sequence }] }

/-- The loop of `pump` over the sorted queue. -/
def dispatch (q : Queue V E) : List Pending → Queue V E
  | [] => q
  | item :: rest =>
    if o.concurrency ≤ q.active then q
    else if o.perSecond.any (· ≤ q.requestStarts.length) then q.read.scheduleWake
    else
      let q := { q with pending := rest }
      let expired := item.deadlineAt ≤ q.now s || q.read.aborted s item.abort
      if expired then dispatch (q.read.read.rejectItem o item) rest
      else dispatch (q.read.read.start s item) rest

def pump (q : Queue V E) : Queue V E :=
  if q.pending.isEmpty || o.concurrency ≤ q.active then q
  else
    let q := q.sortPending
    if q.now s < q.pausedUntil then q.read.scheduleWake
    else (q.read.pruneStarts (q.now s)).dispatch o s q.pending

def watchPending (q : Queue V E) : Queue V E :=
  if q.expiryTimer || q.pending.isEmpty then q else { q with expiryTimer := true }

/-- A queued duplicate takes the higher priority of a new request. -/
def upgrade (q : Queue V E) (existing : InFlight) (priority : ℚ) : Queue V E :=
  let lower := fun item : Pending => item.sequence = existing.sequence && item.priority < priority
  if existing.pending && q.pending.any lower then
    { q with
      pending := q.pending.map fun item =>
        if lower item then { item with priority := priority } else item
      pendingDirty := true }
  else q

def waitForShared (q : Queue V E) (existing : InFlight) (c : Caller V E) : Queue V E :=
  let caller : Caller V E :=
    { c with entry := some existing.sequence, shares := true, timer := true }
  let settled := (q.running.find? (·.sequence = existing.sequence)).bind Running.settled
  { q with callers := q.callers ++ [settled.elim caller fun outcome => caller.settle o outcome] }

def enqueue (q : Queue V E) (key : String) (priority : ℚ) (deadlineAt : Int) (c : Caller V E) :
    Queue V E :=
  { q with
    sequence := q.sequence + 1
    inFlight := q.inFlight.set key { sequence := q.sequence, pending := true }
    pending := q.pending ++ [{
      key := key, sequence := q.sequence, priority := priority, deadlineAt := deadlineAt
      abort := c.abort }]
    pendingDirty := true
    callers := q.callers ++ [{ c with entry := some q.sequence }] }

def requestAdmitted (q : Queue V E) (key : String) (r : RequestOptions) (deadlineAt : Int)
    (c : Caller V E) : Queue V E :=
  let normalizedKey := o.normalized key
  let priority := r.priority.getD (providerPriority r.source)
  match q.readCache s normalizedKey with
  | (some cached, q) => q.answer c (.value (o.clone cached))
  | (none, q) =>
    match q.inFlight.get? normalizedKey with
    | some existing => (q.upgrade existing priority).waitForShared o existing c
    | none =>
      if 20000 ≤ q.pending.length then q.answer { c with turnedAway := true } .admission
      else ((q.enqueue normalizedKey priority deadlineAt c).pump o s).watchPending

def request (q : Queue V E) (key : String) (r : RequestOptions) : Queue V E :=
  let c : Caller V E := { since := q.reads, abort := r.abort }
  if q.aborted s r.abort then q.read.answer c .admission
  else
    let latest := q.read.now s + providerAdmissionWaitMs o.admissionMaxWait
    let deadlineAt := r.deadlineAt.elim latest (min latest)
    let c := { c with deadlineAt := some deadlineAt }
    if deadlineAt ≤ q.read.read.now s then q.read.read.read.answer c .admission
    else q.read.read.read.requestAdmitted o s key r deadlineAt c

def taskSettled (q : Queue V E) (sequence : Nat) (result : Except E V) : Queue V E :=
  match q.running.find? (·.sequence = sequence) with
  | none => q
  | some r =>
    if r.settled.isSome then q
    else
      let (q, outcome) := match result with
        | .ok value =>
          (if 0 < o.ttlMs && o.cacheable value then q.writeCache o s r.key value else q,
            Outcome.value value)
        | .error error => (q, .failed error)
      let running := q.running.map fun r : Running V E =>
        if r.sequence = sequence then { r with settled := some outcome } else r
      { q with running }.settleEntry o sequence outcome

def finalize (q : Queue V E) (sequence : Nat) : Queue V E :=
  match q.running.find? (·.sequence = sequence) with
  | none => q
  | some r =>
    if r.settled.isNone then q
    else
      { q with
        inFlight := q.inFlight.delete r.key
        active := q.active - 1
        running := q.running.filter (·.sequence ≠ sequence) }.pump o s

def pauseFor (q : Queue V E) (ms : ℚ) : Queue V E :=
  { q.read with pausedUntil := max q.pausedUntil (q.now s + max 0 ⌊ms⌋) }.scheduleWake

def resume (q : Queue V E) : Queue V E := { q with pausedUntil := 0 }.pump o s

/-- The expiry timer. One answer of a predicate serves the whole sweep. -/
def sweep (q : Queue V E) : Queue V E :=
  if q.expiryTimer then
    let gone := fun item : Pending => item.deadlineAt ≤ q.now s || q.read.aborted s item.abort
    let kept := q.pending.filter (!gone ·)
    let rejected := (q.pending.filter gone).foldl (rejectItem o) q.read.read
    { rejected with pending := kept, expiryTimer := !kept.isEmpty }.pump o s
  else q

def wake (q : Queue V E) : Queue V E :=
  if q.wakeTimer then { q with wakeTimer := false }.pump o s else q

def tick (q : Queue V E) (i : Nat) : Queue V E :=
  match q.callers[i]? with
  | none => q
  | some c =>
    if c.timer then
      let queued := q.inFlight.entries.any fun e => c.entry = some e.2.sequence && e.2.pending
      if q.aborted s c.abort || (queued && c.deadlineAt.any (· ≤ q.read.now s)) then
        { q.read.read with callers := q.callers.set i (c.settle o .admission) }
      else if !queued && c.abort.isNone then
        { q.read.read with callers := q.callers.set i { c with timer := false } }
      else q.read.read
    else q

end Queue

inductive Action (V E : Type) where
  | request (key : String) (options : RequestOptions)
  | taskSettled (sequence : Nat) (result : Except E V)
  | finalize (sequence : Nat)
  | pauseFor (ms : ℚ)
  | resume
  | sweep
  | wake
  | tick (i : Nat)
  | snapshot
  | clearCache

def step (q : Queue V E) : Action V E → Queue V E
  | .request key options => q.request o s key options
  | .taskSettled sequence result => q.taskSettled o s sequence result
  | .finalize sequence => q.finalize o s sequence
  | .pauseFor ms => q.pauseFor s ms
  | .resume => q.resume o s
  | .sweep => q.sweep o s
  | .wake => q.wake o s
  | .tick i => q.tick o s i
  | .snapshot => q.read.pruneStarts (q.now s)
  | .clearCache => { q with cache := .empty }

end HomefrontFiber.ProviderQueue
