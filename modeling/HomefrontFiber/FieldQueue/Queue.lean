import HomefrontFiber.Knocking.Schema
import HomefrontFiber.Foundation.Runs

/-!
# What a failed delivery means

The queue on a rep's device reads the status off the text of a failed request. A 401 pauses the
line, a transient failure backs off, a 403 gets a bounded number of tries before it is parked, and
any other 4xx is final.
-/

namespace HomefrontFiber.FieldQueue

open Knocking

inductive NetState
  | online | offline
deriving DecidableEq

/-- The location evidence of a tap. Numbers are kept as their JSON text. -/
structure Evidence where
  repLat : Option Text
  repLng : Option Text
  gpsAccuracy : Option Text
  deviceTs : Option Text
  mockLocation : Option Bool
  netState : Option NetState
  appVersion : Option Text
deriving DecidableEq

/-- A knock that waits for delivery. Storage may hold lead ids that no server issued and outcome
texts that no server accepts; the latter read as `none`. -/
structure QueuedKnock where
  clientId : String
  leadId : Int
  repId : Nat
  outcome : Option KnockOutcome
  knockedAt : Text
  notes : Option Text
  callbackDate : Option Text
  callbackTime : Option Text
  attempts : Nat
  nextAttemptAt : Int
  lastError : Option Text
  evidence : Evidence
deriving DecidableEq

def queueMaxAttempts : Nat := 8

/-- 2s, 4s, 8s, ... capped at 60s. -/
def retryDelayMs (attempts : Nat) : Int := min (2000 * 2 ^ attempts) 60000

inductive KnockFailureKind
  | auth | retryable | forbidden | terminal
deriving DecidableEq

def isKnockableLeadId (id : Int) : Bool := 0 < id && id ≤ 9007199254740991

def digitValue (c : Char) : Nat := c.toNat - 48

def parseDigits (digits : Text) : Nat := digits.foldl (fun n c => 10 * n + digitValue c) 0

/-- `parseInt`: the number that a text begins with, if it begins with one. -/
def leadingNumber (t : Text) : Option Nat :=
  let body := t.dropWhile Char.isWhitespace
  let unsigned := if body.head? = some '+' then body.tail else body
  let digits := unsigned.takeWhile Char.isDigit
  if digits = [] then none else some (parseDigits digits)

/-- The status of a failed request, none for a network failure. -/
def knockFailureStatus (lastError : Option Text) : Option Nat :=
  (lastError.bind leadingNumber).filter fun status => 100 ≤ status && status ≤ 599

def classifyKnockFailure (lastError : Option Text) : KnockFailureKind :=
  match knockFailureStatus lastError with
  | none => .retryable
  | some status =>
    if status = 401 then .auth
    else if status = 403 then .forbidden
    else if status = 408 ∨ status = 425 ∨ status = 429 then .retryable
    else if 500 ≤ status then .retryable
    else if 400 ≤ status then .terminal
    else .retryable

def restartBurstWindowMs : Int := 120000

/-- A 403 soon after a transient failure is taken for an artifact of a restarting server. -/
def isLikelyRestartBurst403 (kind : KnockFailureKind) (lastTransientFailureAt now : Int) : Bool :=
  kind = .forbidden && 0 < lastTransientFailureAt && 0 ≤ now - lastTransientFailureAt &&
    now - lastTransientFailureAt ≤ restartBurstWindowMs

def isAutoRetryableDeadKnock (item : QueuedKnock) : Bool :=
  classifyKnockFailure item.lastError ≠ .terminal

def QueuedKnock.undeliverable (item : QueuedKnock) : Bool :=
  !isKnockableLeadId item.leadId || item.outcome.isNone

inductive Triage
  | pending (item : QueuedKnock)
  | dead (item : QueuedKnock)
  | drop (item : QueuedKnock)

def triagePending (item : QueuedKnock) : Triage :=
  if item.undeliverable then .drop item else .pending item

/-- What a reload does with an item of the dead lane: only a forbidden one stays parked. -/
def triageDead (item : QueuedKnock) : Triage :=
  if item.undeliverable then .drop item
  else
    match classifyKnockFailure item.lastError with
    | .terminal => .drop item
    | .forbidden => .dead item
    | _ => .pending { item with attempts := 0, nextAttemptAt := 0 }

end HomefrontFiber.FieldQueue

/-!
## The knock queue of a device

The queue keeps two lanes in memory, pending and dead, and persists each under its own key. An
event runs the code from one suspension point to the next: it changes the memory, sends requests,
and lists the storage writes it makes in their order. The page may die between two writes, and a
reload starts over from storage. The network delivers each request at most once, in any order.
-/

namespace HomefrontFiber.FieldQueue

open Knocking

structure Ambient where
  now : Int
  online : Bool

structure Request where
  seq : Nat
  clientId : String
  notes : Option Text
deriving DecidableEq

/-- The POST whose response the running flush awaits, with the position of its item. -/
structure Flight where
  idx : Nat
  seq : Nat
  lease : Option Nat

structure Saved where
  clientId : String
  knockId : Option Nat

/-- The memory of the page. A flush is in flight while it awaits a response. -/
structure Queue where
  pending : List QueuedKnock
  dead : List QueuedKnock
  recentSaves : List (Int × Saved)
  flight : Option Flight
  suspended : Bool
  runVersion : Nat
  lastTransientFailureAt : Int
  lastAutoSweepAt : Int

structure Storage where
  pending : List QueuedKnock
  dead : List QueuedKnock

inductive Write
  | pending (items : List QueuedKnock)
  | dead (items : List QueuedKnock)

def Storage.apply (s : Storage) : Write → Storage
  | .pending items => { s with pending := items }
  | .dead items => { s with dead := items }

/-- What the last call of `updateNote` for a lead has come to. -/
inductive Promise
  | none
  | awaiting (seq : Nat) (clientId : String) (notes : Text)
  | acknowledged (clientId : String) (notes : Text)
deriving DecidableEq

/-- A PATCH whose response a call of `updateNote` awaits. -/
structure PatchCall where
  seq : Nat
  leadId : Int
  runVersion : Nat
  lease : Option Nat

/-- The device, its storage and the network. `staged`, `accepted`, `resolved` and `promises` record
the history: the knocks that were staged and their leads, those whose POST was answered with
success, those that were dropped as terminal, and the outcome of the last `updateNote` of a lead. -/
structure World where
  lease : Option Nat
  queue : Option Queue
  stored : Storage
  writes : List Write
  sent : Nat
  wire : List Request
  received : List Request
  patches : List PatchCall
  staged : List (String × Int)
  accepted : List String
  resolved : List String
  promises : Int → Promise

def World.empty (lease : Option Nat) : World where
  lease := lease
  queue := none
  stored := { pending := [], dead := [] }
  writes := []
  sent := 0
  wire := []
  received := []
  patches := []
  staged := []
  accepted := []
  resolved := []
  promises _ := .none

def canCapture (w : World) (q : Queue) : Bool := !q.suspended && w.lease.isSome

/-- The first item from position `i` on that is due. -/
def nextDue (now : Int) : Nat → List QueuedKnock → Option (Nat × QueuedKnock)
  | _, [] => none
  | i, item :: rest => if item.nextAttemptAt ≤ now then some (i, item) else nextDue now (i + 1) rest

def dispatch (w : World) (q : Queue) (idx : Nat) (item : QueuedKnock) : World :=
  { w with
    queue := some { q with flight := some { idx, seq := w.sent, lease := w.lease } }
    sent := w.sent + 1
    wire := w.wire ++ [{ seq := w.sent, clientId := item.clientId, notes := item.notes }] }

/-- The loop of `flush` from position `idx` to its next request or its end. -/
def flushFrom (env : Ambient) (idx : Nat) (w : World) (q : Queue) : World :=
  match nextDue env.now idx (q.pending.drop idx) with
  | none => { w with queue := some { q with flight := none } }
  | some (i, item) => dispatch w q i item

/-- `flush`, unless one is in flight or nothing may be sent. -/
def startFlush (env : Ambient) (w : World) (q : Queue) : World :=
  if q.flight.isSome || !canCapture w q || !env.online then { w with queue := some q }
  else flushFrom env 0 w q

def autoRetryCooldownMs : Int := 60000

def swept (item : QueuedKnock) : QueuedKnock :=
  { item with attempts := queueMaxAttempts - 1, nextAttemptAt := 0 }

def sweepTargets (env : Ambient) (w : World) (q : Queue) : List QueuedKnock :=
  if !canCapture w q || !env.online || env.now - q.lastAutoSweepAt < autoRetryCooldownMs then []
  else q.dead.filter isAutoRetryableDeadKnock

/-- `autoSweep` without the flush it ends in. -/
def sweep (env : Ambient) (w : World) (q : Queue) : Queue × List Write :=
  let targets := sweepTargets env w q
  if targets = [] then (q, [])
  else
    let q' : Queue :=
      { q with
        pending := q.pending ++ targets.map swept
        dead := q.dead.filter fun item => !isAutoRetryableDeadKnock item
        lastAutoSweepAt := env.now }
    (q', [.pending q'.pending, .dead q'.dead])

def recentSavesCap : Nat := 50

def rememberSave (saves : List (Int × Saved)) (leadId : Int) (saved : Saved) :
    List (Int × Saved) :=
  let saves := saves.filter (·.1 ≠ leadId) ++ [(leadId, saved)]
  saves.drop (saves.length - recentSavesCap)

/-- The flush goes on only while its lease is current and the queue may capture. -/
def currentRun (w : World) (q : Queue) (lease : Option Nat) : Bool :=
  canCapture w q && w.lease = lease

structure EnqueueInput where
  leadId : Int
  repId : Nat
  outcome : KnockOutcome
  knockedAt : Text
  notes : Option Text
  callbackDate : Option Text
  callbackTime : Option Text
  evidence : Evidence

def newItem (input : EnqueueInput) (clientId : String) : QueuedKnock where
  clientId := clientId
  leadId := input.leadId
  repId := input.repId
  outcome := some input.outcome
  knockedAt := input.knockedAt
  notes := input.notes
  callbackDate := input.callbackDate
  callbackTime := input.callbackTime
  attempts := 0
  nextAttemptAt := 0
  lastError := none
  evidence := input.evidence

def stage (input : EnqueueInput) (clientId : String) (w : World) (q : Queue) : World :=
  if !canCapture w q || !isKnockableLeadId input.leadId then w
  else
    let q' := { q with pending := q.pending ++ [newItem input clientId] }
    { w with
      queue := some q'
      writes := [.pending q'.pending]
      staged := w.staged ++ [(clientId, input.leadId)] }

def setEvidence (clientId : String) (evidence : Evidence) : List QueuedKnock → List QueuedKnock
  | [] => []
  | item :: rest =>
    if item.clientId = clientId then { item with evidence := evidence } :: rest
    else item :: setEvidence clientId evidence rest

def enrich (clientId : String) (evidence : Evidence) (w : World) (q : Queue) : World :=
  if canCapture w q && q.pending.any (·.clientId = clientId) then
    let q' := { q with pending := setEvidence clientId evidence q.pending }
    { w with queue := some q', writes := [.pending q'.pending] }
  else w

/-- The awaited POST succeeded: its item leaves the queue by its position. -/
def answered (knockId : Option Nat) (env : Ambient) (w : World) (q : Queue) (f : Flight)
    (item : QueuedKnock) : World :=
  if currentRun w q f.lease then
    let q₁ : Queue :=
      { q with
        pending := q.pending.eraseIdx f.idx
        recentSaves := rememberSave q.recentSaves item.leadId { clientId := item.clientId, knockId } }
    let s := sweep env w q₁
    flushFrom env f.idx
      { w with
        writes := .pending q₁.pending :: s.2
        accepted := w.accepted ++ [item.clientId] } s.1
  else { w with queue := some { q with flight := none } }

/-- The failed item as it goes back into the line or into the dead lane. -/
def failedItem (message : Text) (burst : Bool) (item : QueuedKnock) : QueuedKnock :=
  { item with
    lastError := some message
    attempts := if burst then item.attempts else item.attempts + 1 }

/-- The item stays pending until the given time and the flush ends. -/
def backOff (w : World) (q : Queue) (idx : Nat) (item : QueuedKnock) (until_ : Int) : World :=
  let q' : Queue :=
    { q with pending := q.pending.set idx { item with nextAttemptAt := until_ }, flight := none }
  { w with queue := some q', writes := [.pending q'.pending] }

/-- The bounded tries of a 403 are used up. -/
def parks (message : Text) (env : Ambient) (q : Queue) (item : QueuedKnock) : Bool :=
  let kind := classifyKnockFailure (some message)
  kind = .forbidden && !isLikelyRestartBurst403 kind q.lastTransientFailureAt env.now &&
    queueMaxAttempts ≤ item.attempts + 1

def failed (message : Text) (env : Ambient) (w : World) (q : Queue) (f : Flight)
    (item : QueuedKnock) : World :=
  let kind := classifyKnockFailure (some message)
  let burst := isLikelyRestartBurst403 kind q.lastTransientFailureAt env.now
  if !currentRun w q f.lease then { w with queue := some { q with flight := none } }
  else if kind = .auth then
    backOff w q f.idx { item with lastError := some message } (env.now + retryDelayMs 1)
  else if kind = .terminal then
    let q' := { q with pending := q.pending.eraseIdx f.idx }
    flushFrom env f.idx
      { w with
        writes := [.pending q'.pending]
        resolved := w.resolved ++ [item.clientId] } q'
  else
    let q₁ :=
      { q with lastTransientFailureAt := if kind = .retryable then env.now
                                         else q.lastTransientFailureAt }
    let item' := failedItem message burst item
    if parks message env q item then
      let q' :=
        { q₁ with pending := q₁.pending.eraseIdx f.idx, dead := q₁.dead ++ [item'] }
      flushFrom env f.idx { w with writes := [.pending q'.pending, .dead q'.dead] } q'
    else backOff w q₁ f.idx item' (env.now + retryDelayMs item'.attempts)

/-- Sets the note of the last item of the lead; also returns the id of that item. -/
def setLastNote (leadId : Int) (notes : Text) :
    List QueuedKnock → Option (List QueuedKnock × String)
  | [] => none
  | item :: rest =>
    match setLastNote leadId notes rest with
    | some (rest', clientId) => some (item :: rest', clientId)
    | none =>
      if item.leadId = leadId then some ({ item with notes := some notes } :: rest, item.clientId)
      else none

def savedFor (q : Queue) (leadId : Int) : Option Saved :=
  (q.recentSaves.find? (·.1 = leadId)).map (·.2)

/-- The part of `updateNote` up to its first suspension point. -/
def updateNote (leadId : Int) (notes : Text) (w : World) (q : Queue) : World :=
  if !canCapture w q then { w with promises := Function.update w.promises leadId .none }
  else
    match setLastNote leadId notes q.pending with
    | some (pending, clientId) =>
      { w with
        queue := some { q with pending := pending }
        writes := [.pending pending]
        promises := Function.update w.promises leadId (.acknowledged clientId notes) }
    | none =>
      match (savedFor q leadId).filter (·.knockId.isSome) with
      | none => { w with promises := Function.update w.promises leadId .none }
      | some saved =>
        { w with
          sent := w.sent + 1
          wire := w.wire ++ [{ seq := w.sent, clientId := saved.clientId, notes := some notes }]
          patches := w.patches ++
            [{ seq := w.sent, leadId, runVersion := q.runVersion, lease := w.lease }]
          promises := Function.update w.promises leadId
            (.awaiting w.sent saved.clientId notes) }

/-- What an awaited PATCH makes of the promise of its lead, if that is still its own. -/
def settlePromise (seq : Nat) (ok : Bool) : Promise → Promise
  | .awaiting seq' clientId notes =>
    if seq' = seq then (if ok then .acknowledged clientId notes else .none)
    else .awaiting seq' clientId notes
  | p => p

def patchAnswered (seq : Nat) (ok : Bool) (w : World) (q : Queue) : World :=
  match w.patches.find? (·.seq = seq) with
  | none => w
  | some call =>
    let current := currentRun w q call.lease && q.runVersion = call.runVersion
    { w with
      patches := w.patches.filter (·.seq ≠ seq)
      promises := Function.update w.promises call.leadId
        (settlePromise seq (ok && current) (w.promises call.leadId)) }

def retried (item : QueuedKnock) : QueuedKnock :=
  { item with attempts := 0, nextAttemptAt := 0, lastError := none }

def retryTargets (clientId : Option String) (q : Queue) : List QueuedKnock :=
  match clientId with
  | none => q.dead
  | some id => (q.dead.find? (·.clientId = id)).toList

def retryRest (clientId : Option String) (q : Queue) : List QueuedKnock :=
  match clientId with
  | none => []
  | some id => q.dead.eraseP (·.clientId = id)

def retryDead (clientId : Option String) (env : Ambient) (w : World) (q : Queue) : World :=
  let targets := retryTargets clientId q
  if !canCapture w q || targets = [] then w
  else
    let q' : Queue :=
      { q with pending := q.pending ++ targets.map retried, dead := retryRest clientId q }
    startFlush env { w with writes := [.pending q'.pending, .dead q'.dead] } q'

def autoSweep (env : Ambient) (w : World) (q : Queue) : World :=
  let s := sweep env w q
  if s.2 = [] then w else startFlush env { w with writes := s.2 } s.1

def suspend (w : World) (q : Queue) : World :=
  { w with
    queue := some { q with suspended := true, runVersion := q.runVersion + 1, flight := none } }

def resume (w : World) (q : Queue) : World :=
  if w.lease.isNone then w
  else
    { w with
      queue := some { q with suspended := false, runVersion := q.runVersion + 1, flight := none } }

def Triage.toPending : Triage → Option QueuedKnock
  | .pending item => some item
  | _ => none

def Triage.toDead : Triage → Option QueuedKnock
  | .dead item => some item
  | _ => none

def Triage.toDropped : Triage → Option QueuedKnock
  | .drop item => some item
  | _ => none

/-- `createKnockQueue`: the lanes are rebuilt from storage and both are written back. Whatever the
old page awaited is gone. -/
def load (w : World) : World :=
  let triaged := w.stored.pending.map triagePending ++ w.stored.dead.map triageDead
  let q : Queue :=
    { pending := triaged.filterMap Triage.toPending
      dead := triaged.filterMap Triage.toDead
      recentSaves := []
      flight := none
      suspended := w.lease.isNone
      runVersion := 0
      lastTransientFailureAt := 0
      lastAutoSweepAt := 0 }
  { w with
    queue := some q
    writes := [.pending q.pending, .dead q.dead]
    patches := []
    resolved := w.resolved ++ (triaged.filterMap Triage.toDropped).map (·.clientId)
    promises := fun leadId =>
      match w.promises leadId with
      | .awaiting _ _ _ => .none
      | p => p }

inductive Event
  | stage (input : EnqueueInput) (clientId : String)
  | enrich (clientId : String) (evidence : Evidence)
  | flush (env : Ambient)
  | arrive (i : Nat)
  | lose (i : Nat)
  | answered (knockId : Option Nat) (env : Ambient)
  | failed (message : Text) (env : Ambient)
  | updateNote (leadId : Int) (notes : Text)
  | patchAnswered (seq : Nat) (ok : Bool)
  | retryDead (clientId : Option String) (env : Ambient)
  | autoSweep (env : Ambient)
  | suspend
  | resume
  | changeLease (lease : Option Nat)
  | load

/-- The request that the running flush awaits, with the item it was sent for. -/
def awaited (q : Queue) : Option (Flight × QueuedKnock) :=
  q.flight.bind fun f => (q.pending[f.idx]?).map fun item => (f, item)

def hasArrived (w : World) (seq : Nat) : Bool := w.received.any (·.seq = seq)

/-- An event on an open page. A success can only answer a request that has arrived. -/
def performOpen (w : World) (q : Queue) : Event → World
  | .stage input clientId => stage input clientId w q
  | .enrich clientId evidence => enrich clientId evidence w q
  | .flush env => startFlush env w q
  | .answered knockId env =>
    match awaited q with
    | none => w
    | some (f, item) => if hasArrived w f.seq then answered knockId env w q f item else w
  | .failed message env =>
    match awaited q with
    | none => w
    | some (f, item) => failed message env w q f item
  | .updateNote leadId notes => updateNote leadId notes w q
  | .patchAnswered seq ok => if !ok || hasArrived w seq then patchAnswered seq ok w q else w
  | .retryDead clientId env => retryDead clientId env w q
  | .autoSweep env => autoSweep env w q
  | .suspend => suspend w q
  | .resume => resume w q
  | _ => w

/-- The memory after an event, with the storage writes it makes. -/
def perform (w : World) (e : Event) : World :=
  let w := { w with writes := [] }
  match e with
  | .arrive i =>
    match w.wire[i]? with
    | none => w
    | some r => { w with wire := w.wire.eraseIdx i, received := w.received ++ [r] }
  | .lose i => { w with wire := w.wire.eraseIdx i }
  | .changeLease lease => { w with lease := lease }
  | .load => load w
  | e => w.queue.elim w fun q => performOpen w q e

def complete (w : World) (e : Event) : World :=
  let w' := perform w e
  { w' with stored := w'.writes.foldl Storage.apply w.stored, writes := [] }

/-- A page that dies during an event, after its first `k` storage writes. History counts from the
first write on. -/
def die (w : World) (e : Event) (k : Nat) : World :=
  let w' := perform w e
  let history := if k = 0 then w else w'
  { w with
    queue := none
    stored := (w'.writes.take k).foldl Storage.apply w.stored
    writes := []
    patches := []
    staged := history.staged
    accepted := history.accepted
    resolved := history.resolved
    promises := history.promises }

inductive Action
  | run (e : Event)
  | crash (e : Event) (k : Nat)

def step (w : World) : Action → World
  | .run e => complete w e
  | .crash e k => die w e k

end HomefrontFiber.FieldQueue
