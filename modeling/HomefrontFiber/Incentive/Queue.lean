import HomefrontFiber.Foundation.Runs
import HomefrontFiber.Incentive.Awards

/-!
# The incentive queue

Workers drain one ordered event log under one cursor. An event has a processing state of its own: a
worker leases it, does its work in one transaction, marks it, and moves the cursor when its drain
ends. A drain is a sequence of statements, and other workers, operators and crashes may come between
any two of them.
-/

namespace HomefrontFiber.Incentive

open List

inductive EventStatus
  | pending | processing | completed | failed | blocked | deadLettered | resolved
deriving DecidableEq

/-- A row of `event_processing_state`. -/
structure EventState where
  status : EventStatus
  attempts : Nat
  nextAttemptAt : Option Int
  leaseOwner : Option Nat
  leaseExpiresAt : Option Int

def EventState.fresh : EventState where
  status := .pending
  attempts := 0
  nextAttemptAt := none
  leaseOwner := none
  leaseExpiresAt := none

def maxAttempts : Nat := 5

def leaseTtlMs : Int := 60000

/-- The delay before the next attempt, by the number of failures so far. -/
def backoffMs : Nat → Int
  | 0 | 1 => 30000
  | 2 => 120000
  | 3 => 600000
  | 4 => 1800000
  | _ => 3600000

/-- Where a drain stands between two of its statements. The numbers are ids of events: `after` is
the cursor that the batch was read from, `last` the id that the drain will move the cursor to. -/
inductive Phase
  | opened (after limit : Nat)
  | fetched (batch : List DomainEvent)
  | scanning (batch : List DomainEvent) (last : Nat)
  | registering (event : DomainEvent) (rest : List DomainEvent) (last : Nat)
  | leasing (event : DomainEvent) (rest : List DomainEvent) (last : Nat)
  | working (event : DomainEvent) (rest : List DomainEvent) (last : Nat)
  | committed (event : DomainEvent) (rest : List DomainEvent) (last : Nat)
  | threw (event : DomainEvent) (last : Nat)
  | finishing (last : Nat)

structure System where
  events : List DomainEvent
  states : Nat → Option EventState
  cursor : Nat
  book : AwardBook
  workers : List (Nat × Phase)

def System.empty : System where
  events := []
  states _ := none
  cursor := 0
  book := .empty
  workers := []

/-- `emit`: the log numbers the event; a repeated key adds nothing. -/
def emit (input : DomainEvent) (s : System) : System :=
  if s.events.any fun e => e.tenantId = input.tenantId && e.dedupeKey = input.dedupeKey then s
  else { s with events := s.events ++ [{ input with id := s.events.length + 1 }] }

def setState (eventId : Nat) (state : EventState) (s : System) : System :=
  { s with states := Function.update s.states eventId (some state) }

def stateOf (eventId : Nat) (s : System) : EventState := (s.states eventId).getD .fresh

def EventStatus.operatorCleared : EventStatus → Bool
  | .deadLettered | .resolved => true
  | _ => false

def isOperatorCleared (state : Option EventState) : Bool := state.any (·.status.operatorCleared)

/-- The status, the backoff and the lease let a worker take the event. -/
def EventState.leasable (state : EventState) (now : Int) : Bool :=
  (state.status = .pending || state.status = .failed || state.status = .processing) &&
    state.nextAttemptAt.all (· ≤ now) &&
    (state.leaseOwner.isNone || state.leaseExpiresAt.all (· ≤ now))

def leased (worker : Nat) (now : Int) (state : EventState) : EventState :=
  { state with
    status := .processing
    leaseOwner := some worker
    leaseExpiresAt := some (now + leaseTtlMs) }

def markCompleted (eventId : Nat) (s : System) : System :=
  setState eventId
    { stateOf eventId s with
      status := .completed
      nextAttemptAt := none
      leaseOwner := none
      leaseExpiresAt := none } s

def failedState (now : Int) (state : EventState) : EventState :=
  let attempts := state.attempts + 1
  let exhausted := maxAttempts ≤ attempts
  { status := if exhausted then .blocked else .failed
    attempts := attempts
    nextAttemptAt := if exhausted then none else some (now + backoffMs attempts)
    leaseOwner := none
    leaseExpiresAt := none }

def markFailed (now : Int) (eventId : Nat) (s : System) : System :=
  setState eventId (failedState now (stateOf eventId s)) s

inductive OperatorAction
  | retry | deadLetter | resolve
deriving DecidableEq

structure OperatorInput where
  eventId : Nat
  action : OperatorAction
  tenantId : Nat
  reason : String
  authorized : Bool

def OperatorAction.status : OperatorAction → EventStatus
  | .retry => .pending
  | .deadLetter => .deadLettered
  | .resolve => .resolved

def EventStatus.actionable : EventStatus → Bool
  | .failed | .blocked | .deadLettered => true
  | _ => false

def trimmedLength (reason : String) : Nat :=
  ((reason.toList.dropWhile Char.isWhitespace).reverse.dropWhile Char.isWhitespace).length

def actionableState (input : OperatorInput) (s : System) : Option EventState :=
  if input.authorized && 0 < input.tenantId && 3 ≤ trimmedLength input.reason &&
      trimmedLength input.reason ≤ 500 &&
      (s.events.any fun e => e.id = input.eventId && e.tenantId = input.tenantId) &&
      (input.action ≠ .retry || s.cursor < input.eventId) then
    (s.states input.eventId).filter (·.status.actionable)
  else none

def operatorAction (input : OperatorInput) (s : System) : System :=
  match actionableState input s with
  | none => s
  | some state =>
    setState input.eventId
      { state with
        status := input.action.status
        nextAttemptAt := none
        leaseOwner := none
        leaseExpiresAt := none } s

/-- `advanceCursor` never moves the cursor back. -/
def advanceCursor (last : Nat) (s : System) : System := { s with cursor := max s.cursor last }

def resetCursor (target : Nat) (s : System) : System := { s with cursor := target }

def nextBatch (after limit : Nat) (events : List DomainEvent) : List DomainEvent :=
  (events.filter (after < ·.id)).take (max 1 (min 5000 limit))

def phaseOf (worker : Nat) (s : System) : Option Phase :=
  (s.workers.find? (·.1 = worker)).map (·.2)

def setPhase (worker : Nat) (phase : Phase) (s : System) : System :=
  { s with workers := (worker, phase) :: s.workers.filter (·.1 ≠ worker) }

def endDrain (worker : Nat) (s : System) : System :=
  { s with workers := s.workers.filter (·.1 ≠ worker) }

/-- What a statement of a drain meets: the clock, the tables that this model leaves out, whether the
transaction throws, and what the referral store emits within it. -/
structure Weather where
  now : Int
  around : Surroundings
  throws : Bool
  emitted : List DomainEvent

/-- The one statement of `acquireLease` that lets no two workers hold an event. -/
def lease (worker : Nat) (weather : Weather) (event : DomainEvent) (rest : List DomainEvent)
    (last : Nat) (s : System) : System :=
  let state := stateOf event.id s
  if state.leasable weather.now then
    setPhase worker (.working event rest last)
      (setState event.id (leased worker weather.now state) s)
  else setPhase worker (.finishing last) s

/-- The transaction of an event. The referral store emits when it rechecks a qualification. -/
def commit (weather : Weather) (event : DomainEvent) (s : System) : System :=
  let s := { s with book := processEvent s.events weather.around event weather.now s.book }
  if event.type = .saleApproved then weather.emitted.foldl (fun s e => emit e s) s else s

/-- The next statement of a drain of `drainOnce`. -/
def advancePhase (worker : Nat) (weather : Weather) (s : System) : Phase → System
  | .opened after limit =>
    let batch := nextBatch after limit s.events
    if batch = [] then endDrain worker s else setPhase worker (.fetched batch) s
  | .fetched batch => setPhase worker (.scanning batch s.cursor) s
  | .scanning [] last => setPhase worker (.finishing last) s
  | .scanning (event :: rest) last =>
    if isOperatorCleared (s.states event.id) then setPhase worker (.scanning rest event.id) s
    else setPhase worker (.registering event rest last) s
  | .registering event rest last =>
    setPhase worker (.leasing event rest last) (setState event.id (stateOf event.id s) s)
  | .leasing event rest last => lease worker weather event rest last s
  | .working event rest last =>
    if weather.throws then setPhase worker (.threw event last) s
    else setPhase worker (.committed event rest last) (commit weather event s)
  | .committed event rest _ =>
    setPhase worker (.scanning rest event.id) (markCompleted event.id s)
  | .threw event last => setPhase worker (.finishing last) (markFailed weather.now event.id s)
  | .finishing last => endDrain worker (advanceCursor last s)

inductive Action
  | emit (input : DomainEvent)
  | begin (worker limit : Nat)
  | resume (worker : Nat) (weather : Weather)
  | crash (worker : Nat)
  | operator (input : OperatorInput)
  | resetCursor (target : Nat)
  | createCampaign (campaign : IncentiveCampaign)
  | setCampaignActive (id : Nat) (active : Bool)
  | settleSpiff (tenantId id : Nat) (paid : Bool)
  | otherSpiff (row : SpiffInput)

def step (s : System) : Action → System
  | .emit input => emit input s
  | .begin worker limit =>
    if (phaseOf worker s).isSome then s else setPhase worker (.opened s.cursor limit) s
  | .resume worker weather =>
    match phaseOf worker s with
    | none => s
    | some phase => advancePhase worker weather s phase
  | .crash worker => endDrain worker s
  | .operator input => operatorAction input s
  | .resetCursor target => resetCursor target s
  | .createCampaign campaign => { s with book := createCampaign campaign s.book }
  | .setCampaignActive id active => { s with book := setCampaignActive id active s.book }
  | .settleSpiff tenantId id paid => { s with book := settleSpiff tenantId id paid s.book }
  | .otherSpiff row => { s with book := otherSpiff row s.book }

theorem emit_events (input : DomainEvent) (s : System) :
    (emit input s).events = s.events ∨
      (emit input s).events = s.events ++ [{ input with id := s.events.length + 1 }] := by
  unfold emit
  split
  · exact .inl rfl
  · exact .inr rfl

variable {worker eventId : Nat} {phase : Phase} {s : System} {w : Nat × Phase} {P : Phase → Prop}

theorem mem_setPhase :
    w ∈ (setPhase worker phase s).workers ↔
      w = (worker, phase) ∨ (w ∈ s.workers ∧ w.1 ≠ worker) := by
  simp [setPhase]

theorem mem_endDrain : w ∈ (endDrain worker s).workers ↔ w ∈ s.workers ∧ w.1 ≠ worker := by
  simp [endDrain]

theorem mem_of_phaseOf (h : phaseOf worker s = some phase) : (worker, phase) ∈ s.workers := by
  simp only [phaseOf, Option.map_eq_some_iff, Prod.exists] at h
  obtain ⟨w, p, hfind, rfl⟩ := h
  obtain ⟨hmem, hkey⟩ := @mem_of_find?_key _ _ _ _ Prod.fst _ _ hfind
  obtain rfl : w = worker := hkey
  exact hmem

@[simp] theorem setState_self (eventId : Nat) (state : EventState) (s : System) :
    (setState eventId state s).states eventId = some state := by
  simp [setState]

theorem setState_of_ne {id : Nat} (h : id ≠ eventId) (state : EventState) (s : System) :
    (setState eventId state s).states id = s.states id := by
  simp [setState, h]

theorem forall_setPhase (h : ∀ w ∈ s.workers, P w.2) (hphase : P phase) (worker : Nat) :
    ∀ w ∈ (setPhase worker phase s).workers, P w.2 := by
  intro w hw
  rcases mem_setPhase.mp hw with rfl | ⟨hold, -⟩
  · exact hphase
  · exact h w hold

theorem forall_endDrain (h : ∀ w ∈ s.workers, P w.2)
    (worker : Nat) : ∀ w ∈ (endDrain worker s).workers, P w.2 := by
  intro w hw
  exact h w (mem_endDrain.mp hw).1

/-! ### Batches

The log numbers its events from one, so what a drain still has in hand is a run of consecutive
events. -/

def Phase.batch : Phase → List DomainEvent
  | .opened _ _ => []
  | .fetched batch => batch
  | .scanning batch _ => batch
  | .registering event rest _ => event :: rest
  | .leasing event rest _ => event :: rest
  | .working event rest _ => event :: rest
  | .committed event rest _ => event :: rest
  | .threw event _ => [event]
  | .finishing _ => []

def Consecutive (batch : List DomainEvent) : Prop :=
  ∃ start, 0 < start ∧ NumberedFrom (·.id) start batch

theorem consecutive_nil : Consecutive [] := ⟨1, Nat.one_pos, .nil⟩

theorem consecutive_cons {event : DomainEvent} {rest : List DomainEvent} :
    Consecutive (event :: rest) ↔ 0 < event.id ∧ NumberedFrom (·.id) (event.id + 1) rest := by
  constructor
  · rintro ⟨start, hstart, h⟩
    obtain ⟨rfl, hrest⟩ := NumberedFrom.cons_iff.mp h
    exact ⟨hstart, hrest⟩
  · rintro ⟨hpos, hrest⟩
    exact ⟨event.id, hpos, NumberedFrom.cons_iff.mpr ⟨rfl, hrest⟩⟩

theorem Consecutive.tail {event : DomainEvent} {rest : List DomainEvent}
    (h : Consecutive (event :: rest)) : Consecutive rest :=
  ⟨event.id + 1, Nat.succ_pos _, (consecutive_cons.mp h).2⟩

theorem Consecutive.single {event : DomainEvent} {rest : List DomainEvent}
    (h : Consecutive (event :: rest)) : Consecutive [event] :=
  consecutive_cons.mpr ⟨(consecutive_cons.mp h).1, .nil⟩

/-- A batch of consecutive events of a log of so many events. -/
structure Drawn (length : Nat) (batch : List DomainEvent) : Prop where
  consecutive : Consecutive batch
  bounded : ∀ event ∈ batch, event.id ≤ length

namespace Drawn

variable {length : Nat} {event : DomainEvent} {rest batch : List DomainEvent}

theorem nil : Drawn length [] := ⟨consecutive_nil, fun _ h => absurd h not_mem_nil⟩

theorem tail (h : Drawn length (event :: rest)) : Drawn length rest :=
  ⟨h.consecutive.tail, fun e he => h.bounded e (mem_cons_of_mem event he)⟩

theorem single (h : Drawn length (event :: rest)) : Drawn length [event] :=
  ⟨h.consecutive.single, by simpa using h.bounded event mem_cons_self⟩

theorem mono (h : Drawn length batch) {length' : Nat} (hle : length ≤ length') :
    Drawn length' batch := ⟨h.consecutive, fun e he => (h.bounded e he).trans hle⟩

end Drawn

structure Logged (s : System) : Prop where
  numbered : Numbered (·.id) s.events
  drawn : ∀ w ∈ s.workers, Drawn s.events.length w.2.batch
  unknown : ∀ id, s.events.length < id → s.states id = none
  single : (s.workers.map (·.1)).Nodup

theorem logged_empty : Logged System.empty where
  numbered := .nil
  drawn _ hw := absurd hw not_mem_nil
  unknown _ _ := rfl
  single := nodup_nil

theorem emit_frame (input : DomainEvent) (s : System) :
    (emit input s).states = s.states ∧ (emit input s).cursor = s.cursor ∧
      (emit input s).book = s.book ∧ (emit input s).workers = s.workers := by
  unfold emit
  split
  · exact ⟨rfl, rfl, rfl, rfl⟩
  · exact ⟨rfl, rfl, rfl, rfl⟩

theorem commit_frame (weather : Weather) (event : DomainEvent) (s : System) :
    (commit weather event s).states = s.states ∧ (commit weather event s).cursor = s.cursor ∧
      (commit weather event s).workers = s.workers := by
  have hfold : ∀ (l : List DomainEvent) (s : System),
      (l.foldl (fun s e => emit e s) s).states = s.states ∧
        (l.foldl (fun s e => emit e s) s).cursor = s.cursor ∧
        (l.foldl (fun s e => emit e s) s).workers = s.workers := by
    intro l
    induction l with
    | nil => exact fun s => ⟨rfl, rfl, rfl⟩
    | cons e l ih =>
      intro s
      obtain ⟨hstates, hcursor, hworkers⟩ := ih (emit e s)
      obtain ⟨hstates', hcursor', -, hworkers'⟩ := emit_frame e s
      exact ⟨hstates.trans hstates', hcursor.trans hcursor', hworkers.trans hworkers'⟩
  unfold commit
  simp only []
  split
  · exact hfold _ _
  · exact ⟨rfl, rfl, rfl⟩

/-- A statement of a drain ends it or takes it on, with events that it had or reads from the log.
Beside the states of events, only the transaction of an event changes what is stored. -/
theorem advancePhase_cases (worker : Nat) (weather : Weather) (s : System) (phase : Phase) : ∃ t,
    (advancePhase worker weather s phase = endDrain worker t ∨
      ∃ next, advancePhase worker weather s phase = setPhase worker next t ∧
        ∀ e ∈ next.batch, e ∈ phase.batch ∨ e ∈ s.events) ∧
    (t.events = s.events ∧ t.book = s.book ∧ t.workers = s.workers ∧ s.cursor ≤ t.cursor ∨
      ∃ event rest last, phase = .working event rest last ∧ weather.throws = false ∧
        t = commit weather event s) := by
  have hsame : s.events = s.events ∧ s.book = s.book ∧ s.workers = s.workers ∧
      s.cursor ≤ s.cursor := ⟨rfl, rfl, rfl, Nat.le_refl _⟩
  cases phase with
  | opened after limit =>
    refine ⟨s, ?_, .inl hsame⟩
    simp only [advancePhase]
    split
    · exact .inl rfl
    · refine .inr ⟨.fetched (nextBatch after limit s.events), rfl, fun e he => .inr ?_⟩
      exact mem_of_mem_filter (mem_of_mem_take he)
  | fetched batch => exact ⟨s, .inr ⟨.scanning batch s.cursor, rfl, fun e he => .inl he⟩, .inl hsame⟩
  | scanning batch last =>
    refine ⟨s, .inr ?_, .inl hsame⟩
    cases batch with
    | nil => exact ⟨.finishing last, rfl, fun e he => absurd he not_mem_nil⟩
    | cons event rest =>
      simp only [advancePhase]
      split
      · exact ⟨.scanning rest event.id, rfl, fun e he => .inl (mem_cons_of_mem event he)⟩
      · exact ⟨.registering event rest last, rfl, fun e he => .inl he⟩
  | registering event rest last =>
    refine ⟨setState event.id (stateOf event.id s) s, .inr ⟨.leasing event rest last, rfl, ?_⟩, ?_⟩
    · exact fun e he => .inl he
    · exact .inl hsame
  | leasing event rest last =>
    simp only [advancePhase, lease]
    split
    · refine ⟨setState event.id (leased worker weather.now (stateOf event.id s)) s, .inr ?_, ?_⟩
      · exact ⟨.working event rest last, rfl, fun e he => .inl he⟩
      · exact .inl hsame
    · exact ⟨s, .inr ⟨.finishing last, rfl, fun e he => absurd he not_mem_nil⟩, .inl hsame⟩
  | working event rest last =>
    simp only [advancePhase]
    split
    · refine ⟨s, .inr ⟨.threw event last, rfl, fun e he => ?_⟩, .inl hsame⟩
      exact .inl (mem_singleton.mp he ▸ mem_cons_self)
    · rename_i hthrows
      refine ⟨commit weather event s, .inr ⟨.committed event rest last, rfl, ?_⟩, .inr ?_⟩
      · exact fun e he => .inl he
      · exact ⟨event, rest, last, rfl, (Bool.not_eq_true _).mp hthrows, rfl⟩
  | committed event rest last =>
    refine ⟨markCompleted event.id s, .inr ⟨.scanning rest event.id, rfl, ?_⟩, .inl hsame⟩
    exact fun e he => .inl (mem_cons_of_mem event he)
  | threw event last =>
    exact ⟨markFailed weather.now event.id s, .inr ⟨.finishing last, rfl, fun e he => absurd he not_mem_nil⟩, .inl hsame⟩
  | finishing last =>
    exact ⟨advanceCursor last s, .inl rfl, .inl ⟨rfl, rfl, rfl, Nat.le_max_left _ _⟩⟩

theorem mem_advancePhase_of_ne (hw : w ∈ s.workers)
    (hne : w.1 ≠ worker) (weather : Weather) (phase : Phase) :
    w ∈ (advancePhase worker weather s phase).workers := by
  obtain ⟨t, hnext, hkept⟩ := advancePhase_cases worker weather s phase
  have hworkers : t.workers = s.workers := by
    rcases hkept with hsame | ⟨event, -, -, -, -, rfl⟩
    · exact hsame.2.2.1
    · exact (commit_frame weather event s).2.2
  rcases hnext with hend | ⟨next, hset, -⟩
  · rw [hend]
    exact mem_endDrain.mpr ⟨hworkers ▸ hw, hne⟩
  · rw [hset]
    exact mem_setPhase.mpr (.inr ⟨hworkers ▸ hw, hne⟩)

theorem cursor_le_advancePhase (worker : Nat) (weather : Weather) (s : System) (phase : Phase) :
    s.cursor ≤ (advancePhase worker weather s phase).cursor := by
  obtain ⟨t, hnext, hkept⟩ := advancePhase_cases worker weather s phase
  have hcursor : s.cursor ≤ t.cursor := by
    rcases hkept with hsame | ⟨event, -, -, -, -, rfl⟩
    · exact hsame.2.2.2
    · exact Nat.le_of_eq (commit_frame weather event s).2.1.symm
  rcases hnext with heq | ⟨next, heq, -⟩ <;> exact heq ▸ hcursor

theorem operatorAction_frame (input : OperatorInput) (s : System) :
    (operatorAction input s).events = s.events ∧ (operatorAction input s).cursor = s.cursor ∧
      (operatorAction input s).book = s.book ∧ (operatorAction input s).workers = s.workers := by
  unfold operatorAction
  split
  · exact ⟨rfl, rfl, rfl, rfl⟩
  · exact ⟨rfl, rfl, rfl, rfl⟩

theorem nextBatch_numberedFrom {events : List DomainEvent} (h : Numbered (·.id) events)
    (after limit : Nat) : NumberedFrom (·.id) (after + 1) (nextBatch after limit events) := by
  have hfilter : NumberedFrom (·.id) (max 1 (after + 1)) (events.filter (after < ·.id)) :=
    NumberedFrom.filter_lt h after
  have hstart : max 1 (after + 1) = after + 1 := by omega
  exact (hstart ▸ hfilter).take _

theorem Logged.phase_eq (h : Logged s) {p p' : Phase}
    (hp : (worker, p) ∈ s.workers) (hp' : (worker, p') ∈ s.workers) : p = p' :=
  congrArg Prod.snd (inj_on_of_nodup_map h.single hp hp' rfl)

theorem Logged.setState (h : Logged s) (hid : eventId ≤ s.events.length) (state : EventState) :
    Logged (setState eventId state s) where
  numbered := h.numbered
  drawn := h.drawn
  unknown id hlt := by
    rw [setState_of_ne (Nat.ne_of_gt (hid.trans_lt hlt))]
    exact h.unknown id hlt
  single := h.single

theorem Logged.setPhase (h : Logged s) (worker : Nat) (phase : Phase)
    (hphase : Drawn s.events.length phase.batch) : Logged (setPhase worker phase s) where
  numbered := h.numbered
  drawn := forall_setPhase (P := fun p => Drawn s.events.length p.batch) h.drawn hphase worker
  unknown := h.unknown
  single := by
    have hrest : ((s.workers.filter (·.1 ≠ worker)).map (·.1)).Nodup :=
      h.single.sublist (filter_sublist.map _)
    exact nodup_cons.mpr ⟨by simp, hrest⟩

theorem Logged.endDrain (h : Logged s) (worker : Nat) : Logged (endDrain worker s) where
  numbered := h.numbered
  drawn := forall_endDrain (P := fun p => Drawn s.events.length p.batch) h.drawn worker
  unknown := h.unknown
  single := h.single.sublist (filter_sublist.map _)

theorem length_le_emit (input : DomainEvent) (s : System) :
    s.events.length ≤ (emit input s).events.length := by
  rcases emit_events input s with heq | heq
  · rw [heq]
  · simp [heq]

theorem Logged.emit (h : Logged s) (input : DomainEvent) : Logged (emit input s) := by
  obtain ⟨hstates, -, -, hworkers⟩ := emit_frame input s
  have hle := length_le_emit input s
  refine ⟨?_, ?_, ?_, ?_⟩
  · rcases emit_events input s with heq | heq
    · rw [heq]
      exact h.numbered
    · rw [heq]
      exact h.numbered.snoc rfl
  · intro w hw
    rw [hworkers] at hw
    exact (h.drawn w hw).mono hle
  · intro id hlt
    rw [hstates]
    exact h.unknown id (hle.trans_lt hlt)
  · rw [hworkers]
    exact h.single

theorem Logged.commit (h : Logged s) (weather : Weather) (event : DomainEvent) :
    Logged (commit weather event s) ∧ s.events.length ≤ (commit weather event s).events.length := by
  unfold Incentive.commit
  simp only []
  split
  · apply foldl_induction (I := fun (_ : List DomainEvent) (t : System) =>
      Logged t ∧ s.events.length ≤ t.events.length)
    · intro e _ t ht
      exact ⟨ht.1.emit e, ht.2.trans (length_le_emit e t)⟩
    · exact ⟨⟨h.numbered, h.drawn, h.unknown, h.single⟩, Nat.le_refl _⟩
  · exact ⟨⟨h.numbered, h.drawn, h.unknown, h.single⟩, Nat.le_refl _⟩

theorem logged_advancePhase (h : Logged s)
    (hphase : Drawn s.events.length phase.batch) (weather : Weather) :
    Logged (advancePhase worker weather s phase) := by
  cases phase with
  | opened after limit =>
    simp only [advancePhase]
    split
    · exact h.endDrain worker
    · apply h.setPhase
      have hnum := nextBatch_numberedFrom h.numbered after limit
      refine ⟨⟨after + 1, Nat.succ_pos after, hnum⟩, ?_⟩
      intro event hevent
      exact h.numbered.le_length (mem_of_mem_filter (mem_of_mem_take hevent))
  | fetched batch => exact h.setPhase worker (.scanning batch s.cursor) hphase
  | scanning batch last =>
    cases batch with
    | nil => exact h.setPhase worker (.finishing last) .nil
    | cons event rest =>
      simp only [advancePhase]
      split
      · exact h.setPhase worker (.scanning rest event.id) hphase.tail
      · exact h.setPhase worker (.registering event rest last) hphase
  | registering event rest last =>
    apply (h.setState (hphase.bounded event mem_cons_self) _).setPhase
    exact hphase
  | leasing event rest last =>
    simp only [advancePhase, lease]
    split
    · apply (h.setState (hphase.bounded event mem_cons_self) _).setPhase
      exact hphase
    · exact h.setPhase worker (.finishing last) .nil
  | working event rest last =>
    simp only [advancePhase]
    split
    · exact h.setPhase worker (.threw event last) hphase.single
    · obtain ⟨hlogged, hle⟩ := h.commit weather event
      apply hlogged.setPhase
      exact hphase.mono hle
  | committed event rest last =>
    apply (h.setState (hphase.bounded event mem_cons_self) _).setPhase
    exact hphase.tail
  | threw event last =>
    apply (h.setState (hphase.bounded event mem_cons_self) _).setPhase
    exact .nil
  | finishing last =>
    have hcursor : Logged (advanceCursor last s) := ⟨h.numbered, h.drawn, h.unknown, h.single⟩
    exact hcursor.endDrain worker

theorem logged_operatorAction (h : Logged s) (input : OperatorInput) :
    Logged (operatorAction input s) := by
  unfold operatorAction
  split
  · exact h
  · rename_i state hstate
    apply h.setState
    -- only an event of the log has a state to act on
    by_contra hlt
    have hnone : s.states input.eventId = none := h.unknown _ (Nat.not_le.mp hlt)
    unfold actionableState at hstate
    simp [hnone] at hstate

theorem logged_step (s : System) (a : Action) (h : Logged s) : Logged (step s a) := by
  cases a with
  | emit input => exact h.emit input
  | begin worker limit =>
    simp only [step]
    split
    · exact h
    · exact h.setPhase worker (.opened s.cursor limit) .nil
  | resume worker weather =>
    simp only [step]
    split
    · exact h
    · rename_i phase hphase
      exact logged_advancePhase h (h.drawn _ (mem_of_phaseOf hphase)) weather
  | crash worker => exact h.endDrain worker
  | operator input => exact logged_operatorAction h input
  | resetCursor target => exact ⟨h.numbered, h.drawn, h.unknown, h.single⟩
  | createCampaign campaign => exact ⟨h.numbered, h.drawn, h.unknown, h.single⟩
  | setCampaignActive id active => exact ⟨h.numbered, h.drawn, h.unknown, h.single⟩
  | settleSpiff tenantId id paid => exact ⟨h.numbered, h.drawn, h.unknown, h.single⟩
  | otherSpiff row => exact ⟨h.numbered, h.drawn, h.unknown, h.single⟩

end HomefrontFiber.Incentive
