import Mathlib.Data.Finset.Card
import Mathlib.Data.List.Sort
import HomefrontFiber.Workweek
import HomefrontFiber.Foundation.Runs

/-!
# The facts of a rep-day

`computeDailyFacts` folds the knocks of one rep on one local date into the columns of
`rep_daily_metrics`. The columns that are read off other tables or other dates are left out.
-/

namespace HomefrontFiber.RepMetrics

/-- A row of `knock_log`. `knockedAtMs` is the instant of its ISO timestamp. -/
structure Knock where
  id : Nat
  tenantId : Option Nat
  repId : Nat
  leadId : Nat
  knockedAtMs : Int
  outcome : String
  wasHome : Bool
  verification : Option String
  callbackDate : Option String
  dwellSeconds : Option Int
  superseded : Bool
deriving DecidableEq

namespace Knock

def isVerified (k : Knock) : Bool := k.verification = some "verified"

def isAppointment (k : Knock) : Bool :=
  k.callbackDate.any (· ≠ "") && (k.outcome = "follow_up" || k.outcome = "callback")

def isContact (k : Knock) : Bool := k.wasHome

def isInterested (k : Knock) : Bool := k.outcome = "interested"

def isWorked (k : Knock) : Bool := k.outcome ≠ "not_home" && k.outcome ≠ "prospect"

end Knock

/-- The columns of `rep_daily_metrics` that the knocks of the day decide. -/
structure RepDailyFacts where
  doorsAttempted : Nat
  doorsVisited : Nat
  verifiedDoors : Nat
  doorsCompleted : Nat
  contacts : Nat
  interestedLeads : Nat
  followUps : Nat
  appointments : Nat
  noAnswerRecords : Nat
  notInterestedRecords : Nat
  dwellSecondsTotal : Int
  dwellSamples : Nat
deriving DecidableEq

/-- The accumulators of `computeDailyFacts`. -/
structure Tally where
  distinctDoors : Finset Nat
  distinctVerified : Finset Nat
  distinctCompleted : Finset Nat
  contacts : Nat
  interested : Nat
  appointments : Nat
  noAnswer : Nat
  notInterested : Nat
  dwellTotal : Int
  dwellSamples : Nat

namespace Tally

def empty : Tally := ⟨∅, ∅, ∅, 0, 0, 0, 0, 0, 0, 0⟩

def attempt (t : Tally) (e : Knock) : Tally :=
  { t with
    distinctDoors := insert e.leadId t.distinctDoors
    distinctVerified :=
      if e.isVerified then insert e.leadId t.distinctVerified else t.distinctVerified
    dwellTotal := t.dwellTotal + (e.dwellSeconds.filter (0 ≤ ·)).getD 0
    dwellSamples := t.dwellSamples + if e.dwellSeconds.any (0 ≤ ·) then 1 else 0 }

def outcome (t : Tally) (e : Knock) : Tally :=
  { t with
    contacts := t.contacts + if e.isContact then 1 else 0
    noAnswer := t.noAnswer + if e.isContact then 0 else 1
    interested := t.interested + if e.isInterested then 1 else 0
    appointments := t.appointments + if e.isAppointment then 1 else 0
    notInterested := t.notInterested +
      if e.outcome = "not_interested" || e.outcome = "already_customer" then 1 else 0
    distinctCompleted :=
      if e.isWorked then insert e.leadId t.distinctCompleted else t.distinctCompleted }

def add (t : Tally) (e : Knock) : Tally :=
  if e.superseded then t.attempt e else (t.attempt e).outcome e

end Tally

def followUpsCreated (rows : List Knock) : Nat :=
  (rows.filter fun k => k.callbackDate.isSome && !k.superseded).length

/-- `events` are the rows that `loadDoorEvents` returned, `followUpRows` those that the follow-up
query counted. -/
def computeDailyFacts (events followUpRows : List Knock) : RepDailyFacts :=
  let tally := (events.insertionSort fun a b => a.knockedAtMs ≤ b.knockedAtMs).foldl Tally.add
    Tally.empty
  { doorsAttempted := events.length
    doorsVisited := tally.distinctDoors.card
    verifiedDoors := tally.distinctVerified.card
    doorsCompleted := tally.distinctCompleted.card
    contacts := tally.contacts
    interestedLeads := tally.interested
    followUps := followUpsCreated followUpRows
    appointments := tally.appointments
    noAnswerRecords := tally.noAnswer
    notInterestedRecords := tally.notInterested
    dwellSecondsTotal := tally.dwellTotal
    dwellSamples := tally.dwellSamples }

/-- A row of `rep_daily_metrics`, and of the queue of rows to recompute. -/
structure RepDay where
  tenantId : Nat
  repId : Nat
  metricDate : Int
deriving DecidableEq

/-- Which organisation a rep belongs to and the time zone of each. -/
structure Directory where
  home : Nat → Nat
  timezone : Nat → Zone

namespace Directory

variable (dir : Directory)

/-- The start of a local date, to the second, as queries print it. -/
def dayStart (tenantId : Nat) (metricDate : Int) : Int :=
  (dir.timezone tenantId).zonedWallToUtcMs metricDate 0 0 / 1000 * 1000

/-- The queries of a rep-day return the knock. They ask for the rep, not for the tenant. -/
def Holds (day : RepDay) (k : Knock) : Prop :=
  k.repId = day.repId ∧ dir.dayStart day.tenantId day.metricDate ≤ k.knockedAtMs ∧
    k.knockedAtMs < dir.dayStart day.tenantId (day.metricDate + 1)

instance (day : RepDay) (k : Knock) : Decidable (dir.Holds day k) :=
  inferInstanceAs (Decidable (_ ∧ _ ∧ _))

/-- The rep-day that a stored knock marks. A knock on a door without a tenant marks none. -/
def markedDay (k : Knock) : Option RepDay :=
  k.tenantId.map fun tenantId =>
    { tenantId, repId := k.repId,
      metricDate := (dir.timezone tenantId).localYmd k.knockedAtMs }

/-- The summary of a rep for a local date is the one under the rep's own organisation. -/
def repDay (repId : Nat) (metricDate : Int) : RepDay := ⟨dir.home repId, repId, metricDate⟩

/-- The knock marks the one rep-day of its rep that holds it. -/
def MarksItsDay (k : Knock) : Prop :=
  ∀ date, dir.Holds (dir.repDay k.repId date) k →
    dir.markedDay k = some (dir.repDay k.repId date)

end Directory

def dayRows (dir : Directory) (day : RepDay) (knockLog : List Knock) : List Knock :=
  knockLog.filter (dir.Holds day ·)

end HomefrontFiber.RepMetrics

/-!
## The rollup of rep-days

A knock write marks its rep-day in a queue, and one worker recomputes the queued rep-days. The
requests and the worker are processes of their own: an action is one statement of either, and
actions come in any order. A recomputation reads the day's knocks by several queries, publishes the
summary in a transaction and then deletes the mark.
-/

namespace HomefrontFiber.RepMetrics

/-- The rows that a recomputation read, by the two queries that the day's columns come from. -/
structure DayRead where
  events : List Knock
  followUpRows : List Knock
deriving DecidableEq

def DayRead.facts (r : DayRead) : RepDailyFacts := computeDailyFacts r.events r.followUpRows

inductive Phase
  | claimed
  | readEvents (events : List Knock)
  | readAll (read : DayRead)
  | published (read : DayRead)

/-- A tick of the worker: the day at hand and the claimed days that are left. -/
structure Tick where
  day : RepDay
  phase : Phase
  rest : List RepDay

/-- What was published of the day at hand, whose mark is to be deleted next. -/
def Tick.publishedRead (t : Tick) : Option DayRead :=
  match t.phase with
  | .published read => some read
  | _ => none

/-- The tick over a list of days, none of which has been read. -/
def Tick.start : List RepDay → Option Tick
  | [] => none
  | day :: rest => some { day, phase := .claimed, rest }

/-- `unmarked` are the knocks whose `createKnock` has yet to mark their day, `dailyMetrics` the
summaries, each with the rows that its columns were computed from, and `unavailable` the days that
failed and were not published since. -/
structure RollupState where
  knockLog : List Knock
  unmarked : List Nat
  dirtyDays : List RepDay
  dailyMetrics : RepDay → Option DayRead
  unavailable : List RepDay
  tick : Option Tick

def RollupState.empty : RollupState := ⟨[], [], [], fun _ => none, [], none⟩

structure KnockInput where
  tenantId : Option Nat
  repId : Nat
  leadId : Nat
  knockedAtMs : Int
  outcome : String
  wasHome : Bool
  verification : Option String
  callbackDate : Option String

def KnockInput.row (k : KnockInput) (id : Nat) : Knock where
  id := id
  tenantId := k.tenantId
  repId := k.repId
  leadId := k.leadId
  knockedAtMs := k.knockedAtMs
  outcome := k.outcome
  wasHome := k.wasHome
  verification := k.verification
  callbackDate := k.callbackDate
  dwellSeconds := none
  superseded := false

/-- A statement of the worker at the day at hand. `stored` tells whether a statement whose failure
is swallowed went through. A busy database, like a crash, ends the tick. -/
inductive WorkerStep
  | loadDoorEvents
  | loadFollowUps
  | publish
  | clearDirtyDay (stored : Bool)
  | failDay
  | endTick

inductive Action
  | insertKnock (k : KnockInput)
  | attachDwell (knockId : Nat) (dwellSeconds : Int)
  | markRepDayDirty (knockId : Nat) (stored : Bool)
  | setSuperseded (knockId : Nat) (superseded : Bool)
  | sweep (days : List RepDay)
  | claimDirtyDays (limit : Nat)
  | work (w : WorkerStep)

def updateKnock (id : Nat) (f : Knock → Knock) (l : List Knock) : List Knock :=
  l.map fun k => if k.id = id then f k else k

def insertOrIgnore (queue : List RepDay) (day : RepDay) : List RepDay :=
  if day ∈ queue then queue else queue ++ [day]

namespace RollupState

def knockById (s : RollupState) (id : Nat) : Option Knock := s.knockLog.find? (·.id = id)

/-- The last statement of `createKnock`. -/
def markRepDayDirty (dir : Directory) (s : RollupState) (knockId : Nat) (stored : Bool) :
    RollupState :=
  if knockId ∈ s.unmarked then
    { s with
      unmarked := s.unmarked.filter (· ≠ knockId)
      dirtyDays :=
        match (s.knockById knockId).bind dir.markedDay with
        | none => s.dirtyDays
        | some day => if stored then insertOrIgnore s.dirtyDays day else s.dirtyDays }
  else s

def nextDay (s : RollupState) (t : Tick) : RollupState := { s with tick := Tick.start t.rest }

def clearDirtyDay (s : RollupState) (day : RepDay) : RollupState :=
  { s with dirtyDays := s.dirtyDays.filter (· ≠ day) }

/-- A day that throws is cleared all the same, as a day whose summary is unavailable. -/
def work (dir : Directory) (s : RollupState) (t : Tick) : WorkerStep → RollupState
  | .loadDoorEvents =>
    match t.phase with
    | .claimed =>
      { s with tick := some { t with phase := .readEvents (dayRows dir t.day s.knockLog) } }
    | _ => s
  | .loadFollowUps =>
    match t.phase with
    | .readEvents events =>
      { s with tick := some { t with phase := .readAll ⟨events, dayRows dir t.day s.knockLog⟩ } }
    | _ => s
  | .publish =>
    match t.phase with
    | .readAll read =>
      { s with
        dailyMetrics := Function.update s.dailyMetrics t.day (some read)
        unavailable := s.unavailable.filter (· ≠ t.day)
        tick := some { t with phase := .published read } }
    | _ => s
  | .clearDirtyDay stored =>
    match t.phase with
    | .published _ => (if stored then s.clearDirtyDay t.day else s).nextDay t
    | _ => s
  | .failDay =>
    match t.phase with
    | .published _ => s
    | _ => ({ s with unavailable := t.day :: s.unavailable }.clearDirtyDay t.day).nextDay t
  | .endTick => { s with tick := none }

end RollupState

def step (dir : Directory) (s : RollupState) : Action → RollupState
  | .insertKnock k =>
    { s with
      knockLog := s.knockLog ++ [k.row (s.knockLog.length + 1)]
      unmarked := s.unmarked ++ [s.knockLog.length + 1] }
  | .attachDwell knockId dwell =>
    if knockId ∈ s.unmarked then
      { s with knockLog := updateKnock knockId ({ · with dwellSeconds := some dwell }) s.knockLog }
    else s
  | .markRepDayDirty knockId stored => s.markRepDayDirty dir knockId stored
  | .setSuperseded knockId superseded =>
    { s with knockLog := updateKnock knockId ({ · with superseded := superseded }) s.knockLog }
  | .sweep days => { s with dirtyDays := days.foldl insertOrIgnore s.dirtyDays }
  | .claimDirtyDays limit =>
    match s.tick with
    | none => { s with tick := Tick.start (s.dirtyDays.take limit) }
    | some _ => s
  | .work w =>
    match s.tick with
    | none => s
    | some t => s.work dir t w

end HomefrontFiber.RepMetrics
