import Mathlib.Algebra.Order.Ring.Rat
import Mathlib.Data.List.Sort
import HomefrontFiber.Foundation.DateParse
import HomefrontFiber.Workweek

/-!
# Hours of a week

The minutes of a rep in a pay week: the clock sessions, cut at the bounds of the week and at every
midnight in UTC, and the signed corrections, which fall on a day as text. A correction that names a
session belongs to the day on which the session began.
-/

namespace HomefrontFiber.HourlyPay

structure ClockSession where
  id : Nat
  repId : Nat
  tenantId : Option Nat
  clockedIn : Text
  clockedOut : Option Text

structure PunchCorrection where
  tenantId : Nat
  repId : Nat
  sessionId : Option Nat
  minutesDelta : Int
  createdAt : Text

structure ClockDb where
  sessions : List ClockSession
  corrections : List PunchCorrection

def maxDayMinutes : Rat := 16 * 60

structure DailyCapFlag where
  date : Text
  minutes : Int

structure WeekHoursResult where
  minutes : Int
  hours : Rat
  sessionMinutes : Int
  correctionMinutes : Int
  openSessionCount : Nat
  weekEnded : Bool
  finalizable : Bool
  dailyCapFlags : List DailyCapFlag

def minutesBetween (startMs endMs : Int) : Rat := ((endMs - startMs : Int) : Rat) / 60000

def utcDayKey (ms : Int) : Text := (toISOString (ms / msPerDay * msPerDay)).take 10

def splitIntoUtcDays (s endMs : Int) : List (Text × Rat) :=
  if s < endMs then
    let e := min endMs ((s / msPerDay + 1) * msPerDay)
    (utcDayKey s, minutesBetween s e) :: splitIntoUtcDays e endMs
  else []
termination_by (endMs - s).toNat
decreasing_by
  unfold msPerDay
  omega

/-- The sessions that SQL finds for a week: both comparisons are of text. -/
def weekSessions (db : ClockDb) (tenantId repId : Nat) (week : WeekBounds) : List ClockSession :=
  db.sessions.filter fun s =>
    s.repId = repId && s.tenantId.all (· = tenantId) &&
      s.clockedIn < week.nextWeekStartUtc.text && s.clockedOut.all (week.weekStartUtc.text < ·)

/-- The minutes of a session in a week. An open session runs until now. -/
def sessionDays (p : DateParser) (week : WeekBounds) (nowMs : Int) (s : ClockSession) :
    List (Text × Rat) :=
  match p.parse s.clockedIn with
  | none => []
  | some inMs =>
    let start := max inMs week.weekStartUtc.ms
    match s.clockedOut with
    | none => splitIntoUtcDays start (min nowMs week.nextWeekStartUtc.ms)
    | some out =>
      match p.parse out with
      | none => []
      | some outMs => splitIntoUtcDays start (min outMs week.nextWeekStartUtc.ms)

def countsAsOpen (p : DateParser) (s : ClockSession) : Bool :=
  (p.parse s.clockedIn).isSome && s.clockedOut.isNone

def sessionIn (db : ClockDb) (c : PunchCorrection) : Option Text :=
  c.sessionId.bind fun id => (db.sessions.find? (·.id = id)).map (·.clockedIn)

/-- The day of a correction: the session's, else the one on which it was written. -/
def correctionDay (db : ClockDb) (c : PunchCorrection) : Text :=
  ((sessionIn db c).getD c.createdAt).take 10

def weekCorrections (db : ClockDb) (tenantId repId : Nat) (week : WeekBounds) :
    List PunchCorrection :=
  (db.corrections.filter fun c => c.tenantId = tenantId && c.repId = repId).filter fun c =>
    correctionDay db c ≠ [] && week.weekStartUtc.text.take 10 ≤ correctionDay db c &&
      correctionDay db c < week.nextWeekStartUtc.text.take 10

def dayTotal (days : List (Text × Rat)) (day : Text) : Rat :=
  ((days.filter (·.1 = day)).map Prod.snd).sum

def mathRound (x : Rat) : Int := (x + 1 / 2).floor

def hoursWorkedThisWeek (p : DateParser) (db : ClockDb) (tenantId repId : Nat) (week : WeekBounds)
    (nowMs : Int) : WeekHoursResult :=
  let sessions := weekSessions db tenantId repId week
  let daySessions := sessions.flatMap (sessionDays p week nowMs)
  let openSessionCount := sessions.countP (countsAsOpen p)
  let corrections := weekCorrections db tenantId repId week
  let dayCorrections := corrections.map fun c => (correctionDay db c, (c.minutesDelta : Rat))
  let days := (daySessions.map Prod.fst ++ dayCorrections.map Prod.fst).dedup
  -- a day is never worth less than nothing
  let total := fun day => max 0 (dayTotal daySessions day + dayTotal dayCorrections day)
  let minutes := mathRound ((days.map total).sum)
  let flags := (days.filter fun day => maxDayMinutes < total day).map fun day =>
    { date := day, minutes := mathRound (total day) : DailyCapFlag }
  { minutes
    hours := (mathRound ((minutes : Rat) / 60 * 100) : Rat) / 100
    sessionMinutes := mathRound ((days.map (dayTotal daySessions)).sum)
    correctionMinutes := (corrections.map (·.minutesDelta)).sum
    openSessionCount
    weekEnded := week.nextWeekStartUtc.ms ≤ nowMs
    finalizable := week.nextWeekStartUtc.ms ≤ nowMs && openSessionCount = 0
    dailyCapFlags := flags.insertionSort fun a b => a.date ≤ b.date }

section Corrections

variable {db : ClockDb} {tenantId repId : Nat} {c : PunchCorrection} {t : Int}

variable {week : WeekBounds} {cfg : WorkweekConfig}

/-- A correction counts in the weeks that begin on its day or before and end on a later day. -/
theorem mem_weekCorrections (hweek : week.InIsoYears)
    (hc : c ∈ db.corrections) (hrep : c.tenantId = tenantId ∧ c.repId = repId)
    (hin : sessionIn db c = some (toISOString t)) (ht : InIsoYears t) :
    c ∈ weekCorrections db tenantId repId week ↔
      week.weekStartUtc.ms / msPerDay ≤ t / msPerDay ∧
        t / msPerDay < week.nextWeekStartUtc.ms / msPerDay := by
  obtain ⟨⟨hstart, hstart'⟩, hnext, hnext'⟩ := hweek
  have hdays := inIsoDays_of_inIsoYears ht
  have hday : correctionDay db c = isoDate (t / msPerDay) := by
    rw [correctionDay, hin, Option.getD_some, toISOString_take ht]
  have hsome : isoDate (t / msPerDay) ≠ [] := by
    intro hnil
    have hlength := isoDate_length hdays
    rw [hnil] at hlength
    cases hlength
  unfold weekCorrections
  rw [List.mem_filter, List.mem_filter, hday, hstart, hnext, toISOString_take hstart',
    toISOString_take hnext']
  simp only [hc, hrep.1, hrep.2, hsome, isoDate_le_iff (inIsoDays_of_inIsoYears hstart') hdays,
    isoDate_lt_iff hdays (inIsoDays_of_inIsoYears hnext'), Bool.and_eq_true, decide_eq_true_eq,
    true_and, and_self, ne_eq, not_false_eq_true]

/-- A week of the organisation that is printed with years of four digits. -/
def PayWeek (cfg : WorkweekConfig) (week : WeekBounds) : Prop :=
  (∃ u, week = weekBoundsFor u cfg) ∧ week.InIsoYears

/-- The weeks of the organisation are apart: a later one begins when an earlier one has ended. -/
theorem PayWeek.ordered {other : WeekBounds} (h : PayWeek cfg week)
    (h' : PayWeek cfg other) : other = week ∨
      week.nextWeekStartUtc.ms ≤ other.weekStartUtc.ms ∨
        other.nextWeekStartUtc.ms ≤ week.weekStartUtc.ms := by
  obtain ⟨⟨u, rfl⟩, -⟩ := h
  obtain ⟨⟨v, rfl⟩, -⟩ := h'
  have hu := startDateFor_weekday cfg u
  have hv := startDateFor_weekday cfg v
  rcases lt_trichotomy (cfg.startDateFor u) (cfg.startDateFor v) with hlt | heq | hgt
  · exact Or.inr (Or.inl (startMs_le (by omega) (by omega)))
  · exact Or.inl (congrArg cfg.boundsOf heq.symm)
  · exact Or.inr (Or.inr (startMs_le (by omega) (by omega)))

/-- A correction that names a session is among those that `hoursWorkedThisWeek` adds up in the week
of the session's start, and in no other. -/
def CountsInItsWeek (cfg : WorkweekConfig) (db : ClockDb) (c : PunchCorrection)
    (week : WeekBounds) : Prop :=
  ∀ other, PayWeek cfg other →
    (c ∈ weekCorrections db c.tenantId c.repId other ↔ other = week)

/-- The UTC date of an instant comes before the one on which its week ends. -/
def EndsOnLaterDate (t : Int) (week : WeekBounds) : Prop :=
  t / msPerDay < week.nextWeekStartUtc.ms / msPerDay

instance (t : Int) (week : WeekBounds) : Decidable (EndsOnLaterDate t week) :=
  inferInstanceAs (Decidable (_ < _))

theorem countsInItsWeek_iff (hc : c ∈ db.corrections)
    (hin : sessionIn db c = some (toISOString t)) (ht : InIsoYears t)
    (hweek : PayWeek cfg week) (htin : isInWeek t week) :
    CountsInItsWeek cfg db c week ↔ EndsOnLaterDate t week := by
  have hstart : week.weekStartUtc.ms / msPerDay ≤ t / msPerDay :=
    Int.ediv_le_ediv (by decide) htin.1
  constructor
  · intro hcounts
    have hmem := (hcounts week hweek).mpr rfl
    exact ((mem_weekCorrections hweek.2 hc ⟨rfl, rfl⟩ hin ht).mp hmem).2
  · intro hlater other hother
    rw [mem_weekCorrections hother.2 hc ⟨rfl, rfl⟩ hin ht]
    constructor
    · rintro ⟨hfrom, huntil⟩
      rcases hweek.ordered hother with heq | hafter | hbefore
      · exact heq
      · have hend : week.nextWeekStartUtc.ms / msPerDay ≤ other.weekStartUtc.ms / msPerDay :=
          Int.ediv_le_ediv (by decide) hafter
        unfold EndsOnLaterDate at hlater
        omega
      · have hend : other.nextWeekStartUtc.ms / msPerDay ≤ week.weekStartUtc.ms / msPerDay :=
          Int.ediv_le_ediv (by decide) hbefore
        omega
    · rintro rfl
      exact ⟨hstart, hlater⟩

end Corrections

/-- A correction counts in its session's week, and only there, exactly when the session began on an
earlier UTC date than the one on which its week ends. -/
theorem correction_week_iff (cfg : WorkweekConfig) (db : ClockDb) {c : PunchCorrection}
    (hc : c ∈ db.corrections) {t : Int} (hin : sessionIn db c = some (toISOString t))
    (ht : InIsoYears t) {week : WeekBounds} (hweek : PayWeek cfg week) (htin : isInWeek t week) :
    CountsInItsWeek cfg db c week ↔ EndsOnLaterDate t week :=
  countsInItsWeek_iff hc hin ht hweek htin

def fourHoursWest : WorkweekConfig where
  timezone := { offset := fun _ => -14400000, bounded := fun _ => by decide }
  weekStartsOn := 1
  weekStartLocalTime := "00:00".toList

/-- A session that began at an instant, and a correction of it. -/
def correctedAt (t : Int) : ClockDb where
  sessions := [⟨1, 3, some 1, toISOString t, none⟩]
  corrections := [⟨1, 3, some 1, -30, toISOString t⟩]

theorem payWeek_west {t : Int} (h : (weekBoundsFor t fourHoursWest).InIsoYears) :
    PayWeek fourHoursWest (weekBoundsFor t fourHoursWest) := ⟨⟨t, rfl⟩, h⟩

/-- A session on a Wednesday. -/
theorem correction_week_iff_wednesday :
    CountsInItsWeek fourHoursWest (correctedAt 1772632000000)
      ⟨1, 3, some 1, -30, toISOString 1772632000000⟩
      (weekBoundsFor 1772632000000 fourHoursWest) :=
  (correction_week_iff fourHoursWest (correctedAt 1772632000000) (List.mem_singleton_self _)
    (t := 1772632000000) rfl (by decide)
    (payWeek_west ⟨Stamp.ofMs_canonical (by decide), Stamp.ofMs_canonical (by decide)⟩)
    ⟨by decide, by decide⟩).mpr (by decide)

/-- A session that begins on a Sunday at ten in the evening, which is Monday in UTC. -/
theorem not_counts_sundayEvening :
    ¬ ∀ (cfg : WorkweekConfig) (db : ClockDb), ∀ c ∈ db.corrections, ∀ t : Int,
      sessionIn db c = some (toISOString t) → InIsoYears t → ∀ week : WeekBounds,
      PayWeek cfg week → isInWeek t week → CountsInItsWeek cfg db c week := by
  intro h
  have hweek : PayWeek fourHoursWest (weekBoundsFor 1773021600000 fourHoursWest) :=
    payWeek_west ⟨Stamp.ofMs_canonical (by decide), Stamp.ofMs_canonical (by decide)⟩
  have htin : isInWeek 1773021600000 (weekBoundsFor 1773021600000 fourHoursWest) :=
    ⟨by decide, by decide⟩
  have hyears : InIsoYears 1773021600000 := by decide
  have hcounts := h fourHoursWest (correctedAt 1773021600000) _ (List.mem_singleton_self _)
    1773021600000 rfl hyears _ hweek htin
  rw [countsInItsWeek_iff (List.mem_singleton_self _) rfl hyears hweek htin] at hcounts
  revert hcounts
  decide

end HomefrontFiber.HourlyPay
