import HomefrontFiber.Foundation.IsoText

/-!
# The commission workweek

A pay week is a calendar week in the organisation's time zone, half-open in UTC. The zone is the
offset function that `Intl` provides. A calendar date is kept as its day number, and the start of a
week is the wall-clock time `weekStartLocalTime` of a date that falls on `weekStartsOn`, converted
to UTC in two passes.
-/

namespace HomefrontFiber

open Calendar

/-- A time zone: the wall-clock time minus UTC at every instant, in milliseconds. -/
structure Zone where
  offset : Int → Int
  bounded : ∀ t, -msPerDay < offset t ∧ offset t < msPerDay

namespace Zone

def utc : Zone where
  offset _ := 0
  bounded _ := by decide

/-- A zone whose clocks are moved once, at the instant `at_`. -/
def shiftedAt (before after at_ : Int) (hb : -msPerDay < before ∧ before < msPerDay)
    (ha : -msPerDay < after ∧ after < msPerDay) : Zone where
  offset t := if t < at_ then before else after
  bounded t := by split <;> assumption

def localYmd (z : Zone) (utcMs : Int) : Int := (utcMs + z.offset utcMs) / msPerDay

/-- The UTC instant of a wall-clock time. The second pass corrects the first guess when it landed
in a different offset period. -/
def zonedWallToUtcMs (z : Zone) (day h mi : Int) : Int :=
  let guess := day * msPerDay + (h * 60 + mi) * 60000
  let off1 := z.offset guess
  let off2 := z.offset (guess - off1)
  if off2 ≠ off1 then guess - off2 else guess - off1

theorem zonedWallToUtcMs_bounds (z : Zone) (day h mi : Int) :
    (day - 1) * msPerDay + (h * 60 + mi) * 60000 < z.zonedWallToUtcMs day h mi ∧
      z.zonedWallToUtcMs day h mi < (day + 1) * msPerDay + (h * 60 + mi) * 60000 := by
  unfold zonedWallToUtcMs
  dsimp only
  have h1 := z.bounded (day * msPerDay + (h * 60 + mi) * 60000)
  have h2 := z.bounded (day * msPerDay + (h * 60 + mi) * 60000 -
    z.offset (day * msPerDay + (h * 60 + mi) * 60000))
  split <;> constructor <;> linarith

end Zone

structure WorkweekConfig where
  timezone : Zone
  weekStartsOn : Int
  weekStartLocalTime : Text

def isBlank (c : Char) : Bool := c.isWhitespace

def trim (t : Text) : Text := ((t.dropWhile isBlank).reverse.dropWhile isBlank).reverse

def digitValue (c : Char) : Nat := c.toNat - 48

/-- Hours and minutes of an `H:MM` or `HH:MM` text, midnight for anything else. Their ranges are
not checked. -/
def parseHm (hm : Text) : Nat × Nat :=
  match trim hm with
  | [a, ':', c, d] =>
    if a.isDigit && c.isDigit && d.isDigit then (digitValue a, 10 * digitValue c + digitValue d)
    else (0, 0)
  | [a, b, ':', c, d] =>
    if a.isDigit && b.isDigit && c.isDigit && d.isDigit then
      (10 * digitValue a + digitValue b, 10 * digitValue c + digitValue d)
    else (0, 0)
  | _ => (0, 0)

/-- A half-open pay week. `startDate` is the local date it starts on. -/
structure WeekBounds where
  weekStartUtc : Stamp
  nextWeekStartUtc : Stamp
  startDate : Int
deriving DecidableEq

namespace WorkweekConfig

variable (cfg : WorkweekConfig)

/-- The instant a week starts at when its first local date is `day`. -/
def startMs (day : Int) : Int :=
  cfg.timezone.zonedWallToUtcMs day (parseHm cfg.weekStartLocalTime).1
    (parseHm cfg.weekStartLocalTime).2

/-- The latest date of the week's first weekday that is not after the instant's local date. -/
def candidateDate (ms : Int) : Int :=
  let day := cfg.timezone.localYmd ms
  day - (weekday day - cfg.weekStartsOn % 7) % 7

/-- The first local date of the week of an instant: the week before when the instant comes
earlier than the start time of the candidate. -/
def startDateFor (ms : Int) : Int :=
  if ms < cfg.startMs (cfg.candidateDate ms) then cfg.candidateDate ms - 7
  else cfg.candidateDate ms

def boundsOf (startDate : Int) : WeekBounds where
  weekStartUtc := Stamp.ofMs (cfg.startMs startDate)
  nextWeekStartUtc := Stamp.ofMs (cfg.startMs (startDate + 7))
  startDate := startDate

end WorkweekConfig

def weekBoundsFor (ms : Int) (cfg : WorkweekConfig) : WeekBounds :=
  cfg.boundsOf (cfg.startDateFor ms)

def weekStartFor (ms : Int) (cfg : WorkweekConfig) : Stamp := (weekBoundsFor ms cfg).weekStartUtc

def months : List String :=
  ["Jan", "Feb", "Mar", "Apr", "May", "Jun", "Jul", "Aug", "Sep", "Oct", "Nov", "Dec"]

def monthName (m : Int) : String := months.getD (m - 1).toNat ""

def WeekBounds.localWeekLabel (b : WeekBounds) : String :=
  let start := civil b.startDate
  let last := civil (b.startDate + 6)
  if start.year = last.year then
    s!"{monthName start.month} {start.day} - {monthName last.month} {last.day}, {last.year}"
  else
    s!"{monthName start.month} {start.day}, {start.year} - " ++
      s!"{monthName last.month} {last.day}, {last.year}"

/-- SQL membership of a timestamp in a week: both comparisons are comparisons of text. -/
def WeekBounds.Holds (b : WeekBounds) (ts : Text) : Prop :=
  b.weekStartUtc.text ≤ ts ∧ ts < b.nextWeekStartUtc.text

instance (b : WeekBounds) (ts : Text) : Decidable (b.Holds ts) :=
  inferInstanceAs (Decidable (_ ∧ _))

variable {cfg : WorkweekConfig}

theorem startDateFor_weekday (cfg : WorkweekConfig) (ms : Int) :
    (cfg.startDateFor ms + 4 - cfg.weekStartsOn % 7) % 7 = 0 := by
  unfold WorkweekConfig.startDateFor WorkweekConfig.candidateDate weekday
  dsimp only
  split <;> omega

theorem startMs_add_week {d d' : Int} (h : d + 7 ≤ d') : cfg.startMs d < cfg.startMs d' := by
  have h1 := (cfg.timezone.zonedWallToUtcMs_bounds d (parseHm cfg.weekStartLocalTime).1
    (parseHm cfg.weekStartLocalTime).2).2
  have h2 := (cfg.timezone.zonedWallToUtcMs_bounds d' (parseHm cfg.weekStartLocalTime).1
    (parseHm cfg.weekStartLocalTime).2).1
  unfold WorkweekConfig.startMs msPerDay at *
  omega

theorem weekBoundsFor_eq_of_weekStart {s t : Int} (h : weekStartFor s cfg = weekStartFor t cfg) :
    weekBoundsFor s cfg = weekBoundsFor t cfg := by
  have hms : cfg.startMs (cfg.startDateFor s) = cfg.startMs (cfg.startDateFor t) :=
    congrArg Stamp.ms h
  have hs := startDateFor_weekday cfg s
  have ht := startDateFor_weekday cfg t
  unfold weekBoundsFor
  rcases lt_trichotomy (cfg.startDateFor s) (cfg.startDateFor t) with hlt | heq | hgt
  · exact absurd hms (startMs_add_week (by omega)).ne
  · rw [heq]
  · exact absurd hms (startMs_add_week (by omega)).ne'

/-- The week's two bounds are printed with years of four digits. -/
def WeekBounds.InIsoYears (b : WeekBounds) : Prop :=
  b.weekStartUtc.Canonical ∧ b.nextWeekStartUtc.Canonical

instance (b : WeekBounds) : Decidable b.InIsoYears := inferInstanceAs (Decidable (_ ∧ _))

theorem startMs_le {d d' : Int} (h : d ≤ d') (h7 : (d' - d) % 7 = 0) :
    cfg.startMs d ≤ cfg.startMs d' := by
  rcases (show d = d' ∨ d + 7 ≤ d' by omega) with rfl | hlt
  · exact le_rfl
  · exact (startMs_add_week hlt).le

/-- A text that lies in a week printed with years of four digits lies in no other week. -/
theorem boundsOf_apart {d d' : Int} {ts : Text} (hi : (cfg.boundsOf d).InIsoYears)
    (h7 : (d' - d) % 7 = 0) (hne : d ≠ d') (h : (cfg.boundsOf d).Holds ts) :
    ¬ (cfg.boundsOf d').Holds ts := by
  intro h'
  have hnext : InIsoYears (cfg.startMs (d' + 7)) := by
    by_contra hn
    have hlt := toISOString_lt_of_not_inIsoYears hn hi.1.2
    exact absurd (h'.2.trans (hlt.trans_le h.1)) (lt_irrefl _)
  rcases (show d + 7 ≤ d' ∨ d' + 7 ≤ d by omega) with hlt | hgt
  · have hms : cfg.startMs (d + 7) ≤ cfg.startMs d' := startMs_le hlt (by omega)
    have hms' : cfg.startMs d' < cfg.startMs (d' + 7) := startMs_add_week le_rfl
    have hstart : InIsoYears (cfg.startMs d') := ⟨hi.2.2.1.trans hms, hms'.trans hnext.2⟩
    have htext := (toISOString_le_iff hi.2.2 hstart).mpr hms
    exact absurd (h'.1.trans_lt h.2) (not_lt.mpr htext)
  · have hms : cfg.startMs (d' + 7) ≤ cfg.startMs d := startMs_le hgt (by omega)
    have htext := (toISOString_le_iff hnext hi.1.2).mpr hms
    exact absurd (h.1.trans_lt h'.2) (not_lt.mpr htext)

theorem weekBoundsFor_disjoint {s t : Int} {ts : Text} (hi : (weekBoundsFor s cfg).InIsoYears)
    (hs : (weekBoundsFor s cfg).Holds ts) (ht : (weekBoundsFor t cfg).Holds ts) :
    weekBoundsFor s cfg = weekBoundsFor t cfg := by
  have hds := startDateFor_weekday cfg s
  have hdt := startDateFor_weekday cfg t
  unfold weekBoundsFor at *
  by_cases hne : cfg.startDateFor s = cfg.startDateFor t
  · rw [hne]
  · exact absurd ht (boundsOf_apart hi (by omega) hne hs)

end HomefrontFiber

/-!
## Do pay weeks partition time?

They do exactly when no clock change takes the local date back before a week's first date once the
week has started. A start time that the clocks skip may be converted to an instant of the day
before, and clocks that are set back across midnight repeat the end of the day before.
-/

namespace HomefrontFiber

open Calendar

/-- Membership of an instant, in a week whose bounds are read back as instants. -/
def isInWeek (ms : Int) (b : WeekBounds) : Prop :=
  b.weekStartUtc.ms ≤ ms ∧ ms < b.nextWeekStartUtc.ms

/-- Every instant lies in its week, the instants of a week agree on it, and the next week starts
where it ends. -/
def WeeksPartition (cfg : WorkweekConfig) : Prop :=
  ∀ t, isInWeek t (weekBoundsFor t cfg) ∧
    (∀ u, isInWeek u (weekBoundsFor t cfg) → weekBoundsFor u cfg = weekBoundsFor t cfg) ∧
    (weekBoundsFor (weekBoundsFor t cfg).nextWeekStartUtc.ms cfg).weekStartUtc =
      (weekBoundsFor t cfg).nextWeekStartUtc

namespace WorkweekConfig

variable (cfg : WorkweekConfig)

/-- The start time of the week on a date, read as if it were UTC. -/
def wallMs (day : Int) : Int :=
  day * msPerDay + (((parseHm cfg.weekStartLocalTime).1 : Int) * 60 +
    (parseHm cfg.weekStartLocalTime).2) * 60000

def StartsOn (day : Int) : Prop := weekday day = cfg.weekStartsOn % 7

/-- From the instant that a week's start time is converted to, the local date is never before the
week's first date. -/
def ClocksPastStart : Prop :=
  ∀ day, cfg.StartsOn day → ∀ t,
    cfg.wallMs day - cfg.timezone.offset (cfg.wallMs day - cfg.timezone.offset (cfg.wallMs day)) ≤ t →
      day * msPerDay ≤ t + cfg.timezone.offset t

end WorkweekConfig

section Partition

variable {cfg : WorkweekConfig}

theorem digitValue_le {c : Char} (h : c.isDigit) : digitValue c ≤ 9 := by
  simp only [Char.isDigit, Bool.and_eq_true, decide_eq_true_eq] at h
  have hle : c.toNat ≤ 57 := h.2
  unfold digitValue
  omega

theorem parseHm_le (hm : Text) : (parseHm hm).1 ≤ 99 ∧ (parseHm hm).2 ≤ 99 := by
  unfold parseHm
  split
  · split
    · rename_i hdigits
      simp only [Bool.and_eq_true] at hdigits
      have ha := digitValue_le hdigits.1.1
      have hc := digitValue_le hdigits.1.2
      have hd := digitValue_le hdigits.2
      omega
    · decide
  · split
    · rename_i hdigits
      simp only [Bool.and_eq_true] at hdigits
      have ha := digitValue_le hdigits.1.1.1
      have hb := digitValue_le hdigits.1.1.2
      have hc := digitValue_le hdigits.1.2
      have hd := digitValue_le hdigits.2
      omega
    · decide
  · decide

theorem startMs_eq (cfg : WorkweekConfig) (day : Int) : cfg.startMs day =
    cfg.wallMs day - cfg.timezone.offset (cfg.wallMs day - cfg.timezone.offset (cfg.wallMs day)) := by
  unfold WorkweekConfig.startMs Zone.zonedWallToUtcMs WorkweekConfig.wallMs
  dsimp only
  split
  · rfl
  · rename_i heq
    rw [not_not.mp heq]

theorem startMs_bounds (cfg : WorkweekConfig) (day : Int) :
    (day - 1) * msPerDay < cfg.startMs day ∧ cfg.startMs day < (day + 6) * msPerDay := by
  obtain ⟨hh, hmi⟩ := parseHm_le cfg.weekStartLocalTime
  have hbounds := cfg.timezone.zonedWallToUtcMs_bounds day
    (parseHm cfg.weekStartLocalTime).1 (parseHm cfg.weekStartLocalTime).2
  unfold WorkweekConfig.startMs
  unfold msPerDay at *
  omega

theorem localYmd_bounds (z : Zone) (t : Int) :
    z.localYmd t * msPerDay ≤ t + z.offset t ∧ t + z.offset t < (z.localYmd t + 1) * msPerDay := by
  unfold Zone.localYmd msPerDay
  omega

theorem candidateDate_bounds (cfg : WorkweekConfig) (t : Int) : cfg.StartsOn (cfg.candidateDate t) ∧
    cfg.candidateDate t ≤ cfg.timezone.localYmd t ∧
    cfg.timezone.localYmd t ≤ cfg.candidateDate t + 6 := by
  unfold WorkweekConfig.StartsOn WorkweekConfig.candidateDate weekday
  dsimp only
  omega

theorem startsOn_startDateFor (cfg : WorkweekConfig) (t : Int) : cfg.StartsOn (cfg.startDateFor t) := by
  have hday := startDateFor_weekday cfg t
  unfold WorkweekConfig.StartsOn weekday
  omega

theorem startDateFor_le (cfg : WorkweekConfig) (t : Int) : cfg.startDateFor t ≤ cfg.timezone.localYmd t := by
  obtain ⟨-, hle, -⟩ := candidateDate_bounds cfg t
  unfold WorkweekConfig.startDateFor
  split <;> omega

theorem startMs_le_of_before {t : Int} (h : cfg.startDateFor t ≠ cfg.candidateDate t) :
    cfg.startDateFor t = cfg.candidateDate t - 7 ∧ t < cfg.startMs (cfg.candidateDate t) := by
  unfold WorkweekConfig.startDateFor at *
  split at h
  · rename_i hlt
    exact ⟨if_pos hlt, hlt⟩
  · exact absurd rfl h

theorem startMs_startDateFor_le (cfg : WorkweekConfig) (t : Int) : cfg.startMs (cfg.startDateFor t) ≤ t := by
  by_cases hsame : cfg.startDateFor t = cfg.candidateDate t
  · by_contra hlt
    have hback : cfg.startDateFor t = cfg.candidateDate t - 7 := by
      unfold WorkweekConfig.startDateFor
      exact if_pos (hsame ▸ Int.not_le.mp hlt)
    omega
  · obtain ⟨hback, -⟩ := startMs_le_of_before hsame
    obtain ⟨-, hle, -⟩ := candidateDate_bounds cfg t
    have hlocal := (localYmd_bounds cfg.timezone t).1
    have hoffset := (cfg.timezone.bounded t).2
    have hstart := (startMs_bounds cfg (cfg.candidateDate t - 7)).2
    rw [hback]
    unfold msPerDay at *
    omega

theorem ClocksPastStart.le_localYmd (h : cfg.ClocksPastStart) {day t : Int}
    (hday : cfg.StartsOn day) (ht : cfg.startMs day ≤ t) : day ≤ cfg.timezone.localYmd t := by
  have hlocal := h day hday t (startMs_eq cfg day ▸ ht)
  have hbound := (localYmd_bounds cfg.timezone t).2
  unfold msPerDay at *
  omega

theorem startDateFor_eq (h : cfg.ClocksPastStart) {day t : Int} (hday : cfg.StartsOn day)
    (hle : cfg.startMs day ≤ t) (hlt : t < cfg.startMs (day + 7)) : cfg.startDateFor t = day := by
  have hlocal : day ≤ cfg.timezone.localYmd t := ClocksPastStart.le_localYmd h hday hle
  obtain ⟨hstarts, -, hle6⟩ := candidateDate_bounds cfg t
  have hcandidate : day ≤ cfg.candidateDate t := by
    unfold WorkweekConfig.StartsOn weekday at hday hstarts
    omega
  have hstart := startMs_startDateFor_le cfg t
  have hdate := startsOn_startDateFor cfg t
  -- a later date starts after the instant
  have hnot_later : ¬ day + 7 ≤ cfg.startDateFor t := by
    intro hlater
    have h7 : (cfg.startDateFor t - (day + 7)) % 7 = 0 := by
      unfold WorkweekConfig.StartsOn weekday at hday hdate
      omega
    have hms : cfg.startMs (day + 7) ≤ cfg.startMs (cfg.startDateFor t) := startMs_le hlater h7
    omega
  have hnot_earlier : day ≤ cfg.startDateFor t := by
    by_cases hsame : cfg.startDateFor t = cfg.candidateDate t
    · omega
    · obtain ⟨hback, hbefore⟩ := startMs_le_of_before hsame
      have hne : cfg.candidateDate t ≠ day := by
        rintro heq
        rw [heq] at hbefore
        omega
      unfold WorkweekConfig.StartsOn weekday at hday hstarts
      omega
  unfold WorkweekConfig.StartsOn weekday at hday hdate
  omega

theorem isInWeek_weekBoundsFor (h : cfg.ClocksPastStart) (t : Int) :
    isInWeek t (weekBoundsFor t cfg) := by
  refine ⟨startMs_startDateFor_le cfg t, ?_⟩
  change t < cfg.startMs (cfg.startDateFor t + 7)
  by_cases hsame : cfg.startDateFor t = cfg.candidateDate t
  · obtain ⟨hstarts, -, hle6⟩ := candidateDate_bounds cfg t
    have hnext : cfg.StartsOn (cfg.startDateFor t + 7) := by
      rw [hsame]
      unfold WorkweekConfig.StartsOn weekday at *
      omega
    by_contra hge
    have hlocal := ClocksPastStart.le_localYmd h hnext (Int.not_lt.mp hge)
    omega
  · obtain ⟨hback, hbefore⟩ := startMs_le_of_before hsame
    have hdate : cfg.startDateFor t + 7 = cfg.candidateDate t := by omega
    rw [hdate]
    exact hbefore

/-- Pay weeks partition time exactly when the clocks never show a date before a week's first date
once the week has started. -/
theorem weeksPartition_iff (cfg : WorkweekConfig) : WeeksPartition cfg ↔ cfg.ClocksPastStart := by
  constructor
  · intro h day hday t ht
    by_contra hbefore
    have hlocal : cfg.timezone.localYmd t < day := by
      have hbound := (localYmd_bounds cfg.timezone t).1
      unfold msPerDay at *
      omega
    have hearlier := startDateFor_le cfg t
    have hdate := startsOn_startDateFor cfg t
    have h7 : (day - (cfg.startDateFor t + 7)) % 7 = 0 := by
      unfold WorkweekConfig.StartsOn weekday at hday hdate
      omega
    have hle : cfg.startDateFor t + 7 ≤ day := by
      unfold WorkweekConfig.StartsOn weekday at hday hdate
      omega
    have hnext : t < cfg.startMs (cfg.startDateFor t + 7) := (h t).1.2
    have hstart : cfg.startMs day ≤ t := startMs_eq cfg day ▸ ht
    have hms : cfg.startMs (cfg.startDateFor t + 7) ≤ cfg.startMs day := startMs_le hle h7
    omega
  · intro h t
    have hdate := startsOn_startDateFor cfg t
    refine ⟨isInWeek_weekBoundsFor h t, ?_, ?_⟩
    · intro u hu
      have heq : cfg.startDateFor u = cfg.startDateFor t := startDateFor_eq h hdate hu.1 hu.2
      simp only [weekBoundsFor, heq]
    · have hnext : cfg.StartsOn (cfg.startDateFor t + 7) := by
        unfold WorkweekConfig.StartsOn weekday at *
        omega
      have heq : cfg.startDateFor (cfg.startMs (cfg.startDateFor t + 7)) = cfg.startDateFor t + 7 :=
        startDateFor_eq h hnext (Int.le_refl _) (startMs_add_week (by omega))
      change Stamp.ofMs (cfg.startMs (cfg.startDateFor
        (cfg.startMs (cfg.startDateFor t + 7)))) = Stamp.ofMs (cfg.startMs (cfg.startDateFor t + 7))
      rw [heq]

/-! ### One clock change

A start time that is skipped is converted with the later offset when the change comes after the
first guess, that is, west of Greenwich. -/

/-- Weeks from Sunday midnight where the clocks skip from 00:00 to 01:00 on Sunday 2026-09-06. -/
def skippedMidnight : WorkweekConfig where
  timezone := Zone.shiftedAt (-14400000) (-10800000) 1788667200000 (by decide) (by decide)
  weekStartsOn := 0
  weekStartLocalTime := ['0', '0', ':', '0', '0']

/-- The last half hour of that Saturday is put into a week that has ended. -/
theorem not_weeksPartition_skippedMidnight : ¬ WeeksPartition skippedMidnight := by
  intro h
  have hin := (h 1788665400000).1.2
  revert hin
  decide +kernel

end Partition

end HomefrontFiber
