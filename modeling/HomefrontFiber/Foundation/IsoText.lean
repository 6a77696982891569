import Mathlib.Tactic.Linarith
import Mathlib.Tactic.NormNum
import Mathlib.Data.List.Lex
import Mathlib.Data.Char
import Mathlib.Tactic.IntervalCases

/-!
# The proleptic Gregorian calendar on day numbers

Days are counted from 1970-01-01 and `civil` reads the date off a day number. Years are taken from
March, so that the leap day closes a year and a month begins on a closed formula.
-/

namespace HomefrontFiber.Calendar

structure Date where
  year : Int
  month : Int
  day : Int
deriving DecidableEq

/-- Days before March of year `y`, counted from March of year 0. -/
def daysBeforeYear (y : Int) : Int := 365 * y + y / 4 - y / 100 + y / 400

/-- Days before month `m` of a year that begins in March. -/
def daysBeforeMonth (m : Int) : Int := (153 * m + 2) / 5

/-- The March-based year of a day counted from March of year 0. The quotient by the mean length
of a year is off by at most one. -/
def marchYear (z : Int) : Int :=
  let y := 400 * z / 146097
  if z < daysBeforeYear y then y - 1
  else if daysBeforeYear (y + 1) ≤ z then y + 1
  else y

def marchDay (z : Int) : Int := z - daysBeforeYear (marchYear z)

def marchMonth (z : Int) : Int := (5 * marchDay z + 2) / 153

/-- Months from January of year 0 to the month of a day counted from March of year 0. -/
def monthNumber (z : Int) : Int := 12 * marchYear z + marchMonth z + 2

def dayOfMonth (z : Int) : Int := marchDay z - daysBeforeMonth (marchMonth z) + 1

/-- Days from March of year 0 to 1970-01-01. -/
def epochDay : Int := 719468

def civil (n : Int) : Date where
  year := monthNumber (n + epochDay) / 12
  month := monthNumber (n + epochDay) % 12 + 1
  day := dayOfMonth (n + epochDay)

/-- The day of the week of a day number, Sunday being `0`. -/
def weekday (n : Int) : Int := (n + 4) % 7

theorem daysBeforeYear_succ_le {x y : Int} (h : x < y) :
    daysBeforeYear x + 365 ≤ daysBeforeYear y := by
  unfold daysBeforeYear
  omega

theorem daysBeforeYear_le_year (x : Int) : daysBeforeYear (x + 1) ≤ daysBeforeYear x + 366 := by
  unfold daysBeforeYear
  omega

theorem marchYear_bounds (z : Int) :
    daysBeforeYear (marchYear z) ≤ z ∧ z < daysBeforeYear (marchYear z + 1) := by
  have hlo : daysBeforeYear (400 * z / 146097 - 1) ≤ z := by
    unfold daysBeforeYear
    omega
  have hhi : z < daysBeforeYear (400 * z / 146097 + 1 + 1) := by
    unfold daysBeforeYear
    omega
  unfold marchYear
  dsimp only
  split
  · exact ⟨hlo, by rwa [Int.sub_add_cancel]⟩
  · split
    · exact ⟨‹_›, hhi⟩
    · exact ⟨by omega, by omega⟩

theorem marchYear_mono {z z' : Int} (h : z ≤ z') : marchYear z ≤ marchYear z' := by
  by_contra hlt
  have hz := marchYear_bounds z
  have hz' := marchYear_bounds z'
  rcases (show marchYear z' + 1 ≤ marchYear z by omega).eq_or_lt with he | hl
  · rw [he] at hz'
    omega
  · have := daysBeforeYear_succ_le hl
    omega

theorem marchDay_bounds (z : Int) : 0 ≤ marchDay z ∧ marchDay z ≤ 365 := by
  have h := marchYear_bounds z
  have h' := daysBeforeYear_le_year (marchYear z)
  unfold marchDay
  omega

theorem dayOfMonth_bounds (z : Int) : 1 ≤ dayOfMonth z ∧ dayOfMonth z ≤ 31 := by
  have h := marchDay_bounds z
  unfold dayOfMonth marchMonth daysBeforeMonth
  omega

theorem monthNumber_mono {z z' : Int} (h : z ≤ z') : monthNumber z ≤ monthNumber z' := by
  have hy := marchYear_mono h
  have hd := marchDay_bounds z
  have hd' := marchDay_bounds z'
  rcases hy.eq_or_lt with he | hl
  · have : marchDay z ≤ marchDay z' := by
      unfold marchDay
      rw [he]
      omega
    unfold monthNumber marchMonth
    omega
  · unfold monthNumber marchMonth
    omega

theorem dayOfMonth_sub {z z' : Int} (h : monthNumber z = monthNumber z') :
    dayOfMonth z' - dayOfMonth z = z' - z := by
  have hd := marchDay_bounds z
  have hd' := marchDay_bounds z'
  have hy : marchYear z = marchYear z' := by
    unfold monthNumber marchMonth at h
    omega
  have hm : marchMonth z = marchMonth z' := by
    unfold monthNumber at h
    omega
  unfold dayOfMonth
  rw [hm]
  unfold marchDay
  rw [hy]
  omega

theorem civil_month_bounds (n : Int) : 1 ≤ (civil n).month ∧ (civil n).month ≤ 12 := by
  unfold civil
  dsimp only
  omega

theorem civil_day_bounds (n : Int) : 1 ≤ (civil n).day ∧ (civil n).day ≤ 31 :=
  dayOfMonth_bounds _

/-- `civil` is strictly monotone for the lexicographic order of dates. -/
theorem civil_lt {n n' : Int} (h : n < n') :
    (civil n).year < (civil n').year ∨
      (civil n).year = (civil n').year ∧
        ((civil n).month < (civil n').month ∨
          (civil n).month = (civil n').month ∧ (civil n).day < (civil n').day) := by
  have hm := monthNumber_mono (show n + epochDay ≤ n' + epochDay by omega)
  unfold civil
  dsimp only
  rcases hm.eq_or_lt with he | hl
  · have hd := dayOfMonth_sub he
    rw [he]
    exact .inr ⟨rfl, .inr ⟨rfl, by omega⟩⟩
  · omega

theorem civil_year_mono {n n' : Int} (h : n ≤ n') : (civil n).year ≤ (civil n').year := by
  rcases h.eq_or_lt with rfl | hl
  · exact le_rfl
  · rcases civil_lt hl with h | ⟨h, _⟩ <;> omega

example : civil 20516 = { year := 2026, month := 3, day := 4 } := by decide

end HomefrontFiber.Calendar

/-!
## Instants as ISO-8601 text

A timestamp column holds text and SQLite compares it as text, code point by code point. The
standard printed form of an instant has fields of fixed width, most significant first, so for
the years 0 to 9999 the order of the texts is the order of the instants. Outside that range the
printed form starts with a sign and the correspondence is lost; `InIsoYears` names the range.
-/

namespace HomefrontFiber

open List

/-- A text column, as the code points that a binary collation compares. -/
abbrev Text := List Char

instance : LawfulBEq Text := inferInstance

def msPerDay : Int := 86400000

namespace IsoText

open Calendar

def digit (n : Nat) : Char := Char.ofNat (48 + n % 10)

/-- The decimal digits of `n`, padded with zeros to width `w`. -/
def pad : Nat → Nat → Text
  | 0, _ => []
  | w + 1, n => pad w (n / 10) ++ [digit n]

theorem digit_lt {a b : Nat} (hb : b < 10) (h : a < b) : digit a < digit b := by
  unfold digit
  interval_cases b <;> interval_cases a <;> decide

theorem pad_length (w n : Nat) : (pad w n).length = w := by
  induction w generalizing n with
  | zero => rfl
  | succ w ih => simp only [pad, length_append, ih, length_singleton]

theorem append_lt_append {x y : Text} (hl : x.length = y.length) (h : x < y) (u v : Text) :
    x ++ u < y ++ v := by
  induction x generalizing y with
  | nil =>
    cases y with
    | nil => exact absurd h (lt_irrefl _)
    | cons b y => simp at hl
  | cons a x ih =>
    cases y with
    | nil => simp at hl
    | cons b y =>
      rw [cons_lt_cons_iff] at h
      rw [cons_append, cons_append, cons_lt_cons_iff]
      rcases h with h | ⟨h, h'⟩
      · exact .inl h
      · exact .inr ⟨h, ih (by simpa using hl) h'⟩

theorem append_lt_append_left (x : Text) {u v : Text} (h : u < v) : x ++ u < x ++ v := by
  induction x with
  | nil => exact h
  | cons a x ih =>
    rw [cons_append, cons_append, cons_lt_cons_iff]
    exact .inr ⟨rfl, ih⟩

theorem pad_lt {w a b : Nat} (hb : b < 10 ^ w) (h : a < b) : pad w a < pad w b := by
  induction w generalizing a b with
  | zero =>
    rw [pow_zero] at hb
    omega
  | succ w ih =>
    rw [pow_succ] at hb
    unfold pad
    rcases (show a / 10 ≤ b / 10 by omega).eq_or_lt with he | hl
    · rw [he]
      refine append_lt_append_left _ ?_
      rw [cons_lt_cons_iff]
      have := digit_lt (a := a % 10) (b := b % 10) (by omega) (by omega)
      exact .inl (by simpa only [digit, Nat.mod_mod] using this)
    · exact append_lt_append (by rw [pad_length, pad_length]) (ih (by omega) hl) _ _

/-- The comparison of two printed forms is decided at the first field where they differ. -/
theorem pad_append_lt {w a b : Nat} {u v : Text} (hb : b < 10 ^ w)
    (h : a < b ∨ a = b ∧ u < v) : pad w a ++ u < pad w b ++ v := by
  rcases h with h | ⟨rfl, h⟩
  · exact append_lt_append (by rw [pad_length, pad_length]) (pad_lt hb h) u v
  · exact append_lt_append_left _ h

theorem cons_lt_cons (c : Char) {u v : Text} (h : u < v) : c :: u < c :: v := by
  rw [cons_lt_cons_iff]
  exact .inr ⟨rfl, h⟩

end IsoText

open IsoText Calendar

/-- The year field: four digits, or a sign and six digits outside the years 0 to 9999. -/
def isoYear (y : Int) : Text :=
  if 0 ≤ y ∧ y ≤ 9999 then pad 4 y.toNat
  else (if y < 0 then '-' else '+') :: pad 6 y.natAbs

/-- The time of day of a number of milliseconds since midnight. -/
def isoTime (t : Nat) : Text :=
  pad 2 (t / 3600000) ++ ':' :: (pad 2 (t / 60000 % 60) ++ ':' ::
    (pad 2 (t / 1000 % 60) ++ '.' :: (pad 3 (t % 1000) ++ ['Z'])))

/-- `Date.prototype.toISOString` of an instant in milliseconds since 1970. -/
def toISOString (ms : Int) : Text :=
  let date := civil (ms / msPerDay)
  isoYear date.year ++ '-' :: (pad 2 date.month.toNat ++ '-' ::
    (pad 2 date.day.toNat ++ 'T' :: isoTime (ms % msPerDay).toNat))

/-- The instants of the years 0 to 9999, whose printed form carries no sign. -/
def InIsoYears (ms : Int) : Prop := -62167219200000 ≤ ms ∧ ms < 253402300800000

instance (ms : Int) : Decidable (InIsoYears ms) := inferInstanceAs (Decidable (_ ∧ _))

theorem isoTime_lt {s t : Nat} (ht : t < 86400000) (h : s < t) : isoTime s < isoTime t := by
  unfold isoTime
  refine pad_append_lt (by omega) ?_
  rcases (show s / 3600000 ≤ t / 3600000 by omega).eq_or_lt with h1 | h1
  · refine .inr ⟨h1, IsoText.cons_lt_cons _ (pad_append_lt (by omega) ?_)⟩
    rcases (show s / 60000 % 60 ≤ t / 60000 % 60 by omega).eq_or_lt with h2 | h2
    · refine .inr ⟨h2, IsoText.cons_lt_cons _ (pad_append_lt (by omega) ?_)⟩
      rcases (show s / 1000 % 60 ≤ t / 1000 % 60 by omega).eq_or_lt with h3 | h3
      · refine .inr ⟨h3, IsoText.cons_lt_cons _ (pad_append_lt (by omega) ?_)⟩
        exact .inl (by omega)
      · exact .inl h3
    · exact .inl h2
  · exact .inl h1

theorem civil_year_of_inIsoYears {ms : Int} (h : InIsoYears ms) :
    0 ≤ (civil (ms / msPerDay)).year ∧ (civil (ms / msPerDay)).year ≤ 9999 := by
  unfold InIsoYears at h
  have hlo : (-719528 : Int) ≤ ms / msPerDay := by unfold msPerDay; omega
  have hhi : ms / msPerDay ≤ 2932896 := by unfold msPerDay; omega
  exact ⟨(by decide : (civil (-719528)).year = 0) ▸ civil_year_mono hlo,
    (by decide : (civil 2932896).year = 9999) ▸ civil_year_mono hhi⟩

theorem toISOString_lt {a b : Int} (ha : InIsoYears a) (hb : InIsoYears b) (h : a < b) :
    toISOString a < toISOString b := by
  have hya := civil_year_of_inIsoYears ha
  have hyb := civil_year_of_inIsoYears hb
  have hma := civil_month_bounds (a / msPerDay)
  have hmb := civil_month_bounds (b / msPerDay)
  have hda := civil_day_bounds (a / msPerDay)
  have hdb := civil_day_bounds (b / msPerDay)
  unfold toISOString isoYear
  dsimp only
  rw [if_pos hya, if_pos hyb]
  refine pad_append_lt (by omega) ?_
  rcases (show a / msPerDay ≤ b / msPerDay by unfold msPerDay; omega).eq_or_lt with he | hl
  · rw [he]
    refine .inr ⟨rfl, IsoText.cons_lt_cons _ (append_lt_append_left _ ?_)⟩
    refine IsoText.cons_lt_cons _ (append_lt_append_left _ (IsoText.cons_lt_cons _ ?_))
    unfold msPerDay at he ⊢
    exact isoTime_lt (by omega) (by omega)
  · rcases civil_lt hl with h1 | ⟨h1, h2⟩
    · exact .inl (by omega)
    · refine .inr ⟨by rw [h1], IsoText.cons_lt_cons _ (pad_append_lt (by omega) ?_)⟩
      rcases h2 with h2 | ⟨h2, h3⟩
      · exact .inl (by omega)
      · refine .inr ⟨by rw [h2], IsoText.cons_lt_cons _ (pad_append_lt (by omega) ?_)⟩
        exact .inl (by omega)

theorem toISOString_lt_iff {a b : Int} (ha : InIsoYears a) (hb : InIsoYears b) :
    toISOString a < toISOString b ↔ a < b := by
  refine ⟨fun h => ?_, toISOString_lt ha hb⟩
  rcases lt_trichotomy a b with hlt | rfl | hgt
  · exact hlt
  · exact absurd h (lt_irrefl _)
  · exact absurd (h.trans (toISOString_lt hb ha hgt)) (lt_irrefl _)

theorem toISOString_le_iff {a b : Int} (ha : InIsoYears a) (hb : InIsoYears b) :
    toISOString a ≤ toISOString b ↔ a ≤ b := by
  rw [← not_lt, ← not_lt, toISOString_lt_iff hb ha]

theorem civil_year_of_not_inIsoYears {ms : Int} (h : ¬ InIsoYears ms) :
    ¬ (0 ≤ (civil (ms / msPerDay)).year ∧ (civil (ms / msPerDay)).year ≤ 9999) := by
  unfold InIsoYears at h
  intro hy
  have hneg : (civil (-719529)).year = -1 := by decide
  have hbig : (civil 2932897).year = 10000 := by decide
  rcases (show ms / msPerDay ≤ -719529 ∨ 2932897 ≤ ms / msPerDay by unfold msPerDay; omega)
    with hlo | hhi
  · have := civil_year_mono hlo
    omega
  · have := civil_year_mono hhi
    omega

theorem digit_ge (n : Nat) : '0' ≤ digit n := by
  unfold digit
  have hn : n % 10 < 10 := Nat.mod_lt n (by decide)
  interval_cases n % 10 <;> decide

theorem toISOString_lt_of_not_inIsoYears {a b : Int} (ha : ¬ InIsoYears a) (hb : InIsoYears b) :
    toISOString a < toISOString b := by
  have hsign : ∀ u v : Text, (if (civil (a / msPerDay)).year < 0 then '-' else '+') :: u <
      digit ((civil (b / msPerDay)).year.toNat / 1000) :: v := by
    intro u v
    rw [cons_lt_cons_iff]
    have hdigit := digit_ge ((civil (b / msPerDay)).year.toNat / 1000)
    have hchar : (if (civil (a / msPerDay)).year < 0 then '-' else '+') < '0' := by
      split <;> decide
    exact .inl (lt_of_lt_of_le hchar hdigit)
  unfold toISOString isoYear
  dsimp only
  rw [if_neg (civil_year_of_not_inIsoYears ha), if_pos (civil_year_of_inIsoYears hb)]
  simp only [pad, nil_append, cons_append, Nat.div_div_eq_div_mul]
  exact hsign _ _

/-- A stored timestamp: the text that SQL compares and the instant that `Date.parse` reads from
it. Nothing ties the order of the texts to the order of the instants unless both are
`Canonical`. -/
structure Stamp where
  text : Text
  ms : Int
deriving DecidableEq

def Stamp.ofMs (ms : Int) : Stamp := { text := toISOString ms, ms }

/-- The text is the standard printed form of an instant of the years 0 to 9999. -/
def Stamp.Canonical (t : Stamp) : Prop := t.text = toISOString t.ms ∧ InIsoYears t.ms

instance (t : Stamp) : Decidable t.Canonical := inferInstanceAs (Decidable (_ ∧ _))

theorem Stamp.ofMs_canonical {ms : Int} (h : InIsoYears ms) : (Stamp.ofMs ms).Canonical :=
  ⟨rfl, h⟩

example : toISOString 1772323200000 =
    ['2', '0', '2', '6', '-', '0', '3', '-', '0', '1', 'T',
      '0', '0', ':', '0', '0', ':', '0', '0', '.', '0', '0', '0', 'Z'] := by decide

end HomefrontFiber
