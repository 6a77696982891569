import HomefrontFiber.Foundation.IsoText

/-!
# Dates as ISO-8601 text

The first ten characters of a printed instant are its date in UTC. Date texts of the years 0 to 9999
compare as the dates do.
-/

namespace HomefrontFiber

open IsoText Calendar

def isoDate (day : Int) : Text :=
  isoYear (civil day).year ++ '-' :: (pad 2 (civil day).month.toNat ++ '-' ::
    pad 2 (civil day).day.toNat)

/-- The dates of the years 0 to 9999. -/
def InIsoDays (day : Int) : Prop := -719528 ≤ day ∧ day ≤ 2932896

instance (day : Int) : Decidable (InIsoDays day) := inferInstanceAs (Decidable (_ ∧ _))

theorem inIsoDays_of_inIsoYears {ms : Int} (h : InIsoYears ms) : InIsoDays (ms / msPerDay) := by
  unfold InIsoYears at h
  unfold InIsoDays msPerDay
  omega

theorem civil_year_of_inIsoDays {day : Int} (h : InIsoDays day) :
    0 ≤ (civil day).year ∧ (civil day).year ≤ 9999 := by
  have hfirst : (civil (-719528)).year = 0 := by decide
  have hlast : (civil 2932896).year = 9999 := by decide
  have hmin := civil_year_mono h.1
  have hmax := civil_year_mono h.2
  omega

theorem isoDate_length {day : Int} (h : InIsoDays day) : (isoDate day).length = 10 := by
  unfold isoDate isoYear
  rw [if_pos (civil_year_of_inIsoDays h)]
  simp [pad_length]

theorem toISOString_take {ms : Int} (h : InIsoYears ms) :
    (toISOString ms).take 10 = isoDate (ms / msPerDay) := by
  have hsplit : toISOString ms =
      isoDate (ms / msPerDay) ++ 'T' :: isoTime (ms % msPerDay).toNat := by
    simp [toISOString, isoDate]
  rw [hsplit, List.take_append_of_le_length (isoDate_length (inIsoDays_of_inIsoYears h)).ge,
    List.take_of_length_le (isoDate_length (inIsoDays_of_inIsoYears h)).le]

theorem isoDate_lt {a b : Int} (ha : InIsoDays a) (hb : InIsoDays b) (h : a < b) :
    isoDate a < isoDate b := by
  have hya := civil_year_of_inIsoDays ha
  have hyb := civil_year_of_inIsoDays hb
  have hma := civil_month_bounds a
  have hmb := civil_month_bounds b
  have hda := civil_day_bounds a
  have hdb := civil_day_bounds b
  have hday : ∀ {m n : Int}, 1 ≤ m → m < n → n ≤ 31 →
      pad 2 m.toNat < pad 2 n.toNat := fun _ _ _ => pad_lt (by omega) (by omega)
  unfold isoDate isoYear
  rw [if_pos hya, if_pos hyb]
  refine pad_append_lt (by omega) ?_
  rcases civil_lt h with hyear | ⟨hyear, hmonth | ⟨hmonth, hday'⟩⟩
  · exact Or.inl (by omega)
  · exact Or.inr ⟨by rw [hyear], IsoText.cons_lt_cons _ (pad_append_lt (by omega) (Or.inl (by omega)))⟩
  · refine Or.inr ⟨by rw [hyear], IsoText.cons_lt_cons _ (pad_append_lt (by omega) ?_)⟩
    exact Or.inr ⟨by rw [hmonth], IsoText.cons_lt_cons _ (hday (by omega) hday' (by omega))⟩

theorem isoDate_lt_iff {a b : Int} (ha : InIsoDays a) (hb : InIsoDays b) :
    isoDate a < isoDate b ↔ a < b := by
  refine ⟨fun h => ?_, isoDate_lt ha hb⟩
  rcases lt_trichotomy a b with hlt | rfl | hgt
  · exact hlt
  · exact absurd h (lt_irrefl _)
  · exact absurd (h.trans (isoDate_lt hb ha hgt)) (lt_irrefl _)

theorem isoDate_le_iff {a b : Int} (ha : InIsoDays a) (hb : InIsoDays b) :
    isoDate a ≤ isoDate b ↔ a ≤ b := by
  rw [← not_lt, ← not_lt, isoDate_lt_iff hb ha]

end HomefrontFiber

/-!
## Reading instants from text

`Date.parse` reads many forms of text, which form it reads how is the runtime's own. What a program
can rely on is that it reads back every instant that `toISOString` prints, and that it reads no
instant beyond the range of a date.
-/

namespace HomefrontFiber

open IsoText Calendar

/-- The instants that a date can hold: a hundred million days around 1970. -/
def InDateRange (ms : Int) : Prop := -8640000000000000 ≤ ms ∧ ms ≤ 8640000000000000

namespace IsoText

theorem pad_injective {w a b : Nat} (ha : a < 10 ^ w) (hb : b < 10 ^ w) (h : pad w a = pad w b) :
    a = b := by
  rcases Nat.lt_trichotomy a b with hlt | heq | hgt
  · exact absurd (h ▸ pad_lt hb hlt) (lt_irrefl _)
  · exact heq
  · exact absurd (h ▸ pad_lt ha hgt) (lt_irrefl _)

end IsoText

theorem isoTime_injective {s t : Nat} (hs : s < 86400000) (ht : t < 86400000)
    (h : isoTime s = isoTime t) : s = t := by
  rcases Nat.lt_trichotomy s t with hlt | heq | hgt
  · exact absurd (h ▸ isoTime_lt ht hlt) (lt_irrefl _)
  · exact heq
  · exact absurd (h ▸ isoTime_lt hs hgt) (lt_irrefl _)

theorem isoTime_length (t : Nat) : (isoTime t).length = 13 := by
  simp [isoTime, pad_length]

theorem isoYear_injective {y z : Int} (hy : y.natAbs < 10 ^ 6) (hz : z.natAbs < 10 ^ 6)
    (h : isoYear y = isoYear z) : y = z := by
  have hlength := congrArg List.length h
  unfold isoYear at h hlength
  by_cases hin : 0 ≤ y ∧ y ≤ 9999
  · by_cases hin' : 0 ≤ z ∧ z ≤ 9999
    · rw [if_pos hin, if_pos hin'] at h
      have heq := pad_injective (by omega) (by omega) h
      omega
    · rw [if_pos hin, if_neg hin', pad_length, List.length_cons, pad_length] at hlength
      omega
  · by_cases hin' : 0 ≤ z ∧ z ≤ 9999
    · rw [if_neg hin, if_pos hin', pad_length, List.length_cons, pad_length] at hlength
      omega
    · rw [if_neg hin, if_neg hin', List.cons.injEq] at h
      obtain ⟨hsign, hdigits⟩ := h
      have habs := pad_injective hy hz hdigits
      by_cases hneg : y < 0
      · rw [if_pos hneg] at hsign
        have hneg' : z < 0 := by
          by_contra hge
          rw [if_neg hge] at hsign
          exact absurd hsign (by decide)
        omega
      · rw [if_neg hneg] at hsign
        have hneg' : ¬ z < 0 := by
          intro hlt
          rw [if_pos hlt] at hsign
          exact absurd hsign (by decide)
        omega

theorem civil_injective {m n : Int} (hyear : (civil m).year = (civil n).year)
    (hmonth : (civil m).month = (civil n).month) (hday : (civil m).day = (civil n).day) :
    m = n := by
  rcases lt_trichotomy m n with hlt | heq | hgt
  · have hcivil := civil_lt hlt
    omega
  · exact heq
  · have hcivil := civil_lt hgt
    omega

theorem civil_year_of_inDateRange {ms : Int} (h : InDateRange ms) :
    (civil (ms / msPerDay)).year.natAbs < 10 ^ 6 := by
  unfold InDateRange at h
  have hlo : (-100000000 : Int) ≤ ms / msPerDay := by unfold msPerDay; omega
  have hhi : ms / msPerDay ≤ 100000000 := by unfold msPerDay; omega
  have hfirst : (civil (-100000000)).year = -271821 := by decide
  have hlast : (civil 100000000).year = 275760 := by decide
  have hmin := civil_year_mono hlo
  have hmax := civil_year_mono hhi
  omega

theorem toISOString_injective {a b : Int} (ha : InDateRange a) (hb : InDateRange b)
    (h : toISOString a = toISOString b) : a = b := by
  have hma := civil_month_bounds (a / msPerDay)
  have hmb := civil_month_bounds (b / msPerDay)
  have hda := civil_day_bounds (a / msPerDay)
  have hdb := civil_day_bounds (b / msPerDay)
  unfold toISOString at h
  dsimp only at h
  obtain ⟨hyear, hrest⟩ := List.append_inj' h (by simp [pad_length, isoTime_length])
  rw [List.cons.injEq] at hrest
  obtain ⟨hmonth, hrest⟩ := List.append_inj hrest.2 (by rw [pad_length, pad_length])
  rw [List.cons.injEq] at hrest
  obtain ⟨hday, hrest⟩ := List.append_inj hrest.2 (by rw [pad_length, pad_length])
  rw [List.cons.injEq] at hrest
  have hyear' := isoYear_injective (civil_year_of_inDateRange ha) (civil_year_of_inDateRange hb)
    hyear
  have hmonth' := pad_injective (by omega) (by omega) hmonth
  have hday' := pad_injective (by omega) (by omega) hday
  have hdate : a / msPerDay = b / msPerDay :=
    civil_injective hyear' (by omega) (by omega)
  unfold msPerDay at hdate hrest
  have htime := isoTime_injective (by omega) (by omega) hrest.2
  omega

/-- An instant that a date can hold, such as one read from the clock. -/
structure Instant where
  ms : Int
  inDateRange : InDateRange ms

/-- `Date.parse`: the instant in milliseconds that a text denotes, if any. -/
structure DateParser where
  parse : Text → Option Int
  parse_toISOString : ∀ ms, InDateRange ms → parse (toISOString ms) = some ms
  inDateRange_of_parse : ∀ t ms, parse t = some ms → InDateRange ms

namespace DateParser

open Classical in
/-- The parser that reads the printed forms and nothing else. -/
noncomputable def printed : DateParser where
  parse t := if h : ∃ ms, InDateRange ms ∧ toISOString ms = t then some h.choose else none
  parse_toISOString ms hms := by
    have h : ∃ other, InDateRange other ∧ toISOString other = toISOString ms := ⟨ms, hms, rfl⟩
    rw [dif_pos h]
    exact congrArg some (toISOString_injective h.choose_spec.1 hms h.choose_spec.2)
  inDateRange_of_parse t ms h := by
    split at h
    · rename_i hprinted
      cases h
      exact hprinted.choose_spec.1
    · cases h

end DateParser

end HomefrontFiber
