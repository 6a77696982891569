import HomefrontFiber.Ramp.Store

/-!
# What a new hire can cost

The days that a rep has been paid for are dates of one window as long as the hire date does not
move once days are booked. A rep who is paid from the roster row, and is then sent through the
packet, begins a second window.
-/

namespace HomefrontFiber.Ramp

open List

variable {p : Program} {db : Db}

def Db.bookedDays (db : Db) : List Int :=
  db.spiffs.filterMap fun s =>
    match s.saleRef with
    | .day localDay => some localDay
    | .complete => none

/-- The awards of a rep stay within what the organisation is told. -/
structure WithinCeiling (cfg : RampBonusConfig) (db : Db) : Prop where
  days : (db.bookedDays.length : Int) ≤ max 0 cfg.windowDays
  completions : db.spiffs.countP (·.saleRef = .complete) ≤ 1
  cents : (db.spiffs.map Spiff.amountCents).sum ≤ rampCeilingCentsPerHire cfg

/-- The midnights of two dates are less than 12 hours from whole days apart. -/
def ClockSteady (z : Zone) (fromMs toMs : Int) : Prop :=
  let elapsed := localMidnight z toMs - localMidnight z fromMs
  let whole := (z.localYmd toMs - z.localYmd fromMs) * 86400000
  whole - 43200000 ≤ elapsed ∧ elapsed < whole + 43200000

instance (z : Zone) (fromMs toMs : Int) : Decidable (ClockSteady z fromMs toMs) :=
  inferInstanceAs (Decidable (_ ∧ _))

/-- A training day that pays is counted on a steady clock, and the days paid so far lie in the
window that is counted from the present hire date. -/
def OneWindow (p : Program) (db : Db) : Action → Prop
  | .awardRampForRep t nowMs => (rampDecision p db t nowMs).qualifies = true →
    ∀ hiredMs ∈ (hireDateFor db).ms, ClockSteady p.zone hiredMs nowMs ∧
      ∀ day ∈ db.bookedDays, p.zone.localYmd hiredMs ≤ day ∧
        day < p.zone.localYmd hiredMs + p.cfg.windowDays
  | _ => True

variable {nowMs : Int} {t : Training} {db' : Db} {row : Spiff}

theorem tenureFrom_steady {z : Zone} {hiredMs : Int} (h : ClockSteady z hiredMs nowMs)
    (hpos : 1 ≤ tenureFrom z hiredMs nowMs) :
    tenureFrom z hiredMs nowMs = z.localYmd nowMs - z.localYmd hiredMs + 1 := by
  unfold ClockSteady at h
  dsimp only at h
  unfold tenureFrom at hpos ⊢
  dsimp only at hpos ⊢
  split
  · rename_i hnegative
    rw [if_pos hnegative] at hpos
    omega
  · omega

theorem qualifies_inWindow (hq : (rampDecision p db t nowMs).qualifies = true) :
    ∃ hiredMs ∈ (hireDateFor db).ms, ClockSteady p.zone hiredMs nowMs →
      p.zone.localYmd hiredMs ≤ p.zone.localYmd nowMs ∧
        p.zone.localYmd nowMs < p.zone.localYmd hiredMs + p.cfg.windowDays := by
  have hramp := isRampRep_iff.mp (evaluateRampDay_qualifies hq).1
  dsimp only at hramp
  unfold tenureDay at hramp
  cases hhired : (hireDateFor db).ms with
  | none =>
    rw [hhired] at hramp
    obtain ⟨-, hday, -⟩ := hramp
    simp at hday
  | some hiredMs =>
    rw [hhired] at hramp
    refine ⟨hiredMs, rfl, fun hsteady => ?_⟩
    obtain ⟨-, hfirst, hlast⟩ := hramp
    have htenure := tenureFrom_steady hsteady hfirst
    change tenureFrom p.zone hiredMs nowMs ≤ _ at hlast
    change 1 ≤ tenureFrom p.zone hiredMs nowMs at hfirst
    omega

theorem length_le_of_window {days : List Int} (hnd : days.Nodup) {first width : Int}
    (h : ∀ day ∈ days, first ≤ day ∧ day < first + width) : (days.length : Int) ≤ max 0 width := by
  have hsub : days ⊆ (List.range width.toNat).map fun n : Nat => first + (n : Int) := by
    intro day hday
    obtain ⟨hlo, hhi⟩ := h day hday
    exact mem_map.mpr ⟨(day - first).toNat, mem_range.mpr (by omega), by omega⟩
  have hle := (subperm_of_subset hnd hsub).length_le
  rw [length_map, length_range] at hle
  omega

structure Ramped (p : Program) (db : Db) : Prop where
  keys : (db.spiffs.map Spiff.saleRef).Nodup
  amounts : ∀ s ∈ db.spiffs, match s.saleRef with
    | .day _ => s.amountCents ≤ max 0 p.cfg.rewardCents
    | .complete => s.amountCents ≤ completionCeilingCents p.cfg
  window : ∃ first, ∀ day ∈ db.bookedDays, first ≤ day ∧ day < first + p.cfg.windowDays

theorem Ramped.empty : Ramped p .empty where
  keys := nodup_nil
  amounts := nofun
  window := ⟨0, nofun⟩

theorem book_cases (db : Db) (row : Spiff) :
    db.book row = db ∨ (∀ s ∈ db.spiffs, s.saleRef ≠ row.saleRef) ∧
      (db.book row).spiffs = db.spiffs ++ [row] := by
  unfold Db.book
  split
  · exact Or.inl rfl
  · rename_i hfresh
    exact Or.inr ⟨by simpa using hfresh, rfl⟩

theorem bookedDays_append (h : db'.spiffs = db.spiffs ++ [row]) :
    db'.bookedDays = db.bookedDays ++
      match row.saleRef with
      | .day localDay => [localDay]
      | .complete => [] := by
  unfold Db.bookedDays
  rw [h, filterMap_append]
  cases hkey : row.saleRef with
  | day localDay => simp [hkey]
  | complete => simp [hkey]

theorem nodup_keys_append (h : (db.spiffs.map Spiff.saleRef).Nodup)
    (hfresh : ∀ s ∈ db.spiffs, s.saleRef ≠ row.saleRef) :
    ((db.spiffs ++ [row]).map Spiff.saleRef).Nodup := by
  rw [map_append, map_cons, map_nil]
  apply List.Nodup.append h (nodup_singleton _)
  intro key hold hnew
  obtain ⟨s, hs, rfl⟩ := mem_map.mp hold
  exact hfresh s hs (mem_singleton.mp hnew)

theorem Ramped.book (h : Ramped p db) (hamount : match row.saleRef with
      | .day _ => row.amountCents ≤ max 0 p.cfg.rewardCents
      | .complete => row.amountCents ≤ completionCeilingCents p.cfg)
    (hwindow : ∃ first, (∀ day, row.saleRef = .day day → first ≤ day ∧ day < first + p.cfg.windowDays) ∧
      ∀ day ∈ db.bookedDays, first ≤ day ∧ day < first + p.cfg.windowDays) :
    Ramped p (db.book row) := by
  rcases book_cases db row with hsame | ⟨hfresh, hrows⟩
  · rw [hsame]
    exact h
  · constructor
    · exact hrows ▸ nodup_keys_append h.keys hfresh
    · intro s hs
      rw [hrows] at hs
      rcases mem_append.mp hs with hs | hs
      · exact h.amounts s hs
      · obtain rfl := mem_singleton.mp hs
        exact hamount
    · obtain ⟨first, hnew, hbooked⟩ := hwindow
      refine ⟨first, fun day hday => ?_⟩
      rw [bookedDays_append hrows] at hday
      rcases mem_append.mp hday with hday | hday
      · exact hbooked day hday
      · apply hnew
        cases hkey : row.saleRef <;> simp_all

theorem Ramped.of_spiffs (h : Ramped p db) (hspiffs : db'.spiffs = db.spiffs) : Ramped p db' := by
  constructor
  · rw [hspiffs]
    exact h.keys
  · rw [hspiffs]
    exact h.amounts
  · unfold Db.bookedDays
    rw [hspiffs]
    exact h.window

theorem Ramped.award (h : Ramped p db) (hwindow : OneWindow p db (.awardRampForRep t nowMs)) :
    Ramped p (awardRampForRep p db t nowMs) := by
  unfold awardRampForRep
  dsimp only
  have hday : Ramped p (if p.cfg.enabled && (rampDecision p db t nowMs).qualifies then
      db.book
        { saleRef := .day (p.zone.localYmd nowMs), amountCents := (rampDecision p db t nowMs).awardCents
          reason := (rampDecision p db t nowMs).reason, createdAtMs := nowMs }
      else db) := by
    split
    · rename_i hpays
      have hq := (Bool.and_eq_true_iff.mp hpays).2
      obtain ⟨hiredMs, hhired, hin⟩ := qualifies_inWindow hq
      obtain ⟨hsteady, hbooked⟩ := hwindow hq hiredMs hhired
      refine h.book (evaluateRampDay_qualifies hq).2.le ⟨_, fun day hday => ?_, hbooked⟩
      exact RampKey.day.inj hday ▸ hin hsteady
    · exact h
  split
  · obtain ⟨first, hbooked⟩ := hday.window
    exact hday.book (evaluateTrainingCompletion_le _ p.cfg) ⟨first, nofun, hbooked⟩
  · exact hday

theorem Ramped.step (h : Ramped p db) (a : Action) (hwindow : OneWindow p db a) :
    Ramped p (step p db a) := by
  cases a with
  | awardRampForRep t nowMs => exact h.award hwindow
  | reserveSigningDocument documentType documentVersion =>
    apply h.of_spiffs
    simp only [Ramp.step, Db.reserveSigningDocument]
    split <;> rfl
  | syncRepActivation atMs =>
    apply h.of_spiffs
    simp only [Ramp.step, Db.syncRepActivation]
    split <;> rfl
  | createRosterRow atMs => exact h.of_spiffs rfl
  | linkApplication => exact h.of_spiffs rfl
  | markDocumentSent i | markDocumentFailed i | markDocumentViewed i => exact h.of_spiffs rfl
  | completeSigning i atMs => exact h.of_spiffs rfl
  | declineSigning i | voidSigningDocument i => exact h.of_spiffs rfl

theorem nodup_bookedDays (h : (db.spiffs.map Spiff.saleRef).Nodup) : db.bookedDays.Nodup := by
  have hdays : db.bookedDays = (db.spiffs.map Spiff.saleRef).filterMap fun key =>
      match key with
      | .day localDay => some localDay
      | .complete => none := by
    rw [filterMap_map]
    rfl
  rw [hdays]
  apply h.filterMap
  intro key key' day hkey hkey'
  cases key with
  | complete => cases hkey
  | day localDay =>
    cases key' with
    | complete => cases hkey'
    | day localDay' => rw [Option.mem_some_iff.mp hkey, Option.mem_some_iff.mp hkey']

theorem cents_le (rows : List Spiff) {reward completion : Int}
    (h : ∀ s ∈ rows, match s.saleRef with
      | .day _ => s.amountCents ≤ reward
      | .complete => s.amountCents ≤ completion) :
    (rows.map Spiff.amountCents).sum ≤
      reward * ((rows.filterMap fun s =>
        match s.saleRef with
        | .day localDay => some localDay
        | .complete => none).length : Int) +
      completion * (rows.countP (·.saleRef = .complete) : Int) := by
  induction rows with
  | nil => simp
  | cons s rows ih =>
    have hrest := ih fun r hr => h r (mem_cons_of_mem s hr)
    have hrow := h s mem_cons_self
    rw [map_cons, sum_cons, filterMap_cons, countP_cons]
    cases hkey : s.saleRef with
    | day localDay =>
      rw [hkey] at hrow
      simp only [length_cons, Nat.cast_add, Nat.cast_one, reduceCtorEq, decide_false,
        Bool.false_eq_true, if_false, add_zero, mul_add, mul_one]
      dsimp only at hrow
      omega
    | complete =>
      rw [hkey] at hrow
      simp only [Nat.cast_add, Nat.cast_one, decide_true, if_true, mul_add, mul_one]
      dsimp only at hrow
      omega

theorem Ramped.withinCeiling (h : Ramped p db) : WithinCeiling p.cfg db := by
  obtain ⟨first, hwindow⟩ := h.window
  have hdays : (db.bookedDays.length : Int) ≤ max 0 p.cfg.windowDays :=
    length_le_of_window (nodup_bookedDays h.keys) hwindow
  have hcompletions : db.spiffs.countP (·.saleRef = .complete) ≤ 1 := by
    have hcount := nodup_iff_count_le_one.mp h.keys .complete
    rw [count_eq_countP, countP_map] at hcount
    exact hcount
  refine ⟨hdays, hcompletions, ?_⟩
  have hcents := cents_le db.spiffs h.amounts
  have hreward : (0 : Int) ≤ max 0 p.cfg.rewardCents := le_max_left 0 _
  have hpart := mul_le_mul_of_nonneg_left hdays hreward
  have hceiling := completionCeilingCents_nonneg p.cfg
  have honce := mul_le_mul_of_nonneg_left (Int.ofNat_le.mpr hcompletions) hceiling
  unfold rampCeilingCentsPerHire
  unfold Db.bookedDays at hpart
  rw [Nat.cast_one, mul_one] at honce
  omega

/-- A rep whose training days are all booked in one window costs no more than the ceiling. -/
theorem withinCeiling_run (p : Program) (as : List Action)
    (h : Along (step p) (OneWindow p) .empty as) :
    WithinCeiling p.cfg (run (step p) .empty as) := by
  have hstep : ∀ s a, Ramped p s → OneWindow p s a → Ramped p (step p s a) :=
    fun s a hs hwindow => hs.step a hwindow
  exact (run_invariant hstep Ramped.empty h).withinCeiling

/-- One paid day for a new hire, and nothing for the curriculum. -/
def oneDayRamp : Program where
  zone := .utc
  cfg := { windowDays := 1, completionEnabled := false }
  lessonsTotal := 20

def lessonAward (nowMs : Int) : Action :=
  .awardRampForRep { reviews := [], progress := [⟨"m1l1", nowMs⟩], dueAt := [] } nowMs

theorem withinCeiling_run_roster :
    WithinCeiling oneDayRamp.cfg (run (step oneDayRamp) .empty
      [.createRosterRow 0, lessonAward 3600000, lessonAward 7200000]) := by
  apply withinCeiling_run oneDayRamp
  refine ⟨trivial, ?_, ?_, trivial⟩
  · intro _
    decide +kernel
  · intro _
    decide +kernel

/-- A rep is paid for a day from the roster row, signs the next day and is paid again. -/
theorem not_withinCeiling_signedLater : validateRampConfig oneDayRamp.cfg = none ∧
    ¬ WithinCeiling oneDayRamp.cfg (run (step oneDayRamp) .empty
      [.createRosterRow 0, lessonAward 3600000,
        .reserveSigningDocument .independentContractor "v1", .markDocumentSent 0,
        .completeSigning 0 90000000, lessonAward 93600000]) := by
  constructor
  · decide +kernel
  · intro h
    have hcents := h.cents
    revert hcents
    decide +kernel

end HomefrontFiber.Ramp
