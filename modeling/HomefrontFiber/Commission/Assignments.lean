import Mathlib.Data.List.Pairwise
import HomefrontFiber.Foundation.DateParse
import HomefrontFiber.Commission.Statements

/-!
# The plan of a week

An assignment governs the half-open range of dates of its window. Windows that do not overlap leave
at most one assignment for the date on which a week starts, and one that starts first inside the
week. The service looks both up by the dates of the week's bounds in UTC, which are those of the
organisation only where its weeks start on the same date in UTC.
-/

namespace HomefrontFiber.Commission

open Calendar List

def lastDate : Text := "9999-12-31".toList

/-- The exclusive end of a window where windows are compared. An empty text is an open end. -/
def overlapEnd (a : AssignmentRow) : Text :=
  ((a.effectiveTo.filter (· ≠ [])).map dateKey).getD lastDate

def assignmentsOverlap (existing : List AssignmentRow) (candidate : AssignmentRow) : Bool :=
  existing.any fun e =>
    dateKey candidate.effectiveFrom < overlapEnd e &&
      dateKey e.effectiveFrom < overlapEnd candidate

def Admitted (assignments : List AssignmentRow) : Prop :=
  assignments.Pairwise fun a b => assignmentsOverlap [a] b = false

instance (assignments : List AssignmentRow) : Decidable (Admitted assignments) :=
  inferInstanceAs (Decidable (assignments.Pairwise _))

def Covers (a : AssignmentRow) (day : Text) : Prop :=
  dateKey a.effectiveFrom ≤ day ∧ ∀ until_ ∈ a.effectiveTo, day < dateKey until_

/-- The window starts strictly inside the range and is not empty. -/
def StartsInside (a : AssignmentRow) (first next : Text) : Prop :=
  first < dateKey a.effectiveFrom ∧ dateKey a.effectiveFrom < next ∧
    ∀ until_ ∈ a.effectiveTo, dateKey a.effectiveFrom < dateKey until_

/-- The assignment of a range of dates: the one that covers its first date, else the earliest that
starts inside, and none only when there is neither. -/
def Governs (assignments : List AssignmentRow) (first next : Text) :
    Option AssignmentRow → Prop
  | none => ∀ b ∈ assignments, ¬ Covers b first ∧ ¬ StartsInside b first next
  | some a => a ∈ assignments ∧ (Covers a first ∨
      (∀ b ∈ assignments, ¬ Covers b first) ∧ StartsInside a first next ∧
        ∀ b ∈ assignments, StartsInside b first next →
          dateKey a.effectiveFrom ≤ dateKey b.effectiveFrom)

def Meets (a : AssignmentRow) (first next : Text) : Prop :=
  Covers a first ∨ StartsInside a first next

theorem take_lt {n : Nat} {s t : Text} (h : s.take n < t.take n) : s < t := by
  induction n generalizing s t with
  | zero => simp at h
  | succ n ih =>
    cases t with
    | nil => simp at h
    | cons b t =>
      cases s with
      | nil => exact nil_lt_cons b t
      | cons a s =>
        rw [take_succ_cons, take_succ_cons, cons_lt_cons_iff] at h
        rw [cons_lt_cons_iff]
        rcases h with hlt | ⟨heq, hlt⟩
        · exact .inl hlt
        · exact .inr ⟨heq, ih hlt⟩

theorem foldl_pick {better : AssignmentRow → AssignmentRow → Prop} [DecidableRel better]
    (htotal : ∀ a b, better a b ∨ better b a)
    (htrans : ∀ a b c, better a b → better b c → better a c) (rows : List AssignmentRow)
    (first : AssignmentRow) :
    ∃ m ∈ first :: rows, rows.foldl (fun best a => match best with
      | none => some a
      | some b => if better b a then some a else some b) (some first) = some m ∧
        ∀ c ∈ first :: rows, better c m := by
  induction rows generalizing first with
  | nil =>
    refine ⟨first, mem_cons_self, rfl, fun c hc => ?_⟩
    rw [mem_singleton.mp hc]
    exact (htotal first first).elim id id
  | cons a rows ih =>
    obtain ⟨kept, hkept, hstep, hfirst, ha⟩ : ∃ kept, (kept = first ∨ kept = a) ∧
        (if better first a then some a else some first) = some kept ∧
        better first kept ∧ better a kept := by
      by_cases h : better first a
      · exact ⟨a, .inr rfl, if_pos h, h, (htotal a a).elim id id⟩
      · exact ⟨first, .inl rfl, if_neg h, (htotal first first).elim id id,
          (htotal first a).resolve_left h⟩
    obtain ⟨m, hm, hfold, hbest⟩ := ih kept
    refine ⟨m, ?_, ?_, ?_⟩
    · rcases mem_cons.mp hm with rfl | hm
      · rcases hkept with rfl | rfl
        · exact mem_cons_self
        · exact mem_cons_of_mem _ mem_cons_self
      · exact mem_cons_of_mem _ (mem_cons_of_mem _ hm)
    · rw [foldl_cons]
      dsimp only
      rw [hstep]
      exact hfold
    · intro c hc
      rcases mem_cons.mp hc with rfl | hc
      · exact htrans _ _ _ hfirst (hbest kept mem_cons_self)
      · rcases mem_cons.mp hc with rfl | hc
        · exact htrans _ _ _ ha (hbest kept mem_cons_self)
        · exact hbest c (mem_cons_of_mem _ hc)

theorem pickLatest_spec (key : AssignmentRow → Text) (rows : List AssignmentRow) :
    (rows = [] ∧ pickLatest key rows = none) ∨
      ∃ m ∈ rows, pickLatest key rows = some m ∧ ∀ c ∈ rows, key c ≤ key m := by
  cases rows with
  | nil => exact .inl ⟨rfl, rfl⟩
  | cons first rows =>
    have htotal : ∀ b a : AssignmentRow, key b ≤ key a ∨ key a ≤ key b := fun b a => le_total _ _
    have htrans : ∀ a b c : AssignmentRow, key a ≤ key b → key b ≤ key c → key a ≤ key c :=
      fun a b c => le_trans
    exact .inr (foldl_pick htotal htrans rows first)

theorem pickEarliest_spec (key : AssignmentRow → Text) (rows : List AssignmentRow) :
    (rows = [] ∧ pickEarliest key rows = none) ∨
      ∃ m ∈ rows, pickEarliest key rows = some m ∧ ∀ c ∈ rows, key m ≤ key c := by
  cases rows with
  | nil => exact .inl ⟨rfl, rfl⟩
  | cons first rows =>
    have htotal : ∀ b a : AssignmentRow, key a ≤ key b ∨ key b ≤ key a := fun b a => le_total _ _
    have htrans : ∀ a b c : AssignmentRow, key b ≤ key a → key c ≤ key b → key c ≤ key a :=
      fun a b c hab hbc => hbc.trans hab
    exact .inr (foldl_pick htotal htrans rows first)

theorem resolveAssignmentForWeek_governs (assignments : List AssignmentRow) (week : WeekBounds) :
    Governs assignments (dateKey week.weekStartUtc.text) (dateKey week.nextWeekStartUtc.text)
      (resolveAssignmentForWeek assignments week) := by
  unfold resolveAssignmentForWeek
  dsimp only
  have hcovers : ∀ a, a ∈ assignments.filter (fun a =>
      dateKey a.effectiveFrom ≤ dateKey week.weekStartUtc.text ∧
        ∀ until_ ∈ a.effectiveTo, dateKey week.weekStartUtc.text < dateKey until_) ↔
      a ∈ assignments ∧ Covers a (dateKey week.weekStartUtc.text) := by
    intro a
    rw [mem_filter, decide_eq_true_eq]
    rfl
  have hinside : ∀ a, a ∈ assignments.filter (fun a =>
      dateKey week.weekStartUtc.text < dateKey a.effectiveFrom ∧
        dateKey a.effectiveFrom < dateKey week.nextWeekStartUtc.text ∧
        ∀ until_ ∈ a.effectiveTo, dateKey a.effectiveFrom < dateKey until_) ↔
      a ∈ assignments ∧ StartsInside a (dateKey week.weekStartUtc.text)
        (dateKey week.nextWeekStartUtc.text) := by
    intro a
    rw [mem_filter, decide_eq_true_eq]
    rfl
  rcases pickLatest_spec (·.effectiveFrom) (assignments.filter (fun a =>
      dateKey a.effectiveFrom ≤ dateKey week.weekStartUtc.text ∧
        ∀ until_ ∈ a.effectiveTo, dateKey week.weekStartUtc.text < dateKey until_)) with
    ⟨hnil, hnone⟩ | ⟨m, hm, hsome, -⟩
  · rw [hnone]
    dsimp only
    have hno : ∀ b ∈ assignments, ¬ Covers b (dateKey week.weekStartUtc.text) := by
      intro b hb hcov
      have hmem := (hcovers b).mpr ⟨hb, hcov⟩
      rw [hnil] at hmem
      cases hmem
    rcases pickEarliest_spec (·.effectiveFrom) (assignments.filter (fun a =>
        dateKey week.weekStartUtc.text < dateKey a.effectiveFrom ∧
          dateKey a.effectiveFrom < dateKey week.nextWeekStartUtc.text ∧
          ∀ until_ ∈ a.effectiveTo, dateKey a.effectiveFrom < dateKey until_)) with
      ⟨hnil', hnone'⟩ | ⟨m, hm, hsome', hleast⟩
    · rw [hnone']
      intro b hb
      refine ⟨hno b hb, fun hstarts => ?_⟩
      have hmem := (hinside b).mpr ⟨hb, hstarts⟩
      rw [hnil'] at hmem
      cases hmem
    · rw [hsome']
      obtain ⟨hmem, hstarts⟩ := (hinside m).mp hm
      refine ⟨hmem, .inr ⟨hno, hstarts, fun b hb hb' => ?_⟩⟩
      have hle := hleast b ((hinside b).mpr ⟨hb, hb'⟩)
      by_contra hlt
      exact absurd (take_lt (not_le.mp hlt)) (not_lt.mpr hle)
  · rw [hsome]
    obtain ⟨hmem, hcov⟩ := (hcovers m).mp hm
    exact ⟨hmem, .inl hcov⟩

section Admitted

variable {assignments : List AssignmentRow} {a b : AssignmentRow} {first next : Text}

/-- A date before the last one that is in the window comes before the end that the overlap check
compares. -/
theorem Covers.lt_overlapEnd {day : Text} (h : Covers a day) (hlast : day < lastDate) :
    day < overlapEnd a := by
  unfold overlapEnd
  cases hto : a.effectiveTo with
  | none => exact hlast
  | some until_ =>
    by_cases hempty : until_ = []
    · rw [Option.filter_some, if_neg (by simp [hempty])]
      exact hlast
    · rw [Option.filter_some, if_pos (by simpa using hempty)]
      exact h.2 until_ hto

/-- An assignment that meets a range covers the date on which its part of the range begins. -/
theorem Meets.covers (h : Meets a first next) : Covers a first ∨
    (first < dateKey a.effectiveFrom ∧ dateKey a.effectiveFrom < next ∧
      Covers a (dateKey a.effectiveFrom)) := by
  rcases h with hcovers | ⟨hfirst, hnext, hend⟩
  · exact .inl hcovers
  · exact .inr ⟨hfirst, hnext, le_rfl, hend⟩

theorem Admitted.eq_of_covers (h : Admitted assignments) (ha : a ∈ assignments)
    (hb : b ∈ assignments) {day : Text} (hlast : day < lastDate) (hcov : Covers a day)
    (hcov' : Covers b day) : a = b := by
  by_contra hne
  have hsymm : ∀ c d : AssignmentRow, assignmentsOverlap [c] d = assignmentsOverlap [d] c := by
    intro c d
    simp only [assignmentsOverlap, any_cons, any_nil, Bool.or_false]
    exact Bool.and_comm _ _
  have hapart : assignmentsOverlap [a] b = false := by
    have hsym : Std.Symm fun c d : AssignmentRow => assignmentsOverlap [c] d = false :=
      ⟨fun c d hcd => (hsymm d c).trans hcd⟩
    exact h.forall ha hb hne
  simp only [assignmentsOverlap, any_cons, any_nil, Bool.or_false,
    Bool.and_eq_false_iff, decide_eq_false_iff_not] at hapart
  rcases hapart with hless | hless
  · exact hless (hcov'.1.trans_lt (hcov.lt_overlapEnd hlast))
  · exact hless (hcov.1.trans_lt (hcov'.lt_overlapEnd hlast))

/-- Two that meet ranges before the last date and start on the same date are the same. -/
theorem Admitted.eq_of_start (h : Admitted assignments) (ha : a ∈ assignments)
    (hb : b ∈ assignments) {first' next' : Text} (hfirst : first < lastDate)
    (hnext : next ≤ lastDate) (hmeets : Meets a first next) (hmeets' : Meets b first' next')
    (heq : dateKey a.effectiveFrom = dateKey b.effectiveFrom) : a = b := by
  have hown : ∀ {c : AssignmentRow} {x y : Text}, Meets c x y →
      Covers c (dateKey c.effectiveFrom) := by
    intro c x y hc
    rcases hc.covers with hcov | ⟨-, -, hcov⟩
    · exact ⟨le_rfl, fun until_ hto => hcov.1.trans_lt (hcov.2 until_ hto)⟩
    · exact hcov
  have hlast : dateKey a.effectiveFrom < lastDate := by
    rcases hmeets with hcov | ⟨-, hlt, -⟩
    · exact hcov.1.trans_lt hfirst
    · exact hlt.trans_le hnext
  exact h.eq_of_covers ha hb hlast (hown hmeets) (heq ▸ hown hmeets')

theorem Governs.leading (h : Admitted assignments) (hfirst : first < lastDate)
    (hg : Governs assignments first next (some a)) : a ∈ assignments ∧ Meets a first next ∧
      ∀ b ∈ assignments, Meets b first next →
        dateKey a.effectiveFrom ≤ dateKey b.effectiveFrom := by
  obtain ⟨ha, hcov | ⟨hno, hstarts, hleast⟩⟩ := hg
  · refine ⟨ha, .inl hcov, fun b hb hmeets => ?_⟩
    rcases hmeets with hcov' | ⟨hlt, -⟩
    · rw [h.eq_of_covers ha hb hfirst hcov hcov']
    · exact hcov.1.trans hlt.le
  · refine ⟨ha, .inr hstarts, fun b hb hmeets => ?_⟩
    exact hmeets.elim (fun hcov' => absurd hcov' (hno b hb)) (hleast b hb)

theorem governs_of_first (ha : a ∈ assignments) (hmeets : Meets a first next)
    (hleast : ∀ b ∈ assignments, Meets b first next →
      dateKey a.effectiveFrom ≤ dateKey b.effectiveFrom) :
    Governs assignments first next (some a) := by
  rcases hmeets with hcov | hstarts
  · exact ⟨ha, .inl hcov⟩
  · refine ⟨ha, .inr ⟨fun b hb hcov => ?_, hstarts, fun b hb hb' => hleast b hb (.inr hb')⟩⟩
    have hle := hleast b hb (.inl hcov)
    exact absurd hstarts.1 (not_lt.mpr (hle.trans hcov.1))

theorem governs_none_iff :
    Governs assignments first next none ↔ ∀ b ∈ assignments, ¬ Meets b first next := by
  unfold Governs Meets
  exact forall₂_congr fun b _ => not_or.symm

theorem Governs.perm {others : List AssignmentRow} (hperm : others.Perm assignments)
    {r : Option AssignmentRow} (h : Governs others first next r) :
    Governs assignments first next r := by
  cases r with
  | none => exact fun b hb => h b (hperm.mem_iff.mpr hb)
  | some a =>
    obtain ⟨ha, hcov | ⟨hno, hstarts, hleast⟩⟩ := h
    · exact ⟨hperm.mem_iff.mp ha, .inl hcov⟩
    · exact ⟨hperm.mem_iff.mp ha, .inr ⟨fun b hb => hno b (hperm.mem_iff.mpr hb), hstarts,
        fun b hb => hleast b (hperm.mem_iff.mpr hb)⟩⟩

end Admitted

/-- The first of the assignments that meet either range meets both. -/
def FirstMeetsBoth (assignments : List AssignmentRow) (first next first' next' : Text) : Prop :=
  ∀ a ∈ assignments, Meets a first next ∨ Meets a first' next' →
    (∀ b ∈ assignments, Meets b first next ∨ Meets b first' next' →
      dateKey a.effectiveFrom ≤ dateKey b.effectiveFrom) →
    Meets a first next ∧ Meets a first' next'

section Ranges

variable {assignments : List AssignmentRow} {first next first' next' : Text}

instance (a : AssignmentRow) (first next : Text) : Decidable (Meets a first next) :=
  inferInstanceAs (Decidable ((_ ∧ ∀ until_ ∈ a.effectiveTo, _) ∨
    (_ ∧ _ ∧ ∀ until_ ∈ a.effectiveTo, _)))

instance (assignments : List AssignmentRow) (first next first' next' : Text) :
    Decidable (FirstMeetsBoth assignments first next first' next') :=
  inferInstanceAs (Decidable (∀ a ∈ assignments, _))

theorem exists_first (assignments : List AssignmentRow) (first next first' next' : Text) :
    (∀ b ∈ assignments, ¬ (Meets b first next ∨ Meets b first' next')) ∨
      ∃ a ∈ assignments, (Meets a first next ∨ Meets a first' next') ∧
        ∀ b ∈ assignments, Meets b first next ∨ Meets b first' next' →
          dateKey a.effectiveFrom ≤ dateKey b.effectiveFrom := by
  have hmem : ∀ a, a ∈ assignments.filter (fun a => Meets a first next ∨ Meets a first' next') ↔
      a ∈ assignments ∧ (Meets a first next ∨ Meets a first' next') := by
    intro a
    rw [mem_filter, decide_eq_true_eq]
  rcases pickEarliest_spec (fun a => dateKey a.effectiveFrom) (assignments.filter fun a =>
      Meets a first next ∨ Meets a first' next') with ⟨hnil, -⟩ | ⟨m, hm, -, hleast⟩
  · refine .inl fun b hb hmeets => ?_
    have hin := (hmem b).mpr ⟨hb, hmeets⟩
    rw [hnil] at hin
    cases hin
  · obtain ⟨hin, hmeets⟩ := (hmem m).mp hm
    exact .inr ⟨m, hin, hmeets, fun b hb hb' => hleast b ((hmem b).mpr ⟨hb, hb'⟩)⟩

theorem Governs.transfer (h : Admitted assignments) (hfirst : first < lastDate)
    (hnext : next ≤ lastDate) (hboth : FirstMeetsBoth assignments first next first' next')
    {r : Option AssignmentRow} (hg : Governs assignments first next r) :
    Governs assignments first' next' r := by
  rcases exists_first assignments first next first' next' with hnobody | ⟨a, ha, heither, hleast⟩
  · cases r with
    | none => exact governs_none_iff.mpr fun b hb hmeets => hnobody b hb (.inr hmeets)
    | some m =>
      obtain ⟨hm, hmeets, -⟩ := hg.leading h hfirst
      exact absurd (.inl hmeets) (hnobody m hm)
  · obtain ⟨hmeets, hmeets'⟩ := hboth a ha heither hleast
    cases r with
    | none => exact absurd hmeets (governs_none_iff.mp hg a ha)
    | some m =>
      obtain ⟨hm, hmmeets, hmleast⟩ := hg.leading h hfirst
      have hstart := le_antisymm (hmleast a ha hmeets) (hleast m hm (.inl hmmeets))
      have heq := h.eq_of_start hm ha hfirst hnext hmmeets hmeets hstart
      subst heq
      exact governs_of_first hm hmeets' fun b hb hb' => hleast b hb (.inr hb')

theorem firstMeetsBoth_of_governs (h : Admitted assignments) (hfirst : first < lastDate)
    (hnext : next ≤ lastDate) (hfirst' : first' < lastDate) (hnext' : next' ≤ lastDate)
    {r : Option AssignmentRow} (hg : Governs assignments first next r)
    (hg' : Governs assignments first' next' r) :
    FirstMeetsBoth assignments first next first' next' := by
  intro a ha heither hleast
  cases r with
  | none =>
    exact (heither.elim (governs_none_iff.mp hg a ha) (governs_none_iff.mp hg' a ha)).elim
  | some m =>
    obtain ⟨hm, hmeets, hmleast⟩ := hg.leading h hfirst
    obtain ⟨-, hmeets', hmleast'⟩ := hg'.leading h hfirst'
    have hstart : dateKey a.effectiveFrom = dateKey m.effectiveFrom := by
      apply le_antisymm (hleast m hm (.inl hmeets))
      exact heither.elim (hmleast a ha) (hmleast' a ha)
    have heq : a = m := by
      rcases heither with hown | hown
      · exact h.eq_of_start ha hm hfirst hnext hown hmeets hstart
      · exact h.eq_of_start ha hm hfirst' hnext' hown hmeets' hstart
    subst heq
    exact ⟨hmeets, hmeets'⟩

end Ranges

/-- A week whose bounds and local dates are printed with years of four digits. -/
def DatedWeek (week : WeekBounds) : Prop :=
  week.InIsoYears ∧ InIsoDays week.startDate ∧ InIsoDays (week.startDate + 7)

instance (week : WeekBounds) : Decidable (DatedWeek week) :=
  inferInstanceAs (Decidable (_ ∧ _ ∧ _))

theorem isoDate_le_lastDate {day : Int} (h : InIsoDays day) : isoDate day ≤ lastDate := by
  have hlast : lastDate = isoDate 2932896 := by decide
  rw [hlast]
  exact (isoDate_le_iff h (by decide)).mpr h.2

/-- Whatever the order of the list, the plan is that of the local dates of the week. -/
def PlanOfLocalWeek (assignments : List AssignmentRow) (week : WeekBounds) : Prop :=
  ∀ others : List AssignmentRow, others.Perm assignments →
    Governs assignments (isoDate week.startDate) (isoDate (week.startDate + 7))
      (resolveAssignmentForWeek others week)

theorem startDay_lt_nextDay (cfg : WorkweekConfig) (day : Int) :
    cfg.startMs day / msPerDay < cfg.startMs (day + 7) / msPerDay := by
  have hstart := (cfg.timezone.zonedWallToUtcMs_bounds day (parseHm cfg.weekStartLocalTime).1
    (parseHm cfg.weekStartLocalTime).2).2
  have hnext := (cfg.timezone.zonedWallToUtcMs_bounds (day + 7)
    (parseHm cfg.weekStartLocalTime).1 (parseHm cfg.weekStartLocalTime).2).1
  unfold WorkweekConfig.startMs msPerDay at *
  omega

/-- The plan of a week is that of its local dates exactly when the first assignment that meets the
week, by its dates in UTC or by its local ones, meets it by both. -/
theorem weekPlan_local_iff (cfg : WorkweekConfig) (t : Int) {assignments : List AssignmentRow}
    (h : Admitted assignments) (hweek : DatedWeek (weekBoundsFor t cfg)) :
    PlanOfLocalWeek assignments (weekBoundsFor t cfg) ↔
      FirstMeetsBoth assignments (dateKey (weekBoundsFor t cfg).weekStartUtc.text)
        (dateKey (weekBoundsFor t cfg).nextWeekStartUtc.text)
        (isoDate (weekBoundsFor t cfg).startDate)
        (isoDate ((weekBoundsFor t cfg).startDate + 7)) := by
  obtain ⟨⟨⟨hstart, hstart'⟩, hnext, hnext'⟩, hday, hday'⟩ := hweek
  have hstartDay := inIsoDays_of_inIsoYears hstart'
  have hnextDay := inIsoDays_of_inIsoYears hnext'
  have hutc : dateKey (weekBoundsFor t cfg).weekStartUtc.text =
      isoDate ((weekBoundsFor t cfg).weekStartUtc.ms / msPerDay) := by
    rw [dateKey, hstart, toISOString_take hstart']
  have hutc' : dateKey (weekBoundsFor t cfg).nextWeekStartUtc.text =
      isoDate ((weekBoundsFor t cfg).nextWeekStartUtc.ms / msPerDay) := by
    rw [dateKey, hnext, toISOString_take hnext']
  have hless : (weekBoundsFor t cfg).weekStartUtc.ms / msPerDay <
      (weekBoundsFor t cfg).nextWeekStartUtc.ms / msPerDay :=
    startDay_lt_nextDay cfg (cfg.startDateFor t)
  have hnextLast := isoDate_le_lastDate hnextDay
  have hfirstLast := (isoDate_lt hstartDay hnextDay hless).trans_le hnextLast
  have hnextLast' := isoDate_le_lastDate hday'
  have hfirstLast' := (isoDate_lt hday hday' (by omega)).trans_le hnextLast'
  rw [hutc, hutc']
  constructor
  · intro hplan
    have hgoverns := resolveAssignmentForWeek_governs assignments (weekBoundsFor t cfg)
    rw [hutc, hutc'] at hgoverns
    exact firstMeetsBoth_of_governs h hfirstLast hnextLast hfirstLast' hnextLast' hgoverns
      (hplan assignments (List.Perm.refl _))
  · intro hboth others hperm
    have hgoverns := (resolveAssignmentForWeek_governs others (weekBoundsFor t cfg)).perm hperm
    rw [hutc, hutc'] at hgoverns
    exact hgoverns.transfer h hfirstLast hnextLast hboth

/-- An instant of the week of Monday the second of March 2026, and a plan that is replaced on that
Monday. -/
def replacedOnMonday : List AssignmentRow :=
  [⟨1, 3, 1, "2026-01-05".toList, some "2026-03-02".toList⟩,
    ⟨2, 3, 2, "2026-03-02".toList, none⟩]

/-- Weeks from Monday at midnight, a number of hours away from UTC. -/
def mondays (hours : Int) (h : -24 < hours ∧ hours < 24) : WorkweekConfig where
  timezone :=
    { offset := fun _ => hours * 3600000
      bounded := fun _ => by unfold msPerDay; omega }
  weekStartsOn := 1
  weekStartLocalTime := "00:00".toList

theorem weekPlan_local_iff_west :
    PlanOfLocalWeek replacedOnMonday (weekBoundsFor 1772700000000 (mondays (-5) (by decide))) :=
  have hadmitted : Admitted replacedOnMonday := by decide
  (weekPlan_local_iff (mondays (-5) (by decide)) 1772700000000 hadmitted (by decide)).mpr
    (by decide)

/-- Eight hours east of UTC the week starts on Sunday in UTC, under the plan that was replaced. -/
theorem not_weekPlan_local_east :
    ¬ ∀ (cfg : WorkweekConfig) (t : Int) (assignments : List AssignmentRow),
      Admitted assignments → DatedWeek (weekBoundsFor t cfg) →
      PlanOfLocalWeek assignments (weekBoundsFor t cfg) := by
  intro h
  have hadmitted : Admitted replacedOnMonday := by decide
  have hweek : DatedWeek (weekBoundsFor 1772700000000 (mondays 8 (by decide))) := by decide
  have hplan := h (mondays 8 (by decide)) 1772700000000 replacedOnMonday hadmitted hweek
  obtain ⟨-, hmeets, -⟩ := (hplan _ (List.Perm.refl _)).leading (a := ⟨1, 3, 1, _, _⟩) hadmitted
    (by decide)
  revert hmeets
  decide

end HomefrontFiber.Commission
