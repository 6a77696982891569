import HomefrontFiber.Foundation.Table
import HomefrontFiber.RepMetrics.Rollup

/-!
# What the rollup can lose

A rep-day is covered while a knock of it has still to mark it, while it is queued or unavailable,
or when its summary was computed from the knocks that are stored now. Two statements can leave a
rep-day uncovered. `superseded` is written without a mark of its own, and the worker deletes a
mark that may stand for a knock which came after the day was read.
-/

namespace HomefrontFiber.RepMetrics

open List Option

variable (dir : Directory) (s : RollupState)

/-- A knock of the day is stored whose `createKnock` has yet to mark its day. -/
def InFlight (day : RepDay) : Prop := ∃ k ∈ s.knockLog, k.id ∈ s.unmarked ∧ dir.Holds day k

instance (day : RepDay) : Decidable (InFlight dir s day) :=
  inferInstanceAs (Decidable (∃ k ∈ s.knockLog, _))

/-- What a recomputation reads when no write comes between its queries. -/
def readNow (day : RepDay) : DayRead :=
  ⟨dayRows dir day s.knockLog, dayRows dir day s.knockLog⟩

/-- The day's knocks have not changed since its last recomputation read them. -/
def Unchanged (day : RepDay) : Prop :=
  s.dailyMetrics day = some (readNow dir s day) ∨
    s.dailyMetrics day = none ∧ dayRows dir day s.knockLog = []

/-- The summary of the day is the facts of the knocks that are stored. -/
def Agrees (day : RepDay) : Prop :=
  (s.dailyMetrics day).map DayRead.facts = some (readNow dir s day).facts ∨
    s.dailyMetrics day = none ∧ dayRows dir day s.knockLog = []

instance (day : RepDay) : Decidable (Agrees dir s day) :=
  inferInstanceAs (Decidable (_ = _ ∨ _ = _ ∧ _ = _))

/-- A day whose knocks changed is marked, or will be by a knock that is in flight; once the writes
are done and the queue is drained, the summaries agree with the knocks. -/
structure NothingLost : Prop where
  marked : ∀ repId date, dir.repDay repId date ∉ s.unavailable →
    ¬ InFlight dir s (dir.repDay repId date) → ¬ Unchanged dir s (dir.repDay repId date) →
      dir.repDay repId date ∈ s.dirtyDays
  agrees : s.unmarked = [] → s.dirtyDays = [] → ∀ repId date,
    dir.repDay repId date ∉ s.unavailable → Agrees dir s (dir.repDay repId date)

/-- A knock marks the one rep-day that holds it, and its mark goes in; `superseded` changes while
the knock's day is queued or a knock of it is in flight; and a mark is deleted while the day's
knocks are those that were read, or a knock of it is in flight. -/
def Careful : Action → Prop
  | .insertKnock k => dir.MarksItsDay (k.row (s.knockLog.length + 1))
  | .markRepDayDirty _ stored => stored = true
  | .setSuperseded knockId superseded =>
    ∀ k ∈ s.knockById knockId, k.superseded = superseded ∨
      ∀ day ∈ dir.markedDay k, day ∈ s.dirtyDays ∨ InFlight dir s day
  | .work (.clearDirtyDay stored) =>
    stored = false ∨ ∀ t ∈ s.tick, ∀ read ∈ t.publishedRead,
      read = readNow dir s t.day ∨ InFlight dir s t.day
  | _ => True

def Covered (day : RepDay) : Prop :=
  InFlight dir s day ∨ day ∈ s.dirtyDays ∨ day ∈ s.unavailable ∨ Unchanged dir s day

/-- What the tables and the worker satisfy between any two statements. -/
structure RollupWf : Prop where
  numbered : Numbered Knock.id s.knockLog
  marksItsDay : ∀ k ∈ s.knockLog, dir.MarksItsDay k
  queued : s.dirtyDays.Nodup
  claimed : ∀ t ∈ s.tick, (t.day :: t.rest).Nodup ∧ ∀ day ∈ t.day :: t.rest, day ∈ s.dirtyDays
  published : ∀ t ∈ s.tick, ∀ read, t.phase = .published read → s.dailyMetrics t.day = some read
  covered : ∀ repId date, Covered dir s (dir.repDay repId date)

variable {dir s}

theorem RollupWf.nothingLost (h : RollupWf dir s) : NothingLost dir s where
  marked repId date hunavailable hflight hchanged := by
    rcases h.covered repId date with hin | hqueued | hfailed | hsame
    · exact absurd hin hflight
    · exact hqueued
    · exact absurd hfailed hunavailable
    · exact absurd hsame hchanged
  agrees hunmarked hdrained repId date hunavailable := by
    rcases h.covered repId date with ⟨k, -, hk, -⟩ | hqueued | hfailed | hsome | hnone
    · rw [hunmarked] at hk
      cases hk
    · rw [hdrained] at hqueued
      cases hqueued
    · exact absurd hfailed hunavailable
    · exact .inl (by rw [hsome]; rfl)
    · exact .inr hnone

theorem rollupWf_empty (dir : Directory) : RollupWf dir .empty where
  numbered := Numbered.nil
  marksItsDay _ hk := absurd hk not_mem_nil
  queued := nodup_nil
  claimed _ ht := absurd ht (not_mem_none _)
  published _ ht := absurd ht (not_mem_none _)
  covered _ _ := .inr (.inr (.inr (.inr ⟨rfl, rfl⟩)))

def KeepsPlace (f : Knock → Knock) : Prop :=
  ∀ k, (f k).id = k.id ∧ (f k).tenantId = k.tenantId ∧ (f k).repId = k.repId ∧
    (f k).knockedAtMs = k.knockedAtMs

variable {f : Knock → Knock} {k : Knock} {day : RepDay} {l : List Knock} {t : Tick}

theorem KeepsPlace.holds_iff (hf : KeepsPlace f) (day : RepDay) (k : Knock) :
    dir.Holds day (f k) ↔ dir.Holds day k := by
  obtain ⟨-, -, hrep, hms⟩ := hf k
  unfold Directory.Holds
  rw [hrep, hms]

theorem KeepsPlace.marksItsDay (hf : KeepsPlace f)
    (h : dir.MarksItsDay k) : dir.MarksItsDay (f k) := by
  obtain ⟨-, htenant, hrep, hms⟩ := hf k
  unfold Directory.MarksItsDay at *
  intro date hholds
  rw [hf.holds_iff, hrep] at hholds
  have hmarks := h date hholds
  unfold Directory.markedDay at *
  rw [htenant, hrep, hms]
  exact hmarks

theorem dayRows_updateKnock (hf : KeepsPlace f) {id : Nat}
    (h : ∀ k ∈ l, k.id = id → ¬ dir.Holds day k) :
    dayRows dir day (updateKnock id f l) = dayRows dir day l := by
  unfold dayRows updateKnock
  induction l with
  | nil => rfl
  | cons k l ih =>
    have htail := ih fun k' hk' => h k' (mem_cons_of_mem k hk')
    rw [map_cons]
    by_cases hid : k.id = id
    · have hout := h k mem_cons_self hid
      have hout' : ¬ dir.Holds day (f k) := fun hin => hout ((hf.holds_iff day k).mp hin)
      rw [if_pos hid, filter_cons_of_neg (by simpa using hout'),
        filter_cons_of_neg (by simpa using hout), htail]
    · rw [if_neg hid]
      by_cases hin : dir.Holds day k
      · rw [filter_cons_of_pos (by simpa using hin),
          filter_cons_of_pos (by simpa using hin), htail]
      · rw [filter_cons_of_neg (by simpa using hin),
          filter_cons_of_neg (by simpa using hin), htail]

/-- A day whose rows, mark and summary stay is still covered, when what is in flight stays. -/
theorem Covered.congr {s' : RollupState} (h : Covered dir s day)
    (hflight : InFlight dir s day → InFlight dir s' day)
    (hqueue : day ∈ s.dirtyDays → day ∈ s'.dirtyDays)
    (hfailed : day ∈ s.unavailable → day ∈ s'.unavailable)
    (hdaily : s'.dailyMetrics day = s.dailyMetrics day)
    (hrows : dayRows dir day s'.knockLog = dayRows dir day s.knockLog) : Covered dir s' day := by
  rcases h with hin | hqueued | hun | hsame
  · exact .inl (hflight hin)
  · exact .inr (.inl (hqueue hqueued))
  · exact .inr (.inr (.inl (hfailed hun)))
  · refine .inr (.inr (.inr ?_))
    unfold Unchanged readNow at *
    rw [hdaily, hrows]
    exact hsame

theorem inFlight_updateKnock (hf : KeepsPlace f) {id : Nat} (h : InFlight dir s day) :
    InFlight dir { s with knockLog := updateKnock id f s.knockLog } day := by
  obtain ⟨k, hk, hunmarked, hholds⟩ := h
  refine ⟨if k.id = id then f k else k, mem_map_of_mem hk, ?_, ?_⟩
  · split
    · rw [(hf k).1]
      exact hunmarked
    · exact hunmarked
  · split
    · exact (hf.holds_iff day k).mpr hholds
    · exact hholds

theorem RollupWf.updateKnock (h : RollupWf dir s) (hf : KeepsPlace f) {id : Nat}
    (hwatched : ∀ k ∈ s.knockLog, k.id = id → ∀ day, dir.Holds day k →
      dir.markedDay k = some day → day ∈ s.dirtyDays ∨ InFlight dir s day) :
    RollupWf dir { s with knockLog := updateKnock id f s.knockLog } := by
  refine ⟨?_, ?_, h.queued, h.claimed, h.published, fun repId date => ?_⟩
  · apply h.numbered.map
    intro k _
    split
    · exact (hf k).1
    · rfl
  · intro k' hk'
    obtain ⟨k, hk, rfl⟩ := mem_map.mp hk'
    split
    · exact hf.marksItsDay (h.marksItsDay k hk)
    · exact h.marksItsDay k hk
  · by_cases hholds : ∃ k ∈ s.knockLog, k.id = id ∧ dir.Holds (dir.repDay repId date) k
    · obtain ⟨k, hk, hid, hin⟩ := hholds
      have hrep : k.repId = repId := hin.1
      subst hrep
      rcases hwatched k hk hid _ hin (h.marksItsDay k hk date hin) with hqueued | hflight
      · exact .inr (.inl hqueued)
      · exact .inl (inFlight_updateKnock hf hflight)
    · apply (h.covered repId date).congr (inFlight_updateKnock hf) (fun hq => hq) (fun hu => hu) rfl
      apply dayRows_updateKnock hf
      intro k hk hid hin
      exact hholds ⟨k, hk, hid, hin⟩

theorem RollupWf.insertKnock (h : RollupWf dir s) {k : KnockInput}
    (hmarks : dir.MarksItsDay (k.row (s.knockLog.length + 1))) :
    RollupWf dir (step dir s (.insertKnock k)) := by
  refine ⟨h.numbered.snoc rfl, ?_, h.queued, h.claimed, h.published, fun repId date => ?_⟩
  · intro k' hk'
    rcases mem_append.mp hk' with hk' | hk'
    · exact h.marksItsDay k' hk'
    · rw [mem_singleton.mp hk']
      exact hmarks
  · by_cases hin : dir.Holds (dir.repDay repId date) (k.row (s.knockLog.length + 1))
    · left
      exact ⟨_, mem_append_right _ (mem_singleton_self _),
        mem_append_right _ (mem_singleton_self _), hin⟩
    · have hflight : InFlight dir s (dir.repDay repId date) →
          InFlight dir (step dir s (.insertKnock k)) (dir.repDay repId date) := by
        rintro ⟨k', hk', hunmarked, hholds⟩
        exact ⟨k', mem_append_left _ hk', mem_append_left _ hunmarked, hholds⟩
      have hrows : dayRows dir (dir.repDay repId date)
          (s.knockLog ++ [k.row (s.knockLog.length + 1)]) =
            dayRows dir (dir.repDay repId date) s.knockLog := by
        unfold dayRows
        rw [filter_append, filter_cons_of_neg (by simpa using hin), filter_nil,
          append_nil]
      exact (h.covered repId date).congr hflight (fun hq => hq) (fun hu => hu) rfl hrows

theorem RollupWf.attachDwell (h : RollupWf dir s) (knockId : Nat) (dwell : Int) :
    RollupWf dir (step dir s (.attachDwell knockId dwell)) := by
  unfold step
  dsimp only
  by_cases hunmarked : knockId ∈ s.unmarked
  · rw [if_pos hunmarked]
    have hkeeps : KeepsPlace ({ · with dwellSeconds := some dwell }) :=
      fun k => ⟨rfl, rfl, rfl, rfl⟩
    apply h.updateKnock hkeeps
    rintro k hk rfl day hholds -
    exact .inr ⟨k, hk, hunmarked, hholds⟩
  · rw [if_neg hunmarked]
    exact h

theorem updateKnock_eq_self {id : Nat}
    (h : ∀ k ∈ l, k.id = id → f k = k) : RepMetrics.updateKnock id f l = l := by
  unfold RepMetrics.updateKnock
  conv_rhs => rw [← map_id l]
  apply map_congr_left
  intro k hk
  split
  · exact h k hk ‹_›
  · rfl

theorem RollupWf.setSuperseded (h : RollupWf dir s) {knockId : Nat} {superseded : Bool}
    (hcareful : Careful dir s (.setSuperseded knockId superseded)) :
    RollupWf dir (step dir s (.setSuperseded knockId superseded)) := by
  have hfound : ∀ k ∈ s.knockLog, k.id = knockId → s.knockById knockId = some k := by
    rintro k hk rfl
    exact find?_key h.numbered.nodup hk
  by_cases hsame : ∀ k ∈ s.knockLog, k.id = knockId → k.superseded = superseded
  · have hlog : RepMetrics.updateKnock knockId ({ · with superseded := superseded }) s.knockLog =
        s.knockLog := by
      apply updateKnock_eq_self
      intro k hk hid
      rw [← hsame k hk hid]
    unfold step
    dsimp only
    rw [hlog]
    exact h
  · push Not at hsame
    obtain ⟨changed, hchanged, hid, hne⟩ := hsame
    have hkeeps : KeepsPlace ({ · with superseded := superseded }) :=
      fun k => ⟨rfl, rfl, rfl, rfl⟩
    apply h.updateKnock hkeeps
    intro k hk hkid day _ hday
    obtain rfl : changed = k := h.numbered.eq_of_key hchanged hk (hid.trans hkid.symm)
    rcases hcareful changed (hfound changed hk hkid) with heq | hwatched
    · exact absurd heq hne
    · exact hwatched day hday

theorem mem_insertOrIgnore {queue : List RepDay} {other : RepDay} :
    other ∈ insertOrIgnore queue day ↔ other ∈ queue ∨ other = day := by
  unfold insertOrIgnore
  split
  · constructor
    · exact .inl
    · rintro (hmem | rfl)
      · exact hmem
      · assumption
  · simp

theorem nodup_insertOrIgnore {queue : List RepDay} (h : queue.Nodup) (day : RepDay) :
    (insertOrIgnore queue day).Nodup := by
  unfold insertOrIgnore
  split
  · exact h
  · rename_i hnew
    rw [← concat_eq_append]
    exact List.Nodup.concat hnew h

theorem RollupWf.grow (h : RollupWf dir s) {queue : List RepDay} (hnodup : queue.Nodup)
    (hgrow : ∀ day ∈ s.dirtyDays, day ∈ queue) : RollupWf dir { s with dirtyDays := queue } where
  numbered := h.numbered
  marksItsDay := h.marksItsDay
  queued := hnodup
  claimed t ht := ⟨(h.claimed t ht).1, fun day hday => hgrow day ((h.claimed t ht).2 day hday)⟩
  published := h.published
  covered repId date :=
    (h.covered repId date).congr (fun hin => hin) (hgrow _) (fun hu => hu) rfl rfl

theorem foldl_insertOrIgnore (days : List RepDay) {queue : List RepDay} (h : queue.Nodup) :
    (days.foldl insertOrIgnore queue).Nodup ∧
      ∀ day ∈ queue, day ∈ days.foldl insertOrIgnore queue := by
  induction days generalizing queue with
  | nil => exact ⟨h, fun day hday => hday⟩
  | cons d days ih =>
    obtain ⟨hnodup, hsub⟩ := ih (nodup_insertOrIgnore h d)
    exact ⟨hnodup, fun day hday => hsub day (mem_insertOrIgnore.mpr (.inl hday))⟩

theorem RollupWf.unmark (h : RollupWf dir s) (knockId : Nat) {queue : List RepDay}
    (hnodup : queue.Nodup) (hgrow : ∀ day ∈ s.dirtyDays, day ∈ queue)
    (hmarked : ∀ day ∈ (s.knockById knockId).bind dir.markedDay, day ∈ queue) :
    RollupWf dir
      { s with unmarked := s.unmarked.filter (· ≠ knockId), dirtyDays := queue } := by
  have hgrown := h.grow hnodup hgrow
  refine ⟨h.numbered, h.marksItsDay, hnodup, hgrown.claimed, h.published, fun repId date => ?_⟩
  rcases h.covered repId date with ⟨k, hk, hunmarked, hholds⟩ | hqueued | hfailed | hsame
  · by_cases hid : k.id = knockId
    · have hfound : s.knockById knockId = some k := hid ▸ find?_key h.numbered.nodup hk
      have hrep : k.repId = repId := hholds.1
      subst hrep
      have hday := h.marksItsDay k hk date hholds
      exact .inr (.inl (hmarked _ (by rw [hfound]; exact hday)))
    · exact .inl ⟨k, hk, mem_filter.mpr ⟨hunmarked, by simpa using hid⟩, hholds⟩
  · exact .inr (.inl (hgrow _ hqueued))
  · exact .inr (.inr (.inl hfailed))
  · exact .inr (.inr (.inr hsame))

theorem RollupWf.markRepDayDirty (h : RollupWf dir s) (knockId : Nat) :
    RollupWf dir (step dir s (.markRepDayDirty knockId true)) := by
  unfold step RollupState.markRepDayDirty
  dsimp only
  by_cases hunmarked : knockId ∈ s.unmarked
  · rw [if_pos hunmarked]
    cases hday : (s.knockById knockId).bind dir.markedDay with
    | none =>
      apply h.unmark knockId h.queued (fun _ hd => hd)
      rw [hday]
      exact fun day hd => absurd hd (not_mem_none day)
    | some day =>
      apply h.unmark knockId (nodup_insertOrIgnore h.queued day)
      · exact fun d hd => mem_insertOrIgnore.mpr (.inl hd)
      · rw [hday]
        rintro d ⟨⟩
        exact mem_insertOrIgnore.mpr (.inr rfl)
  · rw [if_neg hunmarked]
    exact h

section

variable (h : RollupWf dir s)
include h

theorem RollupWf.setTick {tick : Option Tick}
    (hclaimed : ∀ t ∈ tick, (t.day :: t.rest).Nodup ∧ ∀ day ∈ t.day :: t.rest, day ∈ s.dirtyDays)
    (hpublished : ∀ t ∈ tick, ∀ read, t.phase = .published read →
      s.dailyMetrics t.day = some read) : RollupWf dir { s with tick } where
  numbered := h.numbered
  marksItsDay := h.marksItsDay
  queued := h.queued
  claimed := hclaimed
  published := hpublished
  covered := h.covered

theorem RollupWf.startTick {days : List RepDay} (hnodup : days.Nodup)
    (hqueued : ∀ day ∈ days, day ∈ s.dirtyDays) :
    RollupWf dir { s with tick := Tick.start days } := by
  cases days with
  | nil =>
    apply h.setTick
    · exact fun t ht => absurd ht (not_mem_none t)
    · exact fun t ht => absurd ht (not_mem_none t)
  | cons day rest =>
    apply h.setTick
    · rintro t ⟨⟩
      exact ⟨hnodup, hqueued⟩
    · rintro t ⟨⟩ read hphase
      cases hphase

theorem RollupWf.claimDirtyDays (limit : Nat) :
    RollupWf dir (step dir s (.claimDirtyDays limit)) := by
  unfold step
  dsimp only
  split
  · exact h.startTick (h.queued.sublist (take_sublist limit _))
      fun day hday => mem_of_mem_take hday
  · exact h

theorem RollupWf.setPhase (ht : s.tick = some t) {phase : Phase}
    (hphase : ∀ read, phase = .published read → s.dailyMetrics t.day = some read) :
    RollupWf dir { s with tick := some { t with phase } } := by
  apply h.setTick
  · rintro t' ⟨⟩
    exact h.claimed t ht
  · rintro t' ⟨⟩
    exact hphase

theorem RollupWf.publish (ht : s.tick = some t) (read : DayRead) : RollupWf dir { s with
        dailyMetrics := Function.update s.dailyMetrics t.day (some read)
        unavailable := s.unavailable.filter (· ≠ t.day)
        tick := some { t with phase := .published read } } := by
  have hclaimed := h.claimed t ht
  refine ⟨h.numbered, h.marksItsDay, h.queued, ?_, ?_, fun repId date => ?_⟩
  · rintro t' ⟨⟩
    exact hclaimed
  · rintro t' ⟨⟩ r hr
    obtain rfl : read = r := by injection hr
    exact Function.update_self ..
  · by_cases hday : dir.repDay repId date = t.day
    · rw [hday]
      exact .inr (.inl (hclaimed.2 t.day mem_cons_self))
    · have hstays : dir.repDay repId date ∈ s.unavailable →
          dir.repDay repId date ∈ s.unavailable.filter (· ≠ t.day) :=
        fun hu => mem_filter.mpr ⟨hu, by simpa using hday⟩
      exact (h.covered repId date).congr (fun hin => hin) (fun hq => hq) hstays
        (Function.update_of_ne hday ..) rfl

theorem RollupWf.leaveQueue (ht : s.tick = some t)
    {failed : List RepDay} (hfailed : ∀ day ∈ s.unavailable, day ∈ failed)
    (hcovered : InFlight dir s t.day ∨ t.day ∈ failed ∨ Unchanged dir s t.day) :
    RollupWf dir
      (({ s with unavailable := failed } : RollupState).clearDirtyDay t.day |>.nextDay t) := by
  obtain ⟨hnodup, hqueued⟩ := h.claimed t ht
  obtain ⟨hout, hrest⟩ := nodup_cons.mp hnodup
  have hstays : ∀ day ∈ s.dirtyDays, day ≠ t.day → day ∈ s.dirtyDays.filter (· ≠ t.day) :=
    fun day hday hne => mem_filter.mpr ⟨hday, by simpa using hne⟩
  have hcleared : RollupWf dir
      { s with
        dirtyDays := s.dirtyDays.filter (· ≠ t.day), unavailable := failed, tick := none } := by
    refine ⟨h.numbered, h.marksItsDay, h.queued.filter _, ?_, ?_, fun repId date => ?_⟩
    · exact fun t' ht' => absurd ht' (not_mem_none t')
    · exact fun t' ht' => absurd ht' (not_mem_none t')
    · by_cases hday : dir.repDay repId date = t.day
      · rw [hday]
        rcases hcovered with hin | hfail | hsame
        · exact .inl hin
        · exact .inr (.inr (.inl hfail))
        · exact .inr (.inr (.inr hsame))
      · exact (h.covered repId date).congr (fun hin => hin) (fun hq => hstays _ hq hday)
          (hfailed _) rfl rfl
  apply hcleared.startTick hrest
  intro day hday
  apply hstays day (hqueued day (mem_cons_of_mem _ hday))
  rintro rfl
  exact hout hday

theorem RollupWf.work (ht : s.tick = some t) {w : WorkerStep}
    (hcareful : Careful dir s (.work w)) : RollupWf dir (s.work dir t w) := by
  obtain ⟨hnodup, hqueued⟩ := h.claimed t ht
  cases w with
  | loadDoorEvents =>
    unfold RollupState.work
    dsimp only
    split
    · exact h.setPhase ht (by rintro read ⟨⟩)
    · exact h
  | loadFollowUps =>
    unfold RollupState.work
    dsimp only
    split
    · exact h.setPhase ht (by rintro read ⟨⟩)
    · exact h
  | publish =>
    unfold RollupState.work
    dsimp only
    split
    · exact h.publish ht _
    · exact h
  | clearDirtyDay stored =>
    unfold RollupState.work
    dsimp only
    split
    · rename_i read hphase
      cases stored with
      | false =>
        exact h.startTick (nodup_cons.mp hnodup).2
          fun day hday => hqueued day (mem_cons_of_mem _ hday)
      | true =>
        apply h.leaveQueue ht (fun _ hu => hu)
        rcases hcareful with hstored | hread
        · cases hstored
        · have hpublished : t.publishedRead = some read := by rw [Tick.publishedRead, hphase]
          rcases hread t ht read hpublished with rfl | hin
          · exact .inr (.inr (.inl (h.published t ht _ hphase)))
          · exact .inl hin
    · exact h
  | failDay =>
    have hfail : RollupWf dir
        (({ s with unavailable := t.day :: s.unavailable } : RollupState).clearDirtyDay t.day
          |>.nextDay t) :=
      h.leaveQueue ht (fun _ hu => mem_cons_of_mem _ hu) (.inr (.inl mem_cons_self))
    unfold RollupState.work
    dsimp only
    split
    · exact h
    · exact hfail
  | endTick =>
    apply h.setTick
    · exact fun t' ht' => absurd ht' (not_mem_none t')
    · exact fun t' ht' => absurd ht' (not_mem_none t')

end

theorem RollupWf.step (h : RollupWf dir s) {a : Action} (hcareful : Careful dir s a) :
    RollupWf dir (step dir s a) := by
  cases a with
  | insertKnock k => exact h.insertKnock hcareful
  | attachDwell knockId dwell => exact h.attachDwell knockId dwell
  | markRepDayDirty knockId stored =>
    obtain rfl : stored = true := hcareful
    exact h.markRepDayDirty knockId
  | setSuperseded knockId superseded => exact h.setSuperseded hcareful
  | sweep days =>
    obtain ⟨hnodup, hgrow⟩ := foldl_insertOrIgnore days h.queued
    exact h.grow hnodup hgrow
  | claimDirtyDays limit => exact h.claimDirtyDays limit
  | work w =>
    unfold RepMetrics.step
    cases ht : s.tick with
    | none => exact h
    | some t => exact h.work ht hcareful

theorem nothingLost_run (dir : Directory) {actions : List Action}
    (h : Along (step dir) (Careful dir) .empty actions) :
    NothingLost dir (run (step dir) .empty actions) := by
  have hstep : ∀ s a, RollupWf dir s → Careful dir s a → RollupWf dir (step dir s a) :=
    fun _ _ hwf hcareful => hwf.step hcareful
  exact (run_invariant hstep (rollupWf_empty dir) h).nothingLost

/-- Everyone is of organisation 1, on UTC. -/
def sampleDirectory : Directory where
  home _ := 1
  timezone _ := Zone.utc

/-- A contact at noon UTC of 2026-03-04. -/
def sampleKnock : KnockInput where
  tenantId := some 1
  repId := 3
  leadId := 7
  knockedAtMs := 1772625600000
  outcome := "interested"
  wasHome := true
  verification := some "verified"
  callbackDate := none

def recomputation : List Action :=
  [.claimDirtyDays 1, .work .loadDoorEvents, .work .loadFollowUps, .work .publish,
    .work (.clearDirtyDay true)]

/-- The knock is counted by a tick before its request gets to write that it was superseded. -/
def lateSuperseded : List Action :=
  [.insertKnock sampleKnock, .markRepDayDirty 1 true] ++ recomputation ++ [.setSuperseded 1 true]

theorem not_nothingLost_lateSuperseded :
    ¬ NothingLost sampleDirectory (run (step sampleDirectory) .empty lateSuperseded) := by
  intro h
  have hagrees := h.agrees (by decide +kernel) (by decide +kernel) 3 20516 (by decide +kernel)
  revert hagrees
  decide +kernel

theorem utc_marksItsDay (h : k.tenantId = some 1) : sampleDirectory.MarksItsDay k := by
  intro date hholds
  obtain ⟨-, hstart, hend⟩ := hholds
  have hdate : (k.knockedAtMs + 0) / msPerDay = date := by
    unfold Directory.dayStart sampleDirectory Directory.repDay Zone.zonedWallToUtcMs Zone.utc
      msPerDay at *
    simp at hstart hend
    omega
  unfold Directory.markedDay Directory.repDay sampleDirectory Zone.localYmd Zone.utc
  rw [h, map_some, hdate]

/-- The superseded knock is counted right when its request wins the race. -/
theorem nothingLost_run_superseded : NothingLost sampleDirectory (run (step sampleDirectory) .empty
      ([.insertKnock sampleKnock, .markRepDayDirty 1 true, .setSuperseded 1 true] ++
        recomputation)) := by
  apply nothingLost_run
  refine ⟨utc_marksItsDay rfl, rfl, ?_, trivial, trivial, trivial, trivial, ?_, trivial⟩
  · change ∀ k ∈ RollupState.knockById _ 1, k.superseded = true ∨ ∀ day ∈ _, _
    decide +kernel
  · change true = false ∨ ∀ t ∈ RollupState.tick _, ∀ read ∈ t.publishedRead, _
    decide +kernel

end HomefrontFiber.RepMetrics
