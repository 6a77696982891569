import Mathlib.Data.List.MinMax
import HomefrontFiber.ComingLedger.Backfill

/-!
# Replays that are safe

A replay of an undated promise is a function of the row that settles after one application; a replay
of a date that has passed counts once more. So a second run changes a row exactly when some replayed
body states a date that can still pass.
-/

namespace HomefrontFiber.ComingLedger

open List

theorem contains_signals (p : ScanResult) (s : Signal) :
    (readFutureService p).signals.contains s =
      (signalTable p).any fun e => e.2.1 && decide (e.1 = s) := by
  unfold readFutureService
  simp only [contains_eq_any_beq, any_map, any_filter]
  congr 1
  funext e
  simp only [Function.comp_apply]
  by_cases hs : e.1 = s
  · simp [hs]
  · simp [hs, Ne.symm hs]

theorem isNowActive_read (b : StoredBody) (nowMs : Int) :
    (b.read nowMs).isNowActive = b.nowActive := by
  have hsignal : (b.read nowMs).isNowActive = (b.read nowMs).signals.contains .nowActive := rfl
  rw [hsignal, StoredBody.read, contains_signals]
  simp [signalTable, StoredBody.nowActive, StoredBody.answer]
  rfl

variable {b : StoredBody} {nowMs laterMs tenantId : Int} {w : World} {replays : List Replay}

theorem isFuture_of_nowActive (h : b.nowActive = true) : (b.read nowMs).isFuture = false := by
  have hfuture : (b.read nowMs).isFuture =
      (!(b.read nowMs).isNowActive && (b.read nowMs).signals.any Signal.promises) := rfl
  rw [hfuture, isNowActive_read, h]
  rfl

theorem isFuture_of_found (h : b.nowActive = false)
    (hfound : (findProviderDate nowMs b.dates).isSome = true) : (b.read nowMs).isFuture = true := by
  have hfuture : (b.read nowMs).isFuture =
      (!(b.read nowMs).isNowActive && (b.read nowMs).signals.any Signal.promises) := rfl
  have hsignal : (b.read nowMs).signals.contains .providerDate = true := by
    rw [StoredBody.read, contains_signals]
    simp [signalTable, StoredBody.answer, hfound]
  rw [hfuture, isNowActive_read, h, Bool.not_false, Bool.true_and, any_eq_true]
  exact ⟨.providerDate, contains_iff_mem.mp hsignal, rfl⟩

theorem answer_eq_of_old (hlater : nowMs ≤ laterMs)
    (hold : ∀ d ∈ b.dates, d.ms < nowMs - 5 * yearMs) :
    b.answer laterMs = b.answer nowMs ∧ (b.answer nowMs).found = none := by
  have hout : ∀ t, nowMs ≤ t → ∀ d ∈ b.dates, inDateWindow t d.ms = false := by
    intro t ht d hd
    have hms := hold d hd
    simp only [inDateWindow, Bool.and_eq_false_iff, decide_eq_false_iff_not]
    left
    omega
  have hfound : ∀ t, nowMs ≤ t → findProviderDate t b.dates = none := by
    intro t ht
    rw [findProviderDate, Option.map_eq_none_iff, find?_eq_none]
    intro d hd
    simp [hout t ht d hd]
  have hcompletion : ∀ t, nowMs ≤ t → b.completionMs.any (inDateWindow t) = false := by
    intro t ht
    cases hms : b.completionMs with
    | none => rfl
    | some ms =>
      obtain ⟨d, hd, heq⟩ := mem_map.mp (b.completion_listed ms hms)
      rw [Option.any_some, ← heq]
      exact hout t ht d hd
  constructor
  · simp only [StoredBody.answer, hfound laterMs hlater, hfound nowMs le_rfl,
      hcompletion laterMs hlater, hcompletion nowMs le_rfl]
  · exact hfound nowMs le_rfl

/-- At the instant of its latest date, or of the run if that is later, a body that states a date
inside the window states one that has passed. -/
theorem exists_due {d : StatedDate} (hd : d ∈ b.dates) (hms : nowMs - 5 * yearMs ≤ d.ms) :
    ∃ laterMs, nowMs ≤ laterMs ∧ (findProviderDate laterMs b.dates).isSome = true ∧
      isOverdue (b.read laterMs) laterMs = true := by
  obtain ⟨last, hargmax⟩ : ∃ last, last ∈ b.dates.argmax StatedDate.ms := by
    apply Option.isSome_iff_exists.mp
    rw [Option.isSome_iff_ne_none, Ne, argmax_eq_none]
    exact ne_nil_of_mem hd
  have hlast : last ∈ b.dates := argmax_mem hargmax
  have hmax : ∀ d' ∈ b.dates, d'.ms ≤ last.ms := fun d' hd' => le_of_mem_argmax hd' hargmax
  have hyear : yearMs = 31536000000 := rfl
  have hday : dayMs = 86400000 := rfl
  have hsome : (findProviderDate (max nowMs last.ms) b.dates).isSome = true := by
    rw [findProviderDate, Option.isSome_map, find?_isSome]
    by_cases hpast : last.ms ≤ nowMs
    · refine ⟨d, hd, ?_⟩
      have hle := hmax d hd
      simp only [inDateWindow, Bool.and_eq_true, decide_eq_true_eq]
      omega
    · refine ⟨last, hlast, ?_⟩
      simp only [inDateWindow, Bool.and_eq_true, decide_eq_true_eq]
      omega
  refine ⟨max nowMs last.ms, le_max_left _ _, hsome, ?_⟩
  obtain ⟨hit, hhit⟩ := Option.isSome_iff_exists.mp hsome
  have hdate : (b.read (max nowMs last.ms)).promisedDate = some hit.date := by
    have hfound : (b.read (max nowMs last.ms)).promisedDate =
        (findProviderDate (max nowMs last.ms) b.dates).map (·.date) := rfl
    rw [hfound, hhit]
    rfl
  rw [findProviderDate, Option.map_eq_some_iff] at hhit
  obtain ⟨d', hd', rfl⟩ := hhit
  have hle := hmax d' (mem_of_find?_eq_some hd')
  have hfloor : d'.ms / dayMs * dayMs ≤ d'.ms := Int.ediv_mul_le _ (by decide)
  rw [isOverdue, hdate]
  simp only [Option.any_some, decide_eq_true_eq]
  omega

section Ledger

variable {cfg : LedgerConfig} {earth : Earth} {flip : FlipConfig}

/-- How far a door has got: nothing on record, or a row with its count. -/
def counted (row : Option WatchRow) : Nat := row.elim 0 (·.overdueChecks + 1)

theorem counted_recordedRow (cfg : LedgerConfig) (c : Recording) (read : FutureServiceRead)
    (row : Option WatchRow) : counted row ≤ counted (recordedRow cfg c read row) := by
  unfold recordedRow
  cases row with
  | none => exact Nat.zero_le _
  | some r =>
    split
    · split
      · simp [counted, writtenOffRow, overdueChecksOf]
      · simp [counted, refreshedRow, overdueChecksOf]
    · simp only [counted, Option.map_some, Option.elim_some]
      split <;> exact le_rfl

theorem counted_lt_of_due {c : Recording} {read : FutureServiceRead} (hfuture : read.isFuture = true)
    (hdue : isOverdue read c.nowMs = true) (row : Option WatchRow) :
    counted row < counted (recordedRow cfg c read row) := by
  unfold recordedRow
  rw [if_pos hfuture]
  cases row with
  | none =>
    have hgrace := cfg.overdueGraceChecks_pos
    have hkeep : writesOff cfg c read none = false := by
      simp only [writesOff, hdue, overdueChecksOf, Option.map_none, Option.getD_none, if_true,
        Bool.true_and, decide_eq_false_iff_not]
      omega
    rw [hkeep]
    simp [counted]
  | some r =>
    split
    · simp [counted, writtenOffRow, overdueChecksOf, hdue]
    · simp [counted, refreshedRow, overdueChecksOf, hdue]

def replayRow (cfg : LedgerConfig) (tenantId nowMs : Int) (replays : List Replay)
    (row : Option WatchRow) : Option WatchRow :=
  replays.foldl
    (fun row r => recordedRow cfg (r.recording tenantId nowMs) (r.body.read nowMs) row) row

theorem watchOf_replayOne {e : Evidence} {acc : Backfilled}
    (h : ∀ id, ∀ r ∈ watchOf acc.world.watches id, r.tenantId = e.tenantId) (r : Replay) (id : Int) :
    watchOf (replayOne cfg earth flip e nowMs acc r).world.watches id =
      replayRow cfg e.tenantId nowMs ([r].filter (·.door.id = id))
        (watchOf acc.world.watches id) := by
  by_cases hid : r.door.id = id
  · have hrow := watchOf_recordFutureService cfg earth flip (r.recording e.tenantId nowMs)
      (r.body.read nowMs) (w := acc.world) (h r.door.id)
    subst hid
    rw [filter_cons_of_pos (by simp)]
    exact hrow
  · rw [filter_cons_of_neg (by simpa using hid)]
    exact watchOf_recordFutureService_of_ne cfg earth flip (r.recording e.tenantId nowMs)
      (r.body.read nowMs) (Ne.symm hid) (by simp [Replay.recording])

theorem replayRow_append (tenantId nowMs : Int) (as bs : List Replay) (row : Option WatchRow) :
    replayRow cfg tenantId nowMs (as ++ bs) row =
      replayRow cfg tenantId nowMs bs (replayRow cfg tenantId nowMs as row) := foldl_append

theorem owned_replayRow {row : Option WatchRow} (replays : List Replay)
    (h : ∀ r ∈ row, r.tenantId = tenantId) :
    ∀ r ∈ replayRow cfg tenantId nowMs replays row, r.tenantId = tenantId := by
  induction replays generalizing row with
  | nil => exact h
  | cons r replays ih =>
    apply ih
    exact recordedRow_tenantId cfg (r.recording tenantId nowMs) (r.body.read nowMs) h

theorem foldl_replayOne (e : Evidence) (nowMs : Int) (replays : List Replay) (acc : Backfilled)
    (h : ∀ id, ∀ r ∈ watchOf acc.world.watches id, r.tenantId = e.tenantId) (id : Int) :
    watchOf (replays.foldl (replayOne cfg earth flip e nowMs) acc).world.watches id =
      replayRow cfg e.tenantId nowMs (replays.filter (·.door.id = id))
        (watchOf acc.world.watches id) := by
  induction replays generalizing acc with
  | nil => rfl
  | cons r replays ih =>
    have howned : ∀ id, ∀ r' ∈ watchOf (replayOne cfg earth flip e nowMs acc r).world.watches id,
        r'.tenantId = e.tenantId := by
      intro id
      rw [watchOf_replayOne h]
      exact owned_replayRow _ (h id)
    have hsplit : (r :: replays).filter (·.door.id = id) =
        [r].filter (·.door.id = id) ++ replays.filter (·.door.id = id) :=
      filter_append [r] replays
    rw [foldl_cons, ih _ howned, watchOf_replayOne h, hsplit, replayRow_append]

theorem watchOf_backfill (e : Evidence) (nowMs : Int) {w : World}
    (h : ∀ id, ∀ r ∈ watchOf w.watches id, r.tenantId = e.tenantId) (id : Int) :
    watchOf (backfillFromStoredEvidence cfg earth flip e nowMs w).world.watches id =
      replayRow cfg e.tenantId nowMs (e.replaysOf id) (watchOf w.watches id) :=
  foldl_replayOne e nowMs e.replays { world := w, scanned := 0, recorded := 0, dated := 0 } h id

theorem owned_backfill (e : Evidence) (nowMs : Int)
    (h : ∀ id, ∀ r ∈ watchOf w.watches id, r.tenantId = e.tenantId) :
    ∀ id, ∀ r ∈ watchOf (backfillFromStoredEvidence cfg earth flip e nowMs w).world.watches id,
      r.tenantId = e.tenantId := by
  intro id
  rw [watchOf_backfill e nowMs h]
  exact owned_replayRow _ (h id)

theorem counted_replayRow (cfg : LedgerConfig) (tenantId nowMs : Int) (replays : List Replay)
    (row : Option WatchRow) : counted row ≤ counted (replayRow cfg tenantId nowMs replays row) := by
  induction replays generalizing row with
  | nil => exact le_rfl
  | cons r replays ih => exact (counted_recordedRow cfg _ _ row).trans (ih _)

theorem counted_lt_replayRow {tenantId nowMs : Int} {replays : List Replay} {r : Replay}
    (hr : r ∈ replays) (hfuture : (r.body.read nowMs).isFuture = true)
    (hdue : isOverdue (r.body.read nowMs) nowMs = true) (row : Option WatchRow) :
    counted row < counted (replayRow cfg tenantId nowMs replays row) := by
  obtain ⟨before, after, rfl⟩ := append_of_mem hr
  have hbefore := counted_replayRow cfg tenantId nowMs before row
  have hcount := @counted_lt_of_due cfg (r.recording tenantId nowMs) _ hfuture hdue
    (replayRow cfg tenantId nowMs before row)
  have hafter := counted_replayRow cfg tenantId nowMs after
    (recordedRow cfg (r.recording tenantId nowMs) (r.body.read nowMs)
      (replayRow cfg tenantId nowMs before row))
  have hsplit : replayRow cfg tenantId nowMs (before ++ r :: after) row =
      replayRow cfg tenantId nowMs after
        (recordedRow cfg (r.recording tenantId nowMs) (r.body.read nowMs)
          (replayRow cfg tenantId nowMs before row)) := by
    rw [replayRow_append]
    rfl
  rw [hsplit]
  omega

/-- A promise without a date opens the row, any other answer closes it if it is open. -/
def replayKept (promise : Bool) (closing : WatchStatus) (observedMs : Int) (k : Option Kept) :
    Option Kept :=
  if promise then
    some (k.elim { status := .active, promisedDate := none, firstSeenAt := observedMs, overdueChecks := 0 }
      fun k => { k with status := .active, firstSeenAt := min k.firstSeenAt observedMs })
  else k.map fun k => if k.status = .active then { k with status := closing } else k

theorem kept_recordedRow {c : Recording} {read : FutureServiceRead}
    (hdate : read.isFuture = true → read.promisedDate = none) (row : Option WatchRow) :
    (recordedRow cfg c read row).map (·.kept) =
      replayKept read.isFuture (closingStatus c read) c.observedMs (row.map (·.kept)) := by
  unfold recordedRow replayKept
  cases hfuture : read.isFuture with
  | false =>
    cases row with
    | none => rfl
    | some r => by_cases hactive : r.status = .active <;> simp [WatchRow.kept, hactive]
  | true =>
    have hnone := hdate hfuture
    have hfresh : isOverdue read c.nowMs = false := by simp [isOverdue, hnone]
    cases row with
    | none =>
      simp [writesOff, hfresh, WatchRow.kept, promisedRow, hnone, firstSeenOf, overdueChecksOf]
    | some r =>
      simp [writesOff, hfresh, WatchRow.kept, refreshedRow, hnone, firstSeenOf, overdueChecksOf]

end Ledger

section Twice

/-- The status with which a body without a promise closes a row. -/
def Replay.closing (r : Replay) : WatchStatus := if r.body.nowActive then .nowActive else .closed

variable (promises : Replay → Bool)

def replayAll (nowMs : Int) (replays : List Replay) (k : Option Kept) : Option Kept :=
  replays.foldl (fun k r => replayKept (promises r) r.closing (r.checkedAt.getD nowMs) k) k

def replayStatus (replays : List Replay) (s : Option WatchStatus) : Option WatchStatus :=
  replays.foldl (fun s r => if promises r then some .active
    else s.map fun s => if s = .active then r.closing else s) s

theorem closing_ne (r : Replay) : r.closing ≠ .active := by
  unfold Replay.closing
  split <;> decide

theorem status_replayAll (nowMs : Int) (replays : List Replay) (k : Option Kept) :
    (replayAll promises nowMs replays k).map (·.status) =
      replayStatus promises replays (k.map (·.status)) := by
  induction replays generalizing k with
  | nil => rfl
  | cons r replays ih =>
    rw [replayAll, foldl_cons, replayStatus, foldl_cons]
    have hstep : (replayKept (promises r) r.closing (r.checkedAt.getD nowMs) k).map (·.status) =
        if promises r then some .active
        else (k.map (·.status)).map fun s => if s = .active then r.closing else s := by
      unfold replayKept
      split
      · cases k <;> rfl
      · cases k with
        | none => rfl
        | some k => by_cases hactive : k.status = .active <;> simp [hactive]
    rw [← hstep]
    exact ih _

theorem replayStatus_cases (replays : List Replay) :
    (∀ s s', replayStatus promises replays s = replayStatus promises replays s') ∨
      ∀ s, s ≠ some .active → replayStatus promises replays s = s := by
  induction replays with
  | nil => exact Or.inr fun s _ => rfl
  | cons r replays ih =>
    rcases ih with hconst | hidle
    · left
      intro s s'
      exact hconst _ _
    · cases hr : promises r with
      | true =>
        left
        intro s s'
        simp [replayStatus, hr]
      | false =>
        right
        intro s hs
        have hstep : (s.map fun s => if s = .active then r.closing else s) = s := by
          cases s with
          | none => rfl
          | some s =>
            have hne : s ≠ .active := fun h => hs (congrArg some h)
            simp [hne]
        have hrest := hidle s hs
        rw [replayStatus, foldl_cons, hr]
        simp only [Bool.false_eq_true, if_false]
        rw [hstep]
        exact hrest

theorem replayStatus_append (as bs : List Replay) (s : Option WatchStatus) :
    replayStatus promises (as ++ bs) s =
      replayStatus promises bs (replayStatus promises as s) := foldl_append

theorem replayStatus_snoc (replays : List Replay) (r : Replay) (s : Option WatchStatus) :
    replayStatus promises (replays ++ [r]) s = some .active ↔ promises r = true := by
  have hstep : ∀ s', replayStatus promises [r] s' = some .active ↔ promises r = true := by
    intro s'
    rw [replayStatus, foldl_cons, foldl_nil]
    cases promises r with
    | true => simp
    | false =>
      have hclosing := closing_ne r
      cases s' with
      | none => simp
      | some s' => by_cases hactive : s' = .active <;> simp [hactive, hclosing]
  rw [replayStatus_append]
  exact hstep _

theorem replayStatus_twice (replays : List Replay) (s : Option WatchStatus) :
    replayStatus promises replays (replayStatus promises replays s) =
      replayStatus promises replays s := by
  rcases replayStatus_cases promises replays with hconst | hidle
  · exact hconst _ _
  · cases hlast : replays.getLast? with
    | none =>
      rw [getLast?_eq_none_iff] at hlast
      rw [hlast]
      rfl
    | some r =>
      by_cases hopen : replayStatus promises replays s = some .active
      · obtain ⟨init, rfl⟩ := getLast?_eq_some_iff.mp hlast
        rw [hopen]
        exact (replayStatus_snoc promises init r _).mpr
          ((replayStatus_snoc promises init r s).mp hopen)
      · exact hidle _ hopen

def Kept.rest (k : Kept) : Option Int × Int × Nat := (k.promisedDate, k.firstSeenAt, k.overdueChecks)

/-- The row has been seen no later than every promise of the list. -/
def Seen (nowMs : Int) (replays : List Replay) (k : Option Kept) : Prop :=
  ∀ r ∈ replays, promises r = true → k.any (·.firstSeenAt ≤ r.checkedAt.getD nowMs) = true

theorem any_replayKept {promise : Bool} {closing : WatchStatus} {observedMs ms : Int} {k : Option Kept}
    (h : k.any (·.firstSeenAt ≤ ms) = true) :
    (replayKept promise closing observedMs k).any (·.firstSeenAt ≤ ms) = true := by
  cases k with
  | none => cases h
  | some k =>
    unfold replayKept
    simp only [Option.any_some, decide_eq_true_eq] at h
    split
    · simp [h]
    · simp only [Option.map_some, Option.any_some, decide_eq_true_eq]
      split <;> exact h

theorem any_replayAll {ms : Int} (replays : List Replay) {k : Option Kept}
    (h : k.any (·.firstSeenAt ≤ ms) = true) :
    (replayAll promises nowMs replays k).any (·.firstSeenAt ≤ ms) = true := by
  induction replays generalizing k with
  | nil => exact h
  | cons r replays ih => exact ih (any_replayKept h)

theorem seen_replayAll (nowMs : Int) (replays : List Replay) (k : Option Kept) :
    Seen promises nowMs replays (replayAll promises nowMs replays k) := by
  intro r hr hpromise
  obtain ⟨before, after, rfl⟩ := append_of_mem hr
  have hstep : (replayKept true r.closing (r.checkedAt.getD nowMs)
      (replayAll promises nowMs before k)).any (·.firstSeenAt ≤ r.checkedAt.getD nowMs) = true := by
    cases replayAll promises nowMs before k <;> simp [replayKept]
  have hsplit : replayAll promises nowMs (before ++ r :: after) k =
      replayAll promises nowMs after (replayKept true r.closing (r.checkedAt.getD nowMs)
        (replayAll promises nowMs before k)) := by
    rw [replayAll, foldl_append, foldl_cons, hpromise]
    rfl
  rw [hsplit]
  exact any_replayAll promises after hstep

theorem rest_replayAll {k : Option Kept} (h : Seen promises nowMs replays k) :
    (replayAll promises nowMs replays k).map (·.rest) = k.map (·.rest) := by
  induction replays generalizing k with
  | nil => rfl
  | cons r replays ih =>
    have hstep : (replayKept (promises r) r.closing (r.checkedAt.getD nowMs) k).map (·.rest) =
        k.map (·.rest) := by
      unfold replayKept
      split
      · rename_i hpromise
        have hseen := h r mem_cons_self hpromise
        cases k with
        | none => cases hseen
        | some k =>
          simp only [Option.any_some, decide_eq_true_eq] at hseen
          simp [Kept.rest, min_eq_left hseen]
      · cases k with
        | none => rfl
        | some k => by_cases hactive : k.status = .active <;> simp [hactive, Kept.rest]
    rw [← hstep]
    apply ih
    intro r' hr' hpromise
    exact any_replayKept (h r' (mem_cons_of_mem r hr') hpromise)

theorem kept_ext {k k' : Option Kept} (hstatus : k.map (·.status) = k'.map (·.status))
    (hrest : k.map (·.rest) = k'.map (·.rest)) : k = k' := by
  cases k with
  | none =>
    cases k' with
    | none => rfl
    | some k' => cases hstatus
  | some k =>
    cases k' with
    | none => cases hstatus
    | some k' =>
      cases k
      cases k'
      simp only [Option.map_some, Option.some.injEq, Kept.rest, Prod.mk.injEq] at hstatus hrest
      obtain ⟨hdate, hseen, hcount⟩ := hrest
      subst hstatus hdate hseen hcount
      rfl

theorem replayAll_twice (hlater : nowMs ≤ laterMs) (replays : List Replay) (k : Option Kept) :
    replayAll promises laterMs replays (replayAll promises nowMs replays k) =
      replayAll promises nowMs replays k := by
  apply kept_ext
  · rw [status_replayAll, status_replayAll, replayStatus_twice]
  · apply rest_replayAll
    intro r hr hpromise
    have hseen := seen_replayAll promises nowMs replays k r hr hpromise
    obtain ⟨k', hk', hle⟩ := (Option.any_eq_true _ _).mp hseen
    rw [hk', Option.any_some]
    simp only [decide_eq_true_eq] at hle ⊢
    apply hle.trans
    cases r.checkedAt with
    | none => exact hlater
    | some ms => exact le_rfl

end Twice

section Backfill

variable (cfg : LedgerConfig) (earth : Earth) (flip : FlipConfig) (e : Evidence)

/-- The body states no date that can still pass, or none that matters. -/
def Undated (nowMs : Int) (r : Replay) : Prop :=
  r.body.nowActive = false → ∀ d ∈ r.body.dates, d.ms < nowMs - 5 * yearMs

theorem read_of_undated {r : Replay} (h : Undated nowMs r) (hlater : nowMs ≤ laterMs) :
    (r.body.read laterMs).isFuture = (r.body.read nowMs).isFuture ∧
      ((r.body.read laterMs).isFuture = true → (r.body.read laterMs).promisedDate = none) := by
  cases hactive : r.body.nowActive with
  | true =>
    rw [isFuture_of_nowActive hactive, isFuture_of_nowActive hactive]
    exact ⟨rfl, fun hfalse => by cases hfalse⟩
  | false =>
    obtain ⟨heq, hnone⟩ := answer_eq_of_old hlater (h hactive)
    have hread : r.body.read laterMs = r.body.read nowMs := congrArg readFutureService heq
    rw [hread]
    refine ⟨rfl, fun _ => ?_⟩
    have hdate : (r.body.read nowMs).promisedDate = (r.body.answer nowMs).found.map (·.date) := rfl
    rw [hdate, hnone]
    rfl

theorem closingStatus_replay (r : Replay) (tenantId nowMs : Int) :
    closingStatus (r.recording tenantId nowMs) (r.body.read nowMs) = r.closing := by
  unfold closingStatus Replay.closing
  rw [isNowActive_read]
  rfl

theorem kept_replayRow (hlater : nowMs ≤ laterMs)
    (h : ∀ r ∈ replays, Undated nowMs r) (row : Option WatchRow) :
    (replayRow cfg tenantId laterMs replays row).map (·.kept) =
      replayAll (fun r => (r.body.read nowMs).isFuture) laterMs replays (row.map (·.kept)) := by
  induction replays generalizing row with
  | nil => rfl
  | cons r replays ih =>
    obtain ⟨hsame, hdate⟩ := read_of_undated (h r mem_cons_self) hlater
    have hstep := @kept_recordedRow cfg (r.recording tenantId laterMs) _ hdate row
    rw [hsame, closingStatus_replay] at hstep
    have hrest := ih (fun r' hr' => h r' (mem_cons_of_mem r hr'))
      (recordedRow cfg (r.recording tenantId laterMs) (r.body.read laterMs) row)
    rw [hstep] at hrest
    exact hrest

theorem keptOf_backfill (howned : ∀ id, ∀ r ∈ watchOf w.watches id, r.tenantId = e.tenantId)
    (hlater : nowMs ≤ laterMs) (h : ∀ r ∈ e.replays, Undated nowMs r) (id : Int) :
    keptOf (backfillFromStoredEvidence cfg earth flip e laterMs w).world id =
      replayAll (fun r => (r.body.read nowMs).isFuture) laterMs (e.replaysOf id) (keptOf w id) := by
  rw [keptOf, watchOf_backfill e laterMs howned]
  apply kept_replayRow cfg hlater
  intro r hr
  exact h r (mem_of_mem_filter hr)

theorem isOpen_iff (k : Option Kept) : isOpen k = true ↔ k.map (·.status) = some .active := by
  cases k <;> simp [isOpen]

theorem isOpen_replayAll (nowMs : Int) (replays : List Replay) (k : Option Kept) :
    isOpen (replayAll (fun r => (r.body.read nowMs).isFuture) nowMs replays k) =
      match replays.getLast? with
      | none => isOpen k
      | some r => (r.body.read nowMs).isFuture := by
  cases hlast : replays.getLast? with
  | none =>
    rw [getLast?_eq_none_iff] at hlast
    rw [hlast]
    rfl
  | some r =>
    obtain ⟨init, rfl⟩ := getLast?_eq_some_iff.mp hlast
    rw [Bool.eq_iff_iff, isOpen_iff, status_replayAll]
    exact replayStatus_snoc (fun r => (r.body.read nowMs).isFuture) init r (k.map (·.status))

theorem undated_of_idempotent (howned : ∀ id, ∀ r ∈ watchOf w.watches id, r.tenantId = e.tenantId)
    (h : Idempotent cfg earth flip e nowMs w) : ∀ r ∈ e.replays, Undated nowMs r := by
  intro r hr hactive d hd
  by_contra hms
  obtain ⟨laterMs, hlater, hfound, hdue⟩ := exists_due hd (Int.not_lt.mp hms)
  have hfuture := isFuture_of_found hactive hfound
  have hsame := h laterMs hlater r.door.id
  have hmem : r ∈ e.replaysOf r.door.id := mem_filter.mpr ⟨hr, by simp⟩
  have hcount := @counted_lt_replayRow cfg e.tenantId laterMs _ _ hmem hfuture hdue
    (watchOf (backfillFromStoredEvidence cfg earth flip e nowMs w).world.watches r.door.id)
  rw [← @watchOf_backfill cfg earth flip e laterMs _
    (owned_backfill e nowMs howned)] at hcount
  have hkept : ∀ row : Option WatchRow,
      counted row = (row.map (·.kept)).elim 0 (·.overdueChecks + 1) := by
    intro row
    cases row <;> rfl
  rw [hkept, hkept] at hcount
  unfold keptOf at hsame
  rw [hsame] at hcount
  exact lt_irrefl _ hcount

/-- The backfill replays safely exactly when no replayed body states a date that can still pass, and
no door's last replay promises what its newest body does not. -/
theorem replaysSafely_iff (ledger : TenantLedger e.tenantId) (nowMs : Int) :
    ReplaysSafely cfg earth flip e nowMs ledger.world ↔ Harmless e nowMs ledger.world := by
  have hkept := fun h id => keptOf_backfill cfg earth flip e (w := ledger.world) ledger.owned
    (le_refl nowMs) h id
  constructor
  · rintro ⟨hidem, hyields⟩
    have hundated := undated_of_idempotent cfg earth flip e ledger.owned hidem
    refine ⟨hundated, fun id hsettled hclosed => ?_⟩
    have hopen := hyields id hsettled
    rw [hkept hundated id, isOpen_replayAll, hclosed] at hopen
    cases hlast : (e.replaysOf id).getLast? with
    | none => rfl
    | some r =>
      rw [hlast] at hopen
      cases hfuture : (r.body.read nowMs).isFuture with
      | false => simp [hfuture]
      | true => cases hopen hfuture
  · rintro ⟨hundated, hrecent⟩
    constructor
    · intro laterMs hlater id
      rw [keptOf_backfill cfg earth flip e (owned_backfill e nowMs ledger.owned) hlater hundated,
        hkept hundated id]
      exact replayAll_twice _ hlater _ _
    · intro id hsettled hopen
      rw [hkept hundated id, isOpen_replayAll] at hopen
      by_contra hclosed
      have hlast := hrecent id hsettled (Bool.eq_false_iff.mpr hclosed)
      cases hreplay : (e.replaysOf id).getLast? with
      | none =>
        rw [hreplay] at hopen
        exact hclosed hopen
      | some r =>
        rw [hreplay] at hopen hlast
        have hfuture : (r.body.read nowMs).isFuture = true := hopen
        simp [hfuture] at hlast

end Backfill

/-! A door on Oak Ln that promised fiber in July and answered NEW FIBER in August. The August body has
no field of the text filter, so that the July body is the latest one replayed. -/

def oakLn : TargetAddress where
  id := 1
  tenantId := 1
  address := "12 Oak Ln".toList
  city := "Monroe".toList
  state := "NC".toList
  source := none

def julyResult : Text :=
  "\x7b\"address\":\x7b\"addressLine1\":\"12 OAK LN\"\x7d,\"broadbandService\":\x7b\"futureQual\":\"FutureQual\"\x7d\x7d".toList

def augustResult : Text :=
  "\x7b\"address\":\x7b\"addressLine1\":\"12 OAK LN\",\"householdSegmentType\":\"NEW FIBER\"\x7d\x7d".toList

def oakLnBody (segment : Option Text) (futureQual : Bool) : StoredBody where
  addressLine1 := "12 OAK LN".toList
  city := []
  stateProvinceCd := none
  householdSegmentType := segment
  billingStatus := none
  futureEligible := false
  buildOutStatus := none
  hasExistingService := false
  pendingOrder := false
  futureQual := futureQual
  futureTechnology := none
  completionText := none
  completionMs := none
  dates := []
  completion_listed := by simp

def oakLnCheck (result checkedAt : Text) : StoredCheck where
  tenantId := 1
  address := "12 Oak Ln, Monroe, NC 28110".toList
  result := result
  checkedAt := checkedAt

def oakLnEvidence : Evidence where
  parsers :=
    { parseSqlMs := fun _ => some 1784365200000
      parseBody := fun t =>
        if t = julyResult then some (oakLnBody none true)
        else if t = augustResult then some (oakLnBody (some "NEW FIBER".toList) false)
        else none }
  targets := [oakLn]
  checks :=
    [oakLnCheck julyResult "2026-07-18T09:00:00.000Z".toList,
      oakLnCheck augustResult "2026-08-20T09:00:00.000Z".toList]
  tenantId := 1
  limit := 5000

/-- The newest body is live without a promise, and the replay opens one. -/
theorem not_replaysSafely_filteredBody :
    ¬ ReplaysSafely LedgerConfig.default meridian FlipConfig.default oakLnEvidence 1787572800000
      { targets := [], watches := [], snapshots := [] } := by
  intro h
  have hsettled : settled oakLnEvidence 1787572800000 1 = true := by decide +kernel
  have hopen : isOpen (keptOf (backfillFromStoredEvidence LedgerConfig.default meridian
      FlipConfig.default oakLnEvidence 1787572800000
      { targets := [], watches := [], snapshots := [] }).world 1) = true := by decide +kernel
  cases h.2 1 hsettled hopen

end HomefrontFiber.ComingLedger
