import HomefrontFiber.Foundation.Runs
import HomefrontFiber.ComingLedger.Backfill

/-!
# A promise and its own broken date

The ledger counts the answers that restate a promise after its date, and writes the promise off at a
cap. The count stays on the row. It belongs to the date in force only while no answer moves the date
of a row with a count, and none promises again where a row with a count was closed.
-/

namespace HomefrontFiber.ComingLedger

open Option

/-- The watchlist of a tenant, seen from one door. `tally` records the history: how many answers have
come at or after the promised date in force since it became that. -/
structure Door where
  world : World
  tally : Nat

structure Answer where
  result : ScanResult
  source : Option String
  fiberAvailable : Option Bool
  nowMs : Int
  observedAt : Option Int

inductive LedgerAction
  | answer (a : Answer)
  | check (nowMs : Int)
  | expire (nowMs : Int)
  | reconcile (sold : Int → Bool) (nowMs : Int)

/-- The promise of the row has not been closed: it is open, or written off. -/
def WatchRow.standing (r : WatchRow) : Bool := r.status = .active || r.status = .overdue

def dateInForce (row : Option WatchRow) (read : FutureServiceRead) : Option Int :=
  read.promisedDate.or (row.bind (·.promisedDate))

/-- The promise that the answer restates is the one in force. -/
def restates (row : Option WatchRow) (read : FutureServiceRead) : Bool :=
  row.any fun r => r.standing && r.promisedDate = dateInForce row read

def Answer.read (a : Answer) : FutureServiceRead := readFutureService a.result

section Door

variable (cfg : LedgerConfig) (earth : Earth) (flip : FlipConfig) (tenantId targetId : Int)

def Answer.recording (a : Answer) : Recording where
  tenantId := tenantId
  targetId := targetId
  source := a.source
  fiberAvailable := a.fiberAvailable
  nowMs := a.nowMs
  observedAt := a.observedAt

def Door.row (d : Door) : Option WatchRow := watchOf d.world.watches targetId

/-- The answers at or after the date in force, the recorded one included. -/
def tallied (d : Door) (a : Answer) : Nat :=
  (if restates (d.row targetId) a.read then d.tally else 0) +
    if (dateInForce (d.row targetId) a.read).any fun day => day * dayMs ≤ a.nowMs then 1 else 0

def act (d : Door) : LedgerAction → Door
  | .answer a =>
    { world := recordFutureService cfg earth flip (a.recording tenantId targetId) a.read d.world
      tally := if a.read.isFuture then tallied targetId d a else d.tally }
  | .check nowMs =>
    { d with
      world := { d.world with
        watches := markComingChecked cfg tenantId nowMs [targetId] d.world.watches } }
  | .expire nowMs =>
    { d with
      world := { d.world with watches := expireStaleWatches cfg tenantId nowMs d.world.watches } }
  | .reconcile sold nowMs =>
    { d with
      world := { d.world with
        watches := reconcileNowActiveWatches tenantId nowMs sold d.world.watches } }

/-- A written-off promise was restated often enough after its own date, and an open row is looked at
again soon enough after its last check. -/
structure Earned (d : Door) : Prop where
  overdue : ∀ r ∈ d.row targetId, r.status = .overdue → cfg.overdueGraceChecks < d.tally
  due : ∀ r ∈ d.row targetId, r.status = .active → ∀ dueAt ∈ r.dueAt, ∃ checkedAt ∈ r.lastCheckedAt,
    dueAt ≤ checkedAt + cfg.maxWaitDays * dayMs

/-- A promise with a new date that lies ahead, or where none stood, starts with a fresh count. -/
def StartsFresh (d d' : Door) : LedgerAction → Prop
  | .answer a => a.read.isFuture = true →
    (∀ date, a.read.promisedDate = some date → a.nowMs < date * dayMs →
      restates (d.row targetId) a.read = false → ∀ r ∈ d'.row targetId, r.overdueChecks = 0) ∧
    ((d.row targetId).any (·.standing) = false →
      ∀ r ∈ d'.row targetId, r.overdueChecks = if isOverdue a.read a.nowMs then 1 else 0)
  | _ => True

def WrittenOffLawfully (d : Door) (a : LedgerAction) : Prop :=
  StartsFresh targetId d (act cfg earth flip tenantId targetId d a) a ∧
    Earned cfg targetId (act cfg earth flip tenantId targetId d a)

/-- The cadence of the row is no longer than the longest wait. -/
def cadenceFits (i : RecheckInput) (nowMs : Int) : Bool :=
  match i.promisedDate with
  | some date => date * dayMs ≤ nowMs + cfg.hotWindowDays * dayMs → cfg.hotHours ≤ 24 * cfg.maxWaitDays
  | none => inFlipWindow cfg i nowMs → cfg.soonHours ≤ 24 * cfg.maxWaitDays

/-- The count on the row, if any, belongs to the promise that the answer restates. -/
def countsOwnDate (row : Option WatchRow) (read : FutureServiceRead) : Bool :=
  row.all (·.overdueChecks = 0) || restates row read

/-- No answer moves the date of a row with a count or promises again where one was closed, and every
check is scheduled within the longest wait. -/
def Orderly (d : Door) : LedgerAction → Prop
  | .answer a => a.read.isFuture = true →
    countsOwnDate (d.row targetId) a.read = true ∧
      cadenceFits cfg
        { promisedDate := a.read.promisedDate
          firstSeenMs := firstSeenOf (a.recording tenantId targetId) (d.row targetId)
          lastCheckedMs := (a.recording tenantId targetId).observedMs } a.nowMs = true
  | .check nowMs => ∀ r ∈ d.row targetId, r.status = .active →
    cadenceFits cfg
      { promisedDate := r.promisedDate, firstSeenMs := r.firstSeenAt, lastCheckedMs := nowMs }
      nowMs = true
  | _ => True

variable {nowMs : Int} {d : Door} {r' : WatchRow} {a : Answer}

theorem dueAtMs_le {i : RecheckInput} (h : cadenceFits cfg i nowMs = true) :
    (nextRecheckAt cfg i nowMs).dueAtMs ≤ i.lastCheckedMs + cfg.maxWaitDays * dayMs := by
  have hwait : max 1 cfg.maxWaitDays = cfg.maxWaitDays := max_eq_right cfg.maxWaitDays_pos
  have hday : dayMs = 86400000 := rfl
  have hhour : hourMs = 3600000 := rfl
  have hband : ∀ hours, hours ≤ 24 * cfg.maxWaitDays →
      i.lastCheckedMs + hours * hourMs ≤ i.lastCheckedMs + cfg.maxWaitDays * dayMs := by
    intro hours hle
    rw [hday, hhour]
    omega
  unfold cadenceFits at h
  unfold nextRecheckAt
  rw [hwait]
  cases hdate : i.promisedDate with
  | some date =>
    simp only [hdate] at h ⊢
    split
    · rename_i hhot
      exact hband _ (of_decide_eq_true h hhot)
    · exact min_le_right _ _
  | none =>
    simp only [hdate] at h ⊢
    split
    · rename_i hflip
      exact hband _ (of_decide_eq_true h hflip)
    · exact min_le_right _ _

variable {cfg earth flip tenantId targetId}

/-- The count of a standing promise is never more than the answers after its date. -/
structure Tallied (tenantId targetId : Int) (d : Door) : Prop where
  owned : ∀ r ∈ d.row targetId, r.tenantId = tenantId
  counted : ∀ r ∈ d.row targetId, r.standing = true → r.overdueChecks ≤ d.tally

theorem row_answer (h : ∀ r ∈ d.row targetId, r.tenantId = tenantId) (a : Answer) :
    (act cfg earth flip tenantId targetId d (.answer a)).row targetId =
      recordedRow cfg (a.recording tenantId targetId) a.read (d.row targetId) :=
  watchOf_recordFutureService cfg earth flip (a.recording tenantId targetId) a.read h

theorem row_updateWhere {d : Door} {f : WatchRow → WatchRow} (hf : ∀ r, (f r).targetId = r.targetId)
    (p : WatchRow → Bool) :
    Door.row targetId { d with world := { d.world with watches := updateWhere p f d.world.watches } } =
      (d.row targetId).map fun r => if p r then f r else r := watchOf_updateWhere hf p _ _

theorem row_check (h : ∀ r ∈ d.row targetId, r.tenantId = tenantId) (nowMs : Int) :
    (act cfg earth flip tenantId targetId d (.check nowMs)).row targetId =
      (d.row targetId).map (checkedRow cfg nowMs) := by
  have hrow := @row_updateWhere targetId d (checkedRow cfg nowMs) (by exact fun _ => rfl)
    fun r => r.tenantId = tenantId && r.targetId = targetId
  rw [act, markComingChecked, List.foldl_cons, List.foldl_nil, hrow]
  cases hd : d.row targetId with
  | none => rfl
  | some r =>
    have htarget : r.targetId = targetId := targetId_of_watchOf hd
    simp [htarget, h r hd]

theorem mem_row_updateWhere {f : WatchRow → WatchRow}
    (hf : ∀ r, (f r).targetId = r.targetId) {p : WatchRow → Bool} (hr' : r' ∈ Door.row targetId
      { d with world := { d.world with watches := updateWhere p f d.world.watches } }) :
    ∃ r ∈ d.row targetId, r' = r ∨ r' = f r := by
  rw [row_updateWhere hf, mem_def, map_eq_some_iff] at hr'
  obtain ⟨r, hr, rfl⟩ := hr'
  refine ⟨r, hr, ?_⟩
  split
  · exact .inr rfl
  · exact .inl rfl

structure Swept (targetId : Int) (d d' : Door) : Prop where
  tally : d'.tally = d.tally
  row : ∀ r' ∈ d'.row targetId, r' ∈ d.row targetId ∨
    r'.standing = false ∧ ∃ r ∈ d.row targetId, r'.tenantId = r.tenantId

theorem swept_expire (d : Door) (nowMs : Int) :
    Swept targetId d (act cfg earth flip tenantId targetId d (.expire nowMs)) where
  tally := rfl
  row r' hr' := by
    obtain ⟨r, hr, rfl | rfl⟩ := mem_row_updateWhere (by exact fun _ => rfl) hr'
    · exact .inl hr
    · exact .inr ⟨rfl, r, hr, rfl⟩

theorem swept_reconcile (d : Door) (sold : Int → Bool) (nowMs : Int) :
    Swept targetId d
      (act cfg earth flip tenantId targetId d (.reconcile sold nowMs)) where
  tally := rfl
  row r' hr' := by
    obtain ⟨r, hr, rfl | rfl⟩ := mem_row_updateWhere (by exact fun _ => rfl) hr'
    · exact .inl hr
    · exact .inr ⟨rfl, r, hr, rfl⟩

theorem standing_iff {r : WatchRow} : r.standing = true ↔ r.status = .active ∨ r.status = .overdue := by
  simp [WatchRow.standing]

theorem sweep_keeps {d' : Door} (h : Swept targetId d d')
    (htallied : Tallied tenantId targetId d) (hearned : Earned cfg targetId d) :
    Tallied tenantId targetId d' ∧ Earned cfg targetId d' := by
  obtain ⟨htally, hrow⟩ := h
  refine ⟨⟨?_, ?_⟩, ⟨?_, ?_⟩⟩
  · intro r' hr'
    rcases hrow r' hr' with hsame | ⟨-, r, hr, howner⟩
    · exact htallied.owned r' hsame
    · rw [howner]
      exact htallied.owned r hr
  · intro r' hr' hstanding
    rcases hrow r' hr' with hsame | ⟨hclosed, -⟩
    · rw [htally]
      exact htallied.counted r' hsame hstanding
    · rw [hclosed] at hstanding
      cases hstanding
  · intro r' hr' hoverdue
    rcases hrow r' hr' with hsame | ⟨hclosed, -⟩
    · rw [htally]
      exact hearned.overdue r' hsame hoverdue
    · have hstanding := standing_iff.mpr (.inr hoverdue)
      rw [hclosed] at hstanding
      cases hstanding
  · intro r' hr' hactive
    rcases hrow r' hr' with hsame | ⟨hclosed, -⟩
    · exact hearned.due r' hsame hactive
    · have hstanding := standing_iff.mpr (.inl hactive)
      rw [hclosed] at hstanding
      cases hstanding

theorem check_keeps (horderly : Orderly cfg tenantId targetId d (.check nowMs))
    (htallied : Tallied tenantId targetId d) (hearned : Earned cfg targetId d) :
    Tallied tenantId targetId
        (act cfg earth flip tenantId targetId d (.check nowMs)) ∧
      Earned cfg targetId (act cfg earth flip tenantId targetId d (.check nowMs)) := by
  have hrow : ∀ r' ∈ (act cfg earth flip tenantId targetId d (.check nowMs)).row targetId,
      ∃ r ∈ d.row targetId, r' = checkedRow cfg nowMs r := by
    intro r' hr'
    rw [row_check htallied.owned, mem_def, map_eq_some_iff] at hr'
    obtain ⟨r, hr, rfl⟩ := hr'
    exact ⟨r, hr, rfl⟩
  refine ⟨⟨?_, ?_⟩, ⟨?_, ?_⟩⟩
  · intro r' hr'
    obtain ⟨r, hr, rfl⟩ := hrow r' hr'
    exact htallied.owned r hr
  · intro r' hr' hstanding
    obtain ⟨r, hr, rfl⟩ := hrow r' hr'
    exact htallied.counted r hr hstanding
  · intro r' hr' hoverdue
    obtain ⟨r, hr, rfl⟩ := hrow r' hr'
    exact hearned.overdue r hr hoverdue
  · intro r' hr' hactive dueAt hdue
    obtain ⟨r, hr, rfl⟩ := hrow r' hr'
    have hfits := horderly r hr hactive
    refine ⟨nowMs, rfl, ?_⟩
    cases hdue
    exact dueAtMs_le cfg hfits

structure Counts (cfg : LedgerConfig) (tenantId targetId : Int) (d : Door) (a : Answer)
    (r' : WatchRow) : Prop where
  owned : r'.tenantId = tenantId
  count : a.read.isFuture = true →
    r'.overdueChecks = overdueChecksOf (a.recording tenantId targetId) a.read (d.row targetId)
  overdue : a.read.isFuture = true → r'.status = .overdue →
    cfg.overdueGraceChecks < r'.overdueChecks
  due : a.read.isFuture = true → r'.status = .active →
    r'.lastCheckedAt = some (a.recording tenantId targetId).observedMs ∧ r'.dueAt =
      some (scheduleOf cfg (a.recording tenantId targetId) a.read (d.row targetId)).dueAtMs
  closed : a.read.isFuture = false → r' ∈ d.row targetId ∨ r'.standing = false

theorem counts_answer (h : ∀ r ∈ d.row targetId, r.tenantId = tenantId)
    (hr' : r' ∈ (act cfg earth flip tenantId targetId d (.answer a)).row targetId) :
    Counts cfg tenantId targetId d a r' := by
  have howned := recordedRow_tenantId cfg (a.recording tenantId targetId) a.read h
  rw [row_answer h] at hr'
  have hown := howned r' hr'
  unfold recordedRow at hr'
  cases hfuture : a.read.isFuture with
  | true =>
    rw [hfuture] at hr'
    simp only [if_true] at hr'
    split at hr'
    · rename_i hoff
      rw [mem_def, map_eq_some_iff] at hr'
      obtain ⟨r, hr, rfl⟩ := hr'
      simp only [writesOff, Bool.and_eq_true, decide_eq_true_eq] at hoff
      constructor
      · exact hown
      · exact fun _ => rfl
      · exact fun _ _ => hoff.2
      · intro _ hactive
        cases hactive
      · intro hfalse
        rw [hfuture] at hfalse
        cases hfalse
    · cases hr'
      constructor
      · exact hown
      · intro _
        cases d.row targetId <;> rfl
      · intro _ hoverdue
        cases hrow : d.row targetId <;> rw [hrow] at hoverdue <;> cases hoverdue
      · intro _ _
        cases d.row targetId <;> exact ⟨rfl, rfl⟩
      · intro hfalse
        rw [hfuture] at hfalse
        cases hfalse
  | false =>
    rw [hfuture] at hr'
    simp only [Bool.false_eq_true, if_false, mem_def, map_eq_some_iff] at hr'
    obtain ⟨r, hr, heq⟩ := hr'
    constructor
    · exact hown
    · intro htrue
      rw [hfuture] at htrue
      cases htrue
    · intro htrue
      rw [hfuture] at htrue
      cases htrue
    · intro htrue
      rw [hfuture] at htrue
      cases htrue
    · intro _
      split at heq
      · right
        rw [← heq]
        simp only [WatchRow.standing, closingStatus]
        split
        · rfl
        · split <;> rfl
      · left
        rw [← heq]
        exact hr

theorem dateInForce_of_isOverdue {row : Option WatchRow} {read : FutureServiceRead}
    (h : isOverdue read nowMs = true) :
    (dateInForce row read).any (fun day => day * dayMs ≤ nowMs) = true := by
  unfold isOverdue at h
  cases hdate : read.promisedDate with
  | none =>
    rw [hdate] at h
    cases h
  | some date =>
    rw [hdate] at h
    rw [dateInForce, hdate]
    exact h

theorem overdueChecksOf_le (htallied : Tallied tenantId targetId d)
    (hown : countsOwnDate (d.row targetId) a.read = true) :
    overdueChecksOf (a.recording tenantId targetId) a.read (d.row targetId) ≤
      tallied targetId d a := by
  have hprior : ((d.row targetId).map (·.overdueChecks)).getD 0 ≤
      if restates (d.row targetId) a.read then d.tally else 0 := by
    cases hrow : d.row targetId with
    | none => exact Nat.zero_le _
    | some r =>
      rw [hrow] at hown
      simp only [map_some, getD_some]
      simp only [countsOwnDate, all_some, Bool.or_eq_true, decide_eq_true_eq] at hown
      rcases hown with hzero | hrestates
      · rw [hzero]
        exact Nat.zero_le _
      · rw [if_pos hrestates]
        have hstanding : r.standing = true := by
          simp only [restates, any_some, Bool.and_eq_true] at hrestates
          exact hrestates.1
        exact htallied.counted r hrow hstanding
  have hlast : (if isOverdue a.read (a.recording tenantId targetId).nowMs then 1 else 0) ≤
      if (dateInForce (d.row targetId) a.read).any (fun day => day * dayMs ≤ a.nowMs) then 1 else 0 := by
    split
    · rename_i hoverdue
      have hdue : isOverdue a.read a.nowMs = true := hoverdue
      rw [if_pos (dateInForce_of_isOverdue hdue)]
    · exact Nat.zero_le _
  exact Nat.add_le_add hprior hlast

theorem answer_keeps (horderly : Orderly cfg tenantId targetId d (.answer a))
    (htallied : Tallied tenantId targetId d) (hearned : Earned cfg targetId d) :
    Tallied tenantId targetId
        (act cfg earth flip tenantId targetId d (.answer a)) ∧
      Earned cfg targetId (act cfg earth flip tenantId targetId d (.answer a)) := by
  have hcounts : ∀ r' ∈ (act cfg earth flip tenantId targetId d (.answer a)).row targetId,
      Counts cfg tenantId targetId d a r' := fun r' hr' => counts_answer htallied.owned hr'
  cases hfuture : a.read.isFuture with
  | true =>
    obtain ⟨hown, hfits⟩ := horderly hfuture
    have hle := overdueChecksOf_le htallied hown
    have htally : (act cfg earth flip tenantId targetId d (.answer a)).tally =
        tallied targetId d a := by
      simp [act, hfuture]
    refine ⟨⟨?_, ?_⟩, ⟨?_, ?_⟩⟩
    · exact fun r' hr' => (hcounts r' hr').owned
    · intro r' hr' _
      rw [(hcounts r' hr').count hfuture, htally]
      exact hle
    · intro r' hr' hoverdue
      have hgrace := (hcounts r' hr').overdue hfuture hoverdue
      rw [(hcounts r' hr').count hfuture] at hgrace
      rw [htally]
      exact hgrace.trans_le hle
    · intro r' hr' hactive dueAt hdue
      obtain ⟨hchecked, hat⟩ := (hcounts r' hr').due hfuture hactive
      rw [hat] at hdue
      cases hdue
      exact ⟨_, hchecked, dueAtMs_le cfg hfits⟩
  | false =>
    have hswept : Swept targetId d
        (act cfg earth flip tenantId targetId d (.answer a)) := by
      constructor
      · simp [act, hfuture]
      · intro r' hr'
        rcases (hcounts r' hr').closed hfuture with hsame | hclosed
        · exact .inl hsame
        · right
          refine ⟨hclosed, ?_⟩
          rw [row_answer htallied.owned] at hr'
          cases hrow : d.row targetId with
          | none =>
            rw [hrow] at hr'
            simp [recordedRow, hfuture] at hr'
          | some r =>
            have htenant := htallied.owned r hrow
            exact ⟨r, rfl, (hcounts r' (by rwa [row_answer htallied.owned])).owned.trans
              htenant.symm⟩
    exact sweep_keeps hswept htallied hearned

theorem startsFresh_answer (horderly : Orderly cfg tenantId targetId d (.answer a))
    (htallied : Tallied tenantId targetId d) :
    StartsFresh targetId d (act cfg earth flip tenantId targetId d (.answer a)) (.answer a) := by
  intro hfuture
  obtain ⟨hown, -⟩ := horderly hfuture
  have hcount : restates (d.row targetId) a.read = false →
      ∀ r' ∈ (act cfg earth flip tenantId targetId d (.answer a)).row targetId,
        r'.overdueChecks = if isOverdue a.read a.nowMs then 1 else 0 := by
    intro hmoved r' hr'
    rw [(counts_answer htallied.owned hr').count hfuture]
    have hzero : ((d.row targetId).map (·.overdueChecks)).getD 0 = 0 := by
      cases hrow : d.row targetId with
      | none => rfl
      | some r =>
        rw [hrow] at hown hmoved
        simpa [countsOwnDate, hmoved] using hown
    rw [overdueChecksOf, hzero, Nat.zero_add]
    rfl
  constructor
  · intro date hdate hahead hmoved r' hr'
    rw [hcount hmoved r' hr']
    have hfresh : isOverdue a.read a.nowMs = false := by
      rw [isOverdue, hdate, any_some, decide_eq_false_iff_not]
      exact not_le.mpr hahead
    rw [hfresh]
    rfl
  · intro hclosed
    apply hcount
    unfold restates
    cases hrow : d.row targetId with
    | none => rfl
    | some r =>
      rw [hrow] at hclosed
      simp only [any_some] at hclosed ⊢
      rw [hclosed]
      rfl

def Lawful (cfg : LedgerConfig) (tenantId targetId : Int) (d : Door) : Prop :=
  Tallied tenantId targetId d ∧ Earned cfg targetId d

theorem lawful_act {a : LedgerAction} (h : Lawful cfg tenantId targetId d)
    (horderly : Orderly cfg tenantId targetId d a) :
    Lawful cfg tenantId targetId (act cfg earth flip tenantId targetId d a) := by
  cases a with
  | answer a => exact answer_keeps horderly h.1 h.2
  | check nowMs => exact check_keeps horderly h.1 h.2
  | expire nowMs => exact sweep_keeps (swept_expire d nowMs) h.1 h.2
  | reconcile sold nowMs => exact sweep_keeps (swept_reconcile d sold nowMs) h.1 h.2

theorem writtenOffLawfully_act {a : LedgerAction} (h : Lawful cfg tenantId targetId d)
    (horderly : Orderly cfg tenantId targetId d a) :
    WrittenOffLawfully cfg earth flip tenantId targetId d a := by
  refine ⟨?_, (lawful_act h horderly).2⟩
  cases a with
  | answer a => exact startsFresh_answer horderly h.1
  | check nowMs => trivial
  | expire nowMs => trivial
  | reconcile sold nowMs => trivial

def Door.start (w : World) : Door := { world := w, tally := 0 }

theorem lawful_start {w : World} (hw : watchOf w.watches targetId = none) :
    Lawful cfg tenantId targetId (Door.start w) := by
  have hrow : (Door.start w).row targetId = none := hw
  refine ⟨⟨?_, ?_⟩, ⟨?_, ?_⟩⟩ <;>
  · intro r hr
    rw [hrow] at hr
    cases hr

/-- In a run in which no answer moves the date of a counted promise, a promise is written off only on
its own broken date, starts with a fresh count, and is never looked at too late. -/
theorem writtenOffLawfully_run (cfg : LedgerConfig) (earth : Earth) (flip : FlipConfig)
    (tenantId targetId : Int) {w : World} (hw : watchOf w.watches targetId = none)
    {actions : List LedgerAction}
    (h : Along (act cfg earth flip tenantId targetId) (Orderly cfg tenantId targetId) (Door.start w)
      actions) :
    Along (act cfg earth flip tenantId targetId)
      (WrittenOffLawfully cfg earth flip tenantId targetId) (Door.start w) actions :=
  h.imp_of_invariant (fun _ _ hd ha => lawful_act hd ha)
    (fun _ _ hd ha => writtenOffLawfully_act hd ha) (lawful_start hw)

end Door

def promiseFor (date day : Int) : LedgerAction :=
  .answer
    { result :=
        { fiberAvailable := false
          fiberStatus := .unknown
          householdSegmentType := none
          marketSegmentType := none
          serviceStatus := none
          billingStatus := none
          finalQual := none
          maxQual := none
          flags :=
            { futureEligible := false
              buildOutStatus := none
              hasExistingService := false
              pendingOrder := false
              futureQual := false
              futureTechnology := none
              completionText := none
              completionIsDate := false }
          found := some { date, path := "futureServiceDate", raw := [] } }
      source := none
      fiberAvailable := some false
      nowMs := day * dayMs
      observedAt := none }

def emptyWorld : World := { targets := [], watches := [], snapshots := [] }

/-- A promise for day 100 is restated on that day and checked once more. -/
theorem writtenOffLawfully_run_restated :
    Along (act LedgerConfig.default meridian FlipConfig.default 1 1)
      (WrittenOffLawfully LedgerConfig.default meridian FlipConfig.default 1 1)
      (Door.start emptyWorld) [promiseFor 100 50, promiseFor 100 100, .check (101 * dayMs)] := by
  apply writtenOffLawfully_run
  · rfl
  · refine ⟨fun _ => ?_, fun _ => ?_, fun r hr _ => ?_, trivial⟩
    · decide +kernel
    · decide +kernel
    · cases hr
      decide +kernel

/-- Four answers after day 100, and a new date, day 130. -/
def movedPromise : List LedgerAction :=
  [promiseFor 100 100, promiseFor 100 101, promiseFor 100 102, promiseFor 100 103,
    promiseFor 130 104]

/-- The first answer after the new date writes the promise off. -/
theorem not_writtenOffLawfully_movedPromise :
    ¬ Along (act LedgerConfig.default meridian FlipConfig.default 1 1)
      (WrittenOffLawfully LedgerConfig.default meridian FlipConfig.default 1 1)
      (Door.start emptyWorld) (movedPromise ++ [promiseFor 130 130]) := by
  intro h
  have hlast := (along_append.mp h).2.1.2.overdue
  have hrow : (Door.row 1 (run (act LedgerConfig.default meridian FlipConfig.default 1 1)
      (Door.start emptyWorld) (movedPromise ++ [promiseFor 130 130]))).any
      (·.status = .overdue) = true := by decide +kernel
  have htally : (run (act LedgerConfig.default meridian FlipConfig.default 1 1)
      (Door.start emptyWorld) (movedPromise ++ [promiseFor 130 130])).tally = 1 := by decide +kernel
  rw [run_append] at hrow htally
  obtain ⟨r, hr, hoverdue⟩ := (any_eq_true _ _).mp hrow
  have hgrace := hlast r hr (of_decide_eq_true hoverdue)
  rw [run_cons, run_nil] at htally
  rw [htally] at hgrace
  revert hgrace
  decide

end HomefrontFiber.ComingLedger
