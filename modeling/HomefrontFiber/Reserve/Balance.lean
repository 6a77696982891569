import HomefrontFiber.Reserve.Ledger

/-!
# The bounds of the reserve ledger

No sequence of calls drives a balance below zero or holds a week twice, and a hold that is appended
while a cap is in force leaves the balance at or below that cap.
-/

variable {repId : Nat} {cfg : RepReserveConfig}

namespace HomefrontFiber.Reserve

open List
open Service (Keeps bind_apply bind_pure_store check_apply read_apply)

variable {book' : ReserveBook} {kind : ReserveEntryKind} {amount : Int} {reason : Text}

section Entries

variable (book : ReserveBook) (entry : ReserveEntry)

theorem balance_append (repId : Nat) : getReserveBalanceCents (append book entry) repId =
    getReserveBalanceCents book repId + if entry.repId = repId then entry.amountCents else 0 := by
  unfold getReserveBalanceCents append
  rw [filter_append, map_append, sum_append]
  by_cases h : entry.repId = repId
  · simp [h]
  · simp [h]

theorem balance_congr {book : ReserveBook} (h : book'.entries = book.entries) (repId : Nat) :
    getReserveBalanceCents book' repId = getReserveBalanceCents book repId := by
  unfold getReserveBalanceCents
  rw [h]

def HoldOf (repId : Nat) (weekStartUtc : Text) (e : ReserveEntry) : Prop :=
  e.kind = .hold ∧ e.repId = repId ∧ e.weekStartUtc = some weekStartUtc

instance (repId : Nat) (weekStartUtc : Text) (e : ReserveEntry) :
    Decidable (HoldOf repId weekStartUtc e) := inferInstanceAs (Decidable (_ ∧ _ ∧ _))

def holdsOf (book : ReserveBook) (repId : Nat) (weekStartUtc : Text) : List ReserveEntry :=
  book.entries.filter (HoldOf repId weekStartUtc)

theorem holdsOf_eq_nil {book : ReserveBook} {weekStartUtc : Text}
    (h : holdFor book repId weekStartUtc = none) : holdsOf book repId weekStartUtc = [] := by
  rw [holdsOf, filter_eq_nil_iff]
  exact find?_eq_none.mp h

end Entries

/-- What every ledger satisfies. The signs are those that the insert trigger demands. -/
structure ReserveWf (book : ReserveBook) : Prop where
  nonneg : ∀ repId, 0 ≤ getReserveBalanceCents book repId
  onceAWeek : ∀ repId weekStartUtc, (holdsOf book repId weekStartUtc).length ≤ 1
  signs : ∀ e ∈ book.entries, if e.kind = .hold then 0 < e.amountCents else e.amountCents < 0

theorem ReserveWf.congr {book : ReserveBook} (h : ReserveWf book)
    (he : book'.entries = book.entries) : ReserveWf book' where
  nonneg repId := balance_congr he repId ▸ h.nonneg repId
  onceAWeek repId week := by
    rw [holdsOf, he]
    exact h.onceAWeek repId week
  signs e hmem := h.signs e (he ▸ hmem)

def capInForce (book : ReserveBook) (repId : Nat) : Option Int :=
  (book.reps.find? (·.id = repId)).bind fun rep => (reserveConfig book rep).reserveCapCents

theorem resolveRepReserveConfig_ok {book : ReserveBook}
    (h : resolveRepReserveConfig repId book = .ok cfg) :
    capInForce book repId = cfg.reserveCapCents := by
  unfold resolveRepReserveConfig requireRep at h
  unfold capInForce
  cases hr : book.reps.find? (·.id = repId) with
  | none => simp [hr, Except.map] at h
  | some rep =>
    simp only [hr, Except.map, Except.ok.injEq] at h
    rw [Option.bind_some, h]

theorem normalizeReserveCap_capInForce {book : ReserveBook} {cap : Int}
    (h : capInForce book repId = some cap) : normalizeReserveCap (some cap) = some cap := by
  obtain ⟨rep, _, hcap⟩ := Option.bind_eq_some_iff.mp h
  unfold reserveConfig normalizeReserveCap at hcap
  dsimp only at hcap
  obtain ⟨_, hpos⟩ := Option.filter_eq_some_iff.mp hcap
  exact Option.filter_eq_some_iff.mpr ⟨rfl, hpos⟩

/-- What recording a week can do: nothing, or append the one hold that the week still misses. -/
theorem recordWeeklyHold_cases (input : HoldInput) (book : ReserveBook) :
    (recordWeeklyHold input book).2 = book ∨
    ∃ cfg, resolveRepReserveConfig input.repId book = .ok cfg ∧
      holdFor book input.repId input.weekStartUtc = none ∧
      0 < (weekHoldback book cfg input).reserveCents ∧
      (recordWeeklyHold input book).2 =
        append book (holdEntry book input (weekHoldback book cfg input)) := by
  unfold recordWeeklyHold
  rw [bind_apply, check_apply]
  cases hcfg : resolveRepReserveConfig input.repId book with
  | error e => exact Or.inl rfl
  | ok cfg =>
    dsimp only
    rw [bind_apply, read_apply]
    dsimp only [id_eq]
    cases hheld : holdFor book input.repId input.weekStartUtc with
    | some existing => exact Or.inl rfl
    | none =>
      split
      · exact Or.inl rfl
      · exact Or.inr ⟨cfg, rfl, rfl, by omega, rfl⟩

section Holds

variable {book : ReserveBook}

theorem ReserveWf.hold (h : ReserveWf book) (input : HoldInput) (holdback : Holdback)
    (hpos : 0 < holdback.reserveCents)
    (hnone : holdFor book input.repId input.weekStartUtc = none) :
    ReserveWf (append book (holdEntry book input holdback)) where
  nonneg repId := by
    have hbal := h.nonneg repId
    rw [balance_append]
    split
    · exact Int.add_nonneg hbal (Int.le_of_lt hpos)
    · rw [Int.add_zero]
      exact hbal
  onceAWeek repId week := by
    have hold := h.onceAWeek repId week
    unfold holdsOf append at *
    rw [filter_append, length_append]
    by_cases hsame : HoldOf repId week (holdEntry book input holdback)
    · obtain ⟨_, hrep, hweek⟩ := hsame
      have hrep : input.repId = repId := hrep
      have hweek : input.weekStartUtc = week := Option.some.inj hweek
      have hnil := holdsOf_eq_nil hnone
      rw [holdsOf, hrep, hweek] at hnil
      rw [hnil, length_nil, Nat.zero_add]
      exact length_filter_le _ _
    · rw [filter_cons_of_neg (by simpa using hsame), filter_nil, length_nil]
      exact hold
  signs e he := by
    rcases mem_append.mp he with he | he
    · exact h.signs e he
    · rw [mem_singleton.mp he]
      exact hpos

theorem ReserveWf.movement (h : ReserveWf book)
    (reason : Text) (hkind : kind ≠ .hold) (hpos : 0 < amount)
    (hcover : amount ≤ getReserveBalanceCents book repId) :
    ReserveWf (append book (movementEntry book repId kind amount reason)) where
  nonneg repId' := by
    have hbal := h.nonneg repId'
    rw [balance_append]
    split
    · rename_i hrep
      have hrep : repId = repId' := hrep
      have hamount : (movementEntry book repId kind amount reason).amountCents = -amount := rfl
      rw [← hrep, hamount]
      omega
    · rw [Int.add_zero]
      exact hbal
  onceAWeek repId' week := by
    have hold := h.onceAWeek repId' week
    have hother : ¬ HoldOf repId' week (movementEntry book repId kind amount reason) :=
      fun hh => hkind hh.1
    unfold holdsOf append at *
    rw [filter_append, filter_cons_of_neg (by simpa using hother), filter_nil,
      append_nil]
    exact hold
  signs e he := by
    rcases mem_append.mp he with he | he
    · exact h.signs e he
    · rw [mem_singleton.mp he]
      have hamount : (movementEntry book repId kind amount reason).amountCents = -amount := rfl
      rw [if_neg (show (movementEntry book repId kind amount reason).kind ≠ .hold from hkind),
        hamount]
      omega

end Holds

theorem recordWeeklyHold_wf {book : ReserveBook} (h : ReserveWf book) (input : HoldInput) :
    ReserveWf (recordWeeklyHold input book).2 := by
  rcases recordWeeklyHold_cases input book with hsame | ⟨cfg, _, hnone, hpos, happ⟩
  · rw [hsame]
    exact h
  · rw [happ]
    exact h.hold input _ hpos hnone

structure SamePolicy (book book' : ReserveBook) : Prop where
  percent : book'.orgReservePercent = book.orgReservePercent
  cap : book'.orgReserveCapCents = book.orgReserveCapCents
  reps : book'.reps = book.reps

theorem SamePolicy.capInForce {book : ReserveBook} (h : SamePolicy book book')
    (repId : Nat) : capInForce book' repId = capInForce book repId := by
  unfold Reserve.capInForce reserveConfig
  rw [h.reps, h.percent, h.cap]

/-- Entries were only appended, and a rep who got a hold is at or below the cap in force. -/
structure HoldsCapped (book book' : ReserveBook) : Prop where
  appended : ∃ new, book'.entries = book.entries ++ new ∧
    ∀ repId cap, capInForce book repId = some cap →
      (∃ e ∈ new, e.kind = .hold ∧ e.repId = repId) → getReserveBalanceCents book' repId ≤ cap

theorem HoldsCapped.of_entries {book : ReserveBook} (h : book'.entries = book.entries) :
    HoldsCapped book book' :=
  ⟨[], by rw [h, append_nil], fun _ _ _ ⟨_, he, _⟩ => absurd he not_mem_nil⟩

theorem HoldsCapped.record {book : ReserveBook} (hwf : ReserveWf book')
    (hsame : SamePolicy book book') (h : HoldsCapped book book') (input : HoldInput) :
    SamePolicy book (recordWeeklyHold input book').2 ∧
      HoldsCapped book (recordWeeklyHold input book').2 := by
  rcases recordWeeklyHold_cases input book' with heq | ⟨cfg, hcfg, hnone, hpos, happ⟩
  · rw [heq]
    exact ⟨hsame, h⟩
  · rw [happ]
    refine ⟨⟨hsame.percent, hsame.cap, hsame.reps⟩, ?_⟩
    obtain ⟨new, hnew, hcapped⟩ := h.appended
    refine ⟨new ++ [holdEntry book' input (weekHoldback book' cfg input)], ?_, ?_⟩
    · rw [append, hnew, append_assoc]
    intro repId cap hcap hhold
    rw [balance_append]
    by_cases hrep : input.repId = repId
    · subst hrep
      have hforce : cfg.reserveCapCents = some cap := by
        rw [← resolveRepReserveConfig_ok hcfg, hsame.capInForce, hcap]
      have hnorm : normalizeReserveCap cfg.reserveCapCents = some cap := by
        rw [hforce]
        exact normalizeReserveCap_capInForce hcap
      have hle := computeHoldback_le_cap input.earnedCents cfg.reservePercent cfg.reserveCapCents
        hnorm (hwf.nonneg input.repId) hpos
      rw [if_pos (show (holdEntry book' input (weekHoldback book' cfg input)).repId = input.repId
        from rfl)]
      exact hle
    · rw [if_neg (show (holdEntry book' input (weekHoldback book' cfg input)).repId ≠ repId
        from hrep), Int.add_zero]
      obtain ⟨e, he, hkind, herep⟩ := hhold
      rcases mem_append.mp he with he | he
      · exact hcapped repId cap hcap ⟨e, he, hkind, herep⟩
      · rw [mem_singleton.mp he] at herep
        exact absurd herep hrep

/-- What a run of holds keeps, since the book was `book`. -/
def HoldingSince (book book' : ReserveBook) : Prop :=
  ReserveWf book' ∧ SamePolicy book book' ∧ HoldsCapped book book'

theorem HoldingSince.refl {book : ReserveBook} (h : ReserveWf book) : HoldingSince book book :=
  ⟨h, ⟨rfl, rfl, rfl⟩, HoldsCapped.of_entries rfl⟩

theorem recordWeeklyHold_keeps (book : ReserveBook) (input : HoldInput) :
    Keeps (HoldingSince book) (do let _ ← recordWeeklyHold input) := by
  intro book' h
  have hstore := bind_pure_store (recordWeeklyHold input) (fun _ => ()) book'
  have hnext : HoldingSince book (recordWeeklyHold input book').2 :=
    ⟨recordWeeklyHold_wf h.1 input, h.2.2.record h.1 h.2.1 input⟩
  rw [← hstore] at hnext
  revert hnext
  rcases (recordWeeklyHold input >>= fun _ => pure ()) book' with ⟨_ | _, _⟩ <;> exact id

theorem ensureHolds_keeps (book : ReserveBook) (repId : Nat) (settled : List SettledStatement) :
    Keeps (HoldingSince book) (ensureHoldsForSettledStatements repId settled) := by
  unfold ensureHoldsForSettledStatements
  refine Keeps.bind (Keeps.check _) fun cfg => ?_
  split
  · exact Keeps.pure ()
  · refine Keeps.bind (Keeps.read _) fun missing => ?_
    exact Keeps.forEach fun s _ => recordWeeklyHold_keeps book (settledHold repId s)

theorem validateMovement_pos {movement : Int × Text}
    (h : validateMovement amount reason = .ok movement) : 0 < movement.1 := by
  unfold validateMovement at h
  split at h
  · simp at h
  · split at h
    · simp at h
    · split at h
      · simp at h
      · rw [Except.ok.injEq] at h
        rw [← h]
        omega

theorem movementVerdict_ok {book : ReserveBook} {movement : Int × Text}
    (h : movementVerdict repId kind amount reason book = .ok movement) :
    0 < movement.1 ∧ movement.1 ≤ getReserveBalanceCents book repId := by
  unfold movementVerdict at h
  split at h
  · simp at h
  · simp at h
  · rename_i hvalid
    split at h
    · simp at h
    · rw [Except.ok.injEq] at h
      subst h
      exact ⟨validateMovement_pos hvalid, by omega⟩

/-- What a call keeps: the ledger is well formed and its holds respect the cap of before. -/
def KeepsBounds (book : ReserveBook) (m : ReserveService Unit) : Prop :=
  ReserveWf (m book).2 ∧ HoldsCapped book (m book).2

theorem appendNegativeEntry_bounds {book : ReserveBook} (h : ReserveWf book) (repId : Nat)
    (hkind : kind ≠ .hold) (amount : Int) (reason : Text) :
    KeepsBounds book (appendNegativeEntry repId kind amount reason) := by
  unfold KeepsBounds appendNegativeEntry
  rw [bind_apply, check_apply]
  cases hv : movementVerdict repId kind amount reason book with
  | error e => exact ⟨h, HoldsCapped.of_entries rfl⟩
  | ok movement =>
    obtain ⟨hpos, hcover⟩ := movementVerdict_ok hv
    refine ⟨h.movement movement.2 hkind hpos hcover, [movementEntry book repId kind movement.1
      movement.2], rfl, fun repId' cap _ hhold => ?_⟩
    obtain ⟨e, he, hehold, _⟩ := hhold
    rw [mem_singleton.mp he] at hehold
    exact absurd hehold hkind

theorem releaseReserve_bounds {book : ReserveBook} (h : ReserveWf book) (repId : Nat)
    (amount : Option Int) (reason : Text) :
    KeepsBounds book (releaseReserve repId amount reason) := by
  unfold KeepsBounds releaseReserve
  rw [bind_apply, check_apply]
  cases requireRep repId book with
  | error e => exact ⟨h, HoldsCapped.of_entries rfl⟩
  | ok rep =>
    dsimp only
    rw [bind_apply, read_apply]
    dsimp only
    split
    · exact ⟨h, HoldsCapped.of_entries rfl⟩
    · exact appendNegativeEntry_bounds h repId (by decide) _ reason

theorem setRepReserveConfig_entries (repId : Nat) (patch : ReservePatch) (book : ReserveBook) :
    (setRepReserveConfig repId patch book).2.entries = book.entries := by
  unfold setRepReserveConfig
  rw [bind_apply, check_apply]
  cases resolveRepReserveConfig repId book with
  | error e => rfl
  | ok cfg =>
    dsimp only
    rw [bind_apply, check_apply]
    cases patchVerdict patch <;> rfl

theorem step_bounds {book : ReserveBook} (h : ReserveWf book) (a : ReserveAction) :
    ReserveWf (step book a) ∧ HoldsCapped book (step book a) := by
  cases a with
  | recordWeeklyHold input =>
    have hkeep := (recordWeeklyHold_keeps book input).store (HoldingSince.refl h)
    exact ⟨hkeep.1, hkeep.2.2⟩
  | ensureHoldsForSettledStatements repId settled =>
    have hkeep := (ensureHolds_keeps book repId settled).store (HoldingSince.refl h)
    exact ⟨hkeep.1, hkeep.2.2⟩
  | applyDrawdown repId amount reason =>
    exact appendNegativeEntry_bounds h repId (by decide) amount reason
  | releaseReserve repId amount reason => exact releaseReserve_bounds h repId amount reason
  | setRepReserveConfig repId patch =>
    have hsame := setRepReserveConfig_entries repId patch book
    exact ⟨h.congr hsame, HoldsCapped.of_entries hsame⟩
  | editOrganization percent cap => exact ⟨h.congr rfl, HoldsCapped.of_entries rfl⟩
  | editRoster reps => exact ⟨h.congr rfl, HoldsCapped.of_entries rfl⟩

def emptyLedger (orgReservePercent : Int) (orgReserveCapCents : Option Int)
    (reps : List RepReserve) : ReserveBook where
  orgReservePercent := orgReservePercent
  orgReserveCapCents := orgReserveCapCents
  reps := reps
  entries := []

theorem reserveWf_emptyLedger (percent : Int) (cap : Option Int) (reps : List RepReserve) :
    ReserveWf (emptyLedger percent cap reps) where
  nonneg _ := le_rfl
  onceAWeek _ _ := Nat.zero_le 1
  signs _ he := absurd he not_mem_nil

/-- The bounds of every ledger that calls build up from an empty one, of the next call on it, and
of every split. -/
theorem reserveLedger_run (percent : Int) (cap : Option Int) (reps : List RepReserve)
    (calls : List ReserveAction) :
    ReserveWf (run step (emptyLedger percent cap reps) calls) ∧
      (∀ a, HoldsCapped (run step (emptyLedger percent cap reps) calls)
        (step (run step (emptyLedger percent cap reps) calls) a)) ∧
      ∀ earned percent cap balance,
        (computeHoldback earned percent cap balance).reserveCents +
            (computeHoldback earned percent cap balance).netPayableCents = earned ∧
          0 ≤ (computeHoldback earned percent cap balance).reserveCents ∧
          (computeHoldback earned percent cap balance).reserveCents ≤ max 0 earned := by
  have hwf : ReserveWf (run step (emptyLedger percent cap reps) calls) :=
    @run_invariant_all _ _ step ReserveWf (fun _ a hb => (step_bounds hb a).1) _ calls
      (reserveWf_emptyLedger percent cap reps)
  exact ⟨hwf, fun a => (step_bounds hwf a).2, computeHoldback_split⟩

end HomefrontFiber.Reserve

/-!
## A weekly hold that is recorded again

A call for a week that is held appends nothing and splits the earned amount once more, under the
policy and the ledger of the day. Its split is the recorded hold exactly when the share of the
amount earned now, trimmed to the room of now, is what was withheld then.
-/

namespace HomefrontFiber.Reserve

def balanceBeside (book : ReserveBook) (existing : ReserveEntry) : Int :=
  getReserveBalanceCents book existing.repId - existing.amountCents

def roomBeside (book : ReserveBook) (existing : ReserveEntry) (cap : Int) : Int :=
  max 0 (cap - max 0 (balanceBeside book existing))

/-- The call does again what it did: the rep is on the roster, and the share of the earned amount
under the percentage in force is the recorded hold and fits under the cap in force, or exceeds a
room that is exactly the recorded hold. -/
def SplitsAlike (book : ReserveBook) (input : HoldInput) : Prop :=
  ∀ existing, holdFor book input.repId input.weekStartUtc = some existing →
    ∃ cfg, resolveRepReserveConfig input.repId book = .ok cfg ∧
      match cfg.reserveCapCents with
      | none => uncappedReserve input.earnedCents cfg.reservePercent = existing.amountCents
      | some cap =>
        uncappedReserve input.earnedCents cfg.reservePercent = existing.amountCents ∧
            existing.amountCents ≤ roomBeside book existing cap ∨
          existing.amountCents < uncappedReserve input.earnedCents cfg.reservePercent ∧
            roomBeside book existing cap = existing.amountCents

def ReportsRecorded (book : ReserveBook) (input : HoldInput) : Prop :=
  ∀ existing, holdFor book input.repId input.weekStartUtc = some existing →
    ∃ result, recordWeeklyHold input book = (.ok result, book) ∧ result.inserted = false ∧
      result.holdback.reserveCents = existing.amountCents

theorem holdFor_repId {book : ReserveBook} {week : Text} {existing : ReserveEntry}
    (h : holdFor book repId week = some existing) : existing.repId = repId := by
  have hhold := List.find?_some h
  rw [decide_eq_true_eq] at hhold
  exact hhold.2.1

theorem resolved_config {book : ReserveBook} (h : resolveRepReserveConfig repId book = .ok cfg) :
    ∃ rep, book.reps.find? (·.id = repId) = some rep ∧ cfg = reserveConfig book rep := by
  unfold resolveRepReserveConfig requireRep at h
  cases hrep : book.reps.find? (·.id = repId) with
  | none => simp [hrep, Except.map] at h
  | some rep =>
    simp only [hrep, Except.map, Except.ok.injEq] at h
    exact ⟨rep, rfl, h.symm⟩

theorem clampPercent_clampPercent (percent : Int) :
    clampPercent (clampPercent percent) = clampPercent percent := by
  unfold clampPercent
  omega

theorem normalizeReserveCap_idem (cap : Option Int) :
    normalizeReserveCap (normalizeReserveCap cap) = normalizeReserveCap cap := by
  unfold normalizeReserveCap
  rw [Option.filter_filter]
  simp

theorem resolved_normal {book : ReserveBook} (h : resolveRepReserveConfig repId book = .ok cfg) :
    clampPercent cfg.reservePercent = cfg.reservePercent ∧
      normalizeReserveCap cfg.reserveCapCents = cfg.reserveCapCents := by
  obtain ⟨rep, -, rfl⟩ := resolved_config h
  constructor
  · unfold reserveConfig
    cases rep.reservePercent with
    | none => exact clampPercent_clampPercent _
    | some percent => exact clampPercent_clampPercent _
  · exact normalizeReserveCap_idem
      (some ((rep.reserveCapCents.or book.orgReserveCapCents).getD defaultReserveCapCents))

theorem recordWeeklyHold_held {book : ReserveBook} {input : HoldInput} {existing : ReserveEntry}
    (hheld : holdFor book input.repId input.weekStartUtc = some existing)
    (hcfg : resolveRepReserveConfig input.repId book = .ok cfg) :
    recordWeeklyHold input book =
      (.ok
        { inserted := false
          holdback := computeHoldback input.earnedCents cfg.reservePercent cfg.reserveCapCents
            (some (balanceBeside book existing))
          balanceCents := getReserveBalanceCents book input.repId }, book) := by
  have hrep := holdFor_repId hheld
  unfold recordWeeklyHold balanceBeside
  rw [Service.bind_apply, Service.check_apply, hcfg]
  dsimp only
  rw [Service.bind_apply, Service.read_apply]
  dsimp only [id_eq]
  rw [hheld, hrep]
  rfl

theorem recordWeeklyHold_unlisted {book : ReserveBook} {input : HoldInput} {e : ReserveError}
    (hcfg : resolveRepReserveConfig input.repId book = .error e) :
    recordWeeklyHold input book = (.error e, book) := by
  unfold recordWeeklyHold
  rw [Service.bind_apply, Service.check_apply, hcfg]

theorem reserveCents_beside {book : ReserveBook}
    (hcfg : resolveRepReserveConfig repId book = .ok cfg) (earned : Int) (existing : ReserveEntry) :
    (computeHoldback earned cfg.reservePercent cfg.reserveCapCents
        (some (balanceBeside book existing))).reserveCents =
      match cfg.reserveCapCents with
      | none => uncappedReserve earned cfg.reservePercent
      | some cap => min (uncappedReserve earned cfg.reservePercent)
          (roomBeside book existing cap) := by
  obtain ⟨hpercent, hcap⟩ := resolved_normal hcfg
  rw [reserveCents_eq, hpercent, hcap]
  rfl

theorem min_eq_iff_cases (share room held : Int) :
    min share room = held ↔ share = held ∧ held ≤ room ∨ held < share ∧ room = held := by
  omega

/-- After every history, a further call for a week that is held reports what was recorded exactly
when it splits alike. -/
theorem repeatedHold_iff (percent : Int) (cap : Option Int) (reps : List RepReserve)
    (calls : List ReserveAction) (input : HoldInput) :
    ReportsRecorded (run step (emptyLedger percent cap reps) calls) input ↔
      SplitsAlike (run step (emptyLedger percent cap reps) calls) input := by
  generalize run step (emptyLedger percent cap reps) calls = book
  refine forall₂_congr fun existing hheld => ?_
  cases hcfg : resolveRepReserveConfig input.repId book with
  | error e =>
    rw [recordWeeklyHold_unlisted hcfg]
    constructor
    · rintro ⟨result, hresult, -⟩
      cases hresult
    · rintro ⟨cfg, hok, -⟩
      cases hok
  | ok cfg =>
    have hsplit := reserveCents_beside hcfg input.earnedCents existing
    rw [recordWeeklyHold_held hheld hcfg]
    constructor
    · rintro ⟨result, hresult, -, hamount⟩
      cases hresult
      dsimp only at hamount
      rw [hsplit] at hamount
      refine ⟨cfg, rfl, ?_⟩
      cases hcap : cfg.reserveCapCents with
      | none =>
        rw [hcap] at hamount
        exact hamount
      | some c =>
        rw [hcap] at hamount
        exact (min_eq_iff_cases _ _ _).mp hamount
    · rintro ⟨cfg', hok, halike⟩
      cases hok
      refine ⟨_, rfl, rfl, ?_⟩
      dsimp only
      rw [hsplit]
      cases hcap : cfg.reserveCapCents with
      | none =>
        rw [hcap] at halike
        exact halike
      | some c =>
        rw [hcap] at halike
        exact (min_eq_iff_cases _ _ _).mpr halike

def heldWeek : HoldInput := ⟨3, none, [], none, 10000⟩

/-- A week is held at ten per cent, and then the organisation withholds twenty. -/
def raisedPercent : List ReserveAction := [.recordWeeklyHold heldWeek, .editOrganization 20 none]

theorem not_repeatedHold_raisedPercent :
    ¬ ∀ (percent : Int) (cap : Option Int) (reps : List RepReserve) (calls : List ReserveAction)
      (input : HoldInput), ReportsRecorded (run step (emptyLedger percent cap reps) calls) input := by
  intro h
  have hreports := h 10 none [⟨3, none, none⟩] raisedPercent heldWeek
  obtain ⟨existing, hheld, hamount⟩ : ∃ existing,
      holdFor (run step (emptyLedger 10 none [⟨3, none, none⟩]) raisedPercent) 3 [] =
        some existing ∧ existing.amountCents = 1000 := ⟨_, rfl, by decide⟩
  obtain ⟨result, hresult, -, hreported⟩ := hreports existing hheld
  have hnow : (recordWeeklyHold heldWeek
      (run step (emptyLedger 10 none [⟨3, none, none⟩]) raisedPercent)).1 = .ok result :=
    congrArg Prod.fst hresult
  cases hnow
  rw [hamount] at hreported
  revert hreported
  decide

end HomefrontFiber.Reserve
