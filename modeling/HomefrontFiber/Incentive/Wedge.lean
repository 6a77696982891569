import HomefrontFiber.Incentive.OrderedDelivery

/-!
# Finished work at the head of the queue

No drain leases a completed event, and no operator may act on one. So the cursor passes a completed
event only when the drain that completed it, or one that has passed it, ends. If that drain crashes,
or if the cursor is rewound, the event stands at the head of the queue for good.
-/

namespace HomefrontFiber.Incentive

open List Option

def isCompleted (eventId : Nat) (s : System) : Bool :=
  (s.states eventId).any (·.status = .completed)

/-- What workers and operators do: no event, crash, rewind or campaign. -/
def Action.continues : Action → Bool
  | .begin _ _ | .resume _ _ | .operator _ => true
  | _ => false

/-- A completed event at the head of the queue can be passed: some drains and operator actions move
the cursor to it. -/
def NotWedged (s : System) : Prop :=
  ∀ head ∈ s.events.find? (s.cursor < ·.id), isCompleted head.id s →
    ∃ as : List Action, (∀ a ∈ as, a.continues) ∧ head.id ≤ (run step s as).cursor

/-- The id that a drain would move the cursor to if it stopped here. -/
def Phase.last : Phase → Option Nat
  | .opened _ _ | .fetched _ => none
  | .scanning _ last | .registering _ _ last | .leasing _ _ last | .working _ _ last => some last
  | .committed _ _ last | .threw _ last | .finishing last => some last

/-- The drain has passed the event, and the events that it still has in hand come later. -/
def Phase.WillPass (eventId : Nat) (phase : Phase) : Prop :=
  (∃ last ∈ phase.last, eventId ≤ last) ∧ ∀ event ∈ phase.batch, eventId < event.id

instance (eventId : Nat) (phase : Phase) : Decidable (phase.WillPass eventId) :=
  inferInstanceAs (Decidable (_ ∧ _))

/-- No crash stops the last drain that has passed a completed event ahead of the cursor, and no
rewind puts one that no drain has passed ahead of the cursor. -/
def NoneStranded (s : System) : Action → Prop
  | .crash worker => ∀ event ∈ s.events, isCompleted event.id s → event.id ≤ s.cursor ∨
      ∃ w ∈ s.workers, w.1 ≠ worker ∧ w.2.WillPass event.id
  | .resetCursor target => ∀ event ∈ s.events, isCompleted event.id s → event.id ≤ target ∨
      ∃ w ∈ s.workers, w.2.WillPass event.id
  | _ => True

instance decidableNoneStranded (s : System) : ∀ a, Decidable (NoneStranded s a)
  | .crash worker => inferInstanceAs (Decidable (∀ event ∈ s.events, isCompleted event.id s →
      event.id ≤ s.cursor ∨ ∃ w ∈ s.workers, w.1 ≠ worker ∧ w.2.WillPass event.id))
  | .resetCursor target => inferInstanceAs (Decidable (∀ event ∈ s.events, isCompleted event.id s →
      event.id ≤ target ∨ ∃ w ∈ s.workers, w.2.WillPass event.id))
  | .emit _ => instDecidableTrue
  | .begin _ _ => instDecidableTrue
  | .resume _ _ => instDecidableTrue
  | .operator _ => instDecidableTrue
  | .createCampaign _ => instDecidableTrue
  | .setCampaignActive _ _ => instDecidableTrue
  | .settleSpiff _ _ _ => instDecidableTrue
  | .otherSpiff _ => instDecidableTrue

/-- The cursor is past the event or a drain in flight will move it past. -/
def Passing (eventId : Nat) (s : System) : Prop :=
  eventId ≤ s.cursor ∨ ∃ w ∈ s.workers, w.2.WillPass eventId

def Accounted (s : System) : Prop := ∀ eventId, isCompleted eventId s → Passing eventId s

theorem accounted_empty : Accounted System.empty := fun _ h => by simp [isCompleted, System.empty] at h

variable {worker : Nat} {phase : Phase} {event : DomainEvent} {rest : List DomainEvent}

/-- What a step of one drain must say of the events that this drain has passed and of those that
it completes. -/
theorem Accounted.advance {s t : System} (h : Accounted s) (hlogged : Logged s)
    (hmem : (worker, phase) ∈ s.workers) (hcursor : s.cursor ≤ t.cursor)
    (hothers : ∀ w ∈ s.workers, w.1 ≠ worker → w ∈ t.workers)
    (hnew : ∀ eventId, isCompleted eventId t → isCompleted eventId s ∨ Passing eventId t)
    (hpass : ∀ eventId, phase.WillPass eventId → Passing eventId t) : Accounted t := by
  intro eventId hcompleted
  rcases hnew eventId hcompleted with hold | hpassing
  · rcases h eventId hold with hle | ⟨w, hw, hwill⟩
    · exact .inl (hle.trans hcursor)
    · by_cases hsame : w.1 = worker
      · have hphase : w.2 = phase := hlogged.phase_eq (hsame ▸ hw) hmem
        exact hpass eventId (hphase ▸ hwill)
      · exact .inr ⟨w, hothers w hw hsame, hwill⟩
  · exact hpassing

theorem isCompleted_setState_self (eventId : Nat) (state : EventState) (s : System) :
    isCompleted eventId (setState eventId state s) = decide (state.status = .completed) := by
  simp [isCompleted]

theorem isCompleted_setState {eventId id : Nat} {state : EventState} {s : System}
    (hstate : state.status = .completed → isCompleted eventId s)
    (h : isCompleted id (setState eventId state s)) : isCompleted id s := by
  by_cases heq : id = eventId
  · subst heq
    rw [isCompleted_setState_self] at h
    exact hstate (of_decide_eq_true h)
  · simpa only [isCompleted, setState_of_ne heq] using h

theorem isCompleted_eq (id : Nat) (s : System) :
    isCompleted id s = decide ((stateOf id s).status = .completed) := by
  unfold isCompleted stateOf
  cases s.states id with
  | none => rfl
  | some state => rfl

theorem Phase.willPass_finishing {eventId : Nat} {last : Nat}
    (h : phase.WillPass eventId) (hlast : phase.last = some last) :
    (Phase.finishing last).WillPass eventId := by
  obtain ⟨⟨last', hlast', hle⟩, -⟩ := h
  obtain rfl : last = last' := some.inj (hlast.symm.trans hlast')
  exact ⟨⟨last, rfl, hle⟩, fun _ hevent => absurd hevent not_mem_nil⟩

theorem Phase.willPass_tail {eventId : Nat}
    (h : eventId ≤ event.id) (hdrawn : Consecutive (event :: rest)) :
    (Phase.scanning rest event.id).WillPass eventId := by
  refine ⟨⟨event.id, rfl, h⟩, ?_⟩
  intro later hlater
  have hlt : event.id + 1 ≤ later.id := (consecutive_cons.mp hdrawn).2.le_of_mem hlater
  omega

theorem Phase.le_of_willPass {eventId : Nat} (h : phase.WillPass eventId)
    (hmem : event ∈ phase.batch) : eventId ≤ event.id :=
  Nat.le_of_lt (h.2 event hmem)

def Phase.rank : Phase → Nat
  | .opened _ _ | .fetched _ => 0
  | .scanning batch _ => 5 * batch.length + 2
  | .registering _ rest _ => 5 * rest.length + 6
  | .leasing _ rest _ => 5 * rest.length + 5
  | .working _ rest _ => 5 * rest.length + 4
  | .committed _ rest _ => 5 * rest.length + 3
  | .threw _ _ => 2
  | .finishing _ => 1

theorem phaseOf_setPhase (worker : Nat) (phase : Phase) (s : System) :
    phaseOf worker (setPhase worker phase s) = some phase := by
  simp [phaseOf, setPhase]

/-- A drain that has passed an event moves the cursor past it or comes closer to that. -/
theorem willPass_advancePhase {s : System} {eventId : Nat}
    (h : phase.WillPass eventId) (hbatch : Consecutive phase.batch) (weather : Weather) :
    eventId ≤ (advancePhase worker weather s phase).cursor ∨
      ∃ next, phaseOf worker (advancePhase worker weather s phase) = some next ∧
        next.WillPass eventId ∧ Consecutive next.batch ∧ next.rank < phase.rank := by
  have hset : ∀ (t : System) (next : Phase), next.WillPass eventId → Consecutive next.batch →
      next.rank < phase.rank → ∃ next', phaseOf worker (setPhase worker next t) = some next' ∧
        next'.WillPass eventId ∧ Consecutive next'.batch ∧ next'.rank < phase.rank :=
    fun t next hwill hdrawn hrank => ⟨next, phaseOf_setPhase worker next t, hwill, hdrawn, hrank⟩
  cases phase with
  | opened after limit =>
    obtain ⟨⟨last, hlast, -⟩, -⟩ := h
    simp [Phase.last] at hlast
  | fetched batch =>
    obtain ⟨⟨last, hlast, -⟩, -⟩ := h
    simp [Phase.last] at hlast
  | scanning batch last =>
    cases batch with
    | nil =>
      right
      exact hset s (.finishing last) h consecutive_nil (by simp [Phase.rank])
    | cons event rest =>
      right
      simp only [advancePhase]
      split
      · have hle : eventId ≤ event.id := Phase.le_of_willPass h mem_cons_self
        exact hset s (.scanning rest event.id) (Phase.willPass_tail hle hbatch) hbatch.tail
          (by simp [Phase.rank])
      · exact hset s (.registering event rest last) h hbatch (by simp [Phase.rank]; omega)
  | registering event rest last =>
    right
    exact hset _ (.leasing event rest last) h hbatch (by simp [Phase.rank])
  | leasing event rest last =>
    right
    simp only [advancePhase, lease]
    split
    · exact hset _ (.working event rest last) h hbatch (by simp [Phase.rank])
    · exact hset _ (.finishing last) (Phase.willPass_finishing h rfl) consecutive_nil
        (by simp [Phase.rank])
  | working event rest last =>
    right
    simp only [advancePhase]
    split
    · refine hset _ (.threw event last) ⟨h.1, fun later hmem => ?_⟩ hbatch.single
        (by simp [Phase.rank])
      obtain rfl : later = event := mem_singleton.mp hmem
      exact h.2 later mem_cons_self
    · exact hset _ (.committed event rest last) h hbatch (by simp [Phase.rank])
  | committed event rest last =>
    right
    have hle : eventId ≤ event.id := Phase.le_of_willPass h mem_cons_self
    exact hset _ (.scanning rest event.id) (Phase.willPass_tail hle hbatch) hbatch.tail
      (by simp [Phase.rank])
  | threw event last =>
    right
    exact hset _ (.finishing last) (Phase.willPass_finishing h rfl) consecutive_nil
      (by simp [Phase.rank])
  | finishing last =>
    left
    obtain ⟨⟨last', hlast, hle⟩, -⟩ := h
    obtain rfl : last = last' := some.inj hlast
    exact hle.trans (Nat.le_max_right s.cursor last)

theorem isCompleted_advancePhase {s : System} {eventId : Nat}
    (hbatch : Consecutive phase.batch) (weather : Weather)
    (h : isCompleted eventId (advancePhase worker weather s phase)) :
    isCompleted eventId s ∨ Passing eventId (advancePhase worker weather s phase) := by
  cases phase with
  | opened after limit =>
    left
    simp only [advancePhase] at h
    split at h
    · exact h
    · exact h
  | fetched batch => exact .inl h
  | scanning batch last =>
    left
    cases batch with
    | nil => exact h
    | cons event rest =>
      simp only [advancePhase] at h
      split at h
      · exact h
      · exact h
  | registering event rest last =>
    refine .inl (isCompleted_setState (fun hstatus => ?_) h)
    rw [isCompleted_eq, hstatus]
    rfl
  | leasing event rest last =>
    left
    simp only [advancePhase, lease] at h
    split at h
    · exact isCompleted_setState (fun hstatus => by simp [leased] at hstatus) h
    · exact h
  | working event rest last =>
    left
    simp only [advancePhase] at h
    split at h
    · exact h
    · simpa only [isCompleted, setPhase, (commit_frame weather event s).1] using h
  | committed event rest last =>
    by_cases heq : eventId = event.id
    · exact .inr (.inr ⟨_, mem_setPhase.mpr (.inl rfl),
        Phase.willPass_tail (Nat.le_of_eq heq) hbatch⟩)
    · left
      simpa only [advancePhase, markCompleted, isCompleted, setPhase, setState_of_ne heq] using h
  | threw event last =>
    refine .inl (isCompleted_setState (fun hstatus => ?_) h)
    simp only [failedState] at hstatus
    split at hstatus <;> simp at hstatus
  | finishing last => exact .inl h

theorem accounted_advancePhase {s : System} (h : Accounted s) (hlogged : Logged s)
    (hmem : (worker, phase) ∈ s.workers) (weather : Weather) :
    Accounted (advancePhase worker weather s phase) := by
  have hbatch : Consecutive phase.batch := (hlogged.drawn _ hmem).consecutive
  apply h.advance hlogged hmem
  · exact cursor_le_advancePhase worker weather s phase
  · exact fun w hw hne => mem_advancePhase_of_ne hw hne weather phase
  · exact fun eventId hcompleted => isCompleted_advancePhase hbatch weather hcompleted
  · intro eventId hwill
    rcases willPass_advancePhase hwill hbatch weather with hle | ⟨next, hnext, hwill', -, -⟩
    · exact .inl hle
    · exact .inr ⟨(worker, next), mem_of_phaseOf hnext, hwill'⟩

theorem accounted_operatorAction {s : System} (h : Accounted s) (input : OperatorInput) :
    Accounted (operatorAction input s) := by
  unfold operatorAction
  split
  · exact h
  · intro eventId hcompleted
    refine h eventId (isCompleted_setState (fun hstatus => ?_) hcompleted)
    cases haction : input.action <;> simp [haction, OperatorAction.status] at hstatus

theorem passing_of_events {s : System} (hlogged : Logged s) {P : Nat → Prop} (hzero : P 0)
    (h : ∀ event ∈ s.events, isCompleted event.id s → P event.id) (eventId : Nat)
    (hcompleted : isCompleted eventId s) : P eventId := by
  rcases Nat.eq_zero_or_pos eventId with rfl | hpos
  · exact hzero
  · have hle : eventId ≤ s.events.length := by
      by_contra hlt
      have hnone : s.states eventId = none := hlogged.unknown _ (Nat.not_le.mp hlt)
      simp [isCompleted, hnone] at hcompleted
    obtain ⟨event, hmem, rfl⟩ := hlogged.numbered.exists_key hpos hle
    exact h event hmem hcompleted

theorem accounted_step (s : System) (a : Action) (h : Accounted s ∧ Logged s)
    (ha : NoneStranded s a) : Accounted (step s a) ∧ Logged (step s a) := by
  obtain ⟨h, hlogged⟩ := h
  refine ⟨?_, logged_step s a hlogged⟩
  cases a with
  | emit input =>
    obtain ⟨hstates, hcursor, -, hworkers⟩ := emit_frame input s
    simp only [step, Accounted, isCompleted, Passing, hstates, hcursor, hworkers]
    exact h
  | begin worker limit =>
    simp only [step]
    split
    · exact h
    · rename_i hidle
      intro eventId hcompleted
      rcases h eventId hcompleted with hle | ⟨w, hw, hwill⟩
      · exact .inl hle
      · refine .inr ⟨w, mem_setPhase.mpr (.inr ⟨hw, ?_⟩), hwill⟩
        rintro rfl
        apply hidle
        simp only [phaseOf, isSome_map, find?_isSome]
        exact ⟨w, hw, by simp⟩
  | resume worker weather =>
    simp only [step]
    split
    · exact h
    · rename_i phase hphase
      exact accounted_advancePhase h hlogged (mem_of_phaseOf hphase) weather
  | crash worker =>
    apply passing_of_events (P := fun id => Passing id (endDrain worker s)) hlogged
    · exact .inl (Nat.zero_le _)
    · intro event hevent hcompleted
      rcases ha event hevent hcompleted with hle | ⟨w, hw, hne, hwill⟩
      · exact .inl hle
      · exact .inr ⟨w, mem_endDrain.mpr ⟨hw, hne⟩, hwill⟩
  | operator input => exact accounted_operatorAction h input
  | resetCursor target =>
    apply passing_of_events (P := fun id => Passing id (resetCursor target s)) hlogged
    · exact .inl (Nat.zero_le _)
    · exact ha
  | createCampaign campaign => exact h
  | setCampaignActive id active => exact h
  | settleSpiff tenantId id paid => exact h
  | otherSpiff row => exact h

theorem step_resume {s : System} (h : phaseOf worker s = some phase) (weather : Weather) :
    step s (.resume worker weather) = advancePhase worker weather s phase := by
  simp only [step, h]

theorem willPass_run {s : System} {eventId : Nat}
    (hphase : phaseOf worker s = some phase) (h : phase.WillPass eventId)
    (hbatch : Consecutive phase.batch) (weather : Weather) :
    ∃ n, eventId ≤ (run step s (List.replicate n (.resume worker weather))).cursor := by
  induction hrank : phase.rank using Nat.strong_induction_on generalizing s phase with
  | _ rank ih =>
    rcases willPass_advancePhase h hbatch weather with hle | ⟨next, hnext, hwill, hdrawn, hlt⟩
    · refine ⟨1, ?_⟩
      simp only [replicate_one, run_cons, run_nil, step_resume hphase]
      exact hle
    · obtain ⟨n, hn⟩ := ih next.rank (hrank ▸ hlt) hnext hwill hdrawn rfl
      refine ⟨n + 1, ?_⟩
      simp only [replicate_succ, run_cons, step_resume hphase]
      exact hn

theorem Logged.phaseOf_eq {s : System} (h : Logged s) {w : Nat × Phase} (hw : w ∈ s.workers) :
    phaseOf w.1 s = some w.2 := by
  cases hphase : phaseOf w.1 s with
  | none =>
    simp only [phaseOf, map_eq_none_iff, find?_eq_none] at hphase
    have hne := hphase w hw
    simp at hne
  | some phase => exact congrArg some (h.phase_eq (mem_of_phaseOf hphase) hw)

/-- In every run that strands no completed event, a completed event at the head of the queue can be
passed. -/
theorem notWedged_run (as : List Action) (h : Along step NoneStranded System.empty as) :
    NotWedged (run step System.empty as) := by
  obtain ⟨haccounted, hlogged⟩ := run_invariant (I := fun s => Accounted s ∧ Logged s)
    accounted_step ⟨accounted_empty, logged_empty⟩ h
  intro head hhead hcompleted
  have hahead : (run step System.empty as).cursor < head.id := by
    simpa using find?_some hhead
  rcases haccounted head.id hcompleted with hle | ⟨w, hw, hwill⟩
  · omega
  · obtain ⟨n, hn⟩ := willPass_run (hlogged.phaseOf_eq hw) hwill (hlogged.drawn w hw).consecutive (calm 0)
    refine ⟨_, fun a ha => ?_, hn⟩
    rw [eq_of_mem_replicate ha]
    rfl

def Phase.held : Phase → Option Nat
  | .working event _ _ | .committed event _ _ | .threw event _ => some event.id
  | _ => none

/-- A completed event ahead of the cursor that no drain in flight has leased or passed. -/
structure Stranded (eventId : Nat) (s : System) : Prop where
  completed : isCompleted eventId s
  unpassed : Unpassed eventId s
  free : ∀ w ∈ s.workers, w.2.held ≠ some eventId

section Stranded

variable {s : System} {eventId : Nat}

theorem Stranded.setState (h : Stranded eventId s) {id : Nat} {state : EventState}
    (hstate : id = eventId → state.status = .completed) :
    Stranded eventId (setState id state s) where
  completed := by
    by_cases heq : eventId = id
    · subst heq
      rw [isCompleted_setState_self]
      exact decide_eq_true (hstate rfl)
    · simpa only [isCompleted, setState_of_ne heq] using h.completed
  unpassed := h.unpassed
  free := h.free

theorem Stranded.setPhase (h : Stranded eventId s) (worker : Nat) (next : Phase)
    (hreach : next.reach < eventId) (hheld : next.held ≠ some eventId) :
    Stranded eventId (setPhase worker next s) where
  completed := h.completed
  unpassed :=
    ⟨h.unpassed.1, forall_setPhase (P := fun p => p.reach < eventId) h.unpassed.2 hreach worker⟩
  free := forall_setPhase (P := fun p => p.held ≠ some eventId) h.free hheld worker

theorem Stranded.endDrain (h : Stranded eventId s) (worker : Nat) :
    Stranded eventId (endDrain worker s) where
  completed := h.completed
  unpassed := ⟨h.unpassed.1, forall_endDrain (P := fun p => p.reach < eventId) h.unpassed.2 worker⟩
  free := forall_endDrain (P := fun p => p.held ≠ some eventId) h.free worker

theorem Stranded.commit (h : Stranded eventId s) (weather : Weather) (event : DomainEvent) :
    Stranded eventId (commit weather event s) := by
  obtain ⟨hstates, hcursor, hworkers⟩ := commit_frame weather event s
  refine ⟨?_, ⟨?_, ?_⟩, ?_⟩
  · simp only [isCompleted, hstates]
    exact h.completed
  · rw [hcursor]
    exact h.unpassed.1
  · rw [hworkers]
    exact h.unpassed.2
  · rw [hworkers]
    exact h.free

/-- A drain that is done with the first event of its batch has only this event behind it. -/
theorem reach_tail (hbatch : Consecutive (event :: rest)) (h : event.id < eventId) :
    (Phase.scanning rest event.id).reach < eventId :=
  Nat.lt_of_le_of_lt (Nat.max_le.mpr ⟨Nat.le_refl _, before_tail hbatch⟩) h

theorem stranded_advancePhase (h : Stranded eventId s) (hlogged : Logged s)
    (hmem : (worker, phase) ∈ s.workers) (weather : Weather) :
    Stranded eventId (advancePhase worker weather s phase) := by
  have hreach : phase.reach < eventId := h.unpassed.2 _ hmem
  have hheld : phase.held ≠ some eventId := h.free _ hmem
  have hbatch : Consecutive phase.batch := (hlogged.drawn _ hmem).consecutive
  cases phase with
  | opened after limit =>
    simp only [advancePhase]
    split
    · exact h.endDrain worker
    · rename_i hne
      apply h.setPhase
      · have hnum := nextBatch_numberedFrom hlogged.numbered after limit
        cases hnext : nextBatch after limit s.events with
        | nil => exact absurd hnext hne
        | cons event rest =>
          rw [hnext] at hnum
          have hid : event.id = after + 1 := (NumberedFrom.cons_iff.mp hnum).1
          simp only [Phase.reach, before] at hreach ⊢
          omega
      · simp [Phase.held]
  | fetched batch =>
    exact h.setPhase worker (.scanning batch s.cursor) (Nat.max_lt.mpr ⟨h.unpassed.1, hreach⟩)
      (by simp [Phase.held])
  | scanning batch last =>
    cases batch with
    | nil =>
      exact h.setPhase worker (.finishing last) (Nat.lt_of_le_of_lt (Nat.le_max_left last 0) hreach)
        (by simp [Phase.held])
    | cons event rest =>
      simp only [advancePhase]
      split
      · rename_i hcleared
        apply h.setPhase
        · apply reach_tail hbatch
          -- a completed event is not cleared
          have hne : event.id ≠ eventId := by
            rintro rfl
            obtain ⟨state, hstate, hstatus⟩ := (any_eq_true _ _).mp h.completed
            simp only [isOperatorCleared, hstate, any_some,
              of_decide_eq_true hstatus] at hcleared
            exact absurd hcleared (by decide)
          simp only [Phase.reach, before] at hreach
          omega
        · simp [Phase.held]
      · exact h.setPhase worker (.registering event rest last) hreach (by simp [Phase.held])
  | registering event rest last =>
    have hset : event.id = eventId → (stateOf event.id s).status = .completed := by
      rintro rfl
      have hcompleted := h.completed
      rw [isCompleted_eq] at hcompleted
      exact of_decide_eq_true hcompleted
    exact (h.setState hset).setPhase worker (.leasing event rest last) hreach
      (by simp [Phase.held])
  | leasing event rest last =>
    simp only [advancePhase, lease]
    split
    · rename_i hlease
      -- a completed event is not leased
      have hne : event.id ≠ eventId := by
        rintro rfl
        have hcompleted := h.completed
        rw [isCompleted_eq] at hcompleted
        have hnot := EventState.not_done_of_leasable hlease
        rw [of_decide_eq_true hcompleted] at hnot
        exact absurd hnot (by decide)
      exact (h.setState fun heq => absurd heq hne).setPhase worker (.working event rest last) hreach
        (by simpa [Phase.held] using hne)
    · exact h.setPhase worker (.finishing last)
        (Nat.lt_of_le_of_lt (Nat.le_max_left last _) hreach) (by simp [Phase.held])
  | working event rest last =>
    simp only [advancePhase]
    split
    · exact h.setPhase worker (.threw event last)
        (Nat.lt_of_le_of_lt (Nat.le_max_left last _) hreach) hheld
    · exact (h.commit weather event).setPhase worker (.committed event rest last) hreach hheld
  | committed event rest last =>
    have hne : event.id ≠ eventId := by simpa [Phase.held] using hheld
    apply (h.setState fun heq => absurd heq hne).setPhase
    · apply reach_tail hbatch
      simp only [Phase.reach] at hreach
      omega
    · simp [Phase.held]
  | threw event last =>
    have hne : event.id ≠ eventId := by simpa [Phase.held] using hheld
    exact (h.setState fun heq => absurd heq hne).setPhase worker (.finishing last) hreach
      (by simp [Phase.held])
  | finishing last =>
    have hcursor : Stranded eventId (advanceCursor last s) :=
      ⟨h.completed, ⟨Nat.max_lt.mpr ⟨h.unpassed.1, hreach⟩, h.unpassed.2⟩, h.free⟩
    exact hcursor.endDrain worker

theorem stranded_operatorAction (h : Stranded eventId s) (input : OperatorInput) :
    Stranded eventId (operatorAction input s) := by
  unfold operatorAction
  split
  · exact h
  · rename_i state hstate
    apply h.setState
    rintro rfl
    -- no operator may act on a completed event
    unfold actionableState at hstate
    split at hstate
    · obtain ⟨hsome, hactionable⟩ := filter_eq_some_iff.mp hstate
      have hcompleted := h.completed
      simp only [isCompleted, hsome, any_some] at hcompleted
      rw [of_decide_eq_true hcompleted] at hactionable
      exact absurd hactionable (by decide)
    · simp at hstate

theorem stranded_step (s : System) (a : Action) (h : Stranded eventId s ∧ Logged s)
    (ha : a.continues) : Stranded eventId (step s a) ∧ Logged (step s a) := by
  obtain ⟨h, hlogged⟩ := h
  refine ⟨?_, logged_step s a hlogged⟩
  cases a with
  | begin worker limit =>
    simp only [step]
    split
    · exact h
    · exact h.setPhase worker (.opened s.cursor limit) h.unpassed.1 (by simp [Phase.held])
  | resume worker weather =>
    simp only [step]
    split
    · exact h
    · rename_i phase hphase
      exact stranded_advancePhase h hlogged (mem_of_phaseOf hphase) weather
  | operator input => exact stranded_operatorAction h input
  | emit | crash | resetCursor | createCampaign | setCampaignActive | settleSpiff | otherSpiff =>
    exact absurd ha (by simp [Action.continues])

theorem cursor_lt_of_stranded (h : Stranded eventId s) (hlogged : Logged s) {as : List Action}
    (has : ∀ a ∈ as, a.continues) : (run step s as).cursor < eventId :=
  have hstranded := run_invariant (I := fun s => Stranded eventId s ∧ Logged s) stranded_step
    ⟨h, hlogged⟩ (along_of_forall has)
  hstranded.1.unpassed.1

end Stranded

instance (eventId : Nat) (s : System) : Decidable (Stranded eventId s) :=
  decidable_of_iff
    (isCompleted eventId s ∧ Unpassed eventId s ∧ ∀ w ∈ s.workers, w.2.held ≠ some eventId)
    ⟨fun h => ⟨h.1, h.2.1, h.2.2⟩, fun h => ⟨h.completed, h.unpassed, h.free⟩⟩

/-- The worker dies after it marks the event completed and before it moves the cursor. -/
theorem not_notWedged_crashBeforeAdvance :
    ¬ NotWedged (run step System.empty (.emit approval :: drains 1 7 0 ++ [.crash 1])) := by
  intro h
  have hlogged : Logged (run step System.empty (.emit approval :: drains 1 7 0 ++ [.crash 1])) :=
    run_invariant_all logged_step _ logged_empty
  have hstranded : Stranded 1
      (run step System.empty (.emit approval :: drains 1 7 0 ++ [.crash 1])) := by
    decide +kernel
  obtain ⟨as, has, hle⟩ := h { approval with id := 1 } (by decide +kernel) (by decide +kernel)
  exact absurd hle (Nat.not_le.mpr (cursor_lt_of_stranded hstranded hlogged has))

/-- The worker dies while it works on the event; another leases it when the lease has expired and
completes it. -/
theorem notWedged_run_takenOver :
    NotWedged (run step System.empty (.emit approval :: drains 1 5 0 ++
      .crash 1 :: drains 2 7 60000)) :=
  notWedged_run _ (by decide +kernel)

end HomefrontFiber.Incentive
