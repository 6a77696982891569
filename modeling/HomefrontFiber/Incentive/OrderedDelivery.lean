import HomefrontFiber.Incentive.Caps
import HomefrontFiber.Incentive.Queue

/-!
# The cursor passes finished events only

Everything up to the cursor is finished, and so is everything up to the point that a drain in flight
has reached. An event that is marked failed or retried behind such a point breaks this.
-/

namespace HomefrontFiber.Incentive

def EventStatus.done : EventStatus → Bool
  | .completed | .deadLettered | .resolved => true
  | _ => false

def isDone (eventId : Nat) (s : System) : Bool := (s.states eventId).any (·.status.done)

/-- A step that moves the cursor ahead leaves only finished events behind it. -/
def PassesDone (s t : System) : Prop :=
  s.cursor < t.cursor → ∀ event ∈ t.events, event.id ≤ t.cursor → isDone event.id t

def before : List DomainEvent → Nat
  | [] => 0
  | event :: _ => event.id - 1

def Phase.reach : Phase → Nat
  | .opened after _ => after
  | .fetched batch => before batch
  | .scanning batch last => max last (before batch)
  | .registering event _ last => max last (event.id - 1)
  | .leasing event _ last => max last (event.id - 1)
  | .working event _ last => max last (event.id - 1)
  | .committed event _ last => max last (event.id - 1)
  | .threw _ last => last
  | .finishing last => last

def Phase.thrown : Phase → Option DomainEvent
  | .threw event _ => some event
  | _ => none

/-- Neither the cursor nor a drain in flight has the event behind it. -/
def Unpassed (eventId : Nat) (s : System) : Prop :=
  s.cursor < eventId ∧ ∀ w ∈ s.workers, w.2.reach < eventId

/-- No event that was passed is marked failed or retried, and the cursor is only rewound. -/
def OrderKept (s : System) : Action → Prop
  | .resume worker _ => ∀ event ∈ (phaseOf worker s).bind Phase.thrown, Unpassed event.id s
  | .operator input =>
    input.action = .retry → (actionableState input s).isSome → Unpassed input.eventId s
  | .resetCursor target => target ≤ s.cursor
  | _ => True

instance (eventId : Nat) (s : System) : Decidable (Unpassed eventId s) :=
  inferInstanceAs (Decidable (_ ∧ _))

instance (s t : System) : Decidable (PassesDone s t) := inferInstanceAs (Decidable (_ → _))

instance decidableOrderKept (s : System) : ∀ a, Decidable (OrderKept s a)
  | .resume worker _ =>
    inferInstanceAs (Decidable (∀ event ∈ (phaseOf worker s).bind Phase.thrown, _))
  | .operator _ => inferInstanceAs (Decidable (_ → _))
  | .resetCursor target => inferInstanceAs (Decidable (target ≤ s.cursor))
  | .emit _ => instDecidableTrue
  | .begin _ _ => instDecidableTrue
  | .crash _ => instDecidableTrue
  | .createCampaign _ => instDecidableTrue
  | .setCampaignActive _ _ => instDecidableTrue
  | .settleSpiff _ _ _ => instDecidableTrue
  | .otherSpiff _ => instDecidableTrue

def DoneUpTo (id : Nat) (s : System) : Prop := ∀ k, 0 < k → k ≤ id → isDone k s

structure Ordered (s : System) : Prop where
  cursor : DoneUpTo s.cursor s
  reach : ∀ w ∈ s.workers, DoneUpTo w.2.reach s

theorem ordered_empty : Ordered System.empty where
  cursor _ hpos hle := absurd hpos (Nat.not_lt.mpr hle)
  reach _ hw := absurd hw List.not_mem_nil

section Writes

variable {s : System} {id : Nat}

theorem DoneUpTo.le (h : DoneUpTo id s) {id' : Nat} (hle : id' ≤ id) : DoneUpTo id' s :=
  fun k hpos hk => h k hpos (hk.trans hle)

theorem DoneUpTo.max (h : DoneUpTo id s) {id' : Nat} (h' : DoneUpTo id' s) :
    DoneUpTo (max id id') s := by
  intro k hpos hk
  rcases Nat.le_total id id' with hle | hle
  · exact h' k hpos (by omega)
  · exact h k hpos (by omega)

theorem DoneUpTo.extend (h : DoneUpTo (id - 1) s) (hdone : isDone id s) : DoneUpTo id s := by
  intro k hpos hk
  rcases Nat.eq_or_lt_of_le hk with rfl | hlt
  · exact hdone
  · exact h k hpos (by omega)

theorem isDone_setState_self (state : EventState) :
    isDone id (setState id state s) = state.status.done := by
  simp [isDone]

theorem DoneUpTo.setState (h : DoneUpTo id s) {eventId : Nat} {state : EventState}
    (hevent : id < eventId ∨ state.status.done) : DoneUpTo id (setState eventId state s) := by
  intro k hpos hk
  by_cases heq : k = eventId
  · subst heq
    rw [isDone_setState_self]
    exact hevent.resolve_left (Nat.not_lt.mpr hk)
  · simp only [isDone, setState_of_ne heq]
    exact h k hpos hk

theorem Ordered.setState (h : Ordered s) {eventId : Nat} {state : EventState}
    (hevent : Unpassed eventId s ∨ state.status.done) : Ordered (setState eventId state s) where
  cursor := h.cursor.setState (hevent.imp_left (·.1))
  reach w hw := (h.reach w hw).setState (hevent.imp_left fun hun => hun.2 w hw)

theorem Ordered.setPhase (h : Ordered s) {phase : Phase} (hphase : DoneUpTo phase.reach s)
    (worker : Nat) : Ordered (setPhase worker phase s) where
  cursor := h.cursor
  reach := forall_setPhase (P := fun p => DoneUpTo p.reach s) h.reach hphase worker

theorem Ordered.endDrain (h : Ordered s) (worker : Nat) : Ordered (endDrain worker s) where
  cursor := h.cursor
  reach := forall_endDrain (P := fun p => DoneUpTo p.reach s) h.reach worker

theorem Ordered.commit (h : Ordered s) (weather : Weather) (event : DomainEvent) :
    Ordered (commit weather event s) := by
  obtain ⟨hstates, hcursor, hworkers⟩ := commit_frame weather event s
  refine ⟨?_, ?_⟩
  · simp only [DoneUpTo, isDone, hstates, hcursor]
    exact h.cursor
  · simp only [DoneUpTo, isDone, hstates, hworkers]
    exact h.reach

theorem Ordered.unpassed (h : Ordered s) (hpos : 0 < id) (hnot : isDone id s = false) :
    Unpassed id s := by
  refine ⟨?_, fun w hw => ?_⟩
  · by_contra hle
    exact absurd (h.cursor id hpos (Nat.not_lt.mp hle)) (by simp [hnot])
  · by_contra hle
    exact absurd (h.reach w hw id hpos (Nat.not_lt.mp hle)) (by simp [hnot])

theorem before_tail {event : DomainEvent} {rest : List DomainEvent}
    (h : Consecutive (event :: rest)) : before rest ≤ event.id := by
  obtain ⟨-, hrest⟩ := consecutive_cons.mp h
  cases rest with
  | nil => exact Nat.zero_le _
  | cons next rest =>
    have hid : next.id = event.id + 1 := (NumberedFrom.cons_iff.mp hrest).1
    simp only [before]
    omega

theorem isDone_eq (id : Nat) (s : System) : isDone id s = (stateOf id s).status.done := by
  unfold isDone stateOf
  cases s.states id with
  | none => rfl
  | some state => rfl

theorem EventState.not_done_of_leasable {state : EventState} {now : Int}
    (h : state.leasable now = true) : state.status.done = false := by
  simp only [EventState.leasable, Bool.and_eq_true, Bool.or_eq_true, decide_eq_true_eq] at h
  rcases h.1.1 with (hstatus | hstatus) | hstatus
  · rw [hstatus]
    rfl
  · rw [hstatus]
    rfl
  · rw [hstatus]
    rfl

end Writes

theorem ordered_advancePhase {s : System} (h : Ordered s) (hlogged : Logged s) {worker : Nat}
    {phase : Phase} (hmem : (worker, phase) ∈ s.workers) (weather : Weather)
    (hthrew : ∀ event last, phase = .threw event last → Unpassed event.id s) :
    Ordered (advancePhase worker weather s phase) := by
  have hreach : DoneUpTo phase.reach s := h.reach _ hmem
  have hbatch : Consecutive phase.batch := (hlogged.drawn _ hmem).consecutive
  cases phase with
  | opened after limit =>
    simp only [advancePhase]
    split
    · exact h.endDrain worker
    · rename_i hne
      apply h.setPhase
      -- the batch starts right after the cursor that it was read from
      have hnum := nextBatch_numberedFrom hlogged.numbered after limit
      cases hnext : nextBatch after limit s.events with
      | nil => exact absurd hnext hne
      | cons event rest =>
        rw [hnext] at hnum
        have hid : event.id = after + 1 := (NumberedFrom.cons_iff.mp hnum).1
        apply hreach.le
        simp only [Phase.reach, before]
        omega
  | fetched batch =>
    apply h.setPhase
    exact h.cursor.max hreach
  | scanning batch last =>
    cases batch with
    | nil =>
      apply h.setPhase
      exact hreach.le (Nat.le_max_left last 0)
    | cons event rest =>
      simp only [advancePhase]
      split
      · rename_i hcleared
        apply h.setPhase
        have hdone : isDone event.id s := by
          obtain ⟨state, hstate, hstatus⟩ := Option.any_eq_true _ _ |>.mp hcleared
          simp only [isDone, hstate, Option.any_some]
          cases hcase : state.status <;> simp [hcase, EventStatus.operatorCleared] at hstatus <;> rfl
        have hevent : DoneUpTo event.id s := (hreach.le (Nat.le_max_right last _)).extend hdone
        exact hevent.le (Nat.max_le.mpr ⟨Nat.le_refl _, before_tail hbatch⟩)
      · apply h.setPhase
        exact hreach
  | registering event rest last =>
    have hpos : 0 < event.id := (consecutive_cons.mp hbatch).1
    have hset : Unpassed event.id s ∨ (stateOf event.id s).status.done := by
      cases hdone : isDone event.id s with
      | false => exact .inl (h.unpassed hpos hdone)
      | true => exact .inr (isDone_eq event.id s ▸ hdone)
    apply (h.setState hset).setPhase
    apply hreach.setState
    exact hset.imp_left fun hun => hun.2 _ hmem
  | leasing event rest last =>
    simp only [advancePhase, lease]
    split
    · rename_i hlease
      have hpos : 0 < event.id := (consecutive_cons.mp hbatch).1
      have hnot : isDone event.id s = false :=
        (isDone_eq event.id s).trans (EventState.not_done_of_leasable hlease)
      have hun : Unpassed event.id s := h.unpassed hpos hnot
      have hreach' := DoneUpTo.setState hreach (.inl (hun.2 _ hmem) :
        (Phase.leasing event rest last).reach < event.id ∨
          (leased worker weather.now (stateOf event.id s)).status.done)
      apply (h.setState (.inl hun)).setPhase
      exact hreach'
    · apply h.setPhase
      exact hreach.le (Nat.le_max_left last _)
  | working event rest last =>
    simp only [advancePhase]
    split
    · apply h.setPhase
      exact hreach.le (Nat.le_max_left last _)
    · apply (h.commit weather event).setPhase
      simp only [DoneUpTo, isDone, (commit_frame weather event s).1]
      exact hreach
  | committed event rest last =>
    apply (h.setState (.inr rfl)).setPhase
    have hevent : DoneUpTo (event.id - 1) (markCompleted event.id s) :=
      (hreach.le (Nat.le_max_right last _)).setState (.inr rfl)
    have hdone : isDone event.id (markCompleted event.id s) := isDone_setState_self _
    exact (hevent.extend hdone).le (Nat.max_le.mpr ⟨Nat.le_refl _, before_tail hbatch⟩)
  | threw event last =>
    have hun : Unpassed event.id s := hthrew event last rfl
    apply (h.setState (.inl hun)).setPhase
    exact hreach.setState (.inl (hun.2 _ hmem))
  | finishing last =>
    have hcursor : Ordered (advanceCursor last s) := ⟨h.cursor.max hreach, h.reach⟩
    exact hcursor.endDrain worker

theorem ordered_operatorAction {s : System} (h : Ordered s) {input : OperatorInput}
    (hretry : input.action = .retry → (actionableState input s).isSome → Unpassed input.eventId s) :
    Ordered (operatorAction input s) := by
  unfold operatorAction
  split
  · exact h
  · rename_i state hstate
    apply h.setState
    cases haction : input.action with
    | retry => exact .inl (hretry haction (by simp [hstate]))
    | deadLetter => exact .inr rfl
    | resolve => exact .inr rfl

theorem ordered_step (s : System) (a : Action) (h : Ordered s ∧ Logged s) (ha : OrderKept s a) :
    Ordered (step s a) ∧ Logged (step s a) := by
  obtain ⟨h, hlogged⟩ := h
  refine ⟨?_, logged_step s a hlogged⟩
  cases a with
  | emit input =>
    obtain ⟨hstates, hcursor, -, hworkers⟩ := emit_frame input s
    refine ⟨?_, ?_⟩
    · simp only [step, DoneUpTo, isDone, hstates, hcursor]
      exact h.cursor
    · simp only [step, DoneUpTo, isDone, hstates, hworkers]
      exact h.reach
  | begin worker limit =>
    simp only [step]
    split
    · exact h
    · apply h.setPhase
      exact h.cursor
  | resume worker weather =>
    simp only [step]
    split
    · exact h
    · rename_i phase hphase
      apply ordered_advancePhase h hlogged (mem_of_phaseOf hphase)
      rintro event last rfl
      exact ha event (by rw [hphase]; rfl)
  | crash worker => exact h.endDrain worker
  | operator input => exact ordered_operatorAction h ha
  | resetCursor target => exact ⟨h.cursor.le ha, h.reach⟩
  | createCampaign campaign => exact ⟨h.cursor, h.reach⟩
  | setCampaignActive id active => exact ⟨h.cursor, h.reach⟩
  | settleSpiff tenantId id paid => exact ⟨h.cursor, h.reach⟩
  | otherSpiff row => exact ⟨h.cursor, h.reach⟩

theorem emit_fold_book (l : List DomainEvent) (s : System) :
    (l.foldl (fun s e => emit e s) s).book = s.book := by
  induction l generalizing s with
  | nil => rfl
  | cons e l ih => exact (ih (emit e s)).trans (emit_frame e s).2.2.1

theorem book_advancePhase (s : System) (worker : Nat) (weather : Weather) (phase : Phase) :
    (advancePhase worker weather s phase).book = s.book ∨ ∃ event rest last,
      phase = .working event rest last ∧ weather.throws = false ∧
      (advancePhase worker weather s phase).book =
        processEvent s.events weather.around event weather.now s.book := by
  obtain ⟨t, hnext, hkept⟩ := advancePhase_cases worker weather s phase
  have hbook : (advancePhase worker weather s phase).book = t.book := by
    rcases hnext with heq | ⟨next, heq, -⟩ <;> exact heq ▸ rfl
  rw [hbook]
  rcases hkept with hsame | ⟨event, rest, last, hphase, hthrows, rfl⟩
  · exact .inl hsame.2.1
  · refine .inr ⟨event, rest, last, hphase, hthrows, ?_⟩
    simp only [commit]
    split
    · rw [emit_fold_book]
    · rfl

theorem booked_step (s : System) (a : Action) (h : Booked s.book) : Booked (step s a).book := by
  cases a with
  | emit input =>
    simp only [step, (emit_frame input s).2.2.1]
    exact h
  | begin worker limit =>
    simp only [step]
    split
    · exact h
    · exact h
  | resume worker weather =>
    simp only [step]
    split
    · exact h
    · rename_i phase _
      rcases book_advancePhase s worker weather phase with heq | ⟨event, -, -, -, -, heq⟩
      · exact heq ▸ h
      · exact heq ▸ booked_processEvent h s.events weather.around event weather.now
  | crash worker => exact h
  | operator input =>
    simp only [step, (operatorAction_frame input s).2.2.1]
    exact h
  | resetCursor target => exact h
  | createCampaign campaign => exact booked_createCampaign h campaign
  | setCampaignActive id active => exact booked_setCampaignActive h id active
  | settleSpiff tenantId id paid => exact booked_settleSpiff h tenantId id paid
  | otherSpiff row => exact booked_otherSpiff h row

/-- Every step of a run that keeps the order passes finished events only, and in every run each
reward is paid once and within the caps. -/
theorem orderedDelivery_run (as : List Action) (a : Action)
    (h : Along step OrderKept System.empty (as ++ [a])) :
    PassesDone (run step System.empty as) (run step System.empty (as ++ [a])) ∧
      RewardsUnique (run step System.empty (as ++ [a])).book ∧
      WithinCaps (run step System.empty (as ++ [a])).book := by
  obtain ⟨hordered, hlogged⟩ := run_invariant (I := fun s => Ordered s ∧ Logged s) ordered_step
    ⟨ordered_empty, logged_empty⟩ h
  have hbooked : Booked (run step System.empty (as ++ [a])).book :=
    run_invariant_all (I := fun (s : System) => Booked s.book)
      booked_step (as ++ [a]) booked_empty
  refine ⟨?_, hbooked.rewardsUnique, hbooked.caps⟩
  intro _ event hevent hle
  have hpos : 0 < event.id := hlogged.numbered.pos hevent
  exact hordered.cursor event.id hpos hle

def calm (now : Int) : Weather where
  now := now
  around := { role := none, lifetimeApprovedSales := 0, referrerRepId := none }
  throws := false
  emitted := []

/-- The approval of sale 7 of rep 3. -/
def approval : DomainEvent where
  id := 0
  tenantId := 1
  type := .saleApproved
  subjectType := .sale
  subjectId := 7
  subjectRepId := some 3
  payload := ⟨none, none, none, none, none, none, none, none⟩
  occurredAtMs := 0
  dedupeKey := "sale:7:approved"

/-- A worker starts a drain and takes so many statements of it. -/
def drains (worker statements : Nat) (now : Int) : List Action :=
  .begin worker 200 :: List.replicate statements (.resume worker (calm now))

/-- Worker 1 leases the event and stalls; worker 2 takes over when the lease expires and completes
it. The transaction of worker 1 then throws, which marks the completed event failed, and the cursor
of worker 2 passes it. -/
theorem not_passesDone_expiredLease :
    ¬ PassesDone
      (run step System.empty (.emit approval :: drains 1 5 0 ++ drains 2 8 60000 ++
        [.resume 1 { calm 60001 with throws := true }, .resume 1 (calm 60001)]))
      (run step System.empty (.emit approval :: drains 1 5 0 ++ drains 2 8 60000 ++
        [.resume 1 { calm 60001 with throws := true }, .resume 1 (calm 60001),
          .resume 2 (calm 60001)])) := by
  decide +kernel

/-- One worker drains the event alone. -/
theorem orderedDelivery_run_alone :
    let as : List Action := .emit approval :: drains 1 8 0
    PassesDone (run step System.empty as)
        (run step System.empty (as ++ [.resume 1 (calm 0)])) ∧
      RewardsUnique (run step System.empty (as ++ [.resume 1 (calm 0)])).book ∧
      WithinCaps (run step System.empty (as ++ [.resume 1 (calm 0)])).book :=
  orderedDelivery_run _ _ (by decide +kernel)

end HomefrontFiber.Incentive
