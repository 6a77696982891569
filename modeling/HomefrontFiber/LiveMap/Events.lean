import HomefrontFiber.Foundation.IsoText
import HomefrontFiber.Foundation.Ring
import HomefrontFiber.Foundation.Runs

/-!
# The lead event ring and its replay

`server/leadEvents.ts` numbers every lead change of the process, keeps the newest ones in a ring
and replays a tenant's events after a cursor. The ring is shared by all tenants, so an event of one
tenant evicts the events of the others. `emitLeadEvent`, `eventsSince` and `leadEventsCursor` are
the functions of the source; a history is the list of emits of one epoch.
-/

namespace HomefrontFiber.LiveMap

open List

inductive LeadEventType where
  | outcome
  | notes
  | assignment
  | status
  | callingLock

/-- An event of the bus; `Pin` is the projection of the lead row that it carries. -/
structure LeadEvent (Pin : Type) where
  epoch : String
  seq : Nat
  ts : Text
  tenantId : Int
  leadId : Int
  type : LeadEventType
  actorId : Option Int
  actorName : Option String
  lead : Option Pin

structure LeadEventInput (Pin : Type) where
  tenantId : Int
  leadId : Int
  type : LeadEventType
  actorId : Option Int
  actorName : Option String
  lead : Option Pin

structure LeadEventReplay (Pin : Type) where
  epoch : String
  events : List (LeadEvent Pin)
  gapped : Bool
  nextSeq : Nat

/-- The module state: the boot identity, the counter and the ring. -/
structure LeadEventBus (Pin : Type) where
  epoch : String
  seq : Nat
  ring : List (LeadEvent Pin)

/-- `RING_MAX`, from the number in `LEAD_EVENTS_MAX` when there is one. -/
def ringMax (leadEventsMax : Option Int) : Nat :=
  (max 100 (match leadEventsMax with
    | none => 500
    | some n => if n = 0 then 500 else n)).toNat

def replayMax : Nat := 200

variable {Pin : Type} (limit : Option Int) (scrubSecretText : String → String)

def str (text : Option String) : Option String := text.filter (· ≠ "")

/-- An input names a tenant and a lead, or its event is dropped. -/
def LeadEventInput.attributed (input : LeadEventInput Pin) : Bool :=
  decide (0 < input.tenantId) && decide (0 < input.leadId)

def LeadEventInput.event (input : LeadEventInput Pin) (now : Int) (bus : LeadEventBus Pin) :
    LeadEvent Pin where
  epoch := bus.epoch
  seq := bus.seq + 1
  ts := toISOString now
  tenantId := input.tenantId
  leadId := input.leadId
  type := input.type
  actorId := input.actorId
  actorName := (str input.actorName).map scrubSecretText
  lead := input.lead

def emitLeadEvent (bus : LeadEventBus Pin) (input : LeadEventInput Pin) (now : Int) :
    LeadEventBus Pin × Option (LeadEvent Pin) :=
  if input.attributed then
    let evt := input.event scrubSecretText now bus
    ({ bus with seq := bus.seq + 1, ring := Ring.push (ringMax limit) bus.ring evt }, some evt)
  else (bus, none)

/-- Replay a tenant's events after a cursor; an invalid cursor counts as zero. -/
def eventsSince (bus : LeadEventBus Pin) (tenantId : Int) (seq : Int) : LeadEventReplay Pin :=
  let cursor := seq.toNat
  if tenantId ≤ 0 then
    { epoch := bus.epoch, events := [], gapped := false, nextSeq := cursor }
  else
    let gapped := match bus.ring.head? with
      | none => false
      | some oldest => decide (0 < cursor) && decide (cursor + 1 < oldest.seq)
    let events :=
      (bus.ring.filter fun evt => evt.tenantId = tenantId ∧ cursor < evt.seq).take replayMax
    { epoch := bus.epoch, events, gapped, nextSeq := (events.getLast?.map (·.seq)).getD cursor }

/-- The newest number of a tenant in the ring, zero when the ring holds none of its events. -/
def leadEventsCursor (bus : LeadEventBus Pin) (tenantId : Int) : Nat :=
  if tenantId ≤ 0 then 0
  else ((bus.ring.reverse.find? (·.tenantId = tenantId)).map (·.seq)).getD 0

structure Emit (Pin : Type) where
  input : LeadEventInput Pin
  now : Int

def emit (bus : LeadEventBus Pin) (e : Emit Pin) : LeadEventBus Pin :=
  (emitLeadEvent limit scrubSecretText bus e.input e.now).1

def LeadEventBus.boot (epoch : String) : LeadEventBus Pin := { epoch, seq := 0, ring := [] }

def emitted (bus : LeadEventBus Pin) : List (Emit Pin) → List (LeadEvent Pin)
  | [] => []
  | e :: later =>
    (emitLeadEvent limit scrubSecretText bus e.input e.now).2.toList ++
      emitted (emit limit scrubSecretText bus e) later

structure Holds (bus : LeadEventBus Pin) (log : List (LeadEvent Pin)) : Prop where
  ring : bus.ring = Ring.newest (ringMax limit) log
  seq : bus.seq = log.length
  numbered : log.map (·.seq) = List.range' 1 log.length
  attributed : ∀ evt ∈ log, 0 < evt.tenantId

variable {limit scrubSecretText}

theorem ringMax_pos : 0 < ringMax limit := by
  unfold ringMax
  omega

theorem holds_boot (epoch : String) :
    Holds limit (LeadEventBus.boot epoch) ([] : List (LeadEvent Pin)) where
  ring := drop_nil.symm
  seq := rfl
  numbered := rfl
  attributed _ h := absurd h not_mem_nil

/-- One emit appends its event, when it is not dropped, to the log that the ring is the end of. -/
theorem Holds.emit {bus : LeadEventBus Pin} {log : List (LeadEvent Pin)} (h : Holds limit bus log)
    (e : Emit Pin) :
    Holds limit (emit limit scrubSecretText bus e)
      (log ++ (emitLeadEvent limit scrubSecretText bus e.input e.now).2.toList) := by
  unfold LiveMap.emit emitLeadEvent
  by_cases hattr : e.input.attributed = true
  · rw [if_pos hattr]
    have htenant : 0 < e.input.tenantId := by
      unfold LeadEventInput.attributed at hattr
      rw [Bool.and_eq_true, decide_eq_true_eq, decide_eq_true_eq] at hattr
      exact hattr.1
    constructor
    · change Ring.push _ bus.ring _ = _
      rw [h.ring]
      exact Ring.push_newest ringMax_pos log _
    · simp [h.seq]
    · have hseq : (e.input.event scrubSecretText e.now bus).seq = 1 + log.length := by
        change bus.seq + 1 = _
        rw [h.seq, Nat.add_comm]
      simp [h.numbered, hseq, range'_concat]
    · intro evt hevt
      rcases mem_append.mp hevt with hevt | hevt
      · exact h.attributed evt hevt
      · obtain rfl := mem_singleton.mp hevt
        exact htenant
  · rw [if_neg hattr]
    simpa using h

theorem Holds.run {bus : LeadEventBus Pin} {log : List (LeadEvent Pin)} (h : Holds limit bus log)
    (history : List (Emit Pin)) :
    Holds limit (run (LiveMap.emit limit scrubSecretText) bus history)
      (log ++ emitted limit scrubSecretText bus history) := by
  induction history generalizing bus log with
  | nil => simpa [emitted] using h
  | cons e later ih =>
    have hnext := ih (h.emit e : Holds limit (LiveMap.emit limit scrubSecretText bus e) _)
    rw [append_assoc] at hnext
    exact hnext

theorem Holds.sorted {bus : LeadEventBus Pin} {log : List (LeadEvent Pin)}
    (h : Holds limit bus log) : log.Pairwise (·.seq < ·.seq) := by
  rw [← pairwise_map (f := LeadEvent.seq) (R := (· < ·)), h.numbered]
  exact pairwise_lt_range'

section Replay

variable (bus : LeadEventBus Pin) (log : List (LeadEvent Pin)) (tenantId : Int)

def laterEvents (cursor : Nat) : List (LeadEvent Pin) :=
  log.filter fun evt => evt.tenantId = tenantId ∧ cursor < evt.seq

/-- An event of the tenant that came after the cursor has left the ring. -/
def Missed (cursor : Nat) : Prop := ∃ evt ∈ laterEvents log tenantId cursor, evt ∉ bus.ring

/-- What a client collects that asks again with `nextSeq` until no event is returned. -/
inductive Replays : Nat → List (LeadEvent Pin) → Prop
  | done {cursor : Nat} (hempty : (eventsSince bus tenantId cursor).events = []) :
      Replays cursor []
  | more {cursor : Nat} {rest : List (LeadEvent Pin)}
      (hevents : (eventsSince bus tenantId cursor).events ≠ [])
      (hrest : Replays (eventsSince bus tenantId cursor).nextSeq rest) :
      Replays cursor ((eventsSince bus tenantId cursor).events ++ rest)

/-- A replay never hides a gap: it reports one when an event of the tenant after the cursor has
left the ring, and otherwise the client collects the tenant's later events, in order. -/
structure HidesNoGap (cursor : Nat) : Prop where
  gap : Missed bus log tenantId cursor → (eventsSince bus tenantId cursor).gapped = true
  replay : ¬ Missed bus log tenantId cursor →
    Replays bus tenantId cursor (laterEvents log tenantId cursor)
  sorted : (laterEvents log tenantId cursor).Pairwise (·.seq < ·.seq)

end Replay

variable {bus : LeadEventBus Pin} {log : List (LeadEvent Pin)} {tenantId : Int}

def tenantRing (bus : LeadEventBus Pin) (tenantId : Int) : List (LeadEvent Pin) :=
  bus.ring.filter (·.tenantId = tenantId)

theorem eventsSince_events (htenant : 0 < tenantId) (cursor : Nat) :
    (eventsSince bus tenantId cursor).events =
      page LeadEvent.seq replayMax (tenantRing bus tenantId) cursor := by
  unfold eventsSince page above tenantRing
  rw [if_neg (by omega), filter_filter]
  simp only [Int.toNat_natCast, Bool.decide_and, Bool.and_comm]

theorem eventsSince_nextSeq (htenant : 0 < tenantId) (cursor : Nat) :
    (eventsSince bus tenantId cursor).nextSeq =
      nextCursor LeadEvent.seq replayMax (tenantRing bus tenantId) cursor := by
  have hevents : (eventsSince bus tenantId cursor).events = _ := eventsSince_events htenant cursor
  unfold nextCursor
  rw [← hevents]
  unfold eventsSince
  rw [if_neg (by omega)]
  rfl

variable {cursor : Nat} {evicted : List (LeadEvent Pin)} {old : LeadEvent Pin}

theorem replays_of_reads (htenant : 0 < tenantId) {events : List (LeadEvent Pin)}
    (h : Reads LeadEvent.seq replayMax (tenantRing bus tenantId) cursor events) :
    Replays bus tenantId cursor events := by
  induction h with
  | done hempty => exact .done ((eventsSince_events htenant _).trans hempty)
  | @more cursor rest hpage _ ih =>
    rw [← eventsSince_events htenant] at hpage ⊢
    rw [← eventsSince_nextSeq htenant] at ih
    exact .more hpage ih

theorem laterEvents_eq (log : List (LeadEvent Pin)) (tenantId : Int) (cursor : Nat) :
    laterEvents log tenantId cursor =
      above LeadEvent.seq (log.filter (·.tenantId = tenantId)) cursor := by
  unfold laterEvents above
  rw [filter_filter]
  simp only [Bool.decide_and, Bool.and_comm]

section

variable (h : Holds limit bus log)
include h

theorem Holds.split : ∃ evicted, log = evicted ++ bus.ring := by
  obtain ⟨evicted, hsplit⟩ := Ring.newest_suffix (ringMax limit) log
  rw [← h.ring] at hsplit
  exact ⟨evicted, hsplit.symm⟩

theorem Holds.evicted_lt
    (hsplit : log = evicted ++ bus.ring) {evt : LeadEvent Pin} (hold : old ∈ evicted)
    (hevt : evt ∈ bus.ring) : old.seq < evt.seq := by
  have hsorted := h.sorted
  rw [hsplit] at hsorted
  exact (pairwise_append.mp hsorted).2.2 old hold evt hevt

theorem Holds.evicted_notMem (hsplit : log = evicted ++ bus.ring) (hold : old ∈ evicted) :
    old ∉ bus.ring := by
  intro hmem
  exact Nat.lt_irrefl _ (h.evicted_lt hsplit hold hmem)

theorem Holds.laterEvents_ring (hmissed : ¬ Missed bus log tenantId cursor) :
    laterEvents log tenantId cursor = above LeadEvent.seq (tenantRing bus tenantId) cursor := by
  obtain ⟨evicted, hsplit⟩ := h.split
  have hnone : laterEvents evicted tenantId cursor = [] := by
    apply filter_eq_nil_iff.mpr
    intro old hold hlater
    apply hmissed
    have hmem : old ∈ log := hsplit ▸ mem_append_left _ hold
    exact ⟨old, mem_filter.mpr ⟨hmem, hlater⟩, h.evicted_notMem hsplit hold⟩
  calc laterEvents log tenantId cursor
      = laterEvents evicted tenantId cursor ++ laterEvents bus.ring tenantId cursor := by
        rw [hsplit]
        exact filter_append _ _
    _ = above LeadEvent.seq (tenantRing bus tenantId) cursor := by
        rw [hnone, nil_append, laterEvents_eq]
        rfl

theorem Holds.tenant_pos (hmissed : Missed bus log tenantId cursor) : 0 < tenantId := by
  obtain ⟨evt, hevt, -⟩ := hmissed
  obtain ⟨hlog, hlater⟩ := mem_filter.mp hevt
  have htenant : evt.tenantId = tenantId := (of_decide_eq_true hlater).1
  exact htenant ▸ h.attributed evt hlog

theorem Holds.gapped (hpos : 0 < cursor) (hmissed : Missed bus log tenantId cursor) :
    (eventsSince bus tenantId cursor).gapped = true := by
  have htenant := h.tenant_pos hmissed
  obtain ⟨evicted, hsplit⟩ := h.split
  obtain ⟨evt, hevt, hout⟩ := hmissed
  obtain ⟨hlog, hlater⟩ := mem_filter.mp hevt
  have hafter : cursor < evt.seq := (of_decide_eq_true hlater).2
  have hevicted : evt ∈ evicted := by
    rw [hsplit] at hlog
    exact (mem_append.mp hlog).resolve_right hout
  cases hhead : bus.ring.head? with
  | none =>
    -- The ring of a log that is not empty holds its last event.
    have hempty : bus.ring = [] := head?_eq_none_iff.mp hhead
    have hlen : (Ring.newest (ringMax limit) log).length = 0 := by
      rw [← h.ring, hempty]
      rfl
    have hlim : 0 < ringMax limit := ringMax_pos
    have hlog' := length_pos_of_mem (hsplit ▸ hlog : evt ∈ log)
    unfold Ring.newest at hlen
    rw [length_drop] at hlen
    omega
  | some oldest =>
    have hlt := h.evicted_lt hsplit hevicted (mem_of_head? hhead)
    unfold eventsSince
    rw [if_neg (by omega), hhead]
    simp only [Int.toNat_natCast, Bool.and_eq_true, decide_eq_true_eq]
    omega

end

theorem gapped_zero (bus : LeadEventBus Pin) (tenantId : Int) :
    (eventsSince bus tenantId 0).gapped = false := by
  unfold eventsSince
  split
  · rfl
  · cases bus.ring.head? <;> simp

theorem Holds.replays (h : Holds limit bus log) (hmissed : ¬ Missed bus log tenantId cursor) :
    Replays bus tenantId cursor (laterEvents log tenantId cursor) := by
  by_cases htenant : 0 < tenantId
  · rw [h.laterEvents_ring hmissed]
    apply replays_of_reads htenant
    have hsorted : bus.ring.Pairwise (·.seq < ·.seq) := by
      obtain ⟨evicted, hsplit⟩ := h.split
      have hlog := h.sorted
      rw [hsplit] at hlog
      exact (pairwise_append.mp hlog).2.1
    exact reads_above (hsorted.filter _) (by decide) cursor
  · have hnone : laterEvents log tenantId cursor = [] := by
      apply filter_eq_nil_iff.mpr
      intro evt hevt hlater
      have heq : evt.tenantId = tenantId := (of_decide_eq_true hlater).1
      exact htenant (heq ▸ h.attributed evt hevt)
    rw [hnone]
    apply Replays.done
    unfold eventsSince
    rw [if_pos (by omega)]

section Histories

variable (limit : Option Int) (scrubSecretText : String → String) (epoch : String)

def busAfter (history : List (Emit Pin)) : LeadEventBus Pin :=
  run (emit limit scrubSecretText) (LeadEventBus.boot epoch) history

def logAfter (history : List (Emit Pin)) : List (LeadEvent Pin) :=
  emitted limit scrubSecretText (LeadEventBus.boot epoch) history

/-- The cursors that the server has handed to a client of a tenant. -/
inductive Handed (tenantId : Int) : List (Emit Pin) → Nat → Prop
  | fresh (past : List (Emit Pin)) :
      Handed tenantId past (leadEventsCursor (busAfter limit scrubSecretText epoch past) tenantId)
  | later {past : List (Emit Pin)} {cursor : Nat} (h : Handed tenantId past cursor)
      (more : List (Emit Pin)) : Handed tenantId (past ++ more) cursor
  | replay {past : List (Emit Pin)} {cursor : Nat} (h : Handed tenantId past cursor) :
      Handed tenantId past
        (eventsSince (busAfter limit scrubSecretText epoch past) tenantId cursor).nextSeq

theorem holds_busAfter (history : List (Emit Pin)) :
    Holds limit (busAfter limit scrubSecretText epoch history)
      (logAfter limit scrubSecretText epoch history) := by
  have h : Holds limit (busAfter limit scrubSecretText epoch history)
      ([] ++ logAfter limit scrubSecretText epoch history) := (holds_boot epoch).run history
  rw [nil_append] at h
  exact h

/-- After every history, the replay of a tenant hides no gap from a cursor, handed out or not,
exactly when the cursor is not zero or no event of the tenant has left the ring. -/
theorem hidesNoGap_iff (history : List (Emit Pin)) (tenantId : Int) (cursor : Nat) :
    HidesNoGap (busAfter limit scrubSecretText epoch history)
        (logAfter limit scrubSecretText epoch history) tenantId cursor ↔
      0 < cursor ∨ ∀ evt ∈ logAfter limit scrubSecretText epoch history, evt.tenantId = tenantId →
        evt ∈ (busAfter limit scrubSecretText epoch history).ring := by
  have h := holds_busAfter limit scrubSecretText epoch history
  constructor
  · intro hgap
    rcases Nat.eq_zero_or_pos cursor with rfl | hpos
    · apply Or.inr
      intro evt hevt htenant
      by_contra hout
      have hseq : 0 < evt.seq := by
        have hmem : evt.seq ∈ (logAfter limit scrubSecretText epoch history).map (·.seq) :=
          mem_map_of_mem hevt
        rw [h.numbered, mem_range'_1] at hmem
        omega
      have hlater : evt ∈ laterEvents (logAfter limit scrubSecretText epoch history) tenantId 0 :=
        mem_filter.mpr ⟨hevt, decide_eq_true ⟨htenant, hseq⟩⟩
      have htrue := hgap.gap ⟨evt, hlater, hout⟩
      exact Bool.false_ne_true ((gapped_zero _ tenantId).symm.trans htrue)
    · exact Or.inl hpos
  · intro hcursor
    refine ⟨fun hmissed => ?_, h.replays, h.sorted.filter _⟩
    rcases hcursor with hpos | hring
    · exact h.gapped hpos hmissed
    · obtain ⟨evt, hevt, hout⟩ := hmissed
      obtain ⟨hlog, hlater⟩ := mem_filter.mp hevt
      exact absurd (hring evt hlog (of_decide_eq_true hlater).1) hout

end Histories

def knockedDoor : Emit Unit where
  input := { tenantId := 1, leadId := 7, type := .outcome, actorId := none, actorName := none
             lead := none }
  now := 0

theorem length_emitted_replicate (bus : LeadEventBus Unit) (n : Nat) :
    (emitted limit scrubSecretText bus (List.replicate n knockedDoor)).length = n := by
  induction n generalizing bus with
  | zero => rfl
  | succ n ih =>
    rw [replicate_succ, emitted, length_append, ih, Nat.add_comm]
    rfl

theorem tenantId_emitted_replicate (bus : LeadEventBus Unit) (n : Nat) :
    ∀ evt ∈ emitted limit scrubSecretText bus (List.replicate n knockedDoor), evt.tenantId = 1 := by
  induction n generalizing bus with
  | zero => exact fun evt hevt => absurd hevt not_mem_nil
  | succ n ih =>
    intro evt hevt
    rw [replicate_succ, emitted] at hevt
    rcases mem_append.mp hevt with hevt | hevt
    · rw [mem_singleton.mp hevt]
      rfl
    · exact ih _ evt hevt

/-- A client that connects before its tenant's first event is handed the cursor zero, and when it
asks again after one event more than the ring holds, no gap is reported. -/
theorem not_hidesNoGap_quietTenant :
    ¬ ∀ (history : List (Emit Unit)) (tenantId : Int) (cursor : Nat),
      Handed none id "boot" tenantId history cursor →
      HidesNoGap (busAfter none id "boot" history) (logAfter none id "boot" history) tenantId
        cursor := by
  intro hall
  let history := List.replicate 501 knockedDoor
  have hfresh : Handed none id "boot" 1 ([] : List (Emit Unit)) 0 := .fresh []
  have hhanded : Handed none id "boot" 1 history 0 := hfresh.later history
  have hgap := (hall history 1 0 hhanded).gap
  suffices hmissed : Missed (busAfter none id "boot" history) (logAfter none id "boot" history) 1 0
    from Bool.false_ne_true ((gapped_zero _ 1).symm.trans (hgap hmissed))
  -- The log has one event more than the ring, so one of them has left it.
  have h := holds_busAfter none id "boot" history
  obtain ⟨evicted, hsplit⟩ := h.split
  have hlog : (logAfter none id "boot" history).length = 501 := length_emitted_replicate _ 501
  have hring : (busAfter none id "boot" history).ring.length ≤ 500 := by
    rw [h.ring]
    exact Ring.length_newest_le 500 _
  cases evicted with
  | nil =>
    rw [hsplit, nil_append] at hlog
    omega
  | cons old rest =>
    have hmem : old ∈ logAfter none id "boot" history := by
      rw [hsplit]
      exact mem_append_left _ mem_cons_self
    have hout := h.evicted_notMem hsplit mem_cons_self
    have hseq : old.seq ∈ (logAfter none id "boot" history).map (·.seq) := mem_map_of_mem hmem
    rw [h.numbered, mem_range'_1] at hseq
    have htenant : old.tenantId = 1 := tenantId_emitted_replicate _ 501 old hmem
    exact ⟨old, mem_filter.mpr ⟨hmem, decide_eq_true ⟨htenant, hseq.1⟩⟩, hout⟩

end HomefrontFiber.LiveMap
