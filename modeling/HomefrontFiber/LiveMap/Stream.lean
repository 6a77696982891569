import HomefrontFiber.LiveMap.Holds

/-!
# Deliveries of the lead stream

`subscribeLeadStream` in `client/src/lib/leadStream.ts` feeds frames through the gate and hands
events to its consumer on four paths: an event that is applied at once, a release closure, a forced
release and the sweep. The logs `accepted` and `delivered` start afresh at every resync signal, so
what holds of them in every reachable state holds between any two signals; a change of epoch always
signals. Backoff, status and fallback signals leave the gate alone and are left out.
-/

namespace HomefrontFiber.LiveMap

open List Option

structure Delivery (Pin : Type) where
  event : LeadStreamEvent Pin
  deferred : Bool
  holdExpired : Bool

structure LeadStream (Pin : Type) where
  gates : GateRun Pin
  sweepTimer : Bool
  /-- The token that the last connect asked with. -/
  requested : Option SinceToken
  accepted : List (LeadStreamEvent Pin)
  delivered : List (Delivery Pin)

variable {Pin : Type}

inductive StreamAction (Pin : Type) where
  | ready (frame : LeadStreamReady)
  | lead (evt : LeadStreamEvent Pin)
  | hold (leadId : Int)
  | settle (i : Nat)
  | release (leadId : Int)
  | tick
  | reconnect
  | clock (now : Int)

namespace LeadStream

variable (holdTtlMs : Int) (s : LeadStream Pin)

def subscribe (now : Int) : LeadStream Pin where
  gates := .start now
  sweepTimer := false
  requested := none
  accepted := []
  delivered := []

abbrev gate : LeadStreamGate Pin := s.gates.gate

def syncSweepTimer : LeadStream Pin :=
  { s with sweepTimer := decide (0 < s.gate.holds.size) }

/-- `onResync`: the caller refetches the whole scope. -/
def signalResync (resync : Bool) : LeadStream Pin :=
  if resync then { s with accepted := [], delivered := [] } else s

def onReady (frame : LeadStreamReady) : LeadStream Pin :=
  let (gates, resync) := s.gates.syncReady frame
  { s with gates }.signalResync resync

def onLead (evt : LeadStreamEvent Pin) : LeadStream Pin :=
  match s.gates.accept holdTtlMs evt with
  | (gates, .drop _) => { s with gates }
  | (gates, .defer evt resync) =>
    let s := { s with gates }.signalResync resync
    { s with accepted := s.accepted ++ [evt] }
  | (gates, .apply evt resync) =>
    let s := { s with gates }.signalResync resync
    { s with
      accepted := s.accepted ++ [evt]
      delivered := s.delivered ++ [{ event := evt, deferred := false, holdExpired := false }] }

def late (holdExpired : Bool) (evt : LeadStreamEvent Pin) : Delivery Pin where
  event := evt
  deferred := true
  holdExpired := holdExpired

def hold (leadId : Int) : LeadStream Pin :=
  { s with gates := s.gates.hold leadId }.syncSweepTimer

def settle (i : Nat) : LeadStream Pin :=
  let (gates, pending) := s.gates.settle holdTtlMs i
  { s with gates, delivered := s.delivered ++ (pending.map (late false)).toList }.syncSweepTimer

def release (leadId : Int) : LeadStream Pin :=
  let (gates, pending) := s.gates.release leadId
  { s with gates, delivered := s.delivered ++ (pending.map (late false)).toList }.syncSweepTimer

def handedOut (expired : List (Int × Option (LeadStreamEvent Pin))) : List (Delivery Pin) :=
  expired.filterMap fun e => e.2.map (late true)

def tick : LeadStream Pin :=
  if s.sweepTimer then
    let (gates, expired) := s.gates.sweepHolds holdTtlMs
    { s with gates, delivered := s.delivered ++ handedOut expired }.syncSweepTimer
  else s

def reconnect : LeadStream Pin := { s with requested := s.gate.since }

def step : StreamAction Pin → LeadStream Pin
  | .ready frame => s.onReady frame
  | .lead evt => s.onLead holdTtlMs evt
  | .hold leadId => s.hold leadId
  | .settle i => s.settle holdTtlMs i
  | .release leadId => s.release leadId
  | .tick => s.tick holdTtlMs
  | .reconnect => s.reconnect
  | .clock now => { s with gates := { s.gates with now } }

/-- The event has been handed to the consumer since the last resync signal. -/
def Delivered (evt : LeadStreamEvent Pin) : Prop := ∃ d ∈ s.delivered, d.event = evt

/-- An event waits under a registered hold: a forced release of its lead hands it out, so does a
closure that takes the entry of the lead away, and so does the sweep, which is scheduled, at any
instant at which the hold has expired. -/
structure Waits (evt : LeadStreamEvent Pin) : Prop where
  withheld : s.gate.withheld.get? evt.leadId = some evt
  timer : s.sweepTimer = true
  release : (s.release evt.leadId).Delivered evt
  settle : ∀ i, (s.settle holdTtlMs i).gate.holds.get? evt.leadId = none →
    (s.settle holdTtlMs i).Delivered evt
  hold : ∃ h, s.gate.holds.get? evt.leadId = some h ∧
    ∀ now, holdTtlMs ≤ now - h.since →
      ((s.step holdTtlMs (.clock now)).tick holdTtlMs).Delivered evt

def Newest (evt : LeadStreamEvent Pin) : Prop :=
  ∀ a ∈ s.accepted, a.leadId = evt.leadId → a.seq ≤ evt.seq

/-- Since the last resync signal, the deliveries of a lead have increasing numbers, no number is
delivered twice, and the newest accepted event of every lead is delivered or waits. -/
structure MonotoneLossless : Prop where
  monotone : s.delivered.Pairwise fun a b =>
    a.event.leadId = b.event.leadId → a.event.seq < b.event.seq
  once : (s.delivered.map (·.event.seq)).Nodup
  lossless : ∀ evt ∈ s.accepted, s.Newest evt → s.Delivered evt ∨ s.Waits holdTtlMs evt

end LeadStream

structure Ordered (gate : LeadStreamGate Pin) (accepted : List (LeadStreamEvent Pin))
    (delivered : List (Delivery Pin)) : Prop where
  bounded : ∀ e ∈ accepted, e.seq ≤ gate.cursor
  increasing : accepted.Pairwise (·.seq < ·.seq)
  origin : ∀ d ∈ delivered, d.event ∈ accepted
  monotone : delivered.Pairwise fun a b =>
    a.event.leadId = b.event.leadId → a.event.seq < b.event.seq
  waiting : ∀ leadId e, gate.withheld.get? leadId = some e → e ∈ accepted ∧ e.leadId = leadId ∧
    (∀ d ∈ delivered, d.event.leadId = leadId → d.event.seq < e.seq) ∧
    ∀ a ∈ accepted, a.leadId = leadId → a.seq ≤ e.seq
  settled : ∀ a ∈ accepted, (∃ d ∈ delivered, d.event.leadId = a.leadId ∧ a.seq ≤ d.event.seq) ∨
    ∃ e, gate.withheld.get? a.leadId = some e
  registered : ∀ leadId e, gate.withheld.get? leadId = some e →
    (gate.holds.get? leadId).isSome = true

/-- A step of the handle that hands out what is withheld for some leads. -/
structure Drained (leads : List Int) (before after : LeadStreamGate Pin)
    (handed : List (Delivery Pin)) : Prop where
  cursor : after.cursor = before.cursor
  withheld : ∀ k, after.withheld.get? k = if k ∈ leads then none else before.withheld.get? k
  holds : ∀ k, k ∉ leads → (before.holds.get? k).isSome = true → (after.holds.get? k).isSome = true
  sound : ∀ d ∈ handed, ∃ k ∈ leads, before.withheld.get? k = some d.event
  complete : ∀ k ∈ leads, ∀ e, before.withheld.get? k = some e → ∃ d ∈ handed, d.event = e
  apart : (∀ k e, before.withheld.get? k = some e → e.leadId = k) →
    handed.Pairwise (·.event.leadId ≠ ·.event.leadId)

variable {gate : LeadStreamGate Pin} {accepted : List (LeadStreamEvent Pin)}
  {delivered : List (Delivery Pin)}

theorem ordered_nil {gate : LeadStreamGate Pin} (h : ∀ k, gate.withheld.get? k = none) :
    Ordered gate [] [] where
  bounded e he := absurd he not_mem_nil
  increasing := List.Pairwise.nil
  origin d hd := absurd hd not_mem_nil
  monotone := List.Pairwise.nil
  waiting k e he := by rw [h k] at he; cases he
  settled a ha := absurd ha not_mem_nil
  registered k e he := by rw [h k] at he; cases he

variable {leads : List Int} {after : LeadStreamGate Pin} {handed : List (Delivery Pin)}
  {evt : LeadStreamEvent Pin}

theorem Ordered.drained (h : Ordered gate accepted delivered)
    (hd : Drained leads gate after handed) : Ordered after accepted (delivered ++ handed) := by
  have hkept : ∀ {k e}, after.withheld.get? k = some e →
      k ∉ leads ∧ gate.withheld.get? k = some e := by
    intro k e he
    rw [hd.withheld] at he
    split at he
    · cases he
    · exact ⟨‹_›, he⟩
  constructor
  · intro e he
    rw [hd.cursor]
    exact h.bounded e he
  · exact h.increasing
  · intro d hmem
    rcases mem_append.mp hmem with hmem | hmem
    · exact h.origin d hmem
    · obtain ⟨k, -, hk⟩ := hd.sound d hmem
      exact (h.waiting k d.event hk).1
  · apply pairwise_append.mpr
    refine ⟨h.monotone, ?_, ?_⟩
    · exact (hd.apart fun k e he => (h.waiting k e he).2.1).imp fun hne heq => absurd heq hne
    · intro a ha b hb hlead
      obtain ⟨k, -, hk⟩ := hd.sound b hb
      obtain ⟨-, hbk, hbefore, -⟩ := h.waiting k b.event hk
      exact hbefore a ha (hlead.trans hbk)
  · intro k e he
    obtain ⟨hk, he⟩ := hkept he
    obtain ⟨hmem, hlead, hbefore, hnewest⟩ := h.waiting k e he
    refine ⟨hmem, hlead, ?_, hnewest⟩
    intro d hmem' hdk
    rcases mem_append.mp hmem' with hmem' | hmem'
    · exact hbefore d hmem' hdk
    · obtain ⟨k', hk', hget⟩ := hd.sound d hmem'
      have hkk : k' = k := ((h.waiting k' d.event hget).2.1).symm.trans hdk
      exact absurd (hkk ▸ hk') hk
  · intro a ha
    rcases h.settled a ha with ⟨d, hmem, hdone⟩ | ⟨e, he⟩
    · exact .inl ⟨d, mem_append_left _ hmem, hdone⟩
    · by_cases hk : a.leadId ∈ leads
      · obtain ⟨d, hmem, rfl⟩ := hd.complete a.leadId hk e he
        obtain ⟨-, hlead, -, hnewest⟩ := h.waiting a.leadId d.event he
        exact .inl ⟨d, mem_append_right _ hmem, hlead, hnewest a ha rfl⟩
      · exact .inr ⟨e, by rw [hd.withheld, if_neg hk]; exact he⟩
  · intro k e he
    obtain ⟨hk, he⟩ := hkept he
    exact hd.holds k hk (h.registered k e he)

theorem drained_nil (hcursor : after.cursor = gate.cursor)
    (hwithheld : after.withheld = gate.withheld)
    (hholds : ∀ k, (gate.holds.get? k).isSome = true → (after.holds.get? k).isSome = true) :
    Drained [] gate after [] where
  cursor := hcursor
  withheld k := by rw [hwithheld]; rfl
  holds k _ := hholds k
  sound d hd := absurd hd not_mem_nil
  complete k hk := absurd hk not_mem_nil
  apart _ := List.Pairwise.nil

/-- A release drains its lead, also when it comes after a change to the entry of that lead. -/
theorem drained_release {mid : LeadStreamGate Pin} {leadId : Int} (holdExpired : Bool)
    (hcursor : mid.cursor = gate.cursor) (hwithheld : mid.withheld = gate.withheld)
    (hholds : ∀ k, k ≠ leadId → mid.holds.get? k = gate.holds.get? k) :
    Drained [leadId] gate (mid.release leadId).1
      ((mid.release leadId).2.map (LeadStream.late holdExpired)).toList := by
  have hpending : (mid.release leadId).2 = gate.withheld.get? leadId :=
    congrArg (·.get? leadId) hwithheld
  constructor
  · exact hcursor
  · intro k
    rw [LeadStreamGate.release_withheld_get?, hwithheld]
    simp only [mem_singleton]
  · intro k hk hsome
    have hne : k ≠ leadId := fun heq => hk (mem_singleton.mpr heq)
    rw [LeadStreamGate.release_holds_get?, if_neg hne, hholds k hne]
    exact hsome
  · intro d hd
    rw [hpending, mem_toList] at hd
    obtain ⟨e, he, rfl⟩ := map_eq_some_iff.mp hd
    exact ⟨leadId, mem_cons_self, he⟩
  · intro k hk e he
    obtain rfl := mem_singleton.mp hk
    rw [hpending, he]
    exact ⟨_, mem_cons_self, rfl⟩
  · intro _
    cases (mid.release leadId).2 with
    | none => exact List.Pairwise.nil
    | some e => exact pairwise_singleton _ _

theorem drained_settle (holdTtlMs : Int) (s : GateRun Pin) (i : Nat) : ∃ leads,
    Drained leads s.gate (s.settle holdTtlMs i).1.gate
      ((s.settle holdTtlMs i).2.map (LeadStream.late false)).toList := by
  rcases @GateRun.settle_cases _ holdTtlMs s i with hsame |
    ⟨leadId, mid, hcursor, hwithheld, hholds, ⟨hheld, hgate, hnone⟩ | ⟨hgate, hpending⟩⟩
  · rw [hsame]
    exact ⟨[], drained_nil rfl rfl fun k hk => hk⟩
  · rw [hgate, hnone]
    refine ⟨[], drained_nil hcursor hwithheld fun k hk => ?_⟩
    by_cases hlead : k = leadId
    · obtain ⟨h, hget, -⟩ := LeadStreamGate.isHeld_eq_true_iff.mp hheld
      rw [hlead, hget]
      rfl
    · rw [hholds k hlead]
      exact hk
  · rw [hgate, hpending]
    exact ⟨[leadId], drained_release false hcursor hwithheld hholds⟩

theorem drained_hold (now leadId : Int) : Drained [] gate (gate.hold now leadId) [] := by
  apply drained_nil
  · exact LeadStreamGate.hold_cursor leadId
  · exact LeadStreamGate.hold_withheld leadId
  · intro k hk
    by_cases hlead : k = leadId
    · obtain ⟨h, hget⟩ := @LeadStreamGate.hold_get?_self _ now gate leadId
      rw [hlead, hget]
      rfl
    · rw [LeadStreamGate.hold_get?_of_ne hlead]
      exact hk

theorem drained_sweep (holdTtlMs now : Int) :
    Drained (gate.expiredLeads holdTtlMs now) gate (gate.sweepHolds holdTtlMs now).1
      (LeadStream.handedOut (gate.sweepHolds holdTtlMs now).2) := by
  obtain ⟨out, hperm, h⟩ := @LeadStreamGate.sweepHolds_evicted _ holdTtlMs now gate
  have hmem : ∀ d, d ∈ LeadStream.handedOut (gate.sweepHolds holdTtlMs now).2 ↔
      ∃ k ∈ gate.expiredLeads holdTtlMs now, ∃ e, gate.withheld.get? k = some e ∧
        LeadStream.late true e = d := by
    intro d
    unfold LeadStream.handedOut
    rw [mem_filterMap]
    constructor
    · rintro ⟨p, hp, hd⟩
      rw [hperm.mem_iff, h.out] at hp
      obtain ⟨k, hk, rfl⟩ := mem_map.mp hp
      obtain ⟨e, he, rfl⟩ := map_eq_some_iff.mp hd
      exact ⟨k, hk, e, he, rfl⟩
    · rintro ⟨k, hk, e, he, rfl⟩
      refine ⟨(k, some e), ?_, rfl⟩
      rw [hperm.mem_iff, h.out]
      exact mem_map.mpr ⟨k, hk, by rw [he]⟩
  constructor
  · exact h.cursor
  · exact h.withheld
  · intro k hk hsome
    rw [h.holds, if_neg hk]
    exact hsome
  · intro d hd
    obtain ⟨k, hk, e, he, rfl⟩ := (hmem d).mp hd
    exact ⟨k, hk, he⟩
  · intro k hk e he
    exact ⟨_, (hmem _).mpr ⟨k, hk, e, he, rfl⟩, rfl⟩
  · intro hlead
    -- Sorting aside, the sweep hands out one event for each expired lead.
    unfold LeadStream.handedOut
    rw [(hperm.filterMap _).pairwise_iff fun hne heq => hne heq.symm, h.out, filterMap_map]
    apply List.Pairwise.filterMap _ _ LeadStreamGate.nodup_expiredLeads
    intro k k' hne d hd d' hd'
    obtain ⟨e, he, rfl⟩ := map_eq_some_iff.mp hd
    obtain ⟨e', he', rfl⟩ := map_eq_some_iff.mp hd'
    change e.leadId ≠ e'.leadId
    rw [hlead k e he, hlead k' e' he']
    exact hne

theorem LeadStreamGate.meet_cases (gate : LeadStreamGate Pin) (evt : LeadStreamEvent Pin) :
    ((gate.meet evt).2 = false ∧ (gate.meet evt).1.cursor = gate.cursor ∧
      (gate.meet evt).1.withheld = gate.withheld) ∨
    ((gate.meet evt).2 = true ∧ (gate.meet evt).1.cursor = 0 ∧
      (gate.meet evt).1.withheld = .empty) := by
  unfold LeadStreamGate.meet
  split
  · exact .inl ⟨rfl, rfl, rfl⟩
  · split
    · exact .inr ⟨rfl, rfl, rfl⟩
    · exact .inl ⟨rfl, rfl, rfl⟩

theorem LeadStreamGate.syncReady_cases (gate : LeadStreamGate Pin) (ready : LeadStreamReady) :
    ((gate.syncReady ready).2 = false ∧ gate.cursor ≤ (gate.syncReady ready).1.cursor ∧
      (gate.syncReady ready).1.withheld = gate.withheld) ∨
    ((gate.syncReady ready).2 = true ∧ (gate.syncReady ready).1.withheld = .empty) := by
  unfold LeadStreamGate.syncReady
  dsimp only
  split
  · exact .inr ⟨rfl, rfl⟩
  · exact .inl ⟨rfl, Nat.le_max_left _ _, rfl⟩

section

variable (h : Ordered gate accepted delivered)
include h

theorem Ordered.advance
    (hcursor : gate.cursor ≤ after.cursor) (hwithheld : after.withheld = gate.withheld)
    (hholds : after.holds = gate.holds) : Ordered after accepted delivered where
  bounded e he := Nat.le_trans (h.bounded e he) hcursor
  increasing := h.increasing
  origin := h.origin
  monotone := h.monotone
  waiting := by
    rw [hwithheld]
    exact h.waiting
  settled := by
    rw [hwithheld]
    exact h.settled
  registered := by
    rw [hwithheld, hholds]
    exact h.registered

theorem Ordered.increasing_snoc
    (hnew : gate.cursor < evt.seq) : (accepted ++ [evt]).Pairwise (·.seq < ·.seq) := by
  apply pairwise_append.mpr
  refine ⟨h.increasing, pairwise_singleton _ _, ?_⟩
  intro a ha b hb
  obtain rfl := mem_singleton.mp hb
  exact Nat.lt_of_le_of_lt (h.bounded a ha) hnew

theorem Ordered.bounded_snoc (hnew : gate.cursor < evt.seq) :
    ∀ e ∈ accepted ++ [evt], e.seq ≤ evt.seq := by
  intro e he
  rcases mem_append.mp he with he | he
  · exact Nat.le_of_lt (Nat.lt_of_le_of_lt (h.bounded e he) hnew)
  · rw [mem_singleton.mp he]

theorem Ordered.event_of_seq {a b : LeadStreamEvent Pin}
    (ha : a ∈ accepted) (hb : b ∈ accepted) (heq : a.seq = b.seq) : a = b := by
  have hnodup : (accepted.map (·.seq)).Nodup := by
    apply List.Pairwise.map _ _ h.increasing
    intro x y hlt
    exact Nat.ne_of_lt hlt
  exact inj_on_of_nodup_map hnodup ha hb heq

end

/-- A new event waits behind the hold of its lead, or is handed over. -/
theorem Ordered.snoc (h : Ordered gate accepted delivered) {evt : LeadStreamEvent Pin}
    (hnew : gate.cursor < evt.seq) (waits : Bool)
    (hheld : waits = true → (gate.holds.get? evt.leadId).isSome = true)
    {withheld : InsertionMap Int (LeadStreamEvent Pin)}
    (hget : ∀ k, withheld.get? k =
      if k = evt.leadId then (if waits then some evt else none) else gate.withheld.get? k) :
    Ordered { gate with cursor := evt.seq, withheld := withheld } (accepted ++ [evt])
      (delivered ++ if waits then [] else [{ event := evt, deferred := false, holdExpired := false }]) := by
  have hbelow := h.bounded_snoc hnew
  have holder : ∀ d ∈ delivered, d.event.seq < evt.seq := fun d hd =>
    Nat.lt_of_le_of_lt (h.bounded _ (h.origin d hd)) hnew
  have hhanded : ∀ d ∈ (if waits then [] else
      [{ event := evt, deferred := false, holdExpired := false }] : List (Delivery Pin)),
      waits = false ∧ d.event = evt := by
    cases waits <;> simp
  constructor
  · exact hbelow
  · exact h.increasing_snoc hnew
  · intro d hd
    rcases mem_append.mp hd with hd | hd
    · exact mem_append_left _ (h.origin d hd)
    · rw [(hhanded d hd).2]
      exact mem_append_right _ mem_cons_self
  · refine pairwise_append.mpr ⟨h.monotone, ?_, ?_⟩
    · cases waits <;> simp
    · intro a ha b hb _
      rw [(hhanded b hb).2]
      exact holder a ha
  · intro k e he
    change withheld.get? k = some e at he
    rw [hget] at he
    split at he
    · rename_i hk
      obtain ⟨hwaits, rfl⟩ : waits = true ∧ evt = e := by simpa using he
      refine ⟨mem_append_right _ mem_cons_self, hk.symm, ?_, fun a ha _ => hbelow a ha⟩
      intro d hd _
      rcases mem_append.mp hd with hd | hd
      · exact holder d hd
      · rw [(hhanded d hd).1] at hwaits
        cases hwaits
    · rename_i hk
      obtain ⟨hmem, hlead, hbefore, hnewest⟩ := h.waiting k e he
      refine ⟨mem_append_left _ hmem, hlead, ?_, ?_⟩
      · intro d hd hdk
        rcases mem_append.mp hd with hd | hd
        · exact hbefore d hd hdk
        · rw [(hhanded d hd).2] at hdk
          exact absurd hdk.symm hk
      · intro a ha hak
        rcases mem_append.mp ha with ha | ha
        · exact hnewest a ha hak
        · rw [mem_singleton.mp ha] at hak
          exact absurd hak.symm hk
  · intro a ha
    by_cases hk : a.leadId = evt.leadId
    · cases waits with
      | true => exact .inr ⟨evt, (hget _).trans (if_pos hk)⟩
      | false =>
        exact .inl ⟨_, mem_append_right _ mem_cons_self, hk.symm, hbelow a ha⟩
    · rcases mem_append.mp ha with ha | ha
      · rcases h.settled a ha with ⟨d, hd, hdone⟩ | ⟨e, he⟩
        · exact .inl ⟨d, mem_append_left _ hd, hdone⟩
        · exact .inr ⟨e, (hget _).trans ((if_neg hk).trans he)⟩
      · rw [mem_singleton.mp ha] at hk
        exact absurd rfl hk
  · intro k e he
    change withheld.get? k = some e at he
    rw [hget] at he
    split at he
    · rename_i hk
      rw [hk]
      exact hheld (by simpa using congrArg isSome he)
    · exact h.registered k e he

namespace LeadStream

variable {holdTtlMs : Int} {s : LeadStream Pin}

structure InStep (s : LeadStream Pin) : Prop where
  ordered : Ordered s.gate s.accepted s.delivered
  timer : s.sweepTimer = decide (0 < s.gate.holds.size)

theorem inStep_subscribe (now : Int) : InStep (subscribe now : LeadStream Pin) where
  ordered := ordered_nil fun _ => rfl
  timer := rfl

section

variable (h : InStep s)
include h

theorem InStep.drained {gates : GateRun Pin} (hd : Drained leads s.gate gates.gate handed) :
    InStep { s with gates, delivered := s.delivered ++ handed }.syncSweepTimer where
  ordered := h.ordered.drained hd
  timer := rfl

theorem InStep.hold (leadId : Int) : InStep (s.hold leadId) := by
  have hd : Drained [] s.gate (s.gates.hold leadId).gate [] := drained_hold s.gates.now leadId
  have := h.drained hd
  rw [append_nil] at this
  exact this

theorem InStep.settle (i : Nat) : InStep (s.settle holdTtlMs i) := by
  obtain ⟨leads, hd⟩ := drained_settle holdTtlMs s.gates i
  exact h.drained hd

theorem InStep.release (leadId : Int) : InStep (s.release leadId) := by
  have hd : Drained [leadId] s.gate (s.gates.release leadId).1.gate
      ((s.gates.release leadId).2.map (late false)).toList :=
    drained_release false rfl rfl fun _ _ => rfl
  exact h.drained hd

theorem InStep.tick : InStep (s.tick holdTtlMs) := by
  unfold LeadStream.tick
  split
  · have hd : Drained _ s.gate (s.gates.sweepHolds holdTtlMs).1.gate _ :=
      drained_sweep holdTtlMs s.gates.now
    exact h.drained hd
  · exact h

theorem InStep.onReady (frame : LeadStreamReady) : InStep (s.onReady frame) := by
  have htimer : s.sweepTimer = decide (0 < (s.gate.syncReady frame).1.holds.size) := by
    rw [LeadStreamGate.syncReady_holds]
    exact h.timer
  unfold LeadStream.onReady LeadStream.signalResync GateRun.syncReady
  dsimp only
  rcases s.gate.syncReady_cases frame with ⟨hresync, hcursor, hwithheld⟩ | ⟨hresync, hwithheld⟩
  · rw [if_neg (by rw [hresync]; exact Bool.false_ne_true)]
    exact ⟨h.ordered.advance hcursor hwithheld (LeadStreamGate.syncReady_holds frame), htimer⟩
  · rw [if_pos hresync]
    refine ⟨ordered_nil fun k => ?_, htimer⟩
    exact congrArg (·.get? k) hwithheld

theorem InStep.met (evt : LeadStreamEvent Pin) :
    Ordered (s.gate.meet evt).1 (if (s.gate.meet evt).2 then [] else s.accepted)
      (if (s.gate.meet evt).2 then [] else s.delivered) := by
  rcases s.gate.meet_cases evt with ⟨hresync, hcursor, hwithheld⟩ | ⟨hresync, -, hwithheld⟩
  · rw [hresync]
    exact h.ordered.advance (Nat.le_of_eq hcursor.symm) hwithheld (LeadStreamGate.meet_holds evt)
  · rw [hresync]
    exact ordered_nil fun k => congrArg (·.get? k) hwithheld

theorem InStep.onLead (evt : LeadStreamEvent Pin) : InStep (s.onLead holdTtlMs evt) := by
  have hmet := h.met evt
  have hholds : (s.gate.meet evt).1.holds = s.gate.holds := LeadStreamGate.meet_holds evt
  have htimer : s.sweepTimer = decide (0 < (s.gate.meet evt).1.holds.size) := by
    rw [hholds]
    exact h.timer
  rcases @LeadStreamGate.accept_cases _ holdTtlMs s.gates.now s.gate evt with
    ⟨hold, reason, hacc⟩ | ⟨hnew, hheld, hacc⟩ | ⟨hnew, hfree, hacc⟩
  · -- A dropped event raises no signal: a gate that has just taken over an epoch drops nothing.
    have hresync : (s.gate.meet evt).2 = false := by
      rcases s.gate.meet_cases evt with ⟨hresync, -, -⟩ | ⟨-, hcursor, -⟩
      · exact hresync
      · have := evt.seq_pos
        omega
    have hstep : s.onLead holdTtlMs evt =
        { s with gates := { s.gates with gate := (s.gate.meet evt).1 } } := by
      unfold LeadStream.onLead GateRun.accept
      rw [hacc]
    rw [hresync] at hmet
    rw [hstep]
    exact ⟨hmet, htimer⟩
  · obtain ⟨e, he, -⟩ := LeadStreamGate.isHeld_eq_true_iff.mp hheld
    have hsome : ((s.gate.meet evt).1.holds.get? evt.leadId).isSome = true := by
      rw [hholds, he]
      rfl
    have hdefer := hmet.snoc hnew true (fun _ => hsome)
      fun k => (s.gate.meet evt).1.withheld.get?_set evt.leadId k evt
    rw [if_pos rfl, append_nil] at hdefer
    unfold LeadStream.onLead GateRun.accept
    rw [hacc]
    unfold LeadStream.signalResync
    cases hresync : (s.gate.meet evt).2 with
    | true =>
      rw [hresync] at hdefer
      exact ⟨hdefer, htimer⟩
    | false =>
      rw [hresync] at hdefer
      exact ⟨hdefer, htimer⟩
  · have happly := hmet.snoc hnew false (by simp)
      fun k => (s.gate.meet evt).1.withheld.get?_delete evt.leadId k
    unfold LeadStream.onLead GateRun.accept
    rw [hacc]
    unfold LeadStream.signalResync
    cases hresync : (s.gate.meet evt).2 with
    | true =>
      rw [hresync] at happly
      exact ⟨happly, htimer⟩
    | false =>
      rw [hresync] at happly
      exact ⟨happly, htimer⟩

end

theorem inStep_step (s : LeadStream Pin) (a : StreamAction Pin) (h : InStep s) :
    InStep (s.step holdTtlMs a) := by
  cases a with
  | ready frame => exact h.onReady frame
  | lead evt => exact h.onLead evt
  | hold leadId => exact h.hold leadId
  | settle i => exact h.settle i
  | release leadId => exact h.release leadId
  | tick => exact h.tick
  | reconnect => exact ⟨h.ordered, h.timer⟩
  | clock now => exact ⟨h.ordered, h.timer⟩

theorem InStep.waits (h : InStep s)
    (hget : s.gate.withheld.get? evt.leadId = some evt) : s.Waits holdTtlMs evt := by
  obtain ⟨held, hheld⟩ := isSome_iff_exists.mp (h.ordered.registered _ _ hget)
  have htimer : s.sweepTimer = true := by
    rw [h.timer]
    exact decide_eq_true (InsertionMap.size_pos hheld)
  constructor
  · exact hget
  · exact htimer
  · have hd : Drained [evt.leadId] s.gate (s.gates.release evt.leadId).1.gate
        ((s.gates.release evt.leadId).2.map (late false)).toList :=
      drained_release false rfl rfl fun _ _ => rfl
    obtain ⟨d, hmem, hevt⟩ := hd.complete evt.leadId mem_cons_self evt hget
    exact ⟨d, mem_append_right _ hmem, hevt⟩
  · intro i hgone
    obtain ⟨leads, hd⟩ := drained_settle holdTtlMs s.gates i
    have hlead : evt.leadId ∈ leads := by
      by_contra hlead
      have hstays := hd.holds evt.leadId hlead (isSome_iff_exists.mpr ⟨held, hheld⟩)
      have hnone : (s.gates.settle holdTtlMs i).1.gate.holds.get? evt.leadId = none := hgone
      rw [hnone] at hstays
      cases hstays
    obtain ⟨d, hmem, hevt⟩ := hd.complete evt.leadId hlead evt hget
    exact ⟨d, mem_append_right _ hmem, hevt⟩
  · refine ⟨held, hheld, ?_⟩
    intro now hold
    have hexpired : evt.leadId ∈ s.gate.expiredLeads holdTtlMs now :=
      LeadStreamGate.mem_expiredLeads.mpr ⟨held, hheld, by omega⟩
    have htick : ((s.step holdTtlMs (.clock now)).tick holdTtlMs).delivered =
        s.delivered ++ handedOut (s.gate.sweepHolds holdTtlMs now).2 := by
      unfold LeadStream.tick
      rw [if_pos (show (s.step holdTtlMs (.clock now)).sweepTimer = true from htimer)]
      rfl
    obtain ⟨d, hmem, hevt⟩ := (drained_sweep holdTtlMs now).complete _ hexpired evt hget
    exact ⟨d, htick ▸ mem_append_right _ hmem, hevt⟩

theorem InStep.monotoneLossless (h : InStep s) : s.MonotoneLossless holdTtlMs := by
  constructor
  · exact h.ordered.monotone
  · -- Events of one number are one event, and no two deliveries are of one event.
    unfold List.Nodup
    rw [pairwise_map]
    apply h.ordered.monotone.imp_of_mem
    intro a b ha hb hlt heq
    have hsame : a.event = b.event := h.ordered.event_of_seq (h.ordered.origin a ha)
      (h.ordered.origin b hb) heq
    have := hlt (congrArg (·.leadId) hsame)
    omega
  · intro evt hevt hnewest
    rcases h.ordered.settled evt hevt with ⟨d, hd, hlead, hle⟩ | ⟨e, he⟩
    · have hge := hnewest d.event (h.ordered.origin d hd) hlead
      have hsame : d.event = evt := h.ordered.event_of_seq (h.ordered.origin d hd) hevt
        (Nat.le_antisymm hge hle)
      exact .inl ⟨d, hd, hsame⟩
    · obtain ⟨hmem, hlead, -, hmost⟩ := h.ordered.waiting _ e he
      have hsame : e = evt := h.ordered.event_of_seq hmem hevt
        (Nat.le_antisymm (hnewest e hmem hlead) (hmost evt hevt rfl))
      rw [hsame] at he
      exact .inr (h.waits he)

end LeadStream

end HomefrontFiber.LiveMap
