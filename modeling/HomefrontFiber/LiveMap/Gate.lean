import HomefrontFiber.Foundation.InsertionMap
import HomefrontFiber.LiveMap.Events

/-!
# The lead stream gate

`createLeadStreamGate` in `client/src/lib/leadStream.ts` orders and deduplicates the pushed lead
events of a client and withholds the events of a lead whose local change is still being saved. A
hold on a lead is a count and the instant of its first hold.
-/

namespace HomefrontFiber.LiveMap

open List

/-- An event as the client parses it; the parser refuses a frame without a positive number. -/
structure LeadStreamEvent (Pin : Type) where
  epoch : String
  seq : Nat
  ts : String
  tenantId : Int
  leadId : Int
  type : String
  actorId : Option Int
  actorName : Option String
  lead : Option Pin
  seq_pos : 0 < seq

/-- A resume token, `<epoch>.<seq>`. -/
structure SinceToken where
  epoch : String
  seq : Nat

/-- The opening frame, with what `parseSinceToken` reads from its resume token. -/
structure LeadStreamReady where
  epoch : String
  since : Option SinceToken
  resync : Bool

inductive DropReason where
  | duplicate
  | stale

inductive LeadStreamDecision (Pin : Type) where
  | apply (event : LeadStreamEvent Pin) (resync : Bool)
  | defer (event : LeadStreamEvent Pin) (resync : Bool)
  | drop (reason : DropReason)

structure LeadHold where
  count : Int
  since : Int

structure LeadStreamGate (Pin : Type) where
  epoch : Option String
  cursor : Nat
  holds : InsertionMap Int LeadHold
  withheld : InsertionMap Int (LeadStreamEvent Pin)

variable {Pin : Type}

def createLeadStreamGate : LeadStreamGate Pin where
  epoch := none
  cursor := 0
  holds := .empty
  withheld := .empty

namespace LeadStreamGate

variable (holdTtlMs now : Int) (gate : LeadStreamGate Pin)

/-- A new numbering: the old cursor and the withheld events belong to one that is gone. -/
def adopt (nextEpoch : String) (nextCursor : Nat) : LeadStreamGate Pin :=
  { gate with epoch := some nextEpoch, cursor := nextCursor, withheld := .empty }

def isHeld (leadId : Int) : Bool :=
  match gate.holds.get? leadId with
  | none => false
  | some h => decide (now - h.since < holdTtlMs)

/-- The gate that judges an event: it takes over the event's epoch when it has another one. -/
def meet (evt : LeadStreamEvent Pin) : LeadStreamGate Pin × Bool :=
  match gate.epoch with
  | none => ({ gate with epoch := some evt.epoch }, false)
  | some epoch => if evt.epoch ≠ epoch then (gate.adopt evt.epoch 0, true) else (gate, false)

def accept (evt : LeadStreamEvent Pin) : LeadStreamGate Pin × LeadStreamDecision Pin :=
  let (met, resync) := gate.meet evt
  if evt.seq = met.cursor then (met, .drop .duplicate)
  else if evt.seq < met.cursor then (met, .drop .stale)
  else
    let moved := { met with cursor := evt.seq }
    if moved.isHeld holdTtlMs now evt.leadId then
      ({ moved with withheld := moved.withheld.set evt.leadId evt }, .defer evt resync)
    else ({ moved with withheld := moved.withheld.delete evt.leadId }, .apply evt resync)

def syncReady (ready : LeadStreamReady) : LeadStreamGate Pin × Bool :=
  let tip := (ready.since.map (·.seq)).getD 0
  let changedEpoch := gate.epoch.any (ready.epoch ≠ ·)
  let resync := ready.resync || changedEpoch
  if resync then (gate.adopt ready.epoch tip, true)
  else ({ gate with epoch := some ready.epoch, cursor := max gate.cursor tip }, false)

/-- What `hold` does to the table; a second hold keeps the instant of the first. -/
def hold (leadId : Int) : LeadStreamGate Pin :=
  match gate.holds.get? leadId with
  | some existing =>
    { gate with holds := gate.holds.set leadId { existing with count := existing.count + 1 } }
  | none => { gate with holds := gate.holds.set leadId { count := 1, since := now } }

/-- What the first call of a release closure does to the table. -/
def unhold (leadId : Int) : LeadStreamGate Pin :=
  match gate.holds.get? leadId with
  | none => gate
  | some h =>
    if h.count - 1 ≤ 0 then { gate with holds := gate.holds.delete leadId }
    else { gate with holds := gate.holds.set leadId { h with count := h.count - 1 } }

def release (leadId : Int) : LeadStreamGate Pin × Option (LeadStreamEvent Pin) :=
  ({ gate with holds := gate.holds.delete leadId, withheld := gate.withheld.delete leadId },
    gate.withheld.get? leadId)

/-- The leads whose holds are older than the lifetime, in the order of the table. -/
def expiredLeads : List Int :=
  (gate.holds.entries.filter fun e => ¬ (now - e.2.since < holdTtlMs)).map Prod.fst

/-- Evict a list of leads, each with the event withheld for it. -/
def evict (leads : List Int) :
    LeadStreamGate Pin × List (Int × Option (LeadStreamEvent Pin)) :=
  leads.foldl (fun (g, out) leadId =>
    ((g.release leadId).1, out ++ [(leadId, (g.release leadId).2)])) (gate, [])

def expiredSeq (expired : Int × Option (LeadStreamEvent Pin)) : Nat :=
  (expired.2.map (·.seq)).getD 0

def sweepHolds : LeadStreamGate Pin × List (Int × Option (LeadStreamEvent Pin)) :=
  let swept := gate.evict (gate.expiredLeads holdTtlMs now)
  (swept.1, swept.2.mergeSort fun a b => decide (expiredSeq a ≤ expiredSeq b))

def since : Option SinceToken := gate.epoch.map fun epoch => { epoch, seq := gate.cursor }

variable {holdTtlMs now gate}

theorem isHeld_congr {gate' : LeadStreamGate Pin} {leadId : Int}
    (h : gate'.holds.get? leadId = gate.holds.get? leadId) :
    gate'.isHeld holdTtlMs now leadId = gate.isHeld holdTtlMs now leadId := by
  unfold isHeld
  rw [h]

theorem isHeld_eq_true_iff {leadId : Int} : gate.isHeld holdTtlMs now leadId = true ↔
    ∃ h, gate.holds.get? leadId = some h ∧ now - h.since < holdTtlMs := by
  unfold isHeld
  cases gate.holds.get? leadId with
  | none => simp
  | some h => simp

@[simp] theorem meet_holds (evt : LeadStreamEvent Pin) : (gate.meet evt).1.holds = gate.holds := by
  unfold meet
  split
  · rfl
  · split <;> rfl

@[simp] theorem syncReady_holds (ready : LeadStreamReady) :
    (gate.syncReady ready).1.holds = gate.holds := by
  unfold syncReady
  dsimp only
  split <;> rfl

/-- What the gate does with an event: it drops one that is not above its cursor, withholds one of a
held lead and applies any other. -/
theorem accept_cases (evt : LeadStreamEvent Pin) :
    (evt.seq ≤ (gate.meet evt).1.cursor ∧
      ∃ reason, gate.accept holdTtlMs now evt = ((gate.meet evt).1, .drop reason)) ∨
    ((gate.meet evt).1.cursor < evt.seq ∧ gate.isHeld holdTtlMs now evt.leadId = true ∧
      gate.accept holdTtlMs now evt = ({ (gate.meet evt).1 with
        cursor := evt.seq, withheld := (gate.meet evt).1.withheld.set evt.leadId evt },
        .defer evt (gate.meet evt).2)) ∨
    ((gate.meet evt).1.cursor < evt.seq ∧ gate.isHeld holdTtlMs now evt.leadId = false ∧
      gate.accept holdTtlMs now evt = ({ (gate.meet evt).1 with
        cursor := evt.seq, withheld := (gate.meet evt).1.withheld.delete evt.leadId },
        .apply evt (gate.meet evt).2)) := by
  have hheld : LeadStreamGate.isHeld holdTtlMs now
      { (gate.meet evt).1 with cursor := evt.seq } evt.leadId =
        gate.isHeld holdTtlMs now evt.leadId := by
    apply isHeld_congr
    exact congrArg (·.get? evt.leadId) (meet_holds evt)
  unfold accept
  dsimp only
  rw [hheld]
  rcases Nat.lt_trichotomy evt.seq (gate.meet evt).1.cursor with hlt | heq | hgt
  · rw [if_neg (by omega), if_pos hlt]
    exact Or.inl ⟨Nat.le_of_lt hlt, .stale, rfl⟩
  · rw [if_pos heq]
    exact Or.inl ⟨Nat.le_of_eq heq, .duplicate, rfl⟩
  · rw [if_neg (by omega), if_neg (by omega)]
    cases gate.isHeld holdTtlMs now evt.leadId with
    | true => exact Or.inr (Or.inl ⟨hgt, rfl, rfl⟩)
    | false => exact Or.inr (Or.inr ⟨hgt, rfl, rfl⟩)

@[simp] theorem accept_holds (evt : LeadStreamEvent Pin) :
    (gate.accept holdTtlMs now evt).1.holds = gate.holds := by
  rcases @accept_cases _ holdTtlMs now gate evt with
    ⟨-, reason, h⟩ | ⟨-, -, h⟩ | ⟨-, -, h⟩
  all_goals
    rw [h]
    exact meet_holds evt

theorem accept_of_held {evt : LeadStreamEvent Pin}
    (h : gate.isHeld holdTtlMs now evt.leadId = true) (event : LeadStreamEvent Pin)
    (resync : Bool) : (gate.accept holdTtlMs now evt).2 ≠ .apply event resync := by
  rcases @accept_cases _ holdTtlMs now gate evt with
    ⟨-, reason, hacc⟩ | ⟨-, -, hacc⟩ | ⟨-, hfree, -⟩
  · rw [hacc]
    exact fun heq => by cases heq
  · rw [hacc]
    exact fun heq => by cases heq
  · exact absurd (h.symm.trans hfree) Bool.true_eq_false_eq_False

theorem release_holds_get? (leadId other : Int) : (gate.release leadId).1.holds.get? other =
    if other = leadId then none else gate.holds.get? other :=
  gate.holds.get?_delete leadId other

theorem release_withheld_get? (leadId other : Int) : (gate.release leadId).1.withheld.get? other =
    if other = leadId then none else gate.withheld.get? other :=
  gate.withheld.get?_delete leadId other

@[simp] theorem unhold_withheld (leadId : Int) : (gate.unhold leadId).withheld = gate.withheld := by
  unfold unhold
  split
  · rfl
  · split <;> rfl

@[simp] theorem unhold_cursor (leadId : Int) : (gate.unhold leadId).cursor = gate.cursor := by
  unfold unhold
  split
  · rfl
  · split <;> rfl

@[simp] theorem hold_withheld (leadId : Int) :
    (gate.hold now leadId).withheld = gate.withheld := by
  unfold hold
  split <;> rfl

@[simp] theorem hold_cursor (leadId : Int) : (gate.hold now leadId).cursor = gate.cursor := by
  unfold hold
  split <;> rfl

theorem unhold_get?_of_ne {leadId other : Int} (h : other ≠ leadId) :
    (gate.unhold leadId).holds.get? other = gate.holds.get? other := by
  unfold unhold
  split
  · rfl
  · split
    · exact gate.holds.get?_delete_of_ne h
    · exact gate.holds.get?_set_of_ne _ h

theorem hold_get?_of_ne {leadId other : Int} (h : other ≠ leadId) :
    (gate.hold now leadId).holds.get? other = gate.holds.get? other := by
  unfold hold
  split
  · exact gate.holds.get?_set_of_ne _ h
  · exact gate.holds.get?_set_of_ne _ h

theorem hold_get?_self (leadId : Int) : ∃ h, (gate.hold now leadId).holds.get? leadId = some h := by
  unfold hold
  split
  · exact ⟨_, gate.holds.get?_set_self leadId _⟩
  · exact ⟨_, gate.holds.get?_set_self leadId _⟩

theorem mem_expiredLeads {leadId : Int} : leadId ∈ gate.expiredLeads holdTtlMs now ↔
    ∃ h, gate.holds.get? leadId = some h ∧ ¬ now - h.since < holdTtlMs := by
  unfold expiredLeads
  rw [mem_map]
  constructor
  · rintro ⟨e, he, rfl⟩
    obtain ⟨hmem, hold⟩ := mem_filter.mp he
    exact ⟨e.2, InsertionMap.get?_eq_some_iff.mpr hmem, of_decide_eq_true hold⟩
  · rintro ⟨h, hget, hold⟩
    exact ⟨(leadId, h), mem_filter.mpr ⟨InsertionMap.get?_eq_some_iff.mp hget,
      decide_eq_true hold⟩, rfl⟩

theorem nodup_expiredLeads : (gate.expiredLeads holdTtlMs now).Nodup :=
  gate.holds.nodup.sublist (filter_sublist.map Prod.fst)

/-- An eviction takes the leads of its list out of both tables and hands out what was withheld. -/
structure Evicted (leads : List Int) (before after : LeadStreamGate Pin)
    (out : List (Int × Option (LeadStreamEvent Pin))) : Prop where
  epoch : after.epoch = before.epoch
  cursor : after.cursor = before.cursor
  holds : ∀ k, after.holds.get? k = if k ∈ leads then none else before.holds.get? k
  withheld : ∀ k, after.withheld.get? k = if k ∈ leads then none else before.withheld.get? k
  out : out = leads.map fun k => (k, before.withheld.get? k)

theorem evict_snoc (leads : List Int) (leadId : Int) :
    gate.evict (leads ++ [leadId]) =
      (((gate.evict leads).1.release leadId).1,
        (gate.evict leads).2 ++ [(leadId, ((gate.evict leads).1.release leadId).2)]) := by
  unfold evict
  rw [foldl_append]
  rfl

theorem evict_evicted {leads : List Int} (hnd : leads.Nodup) :
    Evicted leads gate (gate.evict leads).1 (gate.evict leads).2 := by
  induction leads using List.reverseRecOn with
  | nil => exact ⟨rfl, rfl, fun k => by simp [evict], fun k => by simp [evict], rfl⟩
  | append_singleton leads leadId ih =>
    obtain ⟨hleads, -, hdisj⟩ := nodup_append.mp hnd
    have hnew : leadId ∉ leads := fun hmem => hdisj leadId hmem leadId mem_cons_self rfl
    have h := ih hleads
    rw [evict_snoc]
    constructor
    · exact h.epoch
    · exact h.cursor
    · intro k
      rw [release_holds_get?, h.holds]
      by_cases hk : k = leadId
      · simp [hk]
      · simp [hk]
    · intro k
      rw [release_withheld_get?, h.withheld]
      by_cases hk : k = leadId
      · simp [hk]
      · simp [hk]
    · have hout : ((gate.evict leads).1.release leadId).2 = gate.withheld.get? leadId := by
        change (gate.evict leads).1.withheld.get? leadId = _
        rw [h.withheld, if_neg hnew]
      rw [h.out, hout, map_append, map_singleton]

/-- A sweep evicts the expired leads; sorting changes the order of what it hands out alone. -/
theorem sweepHolds_evicted : ∃ out, (gate.sweepHolds holdTtlMs now).2.Perm out ∧
    Evicted (gate.expiredLeads holdTtlMs now) gate (gate.sweepHolds holdTtlMs now).1 out :=
  ⟨_, mergeSort_perm _ _, evict_evicted nodup_expiredLeads⟩

end LeadStreamGate

end HomefrontFiber.LiveMap
