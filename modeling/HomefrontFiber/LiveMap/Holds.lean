import HomefrontFiber.LiveMap.Gate

/-!
# A hold protects the rep's own tap

A run of the lead stream gate: holds, release closures, forced releases, sweeps, frames and the
clock, in any order. A hold counts on its own from the instant it was taken until its closure runs
or its lead is released by force; `Protected` says that the gate keeps its lead held for that time,
up to the lifetime.
-/

namespace HomefrontFiber.LiveMap

open List

/-- A release closure that `hold` has returned. The source keeps the lead and the flag; `takenAt`
and `forced` record when its hold was taken and whether a forced release of the lead came later. -/
structure HoldClosure where
  leadId : Int
  released : Bool
  takenAt : Int
  forced : Bool
deriving DecidableEq

/-- The hold of a closure stands until the closure has run or its lead is released by force. -/
def HoldClosure.outstanding (c : HoldClosure) : Bool := !c.released && !c.forced

def HoldClosure.taken (leadId now : Int) : HoldClosure where
  leadId := leadId
  released := false
  takenAt := now
  forced := false

structure GateRun (Pin : Type) where
  gate : LeadStreamGate Pin
  closures : List HoldClosure
  now : Int

variable {Pin : Type}

/-- `closure` is what the gate's `hold` returns, `settle` what the handle's `hold` returns. -/
inductive GateAction (Pin : Type) where
  | hold (leadId : Int)
  | closure (i : Nat)
  | settle (i : Nat)
  | release (leadId : Int)
  | sweepHolds
  | accept (evt : LeadStreamEvent Pin)
  | syncReady (ready : LeadStreamReady)
  | clock (now : Int)

namespace GateRun

variable (holdTtlMs : Int) (s : GateRun Pin)

def start (now : Int) : GateRun Pin := { gate := createLeadStreamGate, closures := [], now }

def hold (leadId : Int) : GateRun Pin :=
  { s with
    gate := s.gate.hold s.now leadId
    closures := s.closures ++ [HoldClosure.taken leadId s.now] }

def runClosure (i : Nat) : GateRun Pin :=
  match s.closures[i]? with
  | none => s
  | some c =>
    if c.released then s
    else { s with
      gate := s.gate.unhold c.leadId
      closures := s.closures.set i { c with released := true } }

/-- Call a closure of the handle: the gate's closure first, and when that leaves the lead free, what
was withheld for it is handed out. -/
def settle (i : Nat) : GateRun Pin × Option (LeadStreamEvent Pin) :=
  let s' := s.runClosure i
  match s'.closures[i]? with
  | none => (s', none)
  | some c =>
    if s'.gate.isHeld holdTtlMs s'.now c.leadId then (s', none)
    else
      ({ s' with gate := (s'.gate.release c.leadId).1 }, (s'.gate.release c.leadId).2)

def release (leadId : Int) : GateRun Pin × Option (LeadStreamEvent Pin) :=
  ({ s with
    gate := (s.gate.release leadId).1
    closures := s.closures.map fun c => if c.leadId = leadId then { c with forced := true } else c },
    (s.gate.release leadId).2)

def sweepHolds : GateRun Pin × List (Int × Option (LeadStreamEvent Pin)) :=
  ({ s with gate := (s.gate.sweepHolds holdTtlMs s.now).1 }, (s.gate.sweepHolds holdTtlMs s.now).2)

def accept (evt : LeadStreamEvent Pin) : GateRun Pin × LeadStreamDecision Pin :=
  ({ s with gate := (s.gate.accept holdTtlMs s.now evt).1 },
    (s.gate.accept holdTtlMs s.now evt).2)

def syncReady (ready : LeadStreamReady) : GateRun Pin × Bool :=
  ({ s with gate := (s.gate.syncReady ready).1 }, (s.gate.syncReady ready).2)

def step : GateAction Pin → GateRun Pin
  | .hold leadId => s.hold leadId
  | .closure i => s.runClosure i
  | .settle i => (s.settle holdTtlMs i).1
  | .release leadId => (s.release leadId).1
  | .sweepHolds => (s.sweepHolds holdTtlMs).1
  | .accept evt => (s.accept holdTtlMs evt).1
  | .syncReady ready => (s.syncReady ready).1
  | .clock now => { s with now }

/-- Every hold that was taken less than a lifetime ago and still stands keeps its lead held, and no
event of the lead is applied. -/
def Protected : Prop :=
  ∀ c ∈ s.closures, c.outstanding = true → s.now - c.takenAt < holdTtlMs →
    s.gate.isHeld holdTtlMs s.now c.leadId = true ∧
      ∀ evt, evt.leadId = c.leadId → ∀ event resync,
        (s.accept holdTtlMs evt).2 ≠ .apply event resync

/-- The step that calls a closure does not count down an entry that its hold is not in. -/
def OwnEntry (i : Nat) : Prop :=
  ∀ c ∈ s.closures[i]?, c.released = false → ∀ h ∈ s.gate.holds.get? c.leadId,
    c.forced = false ∧ h.since = c.takenAt

/-- No second hold is taken under an older entry, no closure runs against the entry of another hold
and the clock does not go back. -/
def Clean : GateAction Pin → Prop
  | .hold leadId => ∀ h ∈ s.gate.holds.get? leadId, h.since = s.now
  | .closure i | .settle i => s.OwnEntry i
  | .clock now => s.now ≤ now
  | .release _ | .sweepHolds | .accept _ | .syncReady _ => True

instance (i : Nat) : Decidable (s.OwnEntry i) :=
  inferInstanceAs (Decidable (∀ c ∈ s.closures[i]?, c.released = false →
    ∀ h ∈ s.gate.holds.get? c.leadId, c.forced = false ∧ h.since = c.takenAt))

instance (a : GateAction Pin) : Decidable (s.Clean a) := by
  cases a with
  | hold leadId =>
    exact inferInstanceAs (Decidable (∀ h ∈ s.gate.holds.get? leadId, h.since = s.now))
  | closure i => exact inferInstanceAs (Decidable (s.OwnEntry i))
  | settle i => exact inferInstanceAs (Decidable (s.OwnEntry i))
  | clock now => exact inferInstanceAs (Decidable (s.now ≤ now))
  | release leadId => exact inferInstanceAs (Decidable True)
  | sweepHolds => exact inferInstanceAs (Decidable True)
  | accept evt => exact inferInstanceAs (Decidable True)
  | syncReady ready => exact inferInstanceAs (Decidable True)

def countsIn (leadId since : Int) (c : HoldClosure) : Bool :=
  decide (c.leadId = leadId) && c.outstanding && decide (c.takenAt = since)

/-- What a clean run keeps: a hold younger than the lifetime has an entry of its own age, and an
entry counts every hold of its age that stands. -/
structure Guarded : Prop where
  past : ∀ c ∈ s.closures, c.takenAt ≤ s.now
  held : ∀ c ∈ s.closures, c.outstanding = true → s.now - c.takenAt < holdTtlMs →
    ∃ h, s.gate.holds.get? c.leadId = some h ∧ h.since = c.takenAt
  counted : 0 < holdTtlMs → ∀ leadId h, s.gate.holds.get? leadId = some h →
    (s.closures.countP (countsIn leadId h.since) : Int) ≤ h.count

variable {holdTtlMs s}

theorem Guarded.protected (h : Guarded holdTtlMs s) : Protected holdTtlMs s := by
  intro c hc hout hage
  obtain ⟨entry, hget, hsince⟩ := h.held c hc hout hage
  have hheld : s.gate.isHeld holdTtlMs s.now c.leadId = true := by
    apply LeadStreamGate.isHeld_eq_true_iff.mpr
    exact ⟨entry, hget, by rw [hsince]; exact hage⟩
  refine ⟨hheld, fun evt hlead event resync => ?_⟩
  apply LeadStreamGate.accept_of_held
  rw [hlead]
  exact hheld

theorem Guarded.of_holds (h : Guarded holdTtlMs s) {gate : LeadStreamGate Pin}
    (hholds : gate.holds = s.gate.holds) : Guarded holdTtlMs { s with gate } where
  past := h.past
  held c hc hout hage := by
    obtain ⟨entry, hget, hsince⟩ := h.held c hc hout hage
    exact ⟨entry, hholds ▸ hget, hsince⟩
  counted hpos leadId entry hget := h.counted hpos leadId entry (hholds ▸ hget)

theorem Guarded.drop (h : Guarded holdTtlMs s) {gate : LeadStreamGate Pin}
    (hholds : ∀ k, gate.holds.get? k = s.gate.holds.get? k ∨
      gate.holds.get? k = none ∧ s.gate.isHeld holdTtlMs s.now k = false) :
    Guarded holdTtlMs { s with gate } where
  past := h.past
  held c hc hout hage := by
    obtain ⟨entry, hget, hsince⟩ := h.held c hc hout hage
    have hheld := (h.protected c hc hout hage).1
    rcases hholds c.leadId with hsame | ⟨-, hfree⟩
    · exact ⟨entry, hsame.trans hget, hsince⟩
    · exact absurd (hheld.symm.trans hfree) (by decide)
  counted hpos leadId entry hget := by
    rcases hholds leadId with hsame | ⟨hnone, -⟩
    · exact h.counted hpos leadId entry (hsame ▸ hget)
    · rw [hnone] at hget
      cases hget

theorem Guarded.clock (h : Guarded holdTtlMs s) {now : Int} (hnow : s.now ≤ now) :
    Guarded holdTtlMs { s with now } where
  past c hc := (h.past c hc).trans hnow
  held c hc hout hage := by
    apply h.held c hc hout
    have hage' : now - c.takenAt < holdTtlMs := hage
    omega
  counted := h.counted

theorem countP_countsIn_snoc (closures : List HoldClosure) (leadId other since now : Int) :
    (closures ++ [HoldClosure.taken leadId now]).countP (countsIn other since) =
      closures.countP (countsIn other since) + if leadId = other ∧ now = since then 1 else 0 := by
  rw [countP_append, countP_singleton]
  congr 1
  by_cases hlead : leadId = other
  · by_cases hnow : now = since
    · simp [countsIn, HoldClosure.outstanding, HoldClosure.taken, hlead, hnow]
    · simp [countsIn, HoldClosure.taken, hnow]
  · simp [countsIn, HoldClosure.taken, hlead]

theorem Guarded.hold (h : Guarded holdTtlMs s) {leadId : Int}
    (hclean : ∀ e ∈ s.gate.holds.get? leadId, e.since = s.now) :
    Guarded holdTtlMs (s.hold leadId) := by
  -- The entry after the hold is of this instant and counts one hold more than before.
  have hentry : ∃ count, (s.gate.hold s.now leadId).holds.get? leadId =
      some { count, since := s.now } ∧
      (0 < holdTtlMs → (s.closures.countP (countsIn leadId s.now) : Int) + 1 ≤ count) := by
    unfold LeadStreamGate.hold
    cases hget : s.gate.holds.get? leadId with
    | some e =>
      have hsince : e.since = s.now := hclean e hget
      refine ⟨e.count + 1, ?_, fun hpos => ?_⟩
      · rw [← hsince]
        exact s.gate.holds.get?_set_self leadId _
      · have hcount := h.counted hpos leadId e hget
        rw [hsince] at hcount
        omega
    | none =>
      refine ⟨1, s.gate.holds.get?_set_self leadId _, fun hpos => ?_⟩
      have hzero : s.closures.countP (countsIn leadId s.now) = 0 := by
        apply countP_eq_zero.mpr
        intro c hc hin
        simp only [countsIn, Bool.and_eq_true, decide_eq_true_eq] at hin
        obtain ⟨⟨hlead, hout⟩, htaken⟩ := hin
        obtain ⟨e, he, -⟩ := h.held c hc hout (by omega)
        rw [hlead, hget] at he
        cases he
      omega
  obtain ⟨count, hget, hcount⟩ := hentry
  constructor
  · intro c hc
    rcases mem_append.mp hc with hc | hc
    · exact h.past c hc
    · rw [mem_singleton.mp hc]
      exact Int.le_refl _
  · intro c hc hout hage
    rcases mem_append.mp hc with hc | hc
    · obtain ⟨e, he, hsince⟩ := h.held c hc hout hage
      by_cases hlead : c.leadId = leadId
      · have hnew : (s.hold leadId).gate.holds.get? c.leadId = some { count, since := s.now } := by
          rw [hlead]
          exact hget
        rw [hlead] at he
        exact ⟨_, hnew, (hclean e he).symm.trans hsince⟩
      · exact ⟨e, (LeadStreamGate.hold_get?_of_ne hlead).trans he, hsince⟩
    · rw [mem_singleton.mp hc]
      exact ⟨_, hget, rfl⟩
  · intro hpos other e he
    change ((s.closures ++ [_]).countP _ : Int) ≤ _
    rw [countP_countsIn_snoc]
    by_cases hlead : other = leadId
    · subst hlead
      obtain rfl := Option.some.inj (hget.symm.trans he)
      have hle := hcount hpos
      rw [if_pos ⟨rfl, rfl⟩]
      push_cast
      exact hle
    · rw [if_neg fun hboth => hlead hboth.1.symm]
      exact h.counted hpos other e ((LeadStreamGate.hold_get?_of_ne hlead).symm.trans he)

/-- Calling a closure twice changes nothing, and the first call counts down its own entry. -/
theorem Guarded.runClosure (h : Guarded holdTtlMs s) {i : Nat} (hclean : s.OwnEntry i) :
    Guarded holdTtlMs (s.runClosure i) := by
  unfold GateRun.runClosure
  cases hi : s.closures[i]? with
  | none => exact h
  | some c =>
    dsimp only
    split
    · exact h
    · rename_i hfirst
      have hreleased : c.released = false := Bool.eq_false_iff.mpr hfirst
      obtain ⟨hlt, hci⟩ := List.getElem?_eq_some_iff.mp hi
      have hmem : c ∈ s.closures := mem_of_getElem? hi
      have hout' : ({ c with released := true } : HoldClosure).outstanding = false := rfl
      have hset : ∀ {d}, d ∈ s.closures.set i { c with released := true } → d.outstanding = true →
          d ∈ s.closures := by
        intro d hd hout
        rcases mem_or_eq_of_mem_set hd with hd | rfl
        · exact hd
        · exact absurd hout (by rw [hout']; exact Bool.false_ne_true)
      -- Every count falls by one or stays, and the count of the own entry falls by one.
      have hcount : ∀ leadId since,
          (s.closures.set i { c with released := true }).countP (countsIn leadId since) =
            s.closures.countP (countsIn leadId since) - if countsIn leadId since c then 1 else 0 := by
        intro leadId since
        have hnot : countsIn leadId since { c with released := true } = false := by
          simp [countsIn, hout']
        rw [countP_set hlt, hci, hnot]
        rfl
      constructor
      · intro d hd
        rcases mem_or_eq_of_mem_set hd with hd | rfl
        · exact h.past d hd
        · exact h.past c hmem
      · intro d hd hout hage
        have hd' := hset hd hout
        have hyoung : s.now - d.takenAt < holdTtlMs := hage
        obtain ⟨e, he, hsince⟩ := h.held d hd' hout hyoung
        by_cases hlead : d.leadId = c.leadId
        · -- The entry is shared: it still counts the hold of `d`, so it stays.
          rw [hlead] at he
          obtain ⟨hforced, hown⟩ := hclean c hi hreleased e he
          have hpast := h.past d hd'
          have hle := h.counted (by omega) c.leadId e he
          have hin : countsIn c.leadId e.since c = true := by
            simp [countsIn, HoldClosure.outstanding, hreleased, hforced, hown]
          have hpos : 0 < (s.closures.set i { c with released := true }).countP
              (countsIn c.leadId e.since) := by
            apply countP_pos_iff.mpr
            refine ⟨d, hd, ?_⟩
            simp [countsIn, hlead, hout, hsince]
          have hsum := hcount c.leadId e.since
          rw [if_pos hin] at hsum
          refine ⟨{ e with count := e.count - 1 }, ?_, hsince⟩
          rw [hlead]
          unfold LeadStreamGate.unhold
          rw [he]
          dsimp only
          rw [if_neg (by omega)]
          exact s.gate.holds.get?_set_self _ _
        · exact ⟨e, (LeadStreamGate.unhold_get?_of_ne hlead).trans he, hsince⟩
      · intro hpos leadId e he
        change ((s.closures.set i _).countP _ : Int) ≤ _
        rw [hcount]
        by_cases hlead : leadId = c.leadId
        · subst hlead
          cases hget : s.gate.holds.get? c.leadId with
          | none =>
            change (s.gate.unhold c.leadId).holds.get? c.leadId = some e at he
            unfold LeadStreamGate.unhold at he
            rw [hget] at he
            exact absurd (hget.symm.trans he) (by simp)
          | some old =>
            obtain ⟨hforced, hown⟩ := hclean c hi hreleased old hget
            change (s.gate.unhold c.leadId).holds.get? c.leadId = some e at he
            unfold LeadStreamGate.unhold at he
            rw [hget] at he
            dsimp only at he
            split at he
            · rw [InsertionMap.get?_delete_self] at he
              cases he
            · rw [InsertionMap.get?_set_self] at he
              cases he
              have hin : countsIn c.leadId old.since c = true := by
                simp [countsIn, HoldClosure.outstanding, hreleased, hforced, hown]
              have hle := h.counted hpos c.leadId old hget
              rw [if_pos hin]
              dsimp only
              omega
        · have hle := h.counted hpos leadId e
            ((LeadStreamGate.unhold_get?_of_ne hlead).symm.trans he)
          have hsub := Nat.sub_le (s.closures.countP (countsIn leadId e.since))
            (if countsIn leadId e.since c then 1 else 0)
          omega

theorem Guarded.settle (h : Guarded holdTtlMs s) {i : Nat} (hclean : s.OwnEntry i) :
    Guarded holdTtlMs (s.settle holdTtlMs i).1 := by
  have hrun := h.runClosure hclean
  unfold GateRun.settle
  dsimp only
  cases hi : (s.runClosure i).closures[i]? with
  | none => exact hrun
  | some c =>
    dsimp only
    split
    · exact hrun
    · rename_i hfree
      apply hrun.drop
      intro k
      rw [LeadStreamGate.release_holds_get?]
      by_cases hk : k = c.leadId
      · rw [if_pos hk, hk]
        exact .inr ⟨rfl, Bool.eq_false_iff.mpr hfree⟩
      · exact .inl (if_neg hk)

theorem Guarded.release (h : Guarded holdTtlMs s) (leadId : Int) :
    Guarded holdTtlMs (s.release leadId).1 := by
  have hclosure : ∀ c, c ∈ (s.release leadId).1.closures → c.outstanding = true →
      c ∈ s.closures ∧ c.leadId ≠ leadId := by
    intro c hc hout
    obtain ⟨d, hd, rfl⟩ := mem_map.mp hc
    by_cases hlead : d.leadId = leadId
    · simp [hlead, HoldClosure.outstanding] at hout
    · rw [if_neg hlead]
      exact ⟨hd, hlead⟩
  constructor
  · intro c hc
    obtain ⟨d, hd, rfl⟩ := mem_map.mp hc
    have hpast := h.past d hd
    split
    · exact hpast
    · exact hpast
  · intro c hc hout hage
    obtain ⟨hmem, hlead⟩ := hclosure c hc hout
    obtain ⟨e, he, hsince⟩ := h.held c hmem hout hage
    refine ⟨e, ?_, hsince⟩
    change (s.gate.release leadId).1.holds.get? c.leadId = some e
    rw [LeadStreamGate.release_holds_get?, if_neg hlead]
    exact he
  · intro hpos other e he
    change (s.gate.release leadId).1.holds.get? other = some e at he
    rw [LeadStreamGate.release_holds_get?] at he
    split at he
    · cases he
    · rename_i hother
      have hle := h.counted hpos other e he
      have hsame : (s.release leadId).1.closures.countP (countsIn other e.since) =
          s.closures.countP (countsIn other e.since) := by
        change (s.closures.map _).countP _ = _
        rw [countP_map]
        apply countP_congr
        intro c _
        by_cases hlead : c.leadId = leadId
        · have hne : ¬ leadId = other := fun heq => hother heq.symm
          simp [countsIn, hlead, hne]
        · simp [hlead]
      rw [hsame]
      exact hle

theorem Guarded.sweepHolds (h : Guarded holdTtlMs s) :
    Guarded holdTtlMs (s.sweepHolds holdTtlMs).1 := by
  obtain ⟨_, -, hevicted⟩ := @LeadStreamGate.sweepHolds_evicted _ holdTtlMs s.now s.gate
  apply h.drop
  intro k
  rw [hevicted.holds]
  by_cases hk : k ∈ s.gate.expiredLeads holdTtlMs s.now
  · rw [if_pos hk]
    obtain ⟨e, he, hold⟩ := LeadStreamGate.mem_expiredLeads.mp hk
    refine .inr ⟨rfl, ?_⟩
    unfold LeadStreamGate.isHeld
    rw [he]
    exact decide_eq_false hold
  · exact .inl (if_neg hk)

theorem guarded_start (now : Int) : Guarded holdTtlMs (start now : GateRun Pin) where
  past c hc := absurd hc not_mem_nil
  held c hc := absurd hc not_mem_nil
  counted _ leadId e he := by cases he

/-- What a closure of the handle does to the gate: at most the entry of its lead changes, and when
the lead is not held afterwards it is released. -/
theorem settle_cases (s : GateRun Pin) (i : Nat) :
    (s.settle holdTtlMs i = (s, none)) ∨
    ∃ leadId, ∃ mid : LeadStreamGate Pin, mid.cursor = s.gate.cursor ∧
      mid.withheld = s.gate.withheld ∧
      (∀ k, k ≠ leadId → mid.holds.get? k = s.gate.holds.get? k) ∧
      (mid.isHeld holdTtlMs s.now leadId = true ∧ (s.settle holdTtlMs i).1.gate = mid ∧
          (s.settle holdTtlMs i).2 = none ∨
        (s.settle holdTtlMs i).1.gate = (mid.release leadId).1 ∧
          (s.settle holdTtlMs i).2 = (mid.release leadId).2) := by
  cases hi : s.closures[i]? with
  | none =>
    apply Or.inl
    unfold settle runClosure
    simp only [hi]
  | some c =>
    apply Or.inr
    have hlt := (List.getElem?_eq_some_iff.mp hi).1
    -- The closure that is found after the gate's closure has run is on the same lead.
    have hafter : ∃ d, (s.runClosure i).closures[i]? = some d ∧ d.leadId = c.leadId := by
      unfold runClosure
      rw [hi]
      dsimp only
      split
      · exact ⟨c, hi, rfl⟩
      · exact ⟨_, getElem?_set_self hlt, rfl⟩
    have hgate : (s.runClosure i).gate = s.gate ∨
        (s.runClosure i).gate = s.gate.unhold c.leadId := by
      unfold runClosure
      rw [hi]
      dsimp only
      split
      · exact Or.inl rfl
      · exact Or.inr rfl
    have hnow : (s.runClosure i).now = s.now := by
      unfold runClosure
      rw [hi]
      dsimp only
      split <;> rfl
    obtain ⟨d, hd, hlead⟩ := hafter
    refine ⟨c.leadId, (s.runClosure i).gate, ?_, ?_, ?_, ?_⟩
    · rcases hgate with h | h
      · rw [h]
      · rw [h, LeadStreamGate.unhold_cursor]
    · rcases hgate with h | h
      · rw [h]
      · rw [h, LeadStreamGate.unhold_withheld]
    · intro k hk
      rcases hgate with h | h
      · rw [h]
      · rw [h, LeadStreamGate.unhold_get?_of_ne hk]
    · unfold settle
      dsimp only
      rw [hd]
      dsimp only
      rw [hlead, hnow]
      split
      · exact Or.inl ⟨‹_›, rfl, rfl⟩
      · exact Or.inr ⟨rfl, rfl⟩

theorem guarded_step (s : GateRun Pin) (a : GateAction Pin) (h : Guarded holdTtlMs s)
    (hclean : s.Clean a) : Guarded holdTtlMs (s.step holdTtlMs a) := by
  cases a with
  | hold leadId => exact h.hold hclean
  | closure i => exact h.runClosure hclean
  | settle i => exact h.settle hclean
  | release leadId => exact h.release leadId
  | sweepHolds => exact h.sweepHolds
  | accept evt => exact h.of_holds (LeadStreamGate.accept_holds evt)
  | syncReady ready => exact h.of_holds (LeadStreamGate.syncReady_holds ready)
  | clock now => exact h.clock hclean

/-- In every clean run every hold protects its lead for its own lifetime, in every state. -/
theorem protected_run (holdTtlMs now : Int) (actions : List (GateAction Pin))
    (hclean : Along (step holdTtlMs) Clean (start now) actions) :
    ∀ t ∈ trace (step holdTtlMs) (start now) actions, Protected holdTtlMs t := by
  intro t ht
  exact (trace_along guarded_step (guarded_start now) hclean t ht).protected

/-- Two holds on one door, the second after the first has been released. -/
theorem protected_run_twoKnocks :
    Protected 300000 (run (step 300000) (start 0 : GateRun Unit)
      [.hold 7, .clock 200000, .settle 0, .hold 7, .clock 450000]) :=
  protected_run 300000 0 [.hold 7, .clock 200000, .settle 0, .hold 7, .clock 450000] (by decide) _
    (by simp [trace])

/-- A second knock at a door, four minutes after the first, is protected for one minute. -/
theorem not_protected_secondKnock :
    ¬ ∀ (actions : List (GateAction Unit)), ∀ t ∈ trace (step 300000) (start 0) actions,
      Protected 300000 t := by
  intro hall
  have hlast := hall [.hold 7, .clock 240000, .hold 7, .clock 300000]
    (run (step 300000) (start 0) [.hold 7, .clock 240000, .hold 7, .clock 300000])
    (mem_cons_of_mem _ (mem_cons_of_mem _ (mem_cons_of_mem _ mem_cons_self)))
  have hheld := (hlast (HoldClosure.taken 7 240000) (by decide) rfl (by decide)).1
  exact absurd hheld (by decide)

end GateRun

end HomefrontFiber.LiveMap
