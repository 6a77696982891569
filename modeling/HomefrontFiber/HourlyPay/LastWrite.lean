import Mathlib.Data.Int.ConditionallyCompleteOrder
import HomefrontFiber.Foundation.DateParse
import HomefrontFiber.Foundation.Runs
import HomefrontFiber.Foundation.Table
import HomefrontFiber.Foundation.Timeline

/-!
# Hourly rates

A member has one current rate; the rates before are read back from the audit events of its changes.
A rate that was set before there were events has no date and always applies. The first change
overwrites it and leaves no entry for the time before.
-/

namespace HomefrontFiber.HourlyPay

open Timeline

inductive HourlyPayErrorCode
  | crossTenantAccess | invalidHourlyRate

structure HourlyPayError where
  code : HourlyPayErrorCode
  message : String
  httpStatus : Nat := 400

structure PayMember where
  id : Nat
  tenantId : Nat
  hourlyRateCents : Option Int
  hourlyRateEffectiveFrom : Option Text

structure RateEvent where
  id : Nat
  repId : Nat
  oldRateCents : Option Int
  newRateCents : Option Int
  effectiveFrom : Text

structure PayState where
  members : List PayMember
  activityLog : List RateEvent

def PayState.getTeamMemberById (s : PayState) (id : Nat) : Option PayMember :=
  s.members.find? (·.id = id)

structure RateCall where
  tenantId : Nat
  repId : Nat
  rateCents : Option Int
  effectiveFrom : Option Text
  now : Instant

structure RateWrite where
  rateCents : Option Int
  effective : Instant

def maxHourlyRateCents : Int := 1000000

def invalidHourlyRate (message : String) : HourlyPayError :=
  { code := .invalidHourlyRate, message }

/-- The instant of a change. An empty date is the present. -/
def effectiveInstant (p : DateParser) (call : RateCall) : Option Instant :=
  match call.effectiveFrom.filter (· ≠ []) with
  | none => some call.now
  | some text =>
    match h : p.parse text with
    | none => none
    | some ms => some ⟨ms, p.inDateRange_of_parse text ms h⟩

/-- The checks of `setHourlyRate` on a member that was found. -/
def checkRate (p : DateParser) (call : RateCall) (tenantId : Nat) :
    Except HourlyPayError RateWrite :=
  if tenantId ≠ call.tenantId then
    .error { code := .crossTenantAccess, message := "Rep not found in tenant.", httpStatus := 404 }
  else if call.rateCents.any (· < 0) then
    .error (invalidHourlyRate
      "rateCents must be null (commission-only) or a non-negative integer.")
  else if call.rateCents.any (maxHourlyRateCents < ·) then
    .error (invalidHourlyRate "rateCents exceeds the sanity bound.")
  else
    match effectiveInstant p call with
    | none => .error (invalidHourlyRate "effectiveFrom must be a parseable date/time.")
    | some effective => .ok { rateCents := call.rateCents, effective }

def RateWrite.effectiveIso (w : RateWrite) : Text := toISOString w.effective.ms

def PayMember.has (rep : PayMember) (w : RateWrite) : Bool :=
  rep.hourlyRateCents = w.rateCents && rep.hourlyRateEffectiveFrom = some w.effectiveIso

def storeRate (rep : PayMember) (w : RateWrite) (s : PayState) : PayState :=
  if rep.has w then s
  else
    { members := s.members.map fun m =>
        if m.id = rep.id then
          { m with hourlyRateCents := w.rateCents, hourlyRateEffectiveFrom := some w.effectiveIso }
        else m
      activityLog := s.activityLog ++
        [{ id := s.activityLog.length + 1
           repId := rep.id
           oldRateCents := rep.hourlyRateCents
           newRateCents := w.rateCents
           effectiveFrom := w.effectiveIso }] }

def setHourlyRate (p : DateParser) (call : RateCall) (s : PayState) :
    Except HourlyPayError PayState :=
  match s.getTeamMemberById call.repId with
  | none =>
    .error { code := .crossTenantAccess, message := "Rep not found in tenant.", httpStatus := 404 }
  | some rep => (checkRate p call rep.tenantId).map (storeRate rep · s)

def step (p : DateParser) (s : PayState) (call : RateCall) : PayState :=
  match setHourlyRate p call s with
  | .ok s' => s'
  | .error _ => s

/-- An entry of the timeline. A row without a date is older than every event and always applies;
one with a date is newer than every event. -/
structure RateEntry where
  rateCents : Option Int
  effMs : WithBot Int
  seq : WithBot (WithTop Nat)

def RateEvent.entry (p : DateParser) (ev : RateEvent) : Option RateEntry :=
  (p.parse ev.effectiveFrom).map fun effMs =>
    { rateCents := ev.newRateCents, effMs, seq := ((ev.id : WithTop Nat) : WithBot (WithTop Nat)) }

def PayMember.entry (p : DateParser) (rep : PayMember) : Option RateEntry :=
  rep.hourlyRateCents.bind fun rateCents =>
    match rep.hourlyRateEffectiveFrom with
    | none => some { rateCents := some rateCents, effMs := ⊥, seq := ⊥ }
    | some text =>
      (p.parse text).map fun effMs =>
        { rateCents := some rateCents, effMs, seq := ((⊤ : WithTop Nat) : WithBot (WithTop Nat)) }

def rateEntries (p : DateParser) (repId : Nat) (s : PayState) : List RateEntry :=
  ((s.activityLog.filter (·.repId = repId)).filterMap (·.entry p)) ++
    ((s.getTeamMemberById repId).bind (·.entry p)).toList

structure RateAt where
  rateCents : Option Int
  effectiveFrom : Option Text

def hourlyRateEffectiveAt (p : DateParser) (repId : Nat) (atMs : Int) (s : PayState) : RateAt :=
  let best := inForce RateEntry.effMs RateEntry.seq (atMs : WithBot Int) (rateEntries p repId s)
  { rateCents := best.bind (·.rateCents)
    effectiveFrom := best.bind fun e => e.effMs.elim none (some ∘ toISOString) }

end HomefrontFiber.HourlyPay

/-!
## The last write wins

The rate at an instant should be that of the newest change that applies by then, and the rate of the
legacy row before all of them. The events of a member answer as its changes do; what is lost is the
legacy row, as soon as there is a change.
-/

namespace HomefrontFiber.HourlyPay

open Timeline List Option

structure SeedMember where
  id : Nat
  tenantId : Nat
  rateCents : Option Int

def SeedMember.row (m : SeedMember) : PayMember where
  id := m.id
  tenantId := m.tenantId
  hourlyRateCents := m.rateCents
  hourlyRateEffectiveFrom := none

def seeded (seeds : List SeedMember) : PayState where
  members := seeds.map (·.row)
  activityLog := []

def acceptedWrite (p : DateParser) (m : SeedMember) (call : RateCall) : Option RateWrite :=
  if call.repId = m.id then (checkRate p call m.tenantId).toOption else none

def writesOf (p : DateParser) (m : SeedMember) (calls : List RateCall) : List RateWrite :=
  calls.filterMap (acceptedWrite p m)

def newestWrite (writes : List RateWrite) (atMs : Int) : Option RateWrite :=
  writes.reverse.find? (·.effective.ms ≤ atMs)

/-- The rate of the newest change that applies, else that of the legacy row. -/
def lastWriteRate (legacy : Option Int) (writes : List RateWrite) (atMs : Int) : Option Int :=
  match newestWrite writes atMs with
  | some w => w.rateCents
  | none => legacy

theorem newestWrite_snoc (writes : List RateWrite) (w : RateWrite) (atMs : Int) :
    newestWrite (writes ++ [w]) atMs =
      if w.effective.ms ≤ atMs then some w else newestWrite writes atMs := by
  unfold newestWrite
  rw [reverse_append, reverse_singleton, singleton_append, find?_cons]
  by_cases h : w.effective.ms ≤ atMs <;> simp [h]

def rowAfter (m : SeedMember) (writes : List RateWrite) : PayMember :=
  match writes.getLast? with
  | none => m.row
  | some w =>
    { m.row with hourlyRateCents := w.rateCents, hourlyRateEffectiveFrom := some w.effectiveIso }

theorem rowAfter_id (m : SeedMember) (writes : List RateWrite) : (rowAfter m writes).id = m.id := by
  unfold rowAfter
  cases writes.getLast? <;> rfl

theorem rowAfter_tenantId (m : SeedMember) (writes : List RateWrite) :
    (rowAfter m writes).tenantId = m.tenantId := by
  unfold rowAfter
  cases writes.getLast? <;> rfl

theorem rowAfter_snoc (m : SeedMember) (writes : List RateWrite) (w : RateWrite) :
    rowAfter m (writes ++ [w]) =
      { m.row with hourlyRateCents := w.rateCents
                   hourlyRateEffectiveFrom := some w.effectiveIso } := by
  rw [rowAfter, getLast?_concat]

def eventEntries (p : DateParser) (repId : Nat) (s : PayState) : List RateEntry :=
  (s.activityLog.filter (·.repId = repId)).filterMap (·.entry p)

structure Records (p : DateParser) (m : SeedMember) (writes : List RateWrite) (s : PayState) :
    Prop where
  numbered : Numbered (·.id) s.activityLog
  row : s.getTeamMemberById m.id = some (rowAfter m writes)
  untouched : writes = [] → eventEntries p m.id s = []
  history : ∀ atMs : Int,
    ((eventEntries p m.id s).reverse.find? (·.effMs ≤ (atMs : WithBot Int))).bind (·.rateCents) =
      (newestWrite writes atMs).bind (·.rateCents)

theorem records_seeded (p : DateParser) {seeds : List SeedMember} {m : SeedMember}
    (h : seeds.find? (·.id = m.id) = some m) : Records p m [] (seeded seeds) := by
  refine ⟨rfl, ?_, fun _ => rfl, fun _ => rfl⟩
  unfold PayState.getTeamMemberById seeded
  rw [find?_map]
  exact congrArg (Option.map SeedMember.row) h

theorem rowAfter_has {m : SeedMember} {writes : List RateWrite} {w : RateWrite}
    (h : (rowAfter m writes).has w = true) : ∃ before last, writes = before ++ [last] ∧
      last.rateCents = w.rateCents ∧ last.effective.ms = w.effective.ms := by
  unfold PayMember.has at h
  rw [Bool.and_eq_true, decide_eq_true_eq, decide_eq_true_eq] at h
  rcases eq_nil_or_concat writes with rfl | ⟨before, last, rfl⟩
  · cases h.2
  · rw [concat_eq_append, rowAfter_snoc] at h
    rw [concat_eq_append]
    refine ⟨before, last, rfl, h.1, ?_⟩
    exact toISOString_injective last.effective.inDateRange w.effective.inDateRange
      (some.inj h.2)

section Step

variable {p : DateParser} {m : SeedMember} {writes : List RateWrite} {s : PayState}

theorem RateWrite.entry_parse (p : DateParser) (w : RateWrite) :
    p.parse w.effectiveIso = some w.effective.ms :=
  p.parse_toISOString w.effective.ms w.effective.inDateRange

theorem Records.other (h : Records p m writes s) {rep : PayMember} (hother : rep.id ≠ m.id)
    (w : RateWrite) : Records p m writes (storeRate rep w s) := by
  unfold storeRate
  split
  · exact h
  · have hevents : ∀ ev : RateEvent, ev.repId = rep.id →
        (s.activityLog ++ [ev]).filter (·.repId = m.id) =
          s.activityLog.filter (·.repId = m.id) := by
      intro ev hev
      rw [filter_append, filter_cons_of_neg (by simp [hev, hother]), filter_nil,
        append_nil]
    refine ⟨h.numbered.snoc rfl, ?_, ?_, ?_⟩
    · have hrow := h.row
      unfold PayState.getTeamMemberById at hrow ⊢
      rw [@find?_key_map _ _ _ _ PayMember.id _ (fun a => by split <;> rfl), hrow, map_some,
        if_neg (by rw [rowAfter_id]; exact hother.symm)]
    · unfold eventEntries
      rw [hevents _ rfl]
      exact h.untouched
    · unfold eventEntries
      rw [hevents _ rfl]
      exact h.history

theorem Records.own (h : Records p m writes s) (w : RateWrite) :
    Records p m (writes ++ [w]) (storeRate (rowAfter m writes) w s) := by
  unfold storeRate
  split
  · rename_i hsame
    obtain ⟨before, last, rfl, hrate, hdate⟩ := rowAfter_has hsame
    refine ⟨h.numbered, ?_, by simp, fun atMs => ?_⟩
    · rw [rowAfter_snoc, ← hrate, RateWrite.effectiveIso, ← hdate]
      have hrow := h.row
      rw [rowAfter_snoc] at hrow
      exact hrow
    · rw [h.history atMs, newestWrite_snoc (before ++ [last]), newestWrite_snoc before, ← hdate]
      by_cases hbegun : last.effective.ms ≤ atMs
      · rw [if_pos hbegun, if_pos hbegun, bind_some, bind_some, hrate]
      · rw [if_neg hbegun, if_neg hbegun]
  · have hentries : eventEntries p m.id
        { members := s.members.map fun r =>
            if r.id = (rowAfter m writes).id then
              { r with hourlyRateCents := w.rateCents
                       hourlyRateEffectiveFrom := some w.effectiveIso }
            else r
          activityLog := s.activityLog ++
            [{ id := s.activityLog.length + 1
               repId := (rowAfter m writes).id
               oldRateCents := (rowAfter m writes).hourlyRateCents
               newRateCents := w.rateCents
               effectiveFrom := w.effectiveIso }] } =
        eventEntries p m.id s ++ [{ rateCents := w.rateCents, effMs := (w.effective.ms : WithBot Int)
                                    seq := ((s.activityLog.length + 1 : Nat) : WithTop Nat) }] := by
      unfold eventEntries
      rw [filter_append, filter_cons_of_pos (by simp [rowAfter_id]), filter_nil,
        filterMap_append]
      simp [RateEvent.entry, w.entry_parse p]
    refine ⟨h.numbered.snoc rfl, ?_, by simp, fun atMs => ?_⟩
    · have hrow := h.row
      unfold PayState.getTeamMemberById at hrow ⊢
      rw [@find?_key_map _ _ _ _ PayMember.id _ (fun a => by split <;> rfl), hrow, map_some,
        if_pos rfl, rowAfter_snoc]
      unfold rowAfter
      cases writes.getLast? <;> rfl
    · rw [hentries, reverse_append, reverse_singleton, singleton_append,
        find?_cons, newestWrite_snoc]
      by_cases hbegun : w.effective.ms ≤ atMs
      · simp [hbegun]
      · have hhistory := h.history atMs
        simp [hbegun, hhistory]

theorem Records.step (h : Records p m writes s) (call : RateCall) :
    Records p m (writes ++ (acceptedWrite p m call).toList) (HourlyPay.step p s call) := by
  have hkeep : ∀ {ws : List RateWrite}, ws = [] → Records p m (writes ++ ws) s := by
    intro ws hws
    rw [hws, append_nil]
    exact h
  unfold HourlyPay.step setHourlyRate acceptedWrite
  by_cases hown : call.repId = m.id
  · rw [if_pos hown, hown, h.row]
    dsimp only
    rw [rowAfter_tenantId]
    cases checkRate p call m.tenantId with
    | error e => exact hkeep rfl
    | ok w => exact h.own w
  · rw [if_neg hown, toList_none]
    cases hrep : s.getTeamMemberById call.repId with
    | none => exact hkeep rfl
    | some rep =>
      dsimp only
      cases checkRate p call rep.tenantId with
      | error e => exact hkeep rfl
      | ok w =>
        have hid : rep.id = call.repId := (mem_of_find?_key hrep).2
        rw [append_nil]
        exact h.other (hid ▸ hown) w

theorem Records.run (h : Records p m writes s) (calls : List RateCall) :
    Records p m (writes ++ writesOf p m calls) (run (HourlyPay.step p) s calls) := by
  induction calls generalizing writes s with
  | nil => rwa [writesOf, filterMap_nil, append_nil]
  | cons call calls ih =>
    have hnext := ih (h.step call)
    rw [append_assoc] at hnext
    have hwrites : (acceptedWrite p m call).toList ++ writesOf p m calls =
        writesOf p m (call :: calls) := by
      unfold writesOf
      cases hw : acceptedWrite p m call with
      | none => rw [filterMap_cons_none hw, toList_none, nil_append]
      | some w => rw [filterMap_cons_some hw, toList_some, singleton_append]
    rw [hwrites] at hnext
    exact hnext

end Step

section Reading

variable {p : DateParser} {m : SeedMember} {writes : List RateWrite} {s : PayState}

theorem rateEntries_eq (h : Records p m writes s) : rateEntries p m.id s =
    eventEntries p m.id s ++ ((rowAfter m writes).entry p).toList := by
  unfold rateEntries eventEntries
  rw [h.row, bind_some]

theorem eventEntries_ascending (h : Records p m writes s) :
    (eventEntries p m.id s).Pairwise fun a b => a.seq < b.seq := by
  have hids : (s.activityLog.filter (·.repId = m.id)).Pairwise fun a b => a.id < b.id := by
    have hall : (s.activityLog.map (·.id)).Pairwise (· < ·) := by
      rw [h.numbered]
      exact pairwise_lt_range'
    exact (pairwise_map.mp hall).filter _
  unfold eventEntries
  rw [pairwise_filterMap]
  refine hids.imp fun {a b} hlt x hx y hy => ?_
  obtain ⟨_, -, rfl⟩ := map_eq_some_iff.mp hx
  obtain ⟨_, -, rfl⟩ := map_eq_some_iff.mp hy
  exact WithBot.coe_lt_coe.mpr (WithTop.coe_lt_coe.mpr hlt)

theorem eventEntries_lt_top {e : RateEntry} (h : e ∈ eventEntries p m.id s) :
    e.seq < ((⊤ : WithTop Nat) : WithBot (WithTop Nat)) := by
  obtain ⟨ev, -, hev⟩ := mem_filterMap.mp h
  obtain ⟨_, -, rfl⟩ := map_eq_some_iff.mp hev
  exact WithBot.coe_lt_coe.mpr (WithTop.coe_lt_top _)

def RateWrite.rowEntry (w : RateWrite) (rateCents : Int) : RateEntry where
  rateCents := some rateCents
  effMs := w.effective.ms
  seq := ((⊤ : WithTop Nat) : WithBot (WithTop Nat))

/-- The rate in force of a member with changes is that of the newest one that applies. -/
theorem rateCents_of_writes (h : Records p m writes s) (hwrites : writes ≠ []) (atMs : Int) :
    (hourlyRateEffectiveAt p m.id atMs s).rateCents =
      (newestWrite writes atMs).bind (·.rateCents) := by
  obtain ⟨before, w, rfl⟩ := (eq_nil_or_concat' writes).resolve_left hwrites
  have hentry : (rowAfter m (before ++ [w])).entry p = w.rateCents.map w.rowEntry := by
    rw [rowAfter_snoc, PayMember.entry]
    cases w.rateCents with
    | none => rfl
    | some rateCents =>
      dsimp only [bind_some]
      rw [w.entry_parse p]
      rfl
  unfold hourlyRateEffectiveAt
  dsimp only
  rw [rateEntries_eq h, hentry]
  cases hrate : w.rateCents with
  | none =>
    rw [map_none, toList_none, append_nil,
      inForce_eq (eventEntries_ascending h), h.history]
  | some rateCents =>
    rw [map_some, toList_some]
    have hascending : (eventEntries p m.id s ++ [w.rowEntry rateCents]).Pairwise
        fun a b => a.seq < b.seq := by
      rw [pairwise_append]
      refine ⟨eventEntries_ascending h, pairwise_singleton _ _, fun a ha b hb => ?_⟩
      rw [mem_singleton.mp hb]
      exact eventEntries_lt_top ha
    rw [inForce_eq hascending, reverse_append, reverse_singleton, singleton_append,
      find?_cons]
    by_cases hbegun : w.effective.ms ≤ atMs
    · rw [newestWrite_snoc, if_pos hbegun]
      simp [RateWrite.rowEntry, hbegun, hrate]
    · simp only [RateWrite.rowEntry, WithBot.coe_le_coe, hbegun, decide_false]
      exact h.history atMs

theorem rateCents_of_legacy (h : Records p m [] s) (atMs : Int) :
    (hourlyRateEffectiveAt p m.id atMs s).rateCents = m.rateCents := by
  unfold hourlyRateEffectiveAt
  rw [rateEntries_eq h, h.untouched rfl, nil_append]
  have hrow : rowAfter m [] = m.row := rfl
  rw [hrow, PayMember.entry]
  cases hrate : m.rateCents with
  | none => simp [SeedMember.row, hrate, inForce, sweep]
  | some rateCents => simp [SeedMember.row, hrate, inForce, sweep, better]

theorem lastWriteRate_iff (h : Records p m writes s) (atMs : Int) :
    (hourlyRateEffectiveAt p m.id atMs s).rateCents = lastWriteRate m.rateCents writes atMs ↔
      m.rateCents = none ∨ writes = [] ∨ ∃ w ∈ writes, w.effective.ms ≤ atMs := by
  by_cases hwrites : writes = []
  · subst hwrites
    rw [rateCents_of_legacy h]
    simp [lastWriteRate, newestWrite]
  · rw [rateCents_of_writes h hwrites, lastWriteRate]
    cases hnewest : newestWrite writes atMs with
    | some w =>
      have hbegun : w ∈ writes ∧ w.effective.ms ≤ atMs :=
        ⟨mem_reverse.mp (mem_of_find?_eq_some hnewest),
          by simpa using find?_some hnewest⟩
      exact iff_of_true rfl (Or.inr (Or.inr ⟨w, hbegun⟩))
    | none =>
      have hnone : ¬ ∃ w ∈ writes, w.effective.ms ≤ atMs := by
        rintro ⟨w, hw, hbegun⟩
        have hnot := find?_eq_none.mp hnewest w (mem_reverse.mpr hw)
        exact hnot (decide_eq_true hbegun)
      simp only [bind_none, hwrites, hnone, or_false]
      exact eq_comm

end Reading

/-- After every run of calls, a member's rate at an instant is that of the last write exactly when
the member had no rate before the first change, or there is no change, or one applies by then. -/
theorem hourlyRate_lastWrite_iff (p : DateParser) {seeds : List SeedMember} {m : SeedMember}
    (hseed : seeds.find? (·.id = m.id) = some m) (calls : List RateCall) (atMs : Int) :
    (hourlyRateEffectiveAt p m.id atMs (run (step p) (seeded seeds) calls)).rateCents =
        lastWriteRate m.rateCents (writesOf p m calls) atMs ↔
      m.rateCents = none ∨ writesOf p m calls = [] ∨
        ∃ w ∈ writesOf p m calls, w.effective.ms ≤ atMs := by
  have hrecords := (records_seeded p hseed).run calls
  rw [nil_append] at hrecords
  exact lastWriteRate_iff hrecords atMs

def legacyRep : SeedMember := { id := 3, tenantId := 1, rateCents := some 2000 }

def raise : RateCall where
  tenantId := 1
  repId := 3
  rateCents := some 3000
  effectiveFrom := none
  now := { ms := 1000, inDateRange := by unfold InDateRange; omega }

theorem hourlyRate_lastWrite_iff_raise :
    (hourlyRateEffectiveAt DateParser.printed 3 1000
      (run (step DateParser.printed) (seeded [legacyRep]) [raise])).rateCents = some 3000 := by
  have hwrites : writesOf DateParser.printed legacyRep [raise] =
      [{ rateCents := some 3000, effective := raise.now }] := rfl
  have hseed : [legacyRep].find? (·.id = legacyRep.id) = some legacyRep := rfl
  have hiff := hourlyRate_lastWrite_iff DateParser.printed hseed [raise] 1000
  rw [hwrites] at hiff
  exact hiff.mpr (Or.inr (Or.inr ⟨_, mem_singleton_self _, le_refl (1000 : Int)⟩))

/-- Before the raise applies the legacy rate is gone. -/
theorem not_lastWrite_raise :
    ¬ ∀ (p : DateParser) (seeds : List SeedMember) (m : SeedMember),
      seeds.find? (·.id = m.id) = some m → ∀ (calls : List RateCall) (atMs : Int),
      (hourlyRateEffectiveAt p m.id atMs (run (step p) (seeded seeds) calls)).rateCents =
        lastWriteRate m.rateCents (writesOf p m calls) atMs := by
  intro h
  have hseed : [legacyRep].find? (·.id = legacyRep.id) = some legacyRep := rfl
  have hrecords := (records_seeded DateParser.printed hseed).run [raise]
  have hwrites : writesOf DateParser.printed legacyRep [raise] =
      [{ rateCents := some 3000, effective := raise.now }] := rfl
  rw [nil_append] at hrecords
  have hcond := (lastWriteRate_iff hrecords 0).mp
    (h DateParser.printed [legacyRep] legacyRep rfl [raise] 0)
  rw [hwrites] at hcond
  revert hcond
  simp [legacyRep, raise]

end HomefrontFiber.HourlyPay
