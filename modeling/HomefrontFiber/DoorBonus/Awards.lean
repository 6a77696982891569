import HomefrontFiber.DoorBonus.Doors
import HomefrontFiber.Workweek

/-!
# The award of a door day

A day is decided on its genuine doors, and the award is booked under a key of the rep and the local
day. The unique index of the ledger ignores the second booking of a key, whoever wrote the first.
-/

namespace HomefrontFiber.DoorBonus

open List Calendar IsoText

inductive DoorDayBlock where
  | disabled | doors | span | tamper
  deriving DecidableEq

structure DoorDayDecision where
  qualifies : Bool
  awardCents : Int
  count : GenuineDoorCount
  blockedBy : Option DoorDayBlock
  needsReview : Bool
  reason : String

namespace DoorDayConfig

variable (config : DoorDayConfig)

def minSpan : Int := max 0 (int config.minSpanMinutes 0)

def reward : Int := max 0 (int config.rewardCents 0)

def reason : String := toString config.target ++ " genuine doors in a day"

end DoorDayConfig

def evaluateDoorDay (events : List DoorEvent) (tamperedKnocks : Option ℚ) (config : DoorDayConfig) :
    DoorDayDecision :=
  let count := countGenuineDoors events config
  let no (blockedBy : DoorDayBlock) : DoorDayDecision :=
    { qualifies := false, awardCents := 0, count, blockedBy, needsReview := blockedBy = .tamper
      reason := config.reason }
  if !config.enabled || config.reward ≤ 0 then no .disabled
  else if config.voidOnTamper && 0 < int tamperedKnocks 0 then no .tamper
  else if count.counted < config.target then no .doors
  else if count.spanMinutes < config.minSpan then no .span
  else
    { qualifies := true, awardCents := config.reward, count, blockedBy := none, needsReview := false
      reason := config.reason }

inductive SpiffStatus where
  | earned | approved | paid | void

structure Spiff where
  tenantId : Int
  repId : Int
  saleRef : Option Text
  amountCents : Int
  reason : String
  status : SpiffStatus
  createdAt : Int

/-- What the unique index holds of a row. -/
def Spiff.key (s : Spiff) : Option (Int × Text) := s.saleRef.map (s.tenantId, ·)

/-- A call with what it reads: the zone and the config of the tenant, the timed doors of the day and
its tampered knocks. -/
structure DoorDayCall where
  tenantId : Int
  repId : Int
  nowMs : Int
  zone : Zone
  config : DoorDayConfig
  events : List DoorEvent
  tampered : Nat

def dayLabel (day : Int) : Text :=
  (toString (civil day).year).toList ++ '-' :: (pad 2 (civil day).month.toNat ++ '-' ::
    pad 2 (civil day).day.toNat)

def awardKey (day repId : Int) : Text :=
  "doorday:D".toList ++ dayLabel day ++ ":rep:".toList ++ (toString repId).toList

namespace DoorDayCall

variable (c : DoorDayCall)

def day : Int := c.zone.localYmd c.nowMs

def evaluateDoorDayForRep : DoorDayDecision :=
  evaluateDoorDay c.events (some (if c.config.voidOnTamper then c.tampered else 0)) c.config

end DoorDayCall

structure DoorDayAward where
  amountCents : Int
  doors : Nat
  reason : String
  inserted : Bool

def insertOrIgnore (spiffs : List Spiff) (row : Spiff) : Bool × List Spiff :=
  if row.key.any (some · ∈ spiffs.map Spiff.key) then (false, spiffs) else (true, spiffs ++ [row])

/-- Tamper found after an award is logged and leaves the ledger. -/
def awardDoorDayForRep (spiffs : List Spiff) (c : DoorDayCall) : Option DoorDayAward × List Spiff :=
  let decision := c.evaluateDoorDayForRep
  if !c.config.enabled || !decision.qualifies then (none, spiffs)
  else
    let (inserted, spiffs) := insertOrIgnore spiffs
      { tenantId := c.tenantId, repId := c.repId, saleRef := awardKey c.day c.repId
        amountCents := decision.awardCents, reason := decision.reason, status := .earned
        createdAt := c.nowMs }
    (some { amountCents := decision.awardCents, doors := decision.count.counted
            reason := decision.reason, inserted }, spiffs)

/-- The ledger and the calls that have paid. -/
structure Ledger where
  spiffs : List Spiff
  paid : List DoorDayCall

/-- The other writers insert rows and move them on. -/
inductive LedgerEvent where
  | award (c : DoorDayCall)
  | insert (row : Spiff)
  | setStatus (which : Spiff → Bool) (status : SpiffStatus)

def step (l : Ledger) : LedgerEvent → Ledger
  | .award c =>
    let (award, spiffs) := awardDoorDayForRep l.spiffs c
    { spiffs, paid := if award.any (·.inserted) then l.paid ++ [c] else l.paid }
  | .insert row => { l with spiffs := (insertOrIgnore l.spiffs row).2 }
  | .setStatus which status =>
    { l with spiffs := l.spiffs.map fun s => if which s then { s with status } else s }

variable {config : DoorDayConfig} {events : List DoorEvent} {l : Ledger}

theorem exists_span {doors : List DoorEvent} {target : Nat} (hpos : 0 < target)
    (h : target ≤ doors.length) : ∃ first last, doors.head? = some first ∧
      doors[target - 1]? = some last ∧ spanMs doors target = last.atMs - first.atMs := by
  have hlt : target - 1 < doors.length := by omega
  have hlast := getElem?_eq_getElem hlt
  cases doors with
  | nil => simp at hlt
  | cons first rest =>
    refine ⟨first, _, rfl, hlast, ?_⟩
    unfold spanMs
    rw [min_eq_left h, hlast]

theorem target_pos (config : DoorDayConfig) : 0 < config.target := by
  unfold DoorDayConfig.target
  omega

/-- The day took long enough to reach the target. -/
def ReachedOverSpan (config : DoorDayConfig) (doors : List DoorEvent) : Prop :=
  ∃ first last, doors.head? = some first ∧ doors[config.target - 1]? = some last ∧
    (config.minSpan : ℚ) * 60000 ≤ last.atMs - first.atMs

theorem reachedOverSpan_iff : ReachedOverSpan config (scanDoors events config).counted ↔
    ¬ (countGenuineDoors events config).counted < config.target ∧
      ¬ (countGenuineDoors events config).spanMinutes < config.minSpan := by
  have hfloor : ∀ ms : ℚ, ¬ (ms / 60000).floor < config.minSpan ↔
      (config.minSpan : ℚ) * 60000 ≤ ms := by
    intro ms
    rw [not_lt, Rat.le_floor_iff, le_div_iff₀ (by norm_num)]
  constructor
  · rintro ⟨first, last, hfirst, hlast, hlong⟩
    obtain ⟨hlt, -⟩ := List.getElem?_eq_some_iff.mp hlast
    have hle : config.target ≤ (scanDoors events config).counted.length := by
      have hpos := target_pos config
      omega
    refine ⟨not_lt.mpr hle, (hfloor _).mpr ?_⟩
    obtain ⟨first', last', hfirst', hlast', hspan⟩ := exists_span (target_pos config) hle
    cases hfirst.symm.trans hfirst'
    cases hlast.symm.trans hlast'
    exact hspan ▸ hlong
  · rintro ⟨hle, hlong⟩
    obtain ⟨first, last, hfirst, hlast, hspan⟩ := exists_span (target_pos config) (not_lt.mp hle)
    exact ⟨first, last, hfirst, hlast, hspan ▸ (hfloor _).mp hlong⟩

theorem qualifies_iff (tampered : Option ℚ) :
    (evaluateDoorDay events tampered config).qualifies = true ↔ config.enabled = true ∧
      0 < config.reward ∧ ¬ (config.voidOnTamper = true ∧ 0 < int tampered 0) ∧
      ReachedOverSpan config (scanDoors events config).counted := by
  rw [reachedOverSpan_iff]
  unfold evaluateDoorDay
  split_ifs <;> grind

def DoorDayCall.key (c : DoorDayCall) : Option (Int × Text) :=
  some (c.tenantId, awardKey c.day c.repId)

/-- The keys that the unique index holds are distinct, and those paid for are among them. -/
structure PaidOnce (l : Ledger) : Prop where
  distinct : ((l.spiffs.map Spiff.key).filter Option.isSome).Nodup
  paid : (l.paid.map DoorDayCall.key).Sublist ((l.spiffs.map Spiff.key).filter Option.isSome)

theorem step_cases (l : Ledger) (e : LedgerEvent) :
    (step l e).paid = l.paid ∧ (step l e).spiffs.map Spiff.key = l.spiffs.map Spiff.key ∨
      ∃ row, (∀ k ∈ row.key, some k ∉ l.spiffs.map Spiff.key) ∧
        (step l e).spiffs = l.spiffs ++ [row] ∧ ((step l e).paid = l.paid ∨
          ∃ c, c.key = row.key ∧ (step l e).paid = l.paid ++ [c]) := by
  have hnew : ∀ {row : Spiff}, ¬ row.key.any (some · ∈ l.spiffs.map Spiff.key) = true →
      ∀ k ∈ row.key, some k ∉ l.spiffs.map Spiff.key := by
    intro row hrow k hk hmem
    apply hrow
    rw [Option.any_eq_true]
    exact ⟨k, hk, decide_eq_true hmem⟩
  cases e with
  | award c =>
    unfold step awardDoorDayForRep insertOrIgnore
    dsimp only
    split
    · exact .inl ⟨rfl, rfl⟩
    · split
      · exact .inl ⟨rfl, rfl⟩
      · rename_i hrow
        exact .inr ⟨_, hnew hrow, rfl, .inr ⟨c, rfl, rfl⟩⟩
  | insert row =>
    unfold step insertOrIgnore
    dsimp only
    split
    · exact .inl ⟨rfl, rfl⟩
    · rename_i hrow
      exact .inr ⟨row, hnew hrow, rfl, .inl rfl⟩
  | setStatus which status =>
    left
    refine ⟨rfl, ?_⟩
    unfold step
    dsimp only
    rw [map_map]
    apply map_congr_left
    intro s _
    rw [Function.comp_apply]
    split <;> rfl

theorem paidOnce_step (l : Ledger) (e : LedgerEvent) (h : PaidOnce l) : PaidOnce (step l e) := by
  rcases step_cases l e with ⟨hpaid, hkeys⟩ | ⟨row, hnew, hspiffs, hpaid⟩
  · exact ⟨hkeys ▸ h.distinct, hpaid ▸ hkeys ▸ h.paid⟩
  · have hkeys : ((step l e).spiffs.map Spiff.key).filter Option.isSome =
        (l.spiffs.map Spiff.key).filter Option.isSome ++ [row.key].filter Option.isSome := by
      rw [hspiffs, map_append, filter_append, map_singleton]
    constructor
    · rw [hkeys]
      refine nodup_append'.mpr ⟨h.distinct, (nodup_singleton _).filter _, ?_⟩
      intro k hk hrow
      obtain ⟨hrow, hsome⟩ := mem_filter.mp hrow
      obtain ⟨key, rfl⟩ := Option.isSome_iff_exists.mp hsome
      exact hnew key (mem_singleton.mp hrow).symm (mem_of_mem_filter hk)
    · rw [hkeys]
      rcases hpaid with hpaid | ⟨c, hc, hpaid⟩
      · rw [hpaid]
        exact h.paid.trans (sublist_append_left _ _)
      · rw [hpaid, map_append, map_singleton, ← hc]
        exact h.paid.append (Sublist.refl _)

/-- The doors that count are genuine, every other event is tallied under a rule that it breaks after
them, and a rep is paid at most once for a local day. -/
theorem genuineDoors_sound (events : List DoorEvent) (tampered : Option ℚ) (config : DoorDayConfig)
    (es : List LedgerEvent) (tenantId repId day : Int) :
    let doors := (scanDoors events config).counted
    let result := countGenuineDoors events config
    result.counted = doors.length ∧ Genuine config doors ∧
      result.counted + result.rejected .sameAddress + result.rejected .tooFast +
        result.rejected .hourCap = result.submitted ∧
      Screening config (sortEvents events) doors result.rejected ∧
      (∀ events', events'.Perm events → countGenuineDoors events' config = result) ∧
      ((evaluateDoorDay events tampered config).qualifies = true ↔ config.enabled = true ∧
        0 < config.reward ∧ ¬ (config.voidOnTamper = true ∧ 0 < int tampered 0) ∧
        ReachedOverSpan config doors) ∧
      (run step ⟨[], []⟩ es).paid.countP
        (fun c => c.tenantId = tenantId ∧ c.repId = repId ∧ c.day = day) ≤ 1 := by
  have hscreening : Screening config (sortEvents events) (scanDoors events config).counted
      (scanDoors events config).rejected := screening_foldl (scanned_start events) .nil
  refine ⟨rfl, hscreening.genuine, ?_, hscreening, ?_, qualifies_iff tampered, ?_⟩
  · exact hscreening.total.trans (sortEvents_perm events).length_eq
  · intro events' hperm
    have hsame := eq_sortEvents ((sortEvents_perm events').trans hperm) (sortEvents_sorted events')
    unfold countGenuineDoors scanDoors
    rw [hsame, hperm.length_eq]
  · have hstart : PaidOnce ⟨[], []⟩ := ⟨nodup_nil, .slnil⟩
    have hrun := run_invariant_all paidOnce_step es hstart
    have hcount := nodup_iff_count_le_one.mp (hrun.distinct.sublist hrun.paid)
      (some (tenantId, awardKey day repId))
    rw [count, countP_map] at hcount
    refine le_trans (countP_mono_left ?_) hcount
    intro c _ hc
    obtain ⟨rfl, rfl, rfl⟩ := of_decide_eq_true hc
    exact beq_iff_eq.mpr rfl

def unpaid : DoorDayConfig where
  enabled := true
  doors := some 1
  rewardCents := some 0
  minSpanMinutes := some 0
  maxPerRollingHour := some 0
  minGapSeconds := some 0
  voidOnTamper := true

/-- A bonus of nothing is switched off, whatever the day. -/
theorem not_qualifies_iff_unpaid :
    ¬ ((evaluateDoorDay [⟨1, 0⟩] (some 0) unpaid).qualifies = true ↔ unpaid.enabled = true ∧
      ¬ 0 < int (some 0) 0 ∧ ReachedOverSpan unpaid (scanDoors [⟨1, 0⟩] unpaid).counted) := by
  intro h
  have hdoors : (scanDoors [⟨1, 0⟩] unpaid).counted = [⟨1, 0⟩] := by
    unfold scanDoors
    rw [← eq_sortEvents .rfl (pairwise_singleton _ _)]
    decide +kernel
  rw [hdoors] at h
  have hpaid := h.mpr ⟨rfl, by decide +kernel, ⟨1, 0⟩, ⟨1, 0⟩, by decide +kernel, by decide +kernel,
    by decide +kernel⟩
  exact absurd ((qualifies_iff _).mp hpaid).2.1 (by decide +kernel)

end HomefrontFiber.DoorBonus
