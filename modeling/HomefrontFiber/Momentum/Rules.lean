import Mathlib.Algebra.Order.Field.Rat
import Mathlib.Data.List.Sort
import Mathlib.Data.Rat.Floor

/-!
# The rules of a momentum spiff

`evaluateMomentum` decides from the signals of a rep whether an offer is armed now. The floors come
first, then the rep's own pace, then the caps, which trim the amount of the tier that the score
unlocks. Quotients are exact.
-/

namespace HomefrontFiber.Momentum

structure Tier where
  atScore : Int
  amountCents : Int

structure MomentumConfig where
  windowMinutes : Int := 90
  offerMinutes : Int := 45
  dryMinutes : Int := 90
  minDoorsInWindow : Int := 12
  minConversationsInWindow : Int := 3
  minInterestSignals : Int := 1
  paceRatio : Rat := 23 / 20
  armAtScore : Int := 55
  tiers : List Tier := [⟨55, 2500⟩, ⟨70, 4000⟩, ⟨85, 6000⟩]
  /-- Bounds. 0 = uncapped. -/
  maxOffersPerRepPerDay : Int := 2
  maxCentsPerRepPerDay : Int := 10000
  maxCentsPerOrgPerDay : Int := 50000
  enabled : Bool := true

structure MomentumSignals where
  repId : Int
  doorsInWindow : Int
  conversationsInWindow : Int
  interestSignalsInWindow : Int
  baselineDoorsPerHour : Rat
  minutesSinceLastSale : Option Int
  offersArmedToday : Int
  awardedToRepTodayCents : Int
  awardedOrgTodayCents : Int

inductive MomentumBlock where
  | disabled | cold | tooFewDoors | tooFewConversations | noInterest | offPace | justSold
  | repOfferCap | repMoneyCap | orgMoneyCap

def thousands : List Char → List Char
  | a :: b :: c :: d :: ds => a :: b :: c :: ',' :: thousands (d :: ds)
  | ds => ds

def toLocaleString (n : Nat) : String :=
  String.ofList (thousands (Nat.toDigits 10 n).reverse).reverse

def usd (c : Int) : String :=
  let whole := toLocaleString (c.natAbs / 100)
  let rem := c.natAbs % 100
  let body := if rem = 0 then s!"${whole}"
    else if rem < 10 then s!"${whole}.0{rem}"
    else s!"${whole}.{rem}"
  if c < 0 then "-" ++ body else body

def streakHeadline (s : MomentumSignals) : String :=
  if 2 ≤ s.interestSignalsInWindow then
    s!"{s.interestSignalsInWindow} doors interested and none closed yet"
  else if 4 ≤ s.conversationsInWindow then
    s!"{s.conversationsInWindow} real conversations in the last hour"
  else s!"{s.doorsInWindow} doors and people are talking"

def momentumReason : String := "Hot streak - closed while running hot"

def cents (n : Int) : Int := max 0 n

def clamp (n lo hi : Rat) : Rat := max lo (min hi n)

def MomentumConfig.hours (cfg : MomentumConfig) : Rat := max (1 / 4) (cfg.windowMinutes / 60)

def momentumScore (s : MomentumSignals) (cfg : MomentumConfig) : Int :=
  let convRate : Rat :=
    if 0 < s.doorsInWindow then s.conversationsInWindow / s.doorsInWindow else 0
  let convPart := clamp (convRate * 2) 0 1 * 30
  let interestPart := clamp (s.interestSignalsInWindow / 3) 0 1 * 15
  let perHour := s.doorsInWindow / cfg.hours
  let ratio := if 0 < s.baselineDoorsPerHour then perHour / s.baselineDoorsPerHour else 8 / 5
  let pacePart := clamp (ratio - 1) 0 1 * 30
  let volumePart := clamp (s.doorsInWindow / 30) 0 1 * 25
  (clamp (convPart + interestPart + pacePart + volumePart) 0 100 + 1 / 2).floor

def tierFor (score : Int) (cfg : MomentumConfig) : Int :=
  (cfg.tiers.mergeSort fun a b => a.atScore ≤ b.atScore).foldl
    (fun amount t => if t.atScore ≤ score then cents t.amountCents else amount) 0

structure MomentumOffer where
  amountCents : Int
  expiresAtMs : Int
  score : Int
  headline : String
  callToAction : String

/-- The first rule that stands against an offer, apart from the money. -/
def MomentumSignals.block (s : MomentumSignals) (cfg : MomentumConfig) : Option MomentumBlock :=
  if !cfg.enabled then some .disabled
  else if s.doorsInWindow < cfg.minDoorsInWindow then some .tooFewDoors
  else if s.conversationsInWindow < cfg.minConversationsInWindow then some .tooFewConversations
  else if s.interestSignalsInWindow < cfg.minInterestSignals then some .noInterest
  else if 0 < s.baselineDoorsPerHour ∧
      s.doorsInWindow / cfg.hours < s.baselineDoorsPerHour * cfg.paceRatio then some .offPace
  else if s.minutesSinceLastSale.any (· < cfg.dryMinutes) then some .justSold
  else if momentumScore s cfg < cfg.armAtScore then some .cold
  else if 0 < cfg.maxOffersPerRepPerDay ∧ cfg.maxOffersPerRepPerDay ≤ s.offersArmedToday then
    some .repOfferCap
  else none

/-- A cap trims the amount to the room that is left under it. -/
def trim (cap awarded : Int) (block : MomentumBlock) (amount : Int) : Except MomentumBlock Int :=
  if 0 < cap then
    if cap - cents awarded ≤ 0 then .error block else .ok (min amount (cap - cents awarded))
  else .ok amount

/-- The amount that is offered, or the rule that stands against it. -/
def offerAmount (s : MomentumSignals) (cfg : MomentumConfig) : Except MomentumBlock Int :=
  match s.block cfg with
  | some block => .error block
  | none =>
    let amount := tierFor (momentumScore s cfg) cfg
    if amount ≤ 0 then .error .cold
    else trim cfg.maxCentsPerRepPerDay s.awardedToRepTodayCents .repMoneyCap amount >>=
      trim cfg.maxCentsPerOrgPerDay s.awardedOrgTodayCents .orgMoneyCap

def evaluateMomentum (s : MomentumSignals) (nowMs : Int) (cfg : MomentumConfig) :
    Except (MomentumBlock × Int) MomentumOffer :=
  match offerAmount s cfg with
  | .error block => .error (block, momentumScore s cfg)
  | .ok amount => .ok {
      amountCents := amount
      expiresAtMs := nowMs + cfg.offerMinutes * 60000
      score := momentumScore s cfg
      headline := streakHeadline s
      callToAction := s!"Close one in the next {cfg.offerMinutes} minutes for {usd amount}." }

structure Setting where
  label : String
  value : Int
  lo : Int
  hi : Int

def MomentumConfig.settings (c : MomentumConfig) : List Setting :=
  [⟨"Window", c.windowMinutes, 15, 480⟩, ⟨"Offer length", c.offerMinutes, 5, 240⟩,
    ⟨"Dry period", c.dryMinutes, 0, 1440⟩, ⟨"Minimum doors", c.minDoorsInWindow, 1, 500⟩,
    ⟨"Minimum conversations", c.minConversationsInWindow, 0, 200⟩,
    ⟨"Minimum interest signals", c.minInterestSignals, 0, 100⟩,
    ⟨"Arm-at score", c.armAtScore, 1, 100⟩]

def Setting.error (f : Setting) : Option String :=
  if f.value < f.lo ∨ f.hi < f.value then some s!"{f.label} must be between {f.lo} and {f.hi}."
  else none

def MomentumConfig.bounds (c : MomentumConfig) : List (String × Int) :=
  [("Offers per rep per day", c.maxOffersPerRepPerDay),
    ("Per-rep daily cap", c.maxCentsPerRepPerDay), ("Org daily cap", c.maxCentsPerOrgPerDay)]

def boundError (b : String × Int) : Option String :=
  if b.2 < 0 then some s!"{b.1} must be a whole number (0 = uncapped)." else none

def Tier.error (t : Tier) : Option String :=
  if t.atScore < 1 ∨ 100 < t.atScore then some "Each tier's score must be between 1 and 100."
  else if t.amountCents < 1 then some "Each tier must pay a whole number of cents above zero."
  else if 100000 < t.amountCents then some "A momentum spiff cannot exceed $1,000."
  else none

/-- The message that a configuration is refused with, and `none` when it is valid. -/
def validateMomentumConfig (c : MomentumConfig) : Option String :=
  (c.settings.findSome? Setting.error).or <|
  (if c.paceRatio < 1 ∨ 5 < c.paceRatio then some "Pace multiple must be between 1 and 5."
    else if c.tiers = [] then some "Add at least one offer tier."
    else if 5 < c.tiers.length then some "Use at most 5 offer tiers."
    else none).or <|
  (c.tiers.findSome? Tier.error).or <|
  (c.bounds.findSome? boundError).or <|
  if c.enabled ∧ ∀ t ∈ c.tiers, c.armAtScore < t.atScore then
    some "The lowest tier's score must be at or below the arm-at score, or no offer can ever fire."
  else none

theorem bounds_nonneg {c : MomentumConfig} (h : validateMomentumConfig c = none) :
    0 ≤ c.maxOffersPerRepPerDay ∧ 0 ≤ c.maxCentsPerRepPerDay ∧ 0 ≤ c.maxCentsPerOrgPerDay := by
  unfold validateMomentumConfig at h
  simp only [Option.or_eq_none_iff, List.findSome?_eq_none_iff] at h
  obtain ⟨-, -, -, hbounds, -⟩ := h
  have hnonneg : ∀ b ∈ c.bounds, 0 ≤ b.2 := by
    intro b hb
    have hnone := hbounds b hb
    unfold boundError at hnone
    split at hnone
    · cases hnone
    · omega
  have hmem : ∀ v ∈ c.bounds.map Prod.snd, 0 ≤ v := by
    intro v hv
    obtain ⟨b, hb, rfl⟩ := List.mem_map.mp hv
    exact hnonneg b hb
  simpa [MomentumConfig.bounds] using hmem

theorem offerMinutes_pos {c : MomentumConfig} (h : validateMomentumConfig c = none) :
    0 < c.offerMinutes := by
  unfold validateMomentumConfig at h
  simp only [Option.or_eq_none_iff, List.findSome?_eq_none_iff] at h
  have hnone := h.1 ⟨"Offer length", c.offerMinutes, 5, 240⟩ (by simp [MomentumConfig.settings])
  unfold Setting.error at hnone
  split at hnone
  · cases hnone
  · rename_i hbounds
    dsimp only at hbounds
    omega

theorem bind_ok {ε α β : Type} {x : Except ε α} {f : α → Except ε β} {b : β}
    (h : (x >>= f) = .ok b) : ∃ a, x = .ok a ∧ f a = .ok b := by
  cases x with
  | error e => cases h
  | ok a => exact ⟨a, rfl, h⟩

theorem trim_ok {cap awarded amount trimmed : Int} {block : MomentumBlock} (hamount : 0 < amount)
    (h : trim cap awarded block amount = .ok trimmed) :
    0 < trimmed ∧ trimmed ≤ amount ∧ (0 < cap → cents awarded + trimmed ≤ cap) := by
  unfold trim at h
  split at h
  · split at h
    · cases h
    · obtain rfl := Except.ok.inj h
      omega
  · obtain rfl := Except.ok.inj h
    exact ⟨hamount, le_rfl, fun hcap => absurd hcap ‹_›⟩

variable {s : MomentumSignals} {cfg : MomentumConfig}

theorem block_none (h : s.block cfg = none) :
    0 < cfg.maxOffersPerRepPerDay → s.offersArmedToday < cfg.maxOffersPerRepPerDay := by
  intro hcap
  by_contra hfull
  have hsome : s.block cfg ≠ none := by
    unfold MomentumSignals.block
    repeat' split
    all_goals first | exact Option.some_ne_none _ | skip
    rename_i hcount
    exact absurd ⟨hcap, not_lt.mp hfull⟩ hcount
  exact hsome h

theorem offerAmount_ok {amount : Int} (h : offerAmount s cfg = .ok amount) :
    s.block cfg = none ∧ 0 < amount ∧
      (0 < cfg.maxCentsPerRepPerDay →
        cents s.awardedToRepTodayCents + amount ≤ cfg.maxCentsPerRepPerDay) ∧
      (0 < cfg.maxCentsPerOrgPerDay →
        cents s.awardedOrgTodayCents + amount ≤ cfg.maxCentsPerOrgPerDay) := by
  unfold offerAmount at h
  split at h
  · cases h
  · rename_i hblock
    dsimp only at h
    split at h
    · cases h
    · rename_i hpays
      obtain ⟨trimmed, hrep, horg⟩ := bind_ok h
      obtain ⟨hpos, -, hrepRoom⟩ := trim_ok (not_le.mp hpays) hrep
      obtain ⟨hamount, hle, horgRoom⟩ := trim_ok hpos horg
      refine ⟨hblock, hamount, fun hcap => ?_, horgRoom⟩
      have hroom := hrepRoom hcap
      omega

theorem evaluateMomentum_ok {nowMs : Int} {o : MomentumOffer}
    (h : evaluateMomentum s nowMs cfg = .ok o) :
    0 < o.amountCents ∧ o.expiresAtMs = nowMs + cfg.offerMinutes * 60000 ∧
      (0 < cfg.maxOffersPerRepPerDay → s.offersArmedToday < cfg.maxOffersPerRepPerDay) ∧
      (0 < cfg.maxCentsPerRepPerDay →
        cents s.awardedToRepTodayCents + o.amountCents ≤ cfg.maxCentsPerRepPerDay) ∧
      (0 < cfg.maxCentsPerOrgPerDay →
        cents s.awardedOrgTodayCents + o.amountCents ≤ cfg.maxCentsPerOrgPerDay) := by
  unfold evaluateMomentum at h
  cases hamount : offerAmount s cfg with
  | error block =>
    rw [hamount] at h
    cases h
  | ok amount =>
    rw [hamount] at h
    obtain rfl := Except.ok.inj h
    obtain ⟨hblock, hpos, hrep, horg⟩ := offerAmount_ok hamount
    exact ⟨hpos, rfl, block_none hblock, hrep, horg⟩

end HomefrontFiber.Momentum
