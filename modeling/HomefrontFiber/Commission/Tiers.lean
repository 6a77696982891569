import Mathlib.Data.List.Sort

/-!
# Retroactive weekly tiers

The number of qualified sales of the week picks one tier, whose rate pays every sale of the week.
A tier set that does not cover the whole numbers from one without gap or overlap is refused
before it prices anything.
-/

namespace HomefrontFiber.Commission

structure CommissionTier where
  id : Option Nat
  position : Nat
  minimumSales : Int
  maximumSales : Option Int
  rateCents : Int
  label : String
deriving DecidableEq

inductive TierError
  | noTiers
  | firstMinimum
  | minimumNotWhole (tier : Nat)
  | duplicateMinimum (tier : Nat) (minimum : Int)
  | rateNotPositive (tier : Nat)
  | finalBounded
  | openBeforeFinal (tier : Nat)
  | maximumBelowMinimum (tier : Nat) (maximum minimum : Int)
  | notContinuous (tier : Nat) (expected got : Int)

/-- The text of a validation error. Tiers are numbered from one. -/
def TierError.message : TierError → String
  | noTiers => "At least one tier is required."
  | firstMinimum => "The first tier must start at 1 sale."
  | minimumNotWhole i => s!"Tier {i}: minimum must be a whole number ≥ 1."
  | duplicateMinimum i m => s!"Tier {i}: duplicate minimum ({m})."
  | rateNotPositive i => s!"Tier {i}: rate must be a positive whole number of cents."
  | finalBounded => "The final tier must be open-ended (no maximum)."
  | openBeforeFinal i => s!"Tier {i}: only the final tier may be open-ended."
  | maximumBelowMinimum i hi lo => s!"Tier {i}: maximum ({hi}) is below its minimum ({lo})."
  | notContinuous i expected got =>
    s!"Tiers {i}-{i + 1} must be continuous: expected next minimum {expected}, got {got}."

structure TierValidation where
  errors : List TierError
  normalized : List CommissionTier

def TierValidation.ok (v : TierValidation) : Bool := v.errors.isEmpty

/-- The upper bound of tier `i` against the tier that follows it, if any. -/
def boundErrors (i : Nat) (t : CommissionTier) (next : Option CommissionTier) : List TierError :=
  match next, t.maximumSales with
  | none, none => []
  | none, some _ => [.finalBounded]
  | some _, none => [.openBeforeFinal (i + 1)]
  | some n, some hi =>
    if hi < t.minimumSales then [.maximumBelowMinimum (i + 1) hi t.minimumSales]
    else if n.minimumSales ≠ hi + 1 then [.notContinuous (i + 1) (hi + 1) n.minimumSales]
    else []

/-- The errors of the sorted tiers from position `i` on. `seen` holds the earlier minimums. -/
def tierErrors (i : Nat) (seen : List Int) : List CommissionTier → List TierError
  | [] => []
  | t :: rest =>
    (if 1 ≤ t.minimumSales then [] else [.minimumNotWhole (i + 1)]) ++
    (if t.minimumSales ∈ seen then [.duplicateMinimum (i + 1) t.minimumSales] else []) ++
    (if 0 < t.rateCents then [] else [.rateNotPositive (i + 1)]) ++
    boundErrors i t rest.head? ++
    tierErrors (i + 1) (t.minimumSales :: seen) rest

def sortTiers (tiers : List CommissionTier) : List CommissionTier :=
  (tiers.insertionSort fun a b => a.minimumSales ≤ b.minimumSales).mapIdx
    fun i t => { t with position := i }

def validateTiers (input : List CommissionTier) : TierValidation :=
  match sortTiers input with
  | [] => { errors := [.noTiers], normalized := [] }
  | first :: rest =>
    { errors := (if first.minimumSales ≠ 1 then [.firstMinimum] else []) ++
        tierErrors 0 [] (first :: rest)
      normalized := first :: rest }

/-- The binary search between the positions `lo` and `hi`, both inclusive. -/
def findTierBetween (tiers : List CommissionTier) (count : Int) :
    Nat → Int → Int → Option CommissionTier
  | 0, _, _ => none
  | fuel + 1, lo, hi =>
    if hi < lo then none
    else
      let mid := (lo + hi) / 2
      match tiers[mid.toNat]? with
      | none => none
      | some t =>
        if count < t.minimumSales then findTierBetween tiers count fuel lo (mid - 1)
        else if t.maximumSales.any (· < count) then findTierBetween tiers count fuel (mid + 1) hi
        else some t

def findTierByBinarySearch (sortedTiers : List CommissionTier) (count : Int) :
    Option CommissionTier :=
  findTierBetween sortedTiers count (sortedTiers.length + 1) 0 (sortedTiers.length - 1)

structure RetroResult where
  qualifiedSaleCount : Int
  tierId : Option Nat
  tierLabel : Option String
  rateCents : Int
  grossCommissionCents : Int
  nextTierId : Option Nat
  nextTierMinimumSales : Option Int
  nextTierRateCents : Option Int
  salesUntilNextTier : Option Int
  nextTierProjectedCommissionCents : Option Int

def nextTierProjection (count floor : Int) (tier : Option CommissionTier)
    (next : Option CommissionTier) : RetroResult where
  qualifiedSaleCount := count
  tierId := tier.bind (·.id)
  tierLabel := tier.map (·.label)
  rateCents := (tier.map (·.rateCents)).getD 0
  grossCommissionCents := (tier.map (count * ·.rateCents)).getD 0
  nextTierId := next.bind (·.id)
  nextTierMinimumSales := next.map (·.minimumSales)
  nextTierRateCents := next.map (·.rateCents)
  salesUntilNextTier := next.map fun n => max floor (n.minimumSales - count)
  nextTierProjectedCommissionCents := next.map fun n => n.minimumSales * n.rateCents

def calculateRetroactiveCommission (qualifiedSaleCount : Int) (sortedTiers : List CommissionTier) :
    RetroResult :=
  let count := max 0 qualifiedSaleCount
  if count = 0 then nextTierProjection 0 1 none sortedTiers.head?
  else
    match findTierByBinarySearch sortedTiers count with
    | none => nextTierProjection count 0 none sortedTiers.head?
    | some tier =>
      nextTierProjection count 0 (some tier) sortedTiers[sortedTiers.idxOf tier + 1]?

def calculateFlatCommission (qualifiedSaleCount flatRateCents : Int) : Int :=
  max 0 qualifiedSaleCount * max 0 flatRateCents

example : (calculateRetroactiveCommission 9 (validateTiers
    [{ id := some 2, position := 0, minimumSales := 8, maximumSales := none, rateCents := 20000,
       label := "8+ sales" },
     { id := some 1, position := 0, minimumSales := 1, maximumSales := some 7, rateCents := 15000,
       label := "1-7 sales" }]).normalized).grossCommissionCents = 180000 := by decide

end HomefrontFiber.Commission
