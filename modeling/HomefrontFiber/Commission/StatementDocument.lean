import Mathlib.Algebra.BigOperators.Group.List.Basic
import Mathlib.Data.List.Sort
import Mathlib.Algebra.Order.Ring.Rat
import HomefrontFiber.Workweek

/-!
# The statement document

What a commission statement says, for the screen and for the paper. The commission column is an
allocation of the gross of the week to its counted sales, the summary rows add up to what was
earned, and the holdback row leaves the net pay.
-/

namespace HomefrontFiber.Commission

open List

/-- `Math.trunc`: an amount without its fraction. -/
def cents (n : Rat) : Int := n.num.tdiv n.den

/-- The first slots get a cent each while any of the remainder is left. -/
def spreadCents : Int → List Int → List Int
  | _, [] => []
  | remainder, slot :: slots =>
    if 0 < remainder then (slot + 1) :: spreadCents (remainder - 1) slots else slot :: slots

def allocateCents (totalCents : Rat) (count : Nat) : List Int :=
  let total := cents totalCents
  if count = 0 then []
  else
    let base := total / count
    spreadCents (total - base * count) (List.replicate count base)

/-- `toFixed(2)` of an amount in dollars. -/
def dollars (n : Int) : String :=
  (if n < 0 then "-" else "") ++ toString (n.natAbs / 100) ++ "." ++
    String.ofList (IsoText.pad 2 (n.natAbs % 100))

structure StatementSaleInput where
  saleId : Nat
  externalId : String
  status : Text
  countedAtIso : Text
  address : Option Text
  city : Option Text
  houseAmountCents : Option Rat

structure StatementMoneyInput where
  grossCommissionCents : Rat
  adjustmentCents : Rat
  spiffCents : Rat
  overrideCents : Option Rat
  overrideItemCount : Option Rat
  hourlyPayCents : Rat
  hourlyMinutes : Rat
  hourlyRateCents : Option Rat
  finalCommissionCents : Rat

structure StatementHoldbackInput where
  reservePercent : Rat
  reserveCents : Rat
  netPayableCents : Rat
  earnedCents : Rat

inductive PlanStructure
  | flat | tiered

structure StatementHeader where
  id : Option Nat
  status : String
  calculationVersion : Nat
  tierLabel : Option String
  rateCents : Rat
  structure_ : Option PlanStructure

structure StatementCompany where
  name : String
  supportEmail : Option String
  logoDataUri : Option String

structure StatementRep where
  id : Nat
  name : String

structure StatementPeriod where
  label : String
  startUtc : String
  nextStartUtc : String
  timezone : String

structure StatementReserve where
  balanceCents : Rat
  capCents : Option Rat

structure StatementAdjustment where
  id : Nat
  amountCents : Rat
  reason : String
  approvedAtIso : Option String

structure StatementDocInput where
  company : StatementCompany
  rep : StatementRep
  period : StatementPeriod
  statement : StatementHeader
  sales : List StatementSaleInput
  money : StatementMoneyInput
  holdback : StatementHoldbackInput
  reserve : StatementReserve
  adjustments : List StatementAdjustment
  issuedAtIso : String
  isDraft : Option Bool

structure StatementLine where
  saleId : Nat
  externalId : String
  status : Text
  countedAtIso : Text
  address : Text
  city : Option Text
  counted : Bool
  houseAmountCents : Option Int
  repCommissionCents : Int

structure StatementTotals where
  countedSaleCount : Nat
  otherSaleCount : Nat
  houseAmountCents : Option Int
  houseAmountComplete : Bool
  houseMarginCents : Option Int
  grossCommissionCents : Int
  adjustmentCents : Int
  spiffCents : Int
  overrideCents : Int
  overrideItemCount : Int
  hourlyPayCents : Int
  earnedCents : Int

structure StatementPayout where
  earnedCents : Int
  reservePercent : Int
  reserveCents : Int
  netPayCents : Int
  reserveBalanceCents : Int
  reserveCapCents : Option Int
  reserveAtCap : Bool

structure StatementDocument where
  company : StatementCompany
  rep : StatementRep
  period : StatementPeriod
  statement : StatementHeader
  issuedAtIso : String
  planLabel : String
  lines : List StatementLine
  totals : StatementTotals
  payout : StatementPayout
  adjustments : List StatementAdjustment
  showHouseColumn : Bool
  isDraft : Bool

/-- An empty text counts as none. -/
def nonempty (t : String) : Option String := if t = "" then none else some t

def planLabelFor (statement : StatementHeader) : String :=
  let rate := "$" ++ dollars (cents statement.rateCents) ++ " per sale"
  match statement.structure_ with
  | some .tiered =>
    match statement.tierLabel.bind nonempty with
    | some label => label ++ " - " ++ rate
    | none => "Tiered - " ++ rate
  | some .flat => "Flat - " ++ rate
  | none => statement.tierLabel.getD " - "

section Document

-- the upper case of a text is the runtime's own
variable (toUpperCase : Text → Text)

def countsOn (s : StatementSaleInput) : Bool := toUpperCase s.status = "QUALIFIED".toList

/-- A text without the blanks around it, if anything is left. -/
def trimmed (t : Option Text) : Option Text := (t.map trim).filter (· ≠ [])

def toLine (s : StatementSaleInput) (isCounted : Bool) (share : Int) : StatementLine where
  saleId := s.saleId
  externalId := s.externalId
  status := toUpperCase s.status
  countedAtIso := s.countedAtIso
  address := (trimmed s.address).getD "(address not recorded)".toList
  city := trimmed s.city
  counted := isCounted
  houseAmountCents := s.houseAmountCents.map cents
  repCommissionCents := share

def countedBefore (a b : StatementSaleInput) : Prop :=
  if a.countedAtIso = b.countedAtIso then a.saleId ≤ b.saleId else a.countedAtIso < b.countedAtIso

instance : DecidableRel countedBefore := fun a b =>
  inferInstanceAs (Decidable (if a.countedAtIso = b.countedAtIso then a.saleId ≤ b.saleId
    else a.countedAtIso < b.countedAtIso))

def buildStatementDocument (input : StatementDocInput) : StatementDocument :=
  let countedSorted := (input.sales.filter (countsOn toUpperCase)).insertionSort countedBefore
  let others := (input.sales.filter (!countsOn toUpperCase ·)).insertionSort
    fun a b => a.countedAtIso ≤ b.countedAtIso
  let gross := cents input.money.grossCommissionCents
  let shares := allocateCents (gross : Rat) countedSorted.length
  let houseKnown := countedSorted.filterMap (·.houseAmountCents)
  let houseAmountComplete := 0 < countedSorted.length && houseKnown.length = countedSorted.length
  let houseAmountCents :=
    if 0 < houseKnown.length then some ((houseKnown.map cents).sum) else none
  let adjustmentCents := cents input.money.adjustmentCents
  let spiffCents := cents input.money.spiffCents
  let overrideCents := cents (input.money.overrideCents.getD 0)
  let hourlyPayCents := cents input.money.hourlyPayCents
  let earnedCents := hourlyPayCents + gross + adjustmentCents + overrideCents + spiffCents
  let reserveCents := cents input.holdback.reserveCents
  let balance := cents input.reserve.balanceCents
  let cap := input.reserve.capCents.map cents
  { company := input.company
    rep := input.rep
    period := input.period
    statement := input.statement
    issuedAtIso := input.issuedAtIso
    planLabel := planLabelFor input.statement
    lines := countedSorted.mapIdx (fun i s => toLine toUpperCase s true ((shares[i]?).getD 0)) ++
      others.map (toLine toUpperCase · false 0)
    totals :=
      { countedSaleCount := countedSorted.length
        otherSaleCount := others.length
        houseAmountCents
        houseAmountComplete
        houseMarginCents := if houseAmountComplete then houseAmountCents.map (· - gross) else none
        grossCommissionCents := gross
        adjustmentCents
        spiffCents
        overrideCents
        overrideItemCount := max 0 (cents (input.money.overrideItemCount.getD 0))
        hourlyPayCents
        earnedCents }
    payout :=
      { earnedCents
        reservePercent := min 100 (max 0 (cents input.holdback.reservePercent))
        reserveCents
        netPayCents := earnedCents - reserveCents
        reserveBalanceCents := balance
        reserveCapCents := cap
        reserveAtCap := cap.any (· ≤ balance) }
    adjustments := input.adjustments
    showHouseColumn := 0 < houseKnown.length
    isDraft := input.isDraft.getD false }

end Document

structure StatementSummaryRow where
  label : String
  amountCents : Int
  strong : Bool := false
  negative : Bool := false

/-- The row of an optional plane, left out when it is zero. -/
def optionalRow (label : String) (amountCents : Int) (negative : Bool) :
    List StatementSummaryRow :=
  if amountCents ≠ 0 then [{ label, amountCents, negative }] else []

def statementSummaryRows (t : StatementTotals) (p : StatementPayout) : List StatementSummaryRow :=
  optionalRow "Hourly pay" t.hourlyPayCents false ++
  [{ label := "Commission on sales", amountCents := t.grossCommissionCents }] ++
  optionalRow "Team overrides" t.overrideCents (t.overrideCents < 0) ++
  optionalRow "Adjustments" t.adjustmentCents (t.adjustmentCents < 0) ++
  optionalRow "Spiffs" t.spiffCents false ++
  [{ label := "Earned this period", amountCents := t.earnedCents, strong := true },
   { label := "Chargeback holdback (" ++ toString p.reservePercent ++ "%)"
     amountCents := -|p.reserveCents|
     negative := 0 < p.reserveCents }]

@[simp]
theorem cents_intCast (n : Int) : cents (n : Rat) = n := by
  simp [cents]

theorem cents_nonneg {n : Rat} (h : 0 ≤ n) : 0 ≤ cents n :=
  Int.tdiv_nonneg (Rat.num_nonneg.mpr h) (Int.natCast_nonneg _)

theorem spreadCents_length (remainder : Int) (slots : List Int) :
    (spreadCents remainder slots).length = slots.length := by
  induction slots generalizing remainder with
  | nil => rfl
  | cons slot slots ih =>
    unfold spreadCents
    split
    · rw [length_cons, ih, length_cons]
    · rfl

theorem spreadCents_sum {remainder : Int} {slots : List Int} (hnonneg : 0 ≤ remainder)
    (hfits : remainder ≤ slots.length) :
    (spreadCents remainder slots).sum = slots.sum + remainder := by
  induction slots generalizing remainder with
  | nil =>
    simp only [length_nil, Int.natCast_zero] at hfits
    rw [spreadCents, sum_nil]
    omega
  | cons slot slots ih =>
    rw [length_cons, Int.natCast_succ] at hfits
    unfold spreadCents
    by_cases hleft : 0 < remainder
    · have hless : 0 ≤ remainder - 1 := by omega
      have hrest := ih hless (by omega)
      rw [if_pos hleft, sum_cons, sum_cons, hrest]
      omega
    · rw [if_neg hleft, sum_cons]
      omega

theorem spreadCents_mem {remainder base : Int} {slots : List Int} (h : ∀ s ∈ slots, s = base)
    {part : Int} (hpart : part ∈ spreadCents remainder slots) : part = base ∨ part = base + 1 := by
  induction slots generalizing remainder with
  | nil => cases hpart
  | cons slot slots ih =>
    unfold spreadCents at hpart
    split at hpart
    · rcases mem_cons.mp hpart with rfl | hmem
      · exact Or.inr (congrArg (· + 1) (h slot mem_cons_self))
      · exact ih (fun s hs => h s (mem_cons_of_mem _ hs)) hmem
    · exact Or.inl (h part hpart)

theorem allocateCents_length (total : Rat) (count : Nat) :
    (allocateCents total count).length = count := by
  unfold allocateCents
  split
  · rename_i hzero
    exact hzero.symm
  · rw [spreadCents_length, length_replicate]

theorem allocateCents_sum (total : Rat) {count : Nat} (hcount : 0 < count) :
    (allocateCents total count).sum = cents total := by
  have hpos : (0 : Int) < count := by omega
  have hmod := Int.emod_nonneg (cents total) (ne_of_gt hpos)
  have hless := Int.emod_lt_of_pos (cents total) hpos
  have hsplit := Int.mul_ediv_add_emod (cents total) count
  have hremainder : cents total - cents total / count * count = cents total % count := by
    rw [Int.mul_comm (cents total / count)]
    omega
  unfold allocateCents
  dsimp only
  rw [if_neg (by omega), hremainder, spreadCents_sum hmod (by rw [length_replicate]; omega),
    sum_replicate, nsmul_eq_mul]
  omega

theorem allocateCents_even {total : Rat} {count : Nat} {a b : Int}
    (ha : a ∈ allocateCents total count) (hb : b ∈ allocateCents total count) : a - b ≤ 1 := by
  unfold allocateCents at ha hb
  dsimp only at ha hb
  split at ha
  · cases ha
  · rename_i hcount
    rw [if_neg hcount] at hb
    have hsame : ∀ s ∈ List.replicate count (cents total / count), s = cents total / count :=
      fun s hs => eq_of_mem_replicate hs
    rcases spreadCents_mem hsame ha with rfl | rfl <;>
      rcases spreadCents_mem hsame hb with rfl | rfl <;> omega

theorem optionalRow_sum (label : String) (amountCents : Int) (negative : Bool) :
    ((optionalRow label amountCents negative).map (·.amountCents)).sum = amountCents := by
  unfold optionalRow
  split
  · simp
  · rename_i hzero
    simp [not_not.mp hzero]

theorem optionalRow_plain {label : String} {amountCents : Int} {negative : Bool}
    {row : StatementSummaryRow} (h : row ∈ optionalRow label amountCents negative) :
    row.strong = false := by
  unfold optionalRow at h
  split at h
  · rw [mem_singleton] at h
    rw [h]
  · cases h

section Conserved

variable {toUpperCase : Text → Text} {input : StatementDocInput}

theorem mapIdx_shares (sales : List StatementSaleInput) (shares : List Int)
    (h : shares.length = sales.length) :
    (sales.mapIdx fun i s => toLine toUpperCase s true ((shares[i]?).getD 0)).map
      (·.repCommissionCents) = shares := by
  apply ext_getElem
  · simp [h]
  · intro i hi hi'
    simp [toLine, getElem?_eq_getElem hi']

theorem uncounted_shares (sales : List StatementSaleInput) :
    ((sales.map (toLine toUpperCase · false 0)).map (·.repCommissionCents)).sum = 0 := by
  induction sales with
  | nil => rfl
  | cons s sales ih =>
    rw [map_cons, map_cons, sum_cons, ih]
    rfl

theorem mem_lines_counted {line : StatementLine}
    (h : line ∈ (buildStatementDocument toUpperCase input).lines) (hcounted : line.counted = true) :
    line.repCommissionCents ∈ allocateCents
      ((cents input.money.grossCommissionCents : Int) : Rat)
      (((input.sales.filter (countsOn toUpperCase)).insertionSort countedBefore).length) := by
  rcases mem_append.mp h with hmem | hmem
  · obtain ⟨i, hi, rfl⟩ := mem_mapIdx.mp hmem
    have hshare : i < (allocateCents ((cents input.money.grossCommissionCents : Int) : Rat)
        ((input.sales.filter (countsOn toUpperCase)).insertionSort countedBefore).length).length := by
      rw [allocateCents_length]
      exact hi
    simp only [toLine, getElem?_eq_getElem hshare, Option.getD_some]
    exact getElem_mem hshare
  · obtain ⟨s, -, rfl⟩ := mem_map.mp hmem
    cases hcounted

theorem lines_sum (h : ∃ s ∈ input.sales, countsOn toUpperCase s = true) :
    ((buildStatementDocument toUpperCase input).lines.map (·.repCommissionCents)).sum =
      (buildStatementDocument toUpperCase input).totals.grossCommissionCents := by
  obtain ⟨s, hs, hcounts⟩ := h
  have hmem : s ∈ (input.sales.filter (countsOn toUpperCase)).insertionSort countedBefore :=
    (perm_insertionSort _ _).mem_iff.mpr (mem_filter.mpr ⟨hs, hcounts⟩)
  have hcolumn := @mapIdx_shares toUpperCase
    ((input.sales.filter (countsOn toUpperCase)).insertionSort countedBefore) _
    (allocateCents_length ((cents input.money.grossCommissionCents : Int) : Rat) _)
  have hshares := allocateCents_sum ((cents input.money.grossCommissionCents : Int) : Rat)
    (length_pos_of_mem hmem)
  unfold buildStatementDocument
  rw [map_append, sum_append, hcolumn, uncounted_shares, hshares, cents_intCast,
    Int.add_zero]

end Conserved

structure Conserves (toUpperCase : Text → Text) (input : StatementDocInput)
    (doc : StatementDocument) : Prop where
  lines : (∃ s ∈ input.sales, countsOn toUpperCase s = true) →
    (doc.lines.map (·.repCommissionCents)).sum = doc.totals.grossCommissionCents
  even : ∀ a ∈ doc.lines, ∀ b ∈ doc.lines, a.counted = true → b.counted = true →
    a.repCommissionCents - b.repCommissionCents ≤ 1
  summary : ∃ above subtotal holdback,
    statementSummaryRows doc.totals doc.payout = above ++ [subtotal, holdback] ∧
    (∀ row ∈ above, row.strong = false) ∧ subtotal.strong = true ∧
    (above.map (·.amountCents)).sum = doc.totals.earnedCents ∧
    (0 ≤ input.holdback.reserveCents →
      doc.payout.earnedCents + holdback.amountCents = doc.payout.netPayCents)

end HomefrontFiber.Commission
