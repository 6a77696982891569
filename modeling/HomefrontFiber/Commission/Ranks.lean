import Mathlib.Algebra.Order.Ring.Rat
import HomefrontFiber.Commission.Tiers

/-!
# Ranks

A rank is a band of the retroactive ladder with a name. The pay of a week finds its band by binary
search and the ranks find it by linear search. A ladder that validates covers the whole numbers from
one without gap or overlap, so both find the one band that contains the count.
-/

namespace HomefrontFiber.Commission

open List Option

def inBand (count : Int) (t : CommissionTier) : Bool :=
  t.minimumSales ≤ count && t.maximumSales.all (count ≤ ·)

theorem inBand_iff {count : Int} {t : CommissionTier} : inBand count t = true ↔
    t.minimumSales ≤ count ∧ ∀ hi, t.maximumSales = some hi → count ≤ hi := by
  unfold inBand
  cases t.maximumSales <;> simp

/-- Every tier ends where the next one begins, and the last one does not end. -/
def Contiguous : List CommissionTier → Prop
  | [] => True
  | [t] => t.maximumSales = none
  | t :: next :: rest =>
    (∃ hi, t.maximumSales = some hi ∧ t.minimumSales ≤ hi ∧ next.minimumSales = hi + 1) ∧
      Contiguous (next :: rest)

theorem boundErrors_nil {i : Nat} {t next : CommissionTier}
    (h : boundErrors i t (some next) = []) :
    ∃ hi, t.maximumSales = some hi ∧ t.minimumSales ≤ hi ∧ next.minimumSales = hi + 1 := by
  unfold boundErrors at h
  cases hmax : t.maximumSales with
  | none => simp [hmax] at h
  | some hi =>
    simp only [hmax] at h
    split at h
    · cases h
    · split at h
      · cases h
      · rename_i hbelow hnext
        exact ⟨hi, rfl, Int.not_lt.mp hbelow, not_not.mp hnext⟩

theorem contiguous_of_tierErrors {tiers : List CommissionTier} {i : Nat} {seen : List Int}
    (h : tierErrors i seen tiers = []) : Contiguous tiers := by
  induction tiers generalizing i seen with
  | nil => trivial
  | cons t rest ih =>
    unfold tierErrors at h
    simp only [append_eq_nil_iff] at h
    obtain ⟨⟨-, hbound⟩, hrest⟩ := h
    cases rest with
    | nil =>
      cases hmax : t.maximumSales with
      | none => exact hmax
      | some hi => simp [boundErrors, hmax] at hbound
    | cons next rest => exact ⟨boundErrors_nil hbound, ih hrest⟩

/-- A ladder that validates starts at one sale and is contiguous. -/
structure Ladder (rows : List CommissionTier) : Prop where
  first : ∃ first rest, rows = first :: rest ∧ first.minimumSales = 1
  contiguous : Contiguous rows

variable {input : List CommissionTier}

theorem ladder_of_ok (h : (validateTiers input).ok = true) :
    Ladder (validateTiers input).normalized := by
  unfold TierValidation.ok at h
  unfold validateTiers at h ⊢
  cases hrows : sortTiers input with
  | nil => simp [hrows] at h
  | cons first rest =>
    simp only [hrows, List.isEmpty_iff, append_eq_nil_iff] at h ⊢
    obtain ⟨hfirst, herrors⟩ := h
    have hone : first.minimumSales = 1 := by
      by_contra hne
      simp [hne] at hfirst
    exact ⟨⟨first, rest, rfl, hone⟩, contiguous_of_tierErrors herrors⟩

theorem Contiguous.lt_of_lt {rows : List CommissionTier} (h : Contiguous rows) {i j : Nat}
    {a b : CommissionTier} (ha : rows[i]? = some a) (hb : rows[j]? = some b) (hij : i < j) :
    ∃ hi, a.maximumSales = some hi ∧ a.minimumSales ≤ hi ∧ hi < b.minimumSales := by
  induction rows generalizing i j a with
  | nil => simp at ha
  | cons t rest ih =>
    cases rest with
    | nil =>
      have hj : j < [t].length := (List.getElem?_eq_some_iff.mp hb).1
      simp only [length_singleton] at hj
      omega
    | cons next rest =>
      obtain ⟨⟨hi, hmax, hmin, hnext⟩, hrest⟩ := h
      obtain ⟨j, rfl⟩ : ∃ k, j = k + 1 := ⟨j - 1, by omega⟩
      rw [getElem?_cons_succ] at hb
      cases i with
      | succ i =>
        rw [getElem?_cons_succ] at ha
        exact ih hrest ha hb (by omega)
      | zero =>
        rw [getElem?_cons_zero, Option.some.injEq] at ha
        subst ha
        refine ⟨hi, hmax, hmin, ?_⟩
        -- the band after the first one starts right behind it, the others later
        cases j with
        | zero =>
          rw [getElem?_cons_zero, Option.some.injEq] at hb
          subst hb
          omega
        | succ j =>
          have hhead : (next :: rest)[0]? = some next := rfl
          obtain ⟨hi', -, hle, hlt⟩ := ih hrest hhead hb (Nat.succ_pos j)
          omega

theorem Contiguous.exists_band {rows : List CommissionTier} (h : Contiguous rows)
    {t : CommissionTier} (ht : rows.head? = some t) {count : Int} (hcount : t.minimumSales ≤ count) :
    ∃ (i : Nat) (u : CommissionTier), rows[i]? = some u ∧ inBand count u = true := by
  induction rows generalizing t with
  | nil => cases ht
  | cons t' rest ih =>
    rw [head?_cons, Option.some.injEq] at ht
    subst ht
    cases rest with
    | nil =>
      have hopen : t'.maximumSales = none := h
      exact ⟨0, t', rfl, inBand_iff.mpr ⟨hcount, fun hi hmax => by simp [hopen] at hmax⟩⟩
    | cons next rest =>
      obtain ⟨⟨hi, hmax, -, hnext⟩, hrest⟩ := h
      by_cases hle : count ≤ hi
      · refine ⟨0, t', rfl, inBand_iff.mpr ⟨hcount, fun hi' hmax' => ?_⟩⟩
        rw [hmax, Option.some.injEq] at hmax'
        omega
      · obtain ⟨i, u, hu, hband⟩ := ih hrest head?_cons (by omega)
        exact ⟨i + 1, u, hu, hband⟩

theorem Contiguous.open_last {rows : List CommissionTier} (h : Contiguous rows) {i : Nat}
    {t : CommissionTier} (ht : rows[i]? = some t) (hlast : rows.length ≤ i + 1) :
    t.maximumSales = none := by
  induction rows generalizing i with
  | nil => simp at ht
  | cons t' rest ih =>
    cases rest with
    | nil =>
      have hi : i = 0 := by
        have hlt := (List.getElem?_eq_some_iff.mp ht).1
        simp only [length_singleton] at hlt
        omega
      subst hi
      rw [getElem?_cons_zero, Option.some.injEq] at ht
      exact ht ▸ h
    | cons next rest =>
      simp only [length_cons] at hlast
      obtain ⟨i, rfl⟩ : ∃ k, i = k + 1 := ⟨i - 1, by omega⟩
      rw [getElem?_cons_succ] at ht
      exact ih h.2 ht (by simp only [length_cons]; omega)

/-- The band at a position is the only one that contains the count. -/
structure OnlyBand (rows : List CommissionTier) (count : Int) (i : Nat) (t : CommissionTier) :
    Prop where
  at_ : rows[i]? = some t
  contains : inBand count t = true
  unique : ∀ j u, rows[j]? = some u → inBand count u = true → j = i

theorem Ladder.onlyBand {rows : List CommissionTier} (h : Ladder rows) {count : Int}
    (hcount : 1 ≤ count) : ∃ i t, OnlyBand rows count i t := by
  obtain ⟨first, rest, rfl, hone⟩ := h.first
  obtain ⟨i, t, ht, hband⟩ := h.contiguous.exists_band head?_cons (hone ▸ hcount)
  refine ⟨i, t, ht, hband, fun j u hu hcontains => ?_⟩
  obtain ⟨hlow, hhigh⟩ := inBand_iff.mp hband
  obtain ⟨hlow', hhigh'⟩ := inBand_iff.mp hcontains
  rcases Nat.lt_trichotomy i j with hlt | heq | hgt
  · obtain ⟨hi, hmax, -, hbelow⟩ := h.contiguous.lt_of_lt ht hu hlt
    have hle := hhigh hi hmax
    omega
  · exact heq.symm
  · obtain ⟨hi, hmax, -, hbelow⟩ := h.contiguous.lt_of_lt hu ht hgt
    have hle := hhigh' hi hmax
    omega

section Search

variable {rows : List CommissionTier} {count : Int} {i : Nat} {t : CommissionTier}

theorem findTierBetween_eq (h : Contiguous rows) (hband : OnlyBand rows count i t) {fuel : Nat}
    {lo hi : Int} (hlo : 0 ≤ lo) (hbelow : lo ≤ i) (habove : (i : Int) ≤ hi)
    (hhi : hi < rows.length) (hfuel : hi - lo < fuel) :
    findTierBetween rows count fuel lo hi = some t := by
  induction fuel generalizing lo hi with
  | zero => omega
  | succ fuel ih =>
    unfold findTierBetween
    rw [if_neg (by omega)]
    dsimp only
    have hmid : (((lo + hi) / 2).toNat : Int) = (lo + hi) / 2 := Int.toNat_of_nonneg (by omega)
    cases hrow : rows[((lo + hi) / 2).toNat]? with
    | none =>
      rw [List.getElem?_eq_none_iff] at hrow
      omega
    | some u =>
      obtain ⟨hlow, hhigh⟩ := inBand_iff.mp hband.contains
      dsimp only
      split
      · rename_i hless
        -- the middle band starts above the count, so the band is to its left
        have hleft : i < ((lo + hi) / 2).toNat := by
          by_contra hge
          rcases Nat.lt_or_eq_of_le (Nat.not_lt.mp hge) with hlt | heq
          · obtain ⟨top, -, hle, hlt'⟩ := h.lt_of_lt hrow hband.at_ hlt
            omega
          · rw [heq, hband.at_, Option.some.injEq] at hrow
            subst hrow
            omega
        exact ih hlo hbelow (by omega) (by omega) (by omega)
      · rename_i hstart
        split
        · rename_i hmore
          obtain ⟨top, hmax, hless⟩ : ∃ top, u.maximumSales = some top ∧ top < count := by
            cases hmax : u.maximumSales with
            | none => simp [hmax] at hmore
            | some top => exact ⟨top, rfl, by simpa [hmax] using hmore⟩
          have hright : ((lo + hi) / 2).toNat < i := by
            by_contra hge
            rcases Nat.lt_or_eq_of_le (Nat.not_lt.mp hge) with hlt | heq
            · obtain ⟨top', hmax', -, hlt'⟩ := h.lt_of_lt hband.at_ hrow hlt
              have hle := hhigh top' hmax'
              omega
            · rw [← heq, hband.at_, Option.some.injEq] at hrow
              subst hrow
              have hle := hhigh top hmax
              omega
          exact ih (by omega) (by omega) habove hhi (by omega)
        · rename_i hend
          have hcontains : inBand count u = true := by
            refine inBand_iff.mpr ⟨Int.not_lt.mp hstart, fun top hmax => ?_⟩
            simpa [hmax] using hend
          have hsame := hband.unique _ u hrow hcontains
          rw [hsame, hband.at_] at hrow
          exact hrow.symm

theorem findTierByBinarySearch_eq (h : Contiguous rows) (hband : OnlyBand rows count i t) :
    findTierByBinarySearch rows count = some t := by
  have hlt : i < rows.length := (List.getElem?_eq_some_iff.mp hband.at_).1
  apply findTierBetween_eq h hband <;> omega

theorem findIdx?_eq (hband : OnlyBand rows count i t) :
    rows.findIdx? (inBand count) = some i := by
  obtain ⟨hlt, hget⟩ := List.getElem?_eq_some_iff.mp hband.at_
  rw [findIdx?_eq_some_iff_getElem]
  refine ⟨hlt, hget ▸ hband.contains, fun j hj => ?_⟩
  have hrow : rows[j]? = some rows[j] := getElem?_eq_getElem (by omega)
  intro hcontains
  have hsame := hband.unique j _ hrow hcontains
  omega

theorem idxOf_eq (hband : OnlyBand rows count i t) : rows.idxOf t = i := by
  have hmem : t ∈ rows := mem_of_getElem? hband.at_
  have hfound : rows[rows.idxOf t]? = some t := by
    rw [getElem?_eq_getElem (idxOf_lt_length_of_mem hmem), getElem_idxOf]
  exact hband.unique _ t hfound hband.contains

end Search

def rankNames : List String := ["Bronze", "Silver", "Gold", "Platinum", "Diamond"]

def rankNameForBand (bandIndex : Nat) : String :=
  match rankNames[bandIndex]? with
  | some name => name
  | none => s!"Diamond {bandIndex - rankNames.length + 2}"

structure Rank where
  name : String
  bandIndex : Nat
  minimumSales : Int
  maximumSales : Option Int
  rateCents : Int
  weekPayAtEntryCents : Int

structure RankProgress where
  ladder : List Rank
  current : Option Rank
  next : Option Rank
  salesToNext : Option Int
  weekPayNowCents : Int
  weekPayAtNextCents : Option Int
  gainAtNextCents : Option Int
  progressToNext : Option Rat
  atTop : Bool

def rankOf (rows : List CommissionTier) (i : Nat) (t : CommissionTier) : Rank where
  name := rankNameForBand i
  bandIndex := i
  minimumSales := t.minimumSales
  maximumSales := t.maximumSales
  rateCents := t.rateCents
  weekPayAtEntryCents := (calculateRetroactiveCommission t.minimumSales rows).grossCommissionCents

/-- The rail of a ladder at the current rank and the next one. -/
def railAt (ladder : List Rank) (current next : Option Rank) (count weekPayNowCents : Int) :
    RankProgress :=
  match next with
  | none =>
    { ladder, current, next := none, salesToNext := none, weekPayNowCents
      weekPayAtNextCents := none, gainAtNextCents := none, progressToNext := none, atTop := true }
  | some rank =>
    let floor : Int := (current.map (·.minimumSales - 1)).getD 0
    let span := rank.minimumSales - floor
    { ladder, current
      next := some rank
      salesToNext := some (max 1 (rank.minimumSales - count))
      weekPayNowCents
      weekPayAtNextCents := some rank.weekPayAtEntryCents
      gainAtNextCents := some (rank.weekPayAtEntryCents - weekPayNowCents)
      progressToNext :=
        some (if 0 < span then min 1 (max 0 ((count - floor : Int) / (span : Rat))) else 0)
      atTop := false }

/-- Projects a ladder and the count of the week into ranks. A ladder that does not validate has
none. -/
def rankProgress (tiers : List CommissionTier) (qualifiedCount : Int) : Option RankProgress :=
  let v := validateTiers tiers
  if v.ok then
    let rows := v.normalized
    let count := if 0 < qualifiedCount then qualifiedCount else 0
    let ladder := rows.mapIdx (rankOf rows)
    let currentIdx := rows.findIdx? (inBand count)
    let current := currentIdx.bind (ladder[·]?)
    let next := match currentIdx with
      | some i => ladder[i + 1]?
      | none => ladder.head?
    let weekPayNowCents :=
      if 0 < count then (calculateRetroactiveCommission count rows).grossCommissionCents else 0
    some (railAt ladder current next count weekPayNowCents)
  else none

section Agreement

variable {rows : List CommissionTier}

theorem calculate_eq (h : Contiguous rows) {count : Int} (hcount : 1 ≤ count) {i : Nat}
    {t : CommissionTier} (hband : OnlyBand rows count i t) :
    calculateRetroactiveCommission count rows = nextTierProjection count 0 (some t) rows[i + 1]? := by
  have hmax : max 0 count = count := by omega
  unfold calculateRetroactiveCommission
  rw [hmax, if_neg (by omega), findTierByBinarySearch_eq h hband]
  dsimp only
  rw [idxOf_eq hband]

theorem Ladder.one_le (h : Ladder rows) {i : Nat} {t : CommissionTier} (ht : rows[i]? = some t) :
    1 ≤ t.minimumSales := by
  obtain ⟨first, rest, hrows, hone⟩ := h.first
  have hfirst : rows[0]? = some first := by rw [hrows]; rfl
  rcases Nat.eq_zero_or_pos i with rfl | hpos
  · rw [hfirst, Option.some.injEq] at ht
    subst ht
    omega
  · obtain ⟨hi, -, hle, hlt⟩ := h.contiguous.lt_of_lt hfirst ht hpos
    omega

theorem Ladder.entryPay (h : Ladder rows) {i : Nat} {t : CommissionTier} (ht : rows[i]? = some t) :
    (calculateRetroactiveCommission t.minimumSales rows).grossCommissionCents =
      t.minimumSales * t.rateCents := by
  have hmin := h.one_le ht
  have hcontains : inBand t.minimumSales t = true := by
    refine inBand_iff.mpr ⟨le_refl _, fun hi hmax => ?_⟩
    by_cases hlast : i + 1 < rows.length
    · obtain ⟨hi', hmax', hle, -⟩ := h.contiguous.lt_of_lt ht
        (getElem?_eq_getElem hlast) (Nat.lt_succ_self i)
      rw [hmax, Option.some.injEq] at hmax'
      omega
    · rw [h.contiguous.open_last ht (by omega)] at hmax
      cases hmax
  obtain ⟨j, u, hband⟩ := h.onlyBand hmin
  have hsame := hband.unique i t ht hcontains
  subst hsame
  have heq : u = t := some.inj (hband.at_.symm.trans ht)
  subst heq
  rw [calculate_eq h.contiguous hmin hband]
  rfl

@[simp]
theorem railAt_current (ladder : List Rank) (current next : Option Rank) (count pay : Int) :
    (railAt ladder current next count pay).current = current := by
  cases next <;> rfl

@[simp]
theorem railAt_weekPayNowCents (ladder : List Rank) (current next : Option Rank)
    (count pay : Int) : (railAt ladder current next count pay).weekPayNowCents = pay := by
  cases next <;> rfl

@[simp]
theorem railAt_next (ladder : List Rank) (current next : Option Rank) (count pay : Int) :
    (railAt ladder current next count pay).next = next := by
  cases next <;> rfl

@[simp]
theorem railAt_salesToNext (ladder : List Rank) (current next : Option Rank) (count pay : Int) :
    (railAt ladder current next count pay).salesToNext =
      next.map fun rank => max 1 (rank.minimumSales - count) := by
  cases next <;> rfl

@[simp]
theorem railAt_weekPayAtNextCents (ladder : List Rank) (current next : Option Rank)
    (count pay : Int) : (railAt ladder current next count pay).weekPayAtNextCents =
      next.map (·.weekPayAtEntryCents) := by
  cases next <;> rfl

/-- Pay and rail name the row at a position as the next tier and agree about it. -/
structure SameNext (rows : List CommissionTier) (k : Nat) (pay : RetroResult)
    (rail : RankProgress) : Prop where
  id : pay.nextTierId = rows[k]?.bind (·.id)
  minimum : pay.nextTierMinimumSales = rows[k]?.map (·.minimumSales)
  rate : pay.nextTierRateCents = rows[k]?.map (·.rateCents)
  rank : rail.next = rows[k]?.map (rankOf rows k)
  sales : rail.salesToNext = pay.salesUntilNextTier
  projected : rail.weekPayAtNextCents = pay.nextTierProjectedCommissionCents

theorem Ladder.sameNext (h : Ladder rows) {count floor pay : Int} {k : Nat}
    {tier : Option CommissionTier} {current : Option Rank} (hfloor : floor ≤ 1)
    (habove : ∀ u, rows[k]? = some u → count < u.minimumSales) :
    SameNext rows k (nextTierProjection count floor tier rows[k]?)
      (railAt (rows.mapIdx (rankOf rows)) current (rows[k]?.map (rankOf rows k)) count pay) := by
  cases hrow : rows[k]? with
  | none => exact ⟨by simp [nextTierProjection, hrow], by simp [nextTierProjection, hrow],
      by simp [nextTierProjection, hrow], by simp [hrow], rfl, rfl⟩
  | some u =>
    have hless := habove u hrow
    have hentry := h.entryPay hrow
    refine ⟨by simp [nextTierProjection, hrow], by simp [nextTierProjection, hrow],
      by simp [nextTierProjection, hrow], by simp [hrow], ?_, ?_⟩
    · simp only [railAt_salesToNext, nextTierProjection, map_some, rankOf,
        Option.some.injEq]
      omega
    · simp only [railAt_weekPayAtNextCents, nextTierProjection, map_some, rankOf, hentry]

theorem OnlyBand.lt_next (h : Ladder rows) {count : Int} {i : Nat} {t u : CommissionTier}
    (hband : OnlyBand rows count i t) (hu : rows[i + 1]? = some u) : count < u.minimumSales := by
  obtain ⟨hi, hmax, -, hlt⟩ := h.contiguous.lt_of_lt hband.at_ hu (Nat.lt_succ_self i)
  have hle := (inBand_iff.mp hband.contains).2 hi hmax
  omega

theorem Ladder.findIdx?_zero (h : Ladder rows) : rows.findIdx? (inBand 0) = none := by
  rw [findIdx?_eq_none_iff]
  intro t ht
  obtain ⟨i, hi⟩ := mem_iff_getElem?.mp ht
  have hmin := h.one_le hi
  by_contra hband
  have hle := (inBand_iff.mp (Bool.not_eq_false _ ▸ hband)).1
  omega

theorem rankProgress_band (h : (validateTiers input).ok = true)
    {count : Int} (hcount : 1 ≤ count) {i : Nat} {t : CommissionTier}
    (hband : OnlyBand (validateTiers input).normalized count i t) :
    rankProgress input count = some (railAt
      ((validateTiers input).normalized.mapIdx (rankOf (validateTiers input).normalized))
      (some (rankOf (validateTiers input).normalized i t))
      ((validateTiers input).normalized[i + 1]?.map
        (rankOf (validateTiers input).normalized (i + 1)))
      count (count * t.rateCents)) := by
  have hpay := calculate_eq (ladder_of_ok h).contiguous hcount hband
  have hpos : 0 < count := by omega
  unfold rankProgress
  dsimp only
  rw [if_pos h, if_pos hpos, findIdx?_eq hband, hpay, if_pos hpos]
  simp only [bind_some, getElem?_mapIdx, hband.at_, map_some,
    nextTierProjection, getD_some]

theorem rankProgress_zero (h : (validateTiers input).ok = true) :
    rankProgress input 0 = some (railAt
      ((validateTiers input).normalized.mapIdx (rankOf (validateTiers input).normalized)) none
      ((validateTiers input).normalized[0]?.map (rankOf (validateTiers input).normalized 0))
      0 0) := by
  unfold rankProgress
  dsimp only
  rw [if_pos h, if_neg (lt_irrefl 0), (ladder_of_ok h).findIdx?_zero, if_neg (lt_irrefl 0)]
  simp only [bind_none, head?_eq_getElem?, getElem?_mapIdx]

/-- One band contains the count, both searches find it, and pay and ranks agree. -/
theorem retroactive_pricing {input : List CommissionTier}
    (h : (validateTiers input).ok = true) :
    (∀ count, 1 ≤ count → ∃ i t rail,
      OnlyBand (validateTiers input).normalized count i t ∧
      findTierByBinarySearch (validateTiers input).normalized count = some t ∧
      (calculateRetroactiveCommission count
        (validateTiers input).normalized).grossCommissionCents = count * t.rateCents ∧
      rankProgress input count = some rail ∧
      rail.current = some (rankOf (validateTiers input).normalized i t) ∧
      rail.weekPayNowCents = count * t.rateCents ∧
      SameNext (validateTiers input).normalized (i + 1)
        (calculateRetroactiveCommission count (validateTiers input).normalized) rail) ∧
    ∃ first rail, (validateTiers input).normalized[0]? = some first ∧
      rankProgress input 0 = some rail ∧
      (calculateRetroactiveCommission 0
        (validateTiers input).normalized).grossCommissionCents = 0 ∧
      rail.weekPayNowCents = 0 ∧
      SameNext (validateTiers input).normalized 0
        (calculateRetroactiveCommission 0 (validateTiers input).normalized) rail := by
  have hladder := ladder_of_ok h
  constructor
  · intro count hcount
    obtain ⟨i, t, hband⟩ := hladder.onlyBand hcount
    have hpay := calculate_eq hladder.contiguous hcount hband
    refine ⟨i, t, _, hband, findTierByBinarySearch_eq hladder.contiguous hband, ?_,
      rankProgress_band h hcount hband, railAt_current .., railAt_weekPayNowCents .., ?_⟩
    · rw [hpay]
      rfl
    · rw [hpay]
      exact hladder.sameNext (by omega) fun u hu => hband.lt_next hladder hu
  · obtain ⟨first, rest, hrows, hone⟩ := hladder.first
    have hfirst : (validateTiers input).normalized[0]? = some first := by rw [hrows]; rfl
    have hpay : calculateRetroactiveCommission 0 (validateTiers input).normalized =
        nextTierProjection 0 1 none (validateTiers input).normalized[0]? := by
      rw [← head?_eq_getElem?]
      rfl
    refine ⟨first, _, hfirst, rankProgress_zero h, rfl, railAt_weekPayNowCents .., ?_⟩
    rw [hpay]
    apply hladder.sameNext le_rfl
    intro u hu
    have hmin := hladder.one_le hu
    omega

def twoBands : List CommissionTier :=
  [{ id := some 2, position := 0, minimumSales := 8, maximumSales := none, rateCents := 20000,
     label := "8+ sales" },
   { id := some 1, position := 0, minimumSales := 1, maximumSales := some 7, rateCents := 15000,
     label := "1-7 sales" }]

theorem retroactive_pricing_twoBands :
    (validateTiers twoBands).ok = true ∧ ∃ i t rail,
      OnlyBand (validateTiers twoBands).normalized 9 i t ∧
      rankProgress twoBands 9 = some rail ∧ rail.weekPayNowCents = 9 * t.rateCents := by
  have hok : (validateTiers twoBands).ok = true := by decide
  obtain ⟨i, t, rail, hband, -, -, hrail, -, hpay, -⟩ :=
    (retroactive_pricing hok).1 9 (by omega)
  exact ⟨hok, i, t, rail, hband, hrail, hpay⟩

end Agreement

end HomefrontFiber.Commission
