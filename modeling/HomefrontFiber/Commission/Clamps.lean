import HomefrontFiber.Foundation.DateParse
import HomefrontFiber.Commission.WellFormed

/-!
# Clamp records

`resolveEffectiveDates` on texts, with the record it keeps of every timestamp it moved, and the two
passes that an upsert makes of it: the first under a provisional basis, to find the dates that the
basis is stamped from, and the second under the basis that won.
-/

namespace HomefrontFiber.Commission.Clamps

open Option

inductive DateField
  | soldAt | qualifiedAt | installedAt | activatedAt
deriving DecidableEq

def basisField : QualificationBasis → DateField
  | .soldAt => .soldAt
  | .qualifiedAt => .qualifiedAt
  | .installedAt => .installedAt
  | .activatedAt => .activatedAt

def value {τ : Type} (d : DateFields τ) : DateField → Option τ
  | .soldAt => d.soldAt
  | .qualifiedAt => d.qualifiedAt
  | .installedAt => d.installedAt
  | .activatedAt => d.activatedAt

structure EffectiveDatePolicy where
  basis : QualificationBasis
  correctionWindowDays : Int
  serverReceivedAt : Option Text

inductive ClampReason
  | beforeCorrectionWindow | afterServerReceipt | unparseable

structure ClampRecord where
  field : DateField
  requested : Text
  applied : Text
  reason : ClampReason
  isBasisField : Bool

structure EffectiveDateResult where
  applied : DateFields Text
  basisTs : Option Text
  clamps : List ClampRecord
  payWeekMoved : Bool

def floorMs (receivedMs correctionWindowDays : Int) : Int :=
  receivedMs - max 0 correctionWindowDays * msPerDay

/-- Where a timestamp is moved to and why, if it has to move. -/
def verdict (p : DateParser) (receivedMs correctionWindowDays : Int) (raw : Text) :
    Option (Text × ClampReason) :=
  match p.parse raw with
  | none => some (toISOString receivedMs, .unparseable)
  | some rawMs =>
    if rawMs < floorMs receivedMs correctionWindowDays then
      some (toISOString (floorMs receivedMs correctionWindowDays), .beforeCorrectionWindow)
    else if receivedMs < rawMs then some (toISOString receivedMs, .afterServerReceipt)
    else none

/-- The value of one field that may be written, and the record of its clamp. Without a receipt time
that can be read the caller is trusted. -/
def resolve (p : DateParser) (policy : EffectiveDatePolicy) (field : DateField)
    (raw : Option Text) : Option Text × List ClampRecord :=
  match raw, policy.serverReceivedAt.bind p.parse with
  | none, _ => (none, [])
  | some raw, none => (some raw, [])
  | some raw, some receivedMs =>
    match verdict p receivedMs policy.correctionWindowDays raw with
    | none => (some raw, [])
    | some (applied, reason) =>
      (some applied, [{ field, requested := raw, applied, reason
                        isBasisField := field = basisField policy.basis }])

def resolveEffectiveDates (p : DateParser) (input : DateFields Text)
    (policy : EffectiveDatePolicy) : EffectiveDateResult :=
  let soldAt := resolve p policy .soldAt input.soldAt
  let qualifiedAt := resolve p policy .qualifiedAt input.qualifiedAt
  let installedAt := resolve p policy .installedAt input.installedAt
  let activatedAt := resolve p policy .activatedAt input.activatedAt
  let applied : DateFields Text := ⟨soldAt.1, qualifiedAt.1, installedAt.1, activatedAt.1⟩
  let clamps := soldAt.2 ++ qualifiedAt.2 ++ installedAt.2 ++ activatedAt.2
  { applied
    basisTs := (value applied (basisField policy.basis)).or applied.soldAt
    clamps
    payWeekMoved := clamps.any (·.isBasisField) }

section Field

variable {p : DateParser} {policy : EffectiveDatePolicy} {receivedMs : Int}

def Within (p : DateParser) (receivedMs correctionWindowDays : Int) (t : Text) : Prop :=
  ∃ ms, p.parse t = some ms ∧ floorMs receivedMs correctionWindowDays ≤ ms ∧ ms ≤ receivedMs

theorem floorMs_le (receivedMs window : Int) : floorMs receivedMs window ≤ receivedMs := by
  have hlength : 0 ≤ max 0 window * msPerDay := Int.mul_nonneg (le_max_left _ _) (by decide)
  unfold floorMs
  omega

theorem verdict_eq_none_iff {window : Int} {raw : Text} :
    verdict p receivedMs window raw = none ↔ Within p receivedMs window raw := by
  unfold verdict Within
  cases hraw : p.parse raw with
  | none => simp
  | some rawMs =>
    by_cases hbefore : rawMs < floorMs receivedMs window
    · simp [hbefore]
    · by_cases hafter : receivedMs < rawMs
      · simp [hbefore, hafter]
      · simp only [hbefore, hafter, if_false, Option.some.injEq, true_iff]
        exact ⟨rawMs, rfl, Int.not_lt.mp hbefore, Int.not_lt.mp hafter⟩

theorem verdict_within (hreceived : InDateRange receivedMs) {window : Int} {raw applied : Text}
    {reason : ClampReason} (h : verdict p receivedMs window raw = some (applied, reason)) :
    Within p receivedMs window applied := by
  have hfloor := floorMs_le receivedMs window
  have hreceipt : Within p receivedMs window (toISOString receivedMs) :=
    ⟨receivedMs, p.parse_toISOString receivedMs hreceived, hfloor, le_rfl⟩
  unfold verdict at h
  cases hraw : p.parse raw with
  | none =>
    simp only [hraw, Option.some.injEq, Prod.mk.injEq] at h
    exact h.1 ▸ hreceipt
  | some rawMs =>
    simp only [hraw] at h
    split at h
    · rename_i hbefore
      simp only [Option.some.injEq, Prod.mk.injEq] at h
      -- the floor is after an instant that a date can hold
      have hrange := p.inDateRange_of_parse raw rawMs hraw
      unfold InDateRange at hrange hreceived
      have hin : InDateRange (floorMs receivedMs window) := ⟨by omega, by omega⟩
      exact h.1 ▸ ⟨floorMs receivedMs window, p.parse_toISOString _ hin, le_rfl, hfloor⟩
    · split at h
      · simp only [Option.some.injEq, Prod.mk.injEq] at h
        exact h.1 ▸ hreceipt
      · cases h

theorem resolve_kept (hreceipt : policy.serverReceivedAt.bind p.parse = some receivedMs)
    {field : DateField} {raw : Text}
    (h : Within p receivedMs policy.correctionWindowDays raw) :
    resolve p policy field (some raw) = (some raw, []) := by
  unfold resolve
  rw [hreceipt]
  dsimp only
  rw [verdict_eq_none_iff.mpr h]

/-- What `resolve` makes of one field. -/
inductive Resolved (p : DateParser) (policy : EffectiveDatePolicy) (receivedMs : Int)
    (field : DateField) : Option Text → Option Text × List ClampRecord → Prop
  | absent : Resolved p policy receivedMs field none (none, [])
  | kept {raw : Text} : Within p receivedMs policy.correctionWindowDays raw →
      Resolved p policy receivedMs field (some raw) (some raw, [])
  | moved {raw applied : Text} {reason : ClampReason} :
      ¬ Within p receivedMs policy.correctionWindowDays raw →
      Within p receivedMs policy.correctionWindowDays applied →
      Resolved p policy receivedMs field (some raw)
        (some applied, [⟨field, raw, applied, reason, field = basisField policy.basis⟩])

theorem resolve_resolved (hreceipt : policy.serverReceivedAt.bind p.parse = some receivedMs)
    (field : DateField) (raw : Option Text) :
    Resolved p policy receivedMs field raw (resolve p policy field raw) := by
  obtain ⟨text, -, htext⟩ := bind_eq_some_iff.mp hreceipt
  have hreceived := p.inDateRange_of_parse text receivedMs htext
  cases raw with
  | none => exact Resolved.absent
  | some raw =>
    by_cases hwithin : Within p receivedMs policy.correctionWindowDays raw
    · rw [resolve_kept hreceipt hwithin]
      exact Resolved.kept hwithin
    · unfold resolve
      rw [hreceipt]
      dsimp only
      cases hverdict : verdict p receivedMs policy.correctionWindowDays raw with
      | none => exact absurd (verdict_eq_none_iff.mp hverdict) hwithin
      | some move => exact Resolved.moved hwithin (verdict_within hreceived hverdict)

section Resolved

variable {field : DateField} {raw : Option Text} {out : Option Text × List ClampRecord}

section

variable (h : Resolved p policy receivedMs field raw out)
include h

theorem Resolved.within {t : Text}
    (ht : out.1 = some t) : Within p receivedMs policy.correctionWindowDays t := by
  cases h with
  | absent => cases ht
  | kept hwithin => exact some.inj ht ▸ hwithin
  | moved _ hwithin => exact some.inj ht ▸ hwithin

theorem Resolved.none_iff : out.1 = none ↔ raw = none := by
  cases h <;> simp

theorem Resolved.recorded : (∃ c, c ∈ out.2) ↔ out.1 ≠ raw := by
  cases h with
  | absent => simp
  | kept => simp
  | @moved raw applied reason hout hin =>
    have hdiffer : applied ≠ raw := fun heq => hout (heq ▸ hin)
    simp [hdiffer]

theorem Resolved.record {c : ClampRecord}
    (hc : c ∈ out.2) : c.field = field ∧ raw = some c.requested ∧ out.1 = some c.applied ∧
      c.isBasisField = decide (field = basisField policy.basis) := by
  cases h with
  | absent => cases hc
  | kept => cases hc
  | moved =>
    rw [List.mem_singleton.mp hc]
    exact ⟨rfl, rfl, rfl, rfl⟩

end

end Resolved

end Field

section Fields

variable {p : DateParser} {policy : EffectiveDatePolicy} {receivedMs : Int}
  {input : DateFields Text}

theorem value_applied (field : DateField) :
    value (resolveEffectiveDates p input policy).applied field =
      (resolve p policy field (value input field)).1 := by
  cases field <;> rfl

section

variable (hreceipt : policy.serverReceivedAt.bind p.parse = some receivedMs)
include hreceipt

theorem mem_clamps {c : ClampRecord} : c ∈ (resolveEffectiveDates p input policy).clamps ↔
      c ∈ (resolve p policy c.field (value input c.field)).2 := by
  have hfield : ∀ field, c ∈ (resolve p policy field (value input field)).2 →
      c ∈ (resolve p policy c.field (value input c.field)).2 := by
    intro field hc
    rw [((resolve_resolved hreceipt field (value input field)).record hc).1]
    exact hc
  constructor
  · intro hc
    simp only [resolveEffectiveDates, List.mem_append] at hc
    rcases hc with ((hc | hc) | hc) | hc
    · exact hfield .soldAt hc
    · exact hfield .qualifiedAt hc
    · exact hfield .installedAt hc
    · exact hfield .activatedAt hc
  · intro hc
    simp only [resolveEffectiveDates, List.mem_append]
    cases hname : c.field <;> rw [hname] at hc <;> simp only [value] at hc <;> simp [hc]

theorem recorded_iff (field : DateField) :
    (∃ c ∈ (resolveEffectiveDates p input policy).clamps, c.field = field) ↔
      value (resolveEffectiveDates p input policy).applied field ≠ value input field := by
  have hresolved := resolve_resolved hreceipt field (value input field)
  rw [value_applied, ← hresolved.recorded]
  constructor
  · rintro ⟨c, hc, rfl⟩
    exact ⟨c, (mem_clamps hreceipt).mp hc⟩
  · rintro ⟨c, hc⟩
    have hname := (hresolved.record hc).1
    exact ⟨c, (mem_clamps hreceipt).mpr (hname ▸ hc), hname⟩

theorem payWeekMoved_iff : (resolveEffectiveDates p input policy).payWeekMoved = true ↔
      ∃ c ∈ (resolveEffectiveDates p input policy).clamps,
        c.field = basisField policy.basis := by
  have hbasis : ∀ c ∈ (resolveEffectiveDates p input policy).clamps,
      (c.isBasisField = true ↔ c.field = basisField policy.basis) := by
    intro c hc
    have hrecord := (resolve_resolved hreceipt c.field (value input c.field)).record
      ((mem_clamps hreceipt).mp hc)
    rw [hrecord.2.2.2, decide_eq_true_eq]
  have hany : (resolveEffectiveDates p input policy).payWeekMoved =
      (resolveEffectiveDates p input policy).clamps.any (·.isBasisField) := rfl
  rw [hany, List.any_eq_true]
  constructor
  · rintro ⟨c, hc, hflag⟩
    exact ⟨c, hc, (hbasis c hc).mp hflag⟩
  · rintro ⟨c, hc, hname⟩
    exact ⟨c, hc, (hbasis c hc).mpr hname⟩

theorem resolveEffectiveDates_within (h : ∀ field t, value input field = some t →
      Within p receivedMs policy.correctionWindowDays t) :
    (resolveEffectiveDates p input policy).applied = input ∧
      (resolveEffectiveDates p input policy).clamps = [] := by
  have hkept : ∀ field, resolve p policy field (value input field) = (value input field, []) := by
    intro field
    cases hvalue : value input field with
    | none => rfl
    | some t => exact resolve_kept hreceipt (h field t hvalue)
  have hsold := hkept .soldAt
  have hqualified := hkept .qualifiedAt
  have hinstalled := hkept .installedAt
  have hactivated := hkept .activatedAt
  simp only [value] at hsold hqualified hinstalled hactivated
  unfold resolveEffectiveDates
  rw [hsold, hqualified, hinstalled, hactivated]
  exact ⟨rfl, rfl⟩

end

/-- What `resolveEffectiveDates` does with dates that came with a receipt time. -/
structure Clamped (p : DateParser) (input : DateFields Text) (policy : EffectiveDatePolicy)
    (receivedMs : Int) (result : EffectiveDateResult) : Prop where
  within : ∀ field t, value result.applied field = some t →
    Within p receivedMs policy.correctionWindowDays t
  absent : ∀ field, value result.applied field = none ↔ value input field = none
  kept : ∀ field t, value input field = some t →
    Within p receivedMs policy.correctionWindowDays t →
    value result.applied field = some t ∧ ∀ c ∈ result.clamps, c.field ≠ field
  recorded : ∀ field, (∃ c ∈ result.clamps, c.field = field) ↔
    value result.applied field ≠ value input field
  records : ∀ c ∈ result.clamps, value input c.field = some c.requested ∧
    value result.applied c.field = some c.applied
  moved : result.payWeekMoved = true ↔
    value result.applied (basisField policy.basis) ≠ value input (basisField policy.basis)
  again : (resolveEffectiveDates p result.applied policy).applied = result.applied ∧
    (resolveEffectiveDates p result.applied policy).clamps = []

theorem resolveEffectiveDates_clamped
    (hreceipt : policy.serverReceivedAt.bind p.parse = some receivedMs) :
    Clamped p input policy receivedMs (resolveEffectiveDates p input policy) := by
  have hresolved := fun field => resolve_resolved hreceipt field (value input field)
  have hwithin : ∀ field t, value (resolveEffectiveDates p input policy).applied field = some t →
      Within p receivedMs policy.correctionWindowDays t := by
    intro field t ht
    rw [value_applied] at ht
    exact (hresolved field).within ht
  have hkept : ∀ field t, value input field = some t →
      Within p receivedMs policy.correctionWindowDays t →
      value (resolveEffectiveDates p input policy).applied field = some t := by
    intro field t ht hin
    rw [value_applied, ht, resolve_kept hreceipt hin]
  refine ⟨hwithin, fun field => ?_, fun field t ht hin => ⟨hkept field t ht hin, ?_⟩,
    recorded_iff hreceipt, fun c hc => ?_, ?_, resolveEffectiveDates_within hreceipt hwithin⟩
  · rw [value_applied]
    exact (hresolved field).none_iff
  · intro c hc hname
    exact (recorded_iff hreceipt field).mp ⟨c, hc, hname⟩ ((hkept field t ht hin).trans ht.symm)
  · have hrecord := (hresolved c.field).record ((mem_clamps hreceipt).mp hc)
    rw [value_applied]
    exact ⟨hrecord.2.1, hrecord.2.2.1⟩
  · rw [payWeekMoved_iff hreceipt, recorded_iff hreceipt]

end Fields

def upsertPolicy (db : Db) (serverReceivedAt : Option Text) (basis : QualificationBasis) :
    EffectiveDatePolicy where
  basis := basis
  correctionWindowDays := db.org.config.correctionWindowDays
  serverReceivedAt := serverReceivedAt

/-- The basis an upsert stamps and the dates it writes. `existing` is the frozen basis of the row.
There is none when the date that picks the plan can not be read. -/
def upsertDates (p : DateParser) (db : Db) (repId : Nat) (existing : Option QualificationBasis)
    (input : DateFields Text) (serverReceivedAt : Option Text) :
    Option (QualificationBasis × EffectiveDateResult) :=
  let provisional := existing.getD db.org.config.qualificationBasis
  let pass1 := resolveEffectiveDates p input (upsertPolicy db serverReceivedAt provisional)
  let basis := match existing with
    | some basis => some basis
    | none =>
      ((pass1.applied.qualifiedAt.or pass1.applied.soldAt).bind p.parse).map
        (resolveSaleBasis db repId)
  basis.map fun basis =>
    (basis, if basis = provisional then pass1
      else resolveEffectiveDates p input (upsertPolicy db serverReceivedAt basis))

def rawStamp (p : DateParser) (t : Text) : RawStamp := { text := t, ms := p.parse t }

section Passes

variable {p : DateParser} {receivedMs : Int} {db : Db} {input : DateFields Text}

theorem clampStamp_rawStamp {policy : EffectiveDatePolicy}
    (hreceipt : policy.serverReceivedAt.bind p.parse = some receivedMs) (field : DateField)
    (t : Text) : (resolve p policy field (some t)).1 =
      some (clampStamp receivedMs policy.correctionWindowDays (rawStamp p t)).text := by
  unfold resolve clampStamp rawStamp verdict floorMs
  rw [hreceipt]
  dsimp only
  cases hparse : p.parse t with
  | none => rfl
  | some rawMs =>
    dsimp only
    by_cases hbefore : rawMs < receivedMs - max 0 policy.correctionWindowDays * msPerDay
    · rw [if_pos hbefore, if_pos hbefore]
      rfl
    · rw [if_neg hbefore, if_neg hbefore]
      by_cases hafter : receivedMs < rawMs
      · rw [if_pos hafter, if_pos hafter]
        rfl
      · rw [if_neg hafter, if_neg hafter]

theorem clampStamp_parse (hreceived : InDateRange receivedMs) (window : Int) (t : Text) :
    p.parse (clampStamp receivedMs window (rawStamp p t)).text =
      some (clampStamp receivedMs window (rawStamp p t)).ms := by
  have hreceipt := p.parse_toISOString receivedMs hreceived
  unfold clampStamp rawStamp
  dsimp only
  cases hparse : p.parse t with
  | none => exact hreceipt
  | some rawMs =>
    dsimp only
    by_cases hbefore : rawMs < receivedMs - max 0 window * msPerDay
    · rw [if_pos hbefore]
      have hfloor := floorMs_le receivedMs window
      have hrange := p.inDateRange_of_parse t rawMs hparse
      unfold floorMs at hfloor
      unfold InDateRange at hrange hreceived
      exact p.parse_toISOString _ ⟨by omega, by omega⟩
    · rw [if_neg hbefore]
      by_cases hafter : receivedMs < rawMs
      · rw [if_pos hafter]
        exact hreceipt
      · rw [if_neg hafter]
        exact hparse

theorem applied_eq_clampStamp {policy : EffectiveDatePolicy}
    (hreceipt : policy.serverReceivedAt.bind p.parse = some receivedMs) :
    (resolveEffectiveDates p input policy).applied = (input.map fun t =>
      (clampStamp receivedMs policy.correctionWindowDays (rawStamp p t)).text) := by
  have hfield : ∀ field raw, (resolve p policy field raw).1 = raw.map fun t =>
      (clampStamp receivedMs policy.correctionWindowDays (rawStamp p t)).text := by
    intro field raw
    cases raw with
    | none => rfl
    | some t => exact clampStamp_rawStamp hreceipt field t
  unfold resolveEffectiveDates DateFields.map
  simp only [hfield]

/-- The stamps that an upsert writes for dates that came with a receipt time. -/
def clampedStamps (p : DateParser) (receivedMs window : Int) (input : DateFields Text) :
    DateFields Stamp :=
  (input.map (rawStamp p)).map (clampStamp receivedMs window)

theorem clampedStamps_text {policy : EffectiveDatePolicy}
    (hreceipt : policy.serverReceivedAt.bind p.parse = some receivedMs) :
    (clampedStamps p receivedMs policy.correctionWindowDays input).map (·.text) =
      (resolveEffectiveDates p input policy).applied := by
  rw [applied_eq_clampStamp hreceipt]
  simp [clampedStamps, DateFields.map, map_map, Function.comp_def]

theorem placing_parse (hreceived : InDateRange receivedMs) (window : Int) {t : Text}
    (ht : input.soldAt = some t) :
    ((((clampedStamps p receivedMs window input).map (·.text)).qualifiedAt.or
      ((clampedStamps p receivedMs window input).map (·.text)).soldAt).bind p.parse) =
      some (((clampedStamps p receivedMs window input).qualifiedAt.getD
        (clampStamp receivedMs window (rawStamp p t))).ms) := by
  simp only [clampedStamps, DateFields.map, ht, map_some]
  cases input.qualifiedAt with
  | none => exact clampStamp_parse hreceived window t
  | some q => exact clampStamp_parse hreceived window q

/-- The row that an upsert stores has the stamp of its write, unless it had one before. -/
theorem storeSale_basis (sale : SaleInput) (w : SaleWrite) (now : Stamp) :
    ∃ row, (storeSale sale w now db).saleByExternalId sale.externalId = some row ∧
      row.qualificationBasis =
        ((db.saleByExternalId sale.externalId).bind (·.qualificationBasis)).or (some w.basis) := by
  have hstored := @storeSale_stored db now sale w
  obtain ⟨row, hrow, ⟨s, hs, rfl⟩ | ⟨hnone, rfl⟩⟩ := hstored
  · exact ⟨_, hrow, by rw [hs]; rfl⟩
  · exact ⟨_, hrow, by rw [hnone]; rfl⟩

/-- What an upsert stamps: the frozen basis of the row, else the basis that the plan of the clamped
dates has, and the dates of one pass under it. -/
structure Stamped (p : DateParser) (db : Db) (sale : SaleInput) (input : DateFields Text)
    (received : Text) (now : Stamp) (basis : QualificationBasis) (dates : EffectiveDateResult)
    (w : SaleWrite) : Prop where
  passes : upsertDates p db sale.repId
    ((db.saleByExternalId sale.externalId).bind (·.qualificationBasis)) input (some received) =
      some (basis, dates)
  dates_eq : dates = resolveEffectiveDates p input (upsertPolicy db (some received) basis)
  frozen : ∀ b, (db.saleByExternalId sale.externalId).bind (·.qualificationBasis) = some b →
    basis = b
  resolved : (db.saleByExternalId sale.externalId).bind (·.qualificationBasis) = none →
    ∃ ms, (dates.applied.qualifiedAt.or dates.applied.soldAt).bind p.parse = some ms ∧
      basis = resolveSaleBasis db sale.repId ms
  write : saleWrite db sale = some w ∧ w.basis = basis ∧ w.dates.map (·.text) = dates.applied
  stored : ∃ row, (storeSale sale w now db).saleByExternalId sale.externalId = some row ∧
    row.qualificationBasis = some basis

/-- The write of a sale that was sold at `t`, when its dates are clamped. -/
def clampedWrite (p : DateParser) (receivedMs : Int) (db : Db) (sale : SaleInput)
    (input : DateFields Text) (t : Text) : SaleWrite :=
  let window := db.org.config.correctionWindowDays
  let dates := clampedStamps p receivedMs window input
  let soldAt := clampStamp receivedMs window (rawStamp p t)
  { soldAt, dates
    basis := saleBasis db sale (db.saleByExternalId sale.externalId) dates soldAt }

theorem saleWrite_clamped {sale : SaleInput}
    (hdates : sale.dates = .untrusted receivedMs (input.map (rawStamp p))) {t : Text}
    (ht : input.soldAt = some t) :
    saleWrite db sale = some (clampedWrite p receivedMs db sale input t) := by
  have hsold : (clampedStamps p receivedMs db.org.config.correctionWindowDays input).soldAt =
      some (clampStamp receivedMs db.org.config.correctionWindowDays (rawStamp p t)) := by
    simp [clampedStamps, DateFields.map, ht]
  unfold saleWrite
  rw [hdates]
  exact congrArg (Option.map _) hsold

theorem upsert_stamped {received : Text} (hreceived : p.parse received = some receivedMs)
    {sale : SaleInput} (hdates : sale.dates = .untrusted receivedMs (input.map (rawStamp p)))
    {t : Text} (ht : input.soldAt = some t) (now : Stamp) :
    ∃ basis dates w, Stamped p db sale input received now basis dates w := by
  have hrange := p.inDateRange_of_parse received receivedMs hreceived
  have htexts : ∀ basis, (resolveEffectiveDates p input
      (upsertPolicy db (some received) basis)).applied =
        (clampedStamps p receivedMs db.org.config.correctionWindowDays input).map (·.text) := by
    intro basis
    have hreceipt : (upsertPolicy db (some received) basis).serverReceivedAt.bind p.parse =
        some receivedMs := hreceived
    exact (clampedStamps_text hreceipt).symm
  have hplacing := placing_parse (p := p) hrange db.org.config.correctionWindowDays ht
  have hstored : ∃ row, (storeSale sale (clampedWrite p receivedMs db sale input t) now
      db).saleByExternalId sale.externalId = some row ∧ row.qualificationBasis = _ :=
    storeSale_basis sale (clampedWrite p receivedMs db sale input t) now
  obtain ⟨row, hrow, hbasis⟩ := hstored
  refine ⟨(clampedWrite p receivedMs db sale input t).basis,
    resolveEffectiveDates p input (upsertPolicy db (some received)
      (clampedWrite p receivedMs db sale input t).basis),
    clampedWrite p receivedMs db sale input t, ?_, rfl, fun b hb => ?_, fun hnone => ?_,
    ⟨saleWrite_clamped hdates ht, rfl, (htexts _).symm⟩, row, hrow, ?_⟩
  · unfold upsertDates clampedWrite saleBasis
    dsimp only
    cases (db.saleByExternalId sale.externalId).bind (·.qualificationBasis) with
    | some b => rw [map_some, getD_some, if_pos rfl, getD_some]
    | none =>
      rw [htexts, hplacing, map_some, map_some, getD_none, getD_none]
      split
      · rename_i hsame
        rw [hsame]
      · rfl
  · rw [clampedWrite, saleBasis, hb, getD_some]
  · refine ⟨_, (htexts _ ▸ hplacing), ?_⟩
    rw [clampedWrite, saleBasis, hnone, getD_none]
  · rw [hbasis]
    unfold clampedWrite saleBasis
    cases (db.saleByExternalId sale.externalId).bind (·.qualificationBasis) <;> rfl

end Passes

/-- Dates that came with a receipt time are clamped into the window that ends there, and an upsert
stamps the basis that the clamped dates have. -/
theorem effectiveDates_clamped (p : DateParser) {received : Text} {receivedMs : Int}
    (hreceived : p.parse received = some receivedMs) :
    (∀ (input : DateFields Text) (basis : QualificationBasis) (window : Int),
      Clamped p input ⟨basis, window, some received⟩ receivedMs
        (resolveEffectiveDates p input ⟨basis, window, some received⟩)) ∧
    ∀ (db : Db) (sale : SaleInput) (input : DateFields Text) (now : Stamp),
      sale.dates = .untrusted receivedMs (input.map (rawStamp p)) → input.soldAt ≠ none →
      ∃ basis dates w, Stamped p db sale input received now basis dates w := by
  constructor
  · intro input basis window
    exact resolveEffectiveDates_clamped hreceived
  · intro db sale input now hdates hsold
    obtain ⟨t, ht⟩ := ne_none_iff_exists'.mp hsold
    exact upsert_stamped hreceived hdates ht now

/-- The receipt of the first of March 2026 at midnight, and a sale dated a day later. -/
theorem effectiveDates_clamped_march :
    DateParser.printed.parse (toISOString 1772323200000) = some 1772323200000 ∧
      Clamped DateParser.printed ⟨some (toISOString 1772409600000), none, none, none⟩
        ⟨.soldAt, 30, some (toISOString 1772323200000)⟩ 1772323200000
        (resolveEffectiveDates DateParser.printed
          ⟨some (toISOString 1772409600000), none, none, none⟩
          ⟨.soldAt, 30, some (toISOString 1772323200000)⟩) := by
  have hreceived := DateParser.printed.parse_toISOString 1772323200000
    ⟨by norm_num, by norm_num⟩
  exact ⟨hreceived, (effectiveDates_clamped DateParser.printed hreceived).1 _ .soldAt 30⟩

end HomefrontFiber.Commission.Clamps
