import HomefrontFiber.Workweek
import Mathlib.Data.Rat.Cast.Order
import Mathlib.Order.Monotone.Basic
import Mathlib.Tactic.Linarith

/-!
# Which doors a rep may work

The rule has two encodings. `repCanWorkLead` is a predicate over a lead and the areas that the
scope holds, which `territoryHeldByAny` reads out of the parsed assignee list. `repVisibilitySql`
is a condition over the rows, in the logic of three truth values, which reads the raw text.
-/

namespace HomefrontFiber.Visibility

inductive JsonNumber where
  | integer (z : Int)
  | real (q : Rat)

inductive Json where
  | null
  | bool (b : Bool)
  | number (n : JsonNumber)
  | string (s : Text)
  | array (items : List Json)
  | object (fields : List (Text × Json))

/-- The readers of JSON. `JSON.parse` fails on a blank text and accepts what `json_valid` does. -/
structure JsonReader where
  parse : Text → Option Json
  jsonValid : Text → Bool
  parse_blank : ∀ text, trim text = [] → parse text = none
  valid_iff : ∀ text, jsonValid text = (parse text).isSome

/-- The conversion of a number to a double. It has every integer up to `2 ^ 53`. -/
structure Rounding where
  nearest : Rat → Rat
  monotone : Monotone nearest
  exact : ∀ z : Int, -2 ^ 53 ≤ z → z ≤ 2 ^ 53 → nearest z = z

/-- The number that `JSON.parse` gives. -/
def JsonNumber.parsed (r : Rounding) : JsonNumber → Rat
  | .integer z => r.nearest z
  | .real q => r.nearest q

/-- The value that `json_each` gives. An integer of 64 bits keeps its digits. -/
def JsonNumber.stored (r : Rounding) : JsonNumber → Rat
  | .integer z => if -2 ^ 63 ≤ z ∧ z < 2 ^ 63 then z else r.nearest z
  | .real q => r.nearest q

structure RepId where
  id : Int
  safe : -2 ^ 53 < id ∧ id < 2 ^ 53
  deriving DecidableEq

structure Territory where
  id : Int
  tenantId : Option Int
  repId : Option Int
  status : String
  assigneeIds : Option Text

structure Lead where
  id : Int
  tenantId : Option Int
  assignedRepId : Option Int
  assignedTerritoryId : Option Int

def number? (r : Rounding) : Json → Option Rat
  | .number n => some (n.parsed r)
  | _ => none

def parseAssigneeIds (reader : JsonReader) (r : Rounding) (value : Option Text) :
    Option (List Rat) :=
  match value with
  | none => none
  | some text =>
    if trim text = [] then none
    else
      match reader.parse text with
      | some (.array items) => some (items.filterMap (number? r))
      | _ => none

def ids (scope : List RepId) : List Int := scope.map (·.id)

def numbers (list : List Int) : List Rat := list.map fun n : Int => (n : Rat)

def territoryHeldByAny (reader : JsonReader) (r : Rounding) (t : Territory) (scope : List RepId) :
    Bool :=
  if scope = [] then false
  else
    match parseAssigneeIds reader r t.assigneeIds with
    | some assignees => assignees.any (· ∈ numbers (ids scope))
    | none => t.repId.any (· ∈ ids scope)

def getTerritories (territories : List Territory) (tenantId : Option Int) : List Territory :=
  match tenantId with
  | none => territories
  | some _ => territories.filter (·.tenantId = tenantId)

def computeTerritoryIdsForScope (reader : JsonReader) (r : Rounding) (territories : List Territory)
    (scope : List RepId) (tenantId : Option Int) : List Int :=
  ((getTerritories territories tenantId).filter (territoryHeldByAny reader r · scope)).map (·.id)

def repCanWorkLead (lead : Lead) (scope : List RepId) (territoryIdsInScope : List Int)
    (openFieldEnabled : Bool) : Bool :=
  if lead.assignedRepId.any (· ∈ ids scope) then true
  else
    match lead.assignedRepId, lead.assignedTerritoryId with
    | none, none => openFieldEnabled
    | some _, none => false
    | _, some territoryId => territoryId ∈ territoryIdsInScope

/-- `repCanAccessLead` for a scope that is not open. -/
def repCanAccessLead (reader : JsonReader) (r : Rounding) (territories : List Territory)
    (tenantId : Option Int) (scope : List RepId) (openFieldEnabled : Bool) (lead : Lead) : Bool :=
  repCanWorkLead lead scope (computeTerritoryIdsForScope reader r territories scope tenantId)
    openFieldEnabled

/-- A truth value of SQL. `none` is NULL. -/
abbrev Truth := Option Bool

def Truth.or : Truth → Truth → Truth
  | some true, _ | _, some true => some true
  | some false, some false => some false
  | _, _ => none

def Truth.and : Truth → Truth → Truth
  | some false, _ | _, some false => some false
  | some true, some true => some true
  | _, _ => none

def sqlIn (value : Option Int) (list : List Int) : Truth := value.map (decide <| · ∈ list)

def sqlEq (a b : Option Int) : Truth := a.bind fun a => b.map fun b => a = b

def exists_ {α : Type} (rows : List α) (condition : α → Truth) : Truth :=
  some (rows.any fun row => condition row = some true)

/-- `CASE WHEN json_valid(text) THEN text END`. -/
def validText (reader : JsonReader) (value : Option Text) : Option Text :=
  value.filter reader.jsonValid

inductive JsonType where
  | null | true | false | integer | real | text | array | object
  deriving DecidableEq

def typeOf : Json → JsonType
  | .null => .null
  | .bool true => .true
  | .bool false => .false
  | .number (.integer _) => .integer
  | .number (.real _) => .real
  | .string _ => .text
  | .array _ => .array
  | .object _ => .object

def jsonType (reader : JsonReader) (value : Option Text) : Option JsonType :=
  (value.bind reader.parse).map typeOf

/-- The rows of `json_each` over an array. -/
def jsonEach (reader : JsonReader) (value : Option Text) : List Json :=
  match value.bind reader.parse with
  | some (.array items) => items
  | _ => []

/-- `je.type IN ('integer', 'real') AND je.value IN (list)`. -/
def elementIn (r : Rounding) (list : List Int) (je : Json) : Truth :=
  match je with
  | .number n => some (n.stored r ∈ numbers list)
  | _ => some false

def isSafeInteger (n : Int) : Bool := -2 ^ 53 < n && n < 2 ^ 53

def holdsSql (reader : JsonReader) (r : Rounding) (list : List Int) (t : Territory) : Truth :=
  if jsonType reader (validText reader t.assigneeIds) = some .array then
    exists_ (jsonEach reader t.assigneeIds) (elementIn r list)
  else sqlIn t.repId list

def repVisibilitySql (reader : JsonReader) (r : Rounding) (territories : List Territory)
    (scope : List RepId) (openFieldEnabled : Bool) (lead : Lead) : Truth :=
  let list := (ids scope).filter isSafeInteger
  if list = [] then some false
  else
    let openField : Truth :=
      if openFieldEnabled then
        some (lead.assignedRepId.isNone && lead.assignedTerritoryId.isNone)
      else some false
    ((sqlIn lead.assignedRepId list).or openField).or
      (exists_ territories fun t =>
        (sqlEq (some t.id) lead.assignedTerritoryId).and (holdsSql reader r list t))

def selected (reader : JsonReader) (r : Rounding) (territories : List Territory)
    (scope : List RepId) (openFieldEnabled : Bool) (leads : List Lead) : List Lead :=
  leads.filter fun lead =>
    repVisibilitySql reader r territories scope openFieldEnabled lead = some true

variable {a b : Truth} {scope : List RepId} {r : Rounding} {territories : List Territory}
  {tenantId : Option Int}

theorem Truth.or_eq_true : a.or b = some true ↔ a = some true ∨ b = some true := by
  cases a with
  | none =>
    cases b with
    | none => simp [Truth.or]
    | some b => cases b <;> simp [Truth.or]
  | some a =>
    cases a with
    | true => simp [Truth.or]
    | false =>
      cases b with
      | none => simp [Truth.or]
      | some b => cases b <;> simp [Truth.or]

theorem Truth.and_eq_true : a.and b = some true ↔ a = some true ∧ b = some true := by
  cases a with
  | none =>
    cases b with
    | none => simp [Truth.and]
    | some b => cases b <;> simp [Truth.and]
  | some a =>
    cases a with
    | false => simp [Truth.and]
    | true =>
      cases b with
      | none => simp [Truth.and]
      | some b => cases b <;> simp [Truth.and]

theorem sqlIn_eq_true {value : Option Int} {list : List Int} :
    sqlIn value list = some true ↔ value.any (· ∈ list) = true := by
  cases value with
  | none => simp [sqlIn]
  | some v => simp [sqlIn]

theorem sqlEq_eq_true {a : Int} {b : Option Int} : sqlEq (some a) b = some true ↔ b = some a := by
  cases b with
  | none => simp [sqlEq]
  | some b => simp [sqlEq, eq_comm]

theorem exists_eq_true {α : Type} {rows : List α} {condition : α → Truth} :
    exists_ rows condition = some true ↔ ∃ row ∈ rows, condition row = some true := by
  simp [exists_]

theorem filter_isSafeInteger (scope : List RepId) : (ids scope).filter isSafeInteger = ids scope := by
  apply List.filter_eq_self.mpr
  intro n hn
  obtain ⟨rep, -, rfl⟩ := List.mem_map.mp hn
  simpa [isSafeInteger] using rep.safe

theorem Rounding.nearest_eq_iff (r : Rounding) (z : Int) (rep : RepId) :
    r.nearest z = rep.id ↔ z = rep.id := by
  obtain ⟨hlow, hhigh⟩ := rep.safe
  by_cases hbig : 2 ^ 53 < z
  · have hle : ((2 ^ 53 : Int) : Rat) ≤ z := Int.cast_le.mpr hbig.le
    have hmono := r.monotone hle
    rw [r.exact (2 ^ 53) (by norm_num) le_rfl] at hmono
    have hid : (rep.id : Rat) < ((2 ^ 53 : Int) : Rat) := Int.cast_lt.mpr hhigh
    constructor
    · intro h
      rw [h] at hmono
      exact absurd hmono (not_le.mpr hid)
    · intro h
      omega
  · by_cases hsmall : z < -2 ^ 53
    · have hle : (z : Rat) ≤ ((-2 ^ 53 : Int) : Rat) := Int.cast_le.mpr hsmall.le
      have hmono := r.monotone hle
      rw [r.exact (-2 ^ 53) le_rfl (by norm_num)] at hmono
      have hid : ((-2 ^ 53 : Int) : Rat) < (rep.id : Rat) := Int.cast_lt.mpr hlow
      constructor
      · intro h
        rw [h] at hmono
        exact absurd hmono (not_le.mpr hid)
      · intro h
        omega
    · rw [r.exact z (by omega) (by omega)]
      exact Int.cast_inj

theorem stored_eq_iff (r : Rounding) (n : JsonNumber) (rep : RepId) :
    n.stored r = rep.id ↔ n.parsed r = rep.id := by
  cases n with
  | real q => exact Iff.rfl
  | integer z =>
    unfold JsonNumber.stored JsonNumber.parsed
    dsimp only
    split
    · rw [r.nearest_eq_iff, Int.cast_inj]
    · exact Iff.rfl

theorem mem_numbers {x : Rat} : x ∈ numbers (ids scope) ↔ ∃ rep ∈ scope, x = rep.id := by
  simp [numbers, ids, eq_comm]

theorem elementIn_eq_true {je : Json} :
    elementIn r (ids scope) je = some true ↔ ∃ x, number? r je = some x ∧ x ∈ numbers (ids scope) := by
  cases je with
  | number n =>
    simp only [elementIn, number?, Option.some.injEq, decide_eq_true_eq, exists_eq_left',
      mem_numbers, stored_eq_iff]
  | _ => simp [elementIn, number?]

theorem array_cases (value : Json) :
    (∃ items, value = .array items) ∨
      typeOf value ≠ .array ∧ ∀ items, some value ≠ some (.array items) := by
  cases value with
  | array items => exact .inl ⟨items, rfl⟩
  | bool b => cases b <;> exact .inr ⟨nofun, nofun⟩
  | number n => cases n <;> exact .inr ⟨nofun, nofun⟩
  | _ => exact .inr ⟨nofun, nofun⟩

theorem holdsSql_iff (reader : JsonReader) (r : Rounding) (hscope : scope ≠ []) (t : Territory) :
    holdsSql reader r (ids scope) t = some true ↔ territoryHeldByAny reader r t scope = true := by
  unfold holdsSql territoryHeldByAny
  rw [if_neg hscope]
  cases hvalue : t.assigneeIds with
  | none => simp [validText, jsonType, parseAssigneeIds, sqlIn_eq_true]
  | some text =>
    cases hparse : reader.parse text with
    | none =>
      have hinvalid : reader.jsonValid text = false := by rw [reader.valid_iff, hparse]; rfl
      have hnone : parseAssigneeIds reader r (some text) = none := by
        unfold parseAssigneeIds
        simp [hparse]
      rw [hnone]
      simp [validText, Option.filter, hinvalid, jsonType, sqlIn_eq_true]
    | some value =>
      have hvalid : reader.jsonValid text = true := by rw [reader.valid_iff, hparse]; rfl
      have hblank : trim text ≠ [] := by
        intro h
        rw [reader.parse_blank text h] at hparse
        cases hparse
      have htext : validText reader (some text) = some text := by
        simp [validText, Option.filter, hvalid]
      have htype : jsonType reader (some text) = some (typeOf value) := by
        simp [jsonType, hparse]
      rw [htext, htype]
      rcases array_cases value with ⟨items, rfl⟩ | ⟨htypeOf, hother⟩
      · have hassignees : parseAssigneeIds reader r (some text) =
            some (items.filterMap (number? r)) := by
          simp [parseAssigneeIds, hblank, hparse]
        have heach : jsonEach reader (some text) = items := by simp [jsonEach, hparse]
        rw [hassignees, heach, if_pos (by rfl), exists_eq_true]
        simp only [List.any_eq_true, List.mem_filterMap, decide_eq_true_eq, elementIn_eq_true]
        constructor
        · rintro ⟨je, hje, x, hx, hin⟩
          exact ⟨x, ⟨je, hje, hx⟩, hin⟩
        · rintro ⟨x, ⟨je, hje, hx⟩, hin⟩
          exact ⟨je, hje, x, hx, hin⟩
      · have hnone : parseAssigneeIds reader r (some text) = none := by
          unfold parseAssigneeIds
          dsimp only
          rw [if_neg hblank, hparse]
          split
          · rename_i items heq
            exact absurd heq (hother items)
          · rfl
        rw [hnone, if_neg (fun h => htypeOf (Option.some.inj h)), sqlIn_eq_true]

def LinkedWithin (territories : List Territory) (tenantId : Option Int) (lead : Lead) : Prop :=
  ∀ t ∈ territories, lead.assignedTerritoryId = some t.id → t ∈ getTerritories territories tenantId

theorem mem_computeTerritoryIdsForScope {reader : JsonReader} {id : Int} :
    id ∈ computeTerritoryIdsForScope reader r territories scope tenantId ↔
      ∃ t ∈ getTerritories territories tenantId,
        territoryHeldByAny reader r t scope = true ∧ t.id = id := by
  simp [computeTerritoryIdsForScope, and_assoc]

theorem mem_getTerritories {t : Territory}
    (h : t ∈ getTerritories territories tenantId) : t ∈ territories := by
  unfold getTerritories at h
  split at h
  · exact h
  · exact (List.mem_filter.mp h).1

theorem repVisibilitySql_iff (reader : JsonReader) (r : Rounding) (territories : List Territory)
    (tenantId : Option Int) (hscope : scope ≠ []) (openFieldEnabled : Bool)
    {lead : Lead} (hlink : LinkedWithin territories tenantId lead) :
    repVisibilitySql reader r territories scope openFieldEnabled lead = some true ↔
      repCanAccessLead reader r territories tenantId scope openFieldEnabled lead = true := by
  have hids : ids scope ≠ [] := by simpa [ids] using hscope
  have hopen : (if openFieldEnabled then
      some (lead.assignedRepId.isNone && lead.assignedTerritoryId.isNone) else some false) =
      some true ↔ openFieldEnabled = true ∧ lead.assignedRepId = none ∧
        lead.assignedTerritoryId = none := by
    cases openFieldEnabled <;> simp
  have harea : (exists_ territories fun t => (sqlEq (some t.id) lead.assignedTerritoryId).and
      (holdsSql reader r (ids scope) t)) = some true ↔
      ∃ id, lead.assignedTerritoryId = some id ∧
        id ∈ computeTerritoryIdsForScope reader r territories scope tenantId := by
    rw [exists_eq_true]
    simp only [Truth.and_eq_true, sqlEq_eq_true, holdsSql_iff reader r hscope,
      mem_computeTerritoryIdsForScope]
    constructor
    · rintro ⟨t, ht, hid, hheld⟩
      exact ⟨t.id, hid, t, hlink t ht hid, hheld, rfl⟩
    · rintro ⟨_, hid, t, ht, hheld, rfl⟩
      exact ⟨t, mem_getTerritories ht, hid, hheld⟩
  unfold repVisibilitySql
  rw [filter_isSafeInteger, if_neg hids, Truth.or_eq_true, Truth.or_eq_true, sqlIn_eq_true, hopen,
    harea]
  unfold repCanAccessLead repCanWorkLead
  by_cases hmine : lead.assignedRepId.any (· ∈ ids scope) = true
  · rw [if_pos hmine]
    exact ⟨fun _ => rfl, fun _ => .inl (.inl hmine)⟩
  · rw [if_neg hmine]
    cases hrep : lead.assignedRepId with
    | none =>
      cases hterritory : lead.assignedTerritoryId with
      | none => simp
      | some id => simp
    | some rep =>
      rw [hrep] at hmine
      cases hterritory : lead.assignedTerritoryId with
      | none => simpa using hmine
      | some id =>
        have hno : ¬ rep ∈ ids scope := by simpa using hmine
        simp [hno]

theorem selected_eq (reader : JsonReader) (r : Rounding) (territories : List Territory)
    (tenantId : Option Int) (hscope : scope ≠ []) (openFieldEnabled : Bool)
    {leads : List Lead} (hlinks : ∀ lead ∈ leads, LinkedWithin territories tenantId lead) :
    selected reader r territories scope openFieldEnabled leads =
      leads.filter (repCanAccessLead reader r territories tenantId scope openFieldEnabled) := by
  apply List.filter_congr
  intro lead hlead
  rw [Bool.eq_iff_iff, decide_eq_true_eq]
  exact repVisibilitySql_iff reader r territories tenantId hscope openFieldEnabled
    (hlinks lead hlead)

end HomefrontFiber.Visibility
