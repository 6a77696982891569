import HomefrontFiber.ComingLedger.Answer
import HomefrontFiber.Foundation.IsoText
import Mathlib.Data.Rat.Defs
import Mathlib.Tactic.Common

/-!
# Address keys

An address becomes a list of canonical tokens: letters and digits in upper case, street words and
unit designators under one spelling each. The key of a lead joins the canonical address, city and
state.
-/

namespace HomefrontFiber.FreshFiber

open List

open ComingLedger (trim)

/-- `normalize("NFKD")` without the combining marks, in upper case. -/
structure Unicode where
  upperPlain : Text → Text
  upperPlain_nil : upperPlain [] = []

def Unicode.ascii : Unicode := { upperPlain := (·.map Char.toUpper), upperPlain_nil := rfl }

def suffixes : List (String × List String) :=
  [("ST", ["STREET", "STR"]), ("RD", ["ROAD"]), ("AVE", ["AVENUE", "AV"]),
    ("DR", ["DRIVE", "DRV"]), ("CT", ["COURT"]), ("LN", ["LANE"]),
    ("BLVD", ["BOULEVARD"]), ("HWY", ["HIGHWAY"]), ("PL", ["PLACE"]),
    ("TER", ["TERRACE", "TERR"]), ("CIR", ["CIRCLE", "CIRC"]), ("PKWY", ["PARKWAY", "PKY"]),
    ("WAY", ["WY"]), ("TRL", ["TRAIL", "TR"]), ("LOOP", []), ("PLZ", ["PLAZA"]),
    ("SQ", ["SQUARE"]), ("XING", ["CROSSING"])]

def directionals : List (String × List String) :=
  [("N", ["NORTH"]), ("S", ["SOUTH"]), ("E", ["EAST"]), ("W", ["WEST"]),
    ("NE", ["NORTHEAST"]), ("NW", ["NORTHWEST"]), ("SE", ["SOUTHEAST"]), ("SW", ["SOUTHWEST"])]

def units : List (String × List String) :=
  [("UNIT", ["APT", "APARTMENT", "STE", "SUITE", "BLDG", "BUILDING", "FL", "FLOOR",
    "RM", "ROOM", "DEPT", "DEPARTMENT", "LOT", "TRLR"])]

def addressTokenAliases (token : Text) : Text :=
  match (suffixes ++ directionals ++ units).find? fun (canon, variants) =>
      token = canon.toList || variants.any fun v => token = v.toList with
  | some (canon, _) => canon.toList
  | none => token

/-- `replace(/#\s*/g, " UNIT ")`. The flag says that the blanks of a match are being dropped. -/
def foldHash : Bool → Text → Text
  | _, [] => []
  | blanks, c :: t =>
    if c = '#' then " UNIT ".toList ++ foldHash true t
    else if blanks && c.isWhitespace then foldHash true t
    else c :: foldHash false t

def isKeyChar (c : Char) : Bool := ('A' ≤ c && c ≤ 'Z') || c.isDigit

/-- `split` at the characters that `keep` refuses, without the empty pieces. -/
def splitTokens (keep : Char → Bool) (t : Text) : List Text :=
  (t.splitOnP fun c => !keep c).filter (· ≠ [])

/-- A run of UNIT tokens becomes one. `prev` is the token before, dropped or not. -/
def collapseUnits : Option Text → List Text → List Text
  | _, [] => []
  | prev, t :: ts =>
    if t = "UNIT".toList && prev = some "UNIT".toList then collapseUnits (some t) ts
    else t :: collapseUnits (some t) ts

def canonicalTokens (u : Unicode) (value : Text) : List Text :=
  collapseUnits none
    ((splitTokens isKeyChar (foldHash false (u.upperPlain value))).map addressTokenAliases)

/-- `join(" ")`. -/
def words (tokens : List Text) : Text := [' '].intercalate tokens

def canonicalAddressPart (u : Unicode) (value : Text) : Text := words (canonicalTokens u value)

def streetDirectionals : List String := ["N", "S", "E", "W"]

def streetUnitTokens : List String :=
  ["APT", "UNIT", "STE", "SUITE", "LOT", "TRLR", "BLDG", "FL", "RM", "BSMT", "DEPT", "OFC"]

/-- `/^\d+[…]?$/`: digits and at most one letter. -/
def houseNumberLike (letter : Char → Bool) (token : Text) : Bool :=
  (token.takeWhile Char.isDigit ≠ []) &&
    match token.dropWhile Char.isDigit with
    | [] => true
    | [c] => letter c
    | _ => false

structure AddressIdentity where
  house : Text
  street : Text
  unit : Text
deriving DecidableEq

/-- How many of the leading tokens belong to the house. A lone letter behind the number does, unless it
is a directional or the last token. -/
def houseEnd (tokens : List Text) : Nat :=
  let start := (tokens.takeWhile (houseNumberLike fun c => 'A' ≤ c && c ≤ 'Z')).length
  if 0 < start && start + 1 < tokens.length && (tokens.getD start []).length = 1 &&
      !streetDirectionals.any (fun d => tokens.getD start [] = d.toList) then start + 1
  else start

def startsUnit (token : Text) : Bool :=
  token.head? = some '#' || streetUnitTokens.any fun t => token = t.toList

def addressIdentityOf (u : Unicode) (address : Text) : AddressIdentity :=
  if address = [] then { house := [], street := [], unit := [] }
  else
    let tokens := ((canonicalAddressPart u address).splitOn ' ').filter (· ≠ [])
    let rest := tokens.drop (houseEnd tokens)
    { house := words (tokens.take (houseEnd tokens))
      street := words (rest.takeWhile (!startsUnit ·))
      unit := words (rest.dropWhile (!startsUnit ·)) }

def streetKeyOf (u : Unicode) (address : Text) : Text := (addressIdentityOf u address).street

def normalizeKineticAddressKey (u : Unicode) (address city state : Text) : Text :=
  ['|'].intercalate
    [canonicalAddressPart u address, canonicalAddressPart u city, canonicalAddressPart u state]

def kineticLeadKeyOrNull (u : Unicode) (address city state : Text) : Option Text :=
  if streetKeyOf u address = [] then none else some (normalizeKineticAddressKey u address city state)

inductive AddressIssue
  | missingStreetAddress | missingHouseNumber | missingCity | missingState | missingCoordinates
  | invalidCoordinates

def AddressIssue.reason : AddressIssue → String
  | .missingStreetAddress => "missing street address"
  | .missingHouseNumber => "missing house number"
  | .missingCity => "missing city"
  | .missingState => "missing state"
  | .missingCoordinates => "missing coordinates"
  | .invalidCoordinates => "invalid coordinates"

/-- The first piece of `split(/\s+/)` of a trimmed text. -/
def firstWord (t : Text) : Text := (trim t).takeWhile fun c => !c.isWhitespace

def addressIdentityIssues (u : Unicode) (address city state : Text) (lat lng : Option Rat) :
    List AddressIssue :=
  (if trim address = [] || canonicalAddressPart u (trim address) = [] then [.missingStreetAddress]
    else if houseNumberLike Char.isAlpha (firstWord address) then []
    else [.missingHouseNumber]) ++
  (if trim city = [] then [.missingCity] else []) ++
  (if trim state = [] then [.missingState] else []) ++
  match lat, lng with
  | some lat, some lng =>
    if lat < -90 || 90 < lat || lng < -180 || 180 < lng || (lat = 0 && lng = 0) then
      [.invalidCoordinates]
    else []
  | _, _ => [.missingCoordinates]

variable {u : Unicode}

variable {t : Text} {c : Char} {tokens : List Text}

theorem mem_splitOnP {p : Char → Bool} {piece : Text} (h : piece ∈ t.splitOnP p) :
    ∀ c ∈ piece, p c = false := by
  induction t generalizing piece with
  | nil =>
    rw [splitOnP_nil, mem_singleton] at h
    simp [h]
  | cons c t ih =>
    rw [splitOnP_cons_eq_if_modifyHead] at h
    split at h
    · rcases mem_cons.mp h with rfl | h
      · simp
      · exact ih h
    · rename_i hc
      obtain ⟨first, rest, hsplit⟩ := exists_cons_of_ne_nil (splitOnP_ne_nil p t)
      rw [hsplit, modifyHead_cons] at h
      rcases mem_cons.mp h with rfl | h
      · intro d hd
        rcases mem_cons.mp hd with rfl | hd
        · simpa using hc
        · exact ih (by rw [hsplit]; exact mem_cons_self) d hd
      · exact ih (by rw [hsplit]; exact mem_cons_of_mem first h)

theorem collapseUnits_sublist (prev : Option Text) (tokens : List Text) :
    (collapseUnits prev tokens).Sublist tokens := by
  induction tokens generalizing prev with
  | nil => exact List.Sublist.slnil
  | cons t tokens ih =>
    unfold collapseUnits
    split
    · exact (ih _).cons t
    · exact (ih _).cons_cons t

def IsToken (t : Text) : Prop := t ≠ [] ∧ ∀ c ∈ t, isKeyChar c = true

instance (t : Text) : Decidable (IsToken t) :=
  @instDecidableAnd _ _ inferInstance (List.decidableBAll _ t)

theorem isToken_addressTokenAliases (h : IsToken t) : IsToken (addressTokenAliases t) := by
  have htable : ∀ entry ∈ suffixes ++ directionals ++ units, IsToken entry.1.toList := by
    simp [suffixes, directionals, units, IsToken, isKeyChar]
  unfold addressTokenAliases
  split
  · rename_i canon variants hfind
    exact htable (canon, variants) (mem_of_find?_eq_some hfind)
  · exact h

theorem isToken_of_mem {value : Text} (h : t ∈ canonicalTokens u value) : IsToken t := by
  obtain ⟨piece, hpiece, rfl⟩ := mem_map.mp ((collapseUnits_sublist _ _).subset h)
  apply isToken_addressTokenAliases
  obtain ⟨hmem, hne⟩ := mem_filter.mp hpiece
  constructor
  · simpa using hne
  · intro c hc
    simpa using mem_splitOnP hmem c hc

theorem not_mem_of_isToken (h : IsToken t) (hc : isKeyChar c = false) : c ∉ t := by
  intro hmem
  rw [h.2 c hmem] at hc
  cases hc

theorem splitOn_canonicalAddressPart (value : Text) :
    ((canonicalAddressPart u value).splitOn ' ').filter (· ≠ []) = canonicalTokens u value := by
  have htoken : ∀ t ∈ canonicalTokens u value, IsToken t := fun t => isToken_of_mem
  unfold canonicalAddressPart words
  by_cases hnil : canonicalTokens u value = []
  · simp [hnil]
  · have hblank : ∀ t ∈ canonicalTokens u value, ' ' ∉ t := fun t ht =>
      not_mem_of_isToken (htoken t ht) (by decide)
    rw [splitOn_intercalate ' ' hblank hnil, filter_eq_self]
    intro t ht
    simpa using (htoken t ht).1

def glue (a b : Text) : Text := if a = [] then b else if b = [] then a else a ++ ' ' :: b

theorem words_cons_of_ne_nil (h : tokens ≠ []) :
    words (t :: tokens) = t ++ ' ' :: words tokens := by
  rw [words, intercalate_cons_of_ne_nil h, append_assoc]
  rfl

theorem words_singleton (t : Text) : words [t] = t := intercalate_singleton

theorem words_ne_nil (h : ∀ t ∈ tokens, t ≠ []) (hne : tokens ≠ []) : words tokens ≠ [] := by
  cases tokens with
  | nil => exact absurd rfl hne
  | cons t tokens =>
    by_cases hnil : tokens = []
    · rw [hnil, words_singleton]
      exact h t mem_cons_self
    · rw [words_cons_of_ne_nil hnil]
      simp

theorem mem_words (h : c ∈ words tokens) : c = ' ' ∨ ∃ t ∈ tokens, c ∈ t := by
  induction tokens with
  | nil => cases h
  | cons t tokens ih =>
    by_cases hnil : tokens = []
    · rw [hnil, words_singleton] at h
      exact Or.inr ⟨t, mem_cons_self, h⟩
    · rw [words_cons_of_ne_nil hnil, mem_append, mem_cons] at h
      rcases h with h | h | h
      · exact Or.inr ⟨t, mem_cons_self, h⟩
      · exact Or.inl h
      · rcases ih h with hblank | ⟨t', ht', hc⟩
        · exact Or.inl hblank
        · exact Or.inr ⟨t', mem_cons_of_mem t ht', hc⟩

theorem words_append {as bs : List Text} (ha : ∀ t ∈ as, t ≠ []) (hb : ∀ t ∈ bs, t ≠ []) :
    words (as ++ bs) = glue (words as) (words bs) := by
  unfold glue
  by_cases hbs : bs = []
  · by_cases has : words as = [] <;> simp [hbs, words]
  · rw [if_neg (words_ne_nil hb hbs)]
    induction as with
    | nil => rfl
    | cons t as ih =>
      have htail : ∀ t ∈ as, t ≠ [] := fun t' ht' => ha t' (mem_cons_of_mem t ht')
      have ih := ih htail
      rw [if_neg (words_ne_nil ha (by simp)), cons_append,
        words_cons_of_ne_nil (by simp [hbs]), ih]
      by_cases has : as = []
      · rw [has, words_singleton]
        rfl
      · rw [if_neg (words_ne_nil htail has), words_cons_of_ne_nil has]
        simp

theorem canonicalTokens_nil : canonicalTokens u [] = [] := by
  unfold canonicalTokens
  rw [u.upperPlain_nil]
  rfl

theorem addressIdentityOf_eq (address : Text) :
    addressIdentityOf u address =
      { house := words ((canonicalTokens u address).take (houseEnd (canonicalTokens u address)))
        street := words (((canonicalTokens u address).drop
          (houseEnd (canonicalTokens u address))).takeWhile (!startsUnit ·))
        unit := words (((canonicalTokens u address).drop
          (houseEnd (canonicalTokens u address))).dropWhile (!startsUnit ·)) } := by
  unfold addressIdentityOf
  split
  · rename_i hnil
    rw [hnil, canonicalTokens_nil]
    rfl
  · rw [splitOn_canonicalAddressPart]

theorem canonicalAddressPart_eq (address : Text) :
    canonicalAddressPart u address =
      glue (addressIdentityOf u address).house
        (glue (addressIdentityOf u address).street (addressIdentityOf u address).unit) := by
  rw [addressIdentityOf_eq]
  have hne : ∀ t ∈ canonicalTokens u address, t ≠ [] := fun t ht => (isToken_of_mem ht).1
  have hrest : ∀ t ∈ (canonicalTokens u address).drop (houseEnd (canonicalTokens u address)),
      t ≠ [] := fun t ht => hne t (mem_of_mem_drop ht)
  rw [← words_append, takeWhile_append_dropWhile, ← words_append, take_append_drop]
  · rfl
  · exact fun t ht => hne t (mem_of_mem_take ht)
  · exact hrest
  · exact fun t ht => hrest t ((takeWhile_sublist _).subset ht)
  · exact fun t ht => hrest t ((dropWhile_sublist _).subset ht)

theorem addressIdentityOf_eq_iff {a b : Text} :
    addressIdentityOf u a = addressIdentityOf u b ↔
      canonicalAddressPart u a = canonicalAddressPart u b := by
  constructor
  · intro h
    rw [canonicalAddressPart_eq, h, ← canonicalAddressPart_eq]
  · intro h
    have htokens : canonicalTokens u a = canonicalTokens u b := by
      rw [← splitOn_canonicalAddressPart, h, splitOn_canonicalAddressPart]
    rw [addressIdentityOf_eq, addressIdentityOf_eq, htokens]

theorem normalizeKineticAddressKey_inj {a b city city' state state' : Text}
    (h : normalizeKineticAddressKey u a city state = normalizeKineticAddressKey u b city' state') :
    canonicalAddressPart u a = canonicalAddressPart u b ∧
      canonicalAddressPart u city = canonicalAddressPart u city' ∧
      canonicalAddressPart u state = canonicalAddressPart u state' := by
  have hbar : ∀ value : Text, '|' ∉ canonicalAddressPart u value := by
    intro value hmem
    rcases mem_words hmem with hblank | ⟨t, ht, hc⟩
    · exact absurd hblank (by decide)
    · exact not_mem_of_isToken (isToken_of_mem ht) (by decide) hc
  have hparts : ∀ value value' value'' : Text,
      ∀ part ∈ [canonicalAddressPart u value, canonicalAddressPart u value',
        canonicalAddressPart u value''], '|' ∉ part := by
    intro value value' value'' part hpart
    simp only [mem_cons, not_mem_nil, or_false] at hpart
    rcases hpart with rfl | rfl | rfl <;> exact hbar _
  have hsplit := congrArg (List.splitOn '|') h
  unfold normalizeKineticAddressKey at hsplit
  rw [splitOn_intercalate '|' (hparts _ _ _) (by simp),
    splitOn_intercalate '|' (hparts _ _ _) (by simp)] at hsplit
  simpa using hsplit

end HomefrontFiber.FreshFiber
