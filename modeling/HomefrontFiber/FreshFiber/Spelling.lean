import HomefrontFiber.FreshFiber.AddressKey

/-!
# Spellings of one address

The tokens of an address are read piece by piece: a text splits at every separator, and a number sign
reads as the token UNIT. So a respelling that keeps the pieces, up to the aliases of the tables and
repeated unit designators, keeps the canonical text. A separator is not nothing: `123-A` has two
tokens and `123A` has one.
-/

namespace HomefrontFiber.FreshFiber

open List

variable {u : Unicode} {starter : Char → Prop}

/-- Decomposition and upper case work on each side of a `starter` alone. ASCII is made of starters
that are only put in upper case. -/
structure Unicode.Splits (u : Unicode) (starter : Char → Prop) : Prop where
  ascii : ∀ c : Char, c.toNat < 128 → starter c ∧ u.upperPlain [c] = [c.toUpper]
  split : ∀ a c b, starter c →
    u.upperPlain (a ++ c :: b) = u.upperPlain a ++ u.upperPlain [c] ++ u.upperPlain b

theorem Unicode.splits_ascii : Unicode.ascii.Splits fun _ => True where
  ascii _ _ := ⟨trivial, rfl⟩
  split a c b _ := by simp [Unicode.ascii]

def pieces (t : Text) : List Text := splitTokens isKeyChar (foldHash false t)

theorem canonicalTokens_eq (value : Text) :
    canonicalTokens u value =
      collapseUnits none ((pieces (u.upperPlain value)).map addressTokenAliases) := rfl

variable {keep : Char → Bool} {a b : Text} {c : Char}

theorem splitTokens_append (hc : keep c = false) :
    splitTokens keep (a ++ c :: b) = splitTokens keep a ++ splitTokens keep b := by
  unfold splitTokens
  rw [splitOnP_append_cons a b (by simp [hc]), filter_append]

theorem splitTokens_cons (hc : keep c = false) : splitTokens keep (c :: b) = splitTokens keep b :=
  @splitTokens_append _ [] _ _ hc

theorem isKeyChar_of_isWhitespace (hc : c.isWhitespace = true) : isKeyChar c = false := by
  simp only [Char.isWhitespace, Bool.or_eq_true, decide_eq_true_eq] at hc
  rcases hc with ((rfl | rfl) | rfl) | rfl <;> decide

theorem foldHash_cons (drop : Bool) (c : Char) (t : Text) :
    foldHash drop (c :: t) =
      if c = '#' then ' ' :: ("UNIT".toList ++ ' ' :: foldHash true t)
      else if drop && c.isWhitespace then foldHash true t else c :: foldHash false t := rfl

theorem splitTokens_foldHash (drop : Bool) (t : Text) :
    splitTokens isKeyChar (foldHash drop t) = pieces t := by
  cases drop with
  | false => rfl
  | true =>
    induction t with
    | nil => rfl
    | cons c t ih =>
      unfold pieces
      rw [foldHash_cons, foldHash_cons]
      by_cases hash : c = '#'
      · rw [if_pos hash, if_pos hash]
      · by_cases hblank : c.isWhitespace = true
        · simp only [hash, hblank, if_false, Bool.and_self, Bool.false_and, if_true,
            Bool.false_eq_true]
          rw [ih, splitTokens_cons (isKeyChar_of_isWhitespace hblank)]
          rfl
        · simp [hash, hblank]

/-- Every blank that is dropped stands behind the blank of a UNIT, here the end of `read`. -/
theorem splitTokens_foldHash_append (hc : isKeyChar c = false) (drop : Bool) (read : Text)
    (hdrop : drop = true → ∃ before, read = before ++ [' ']) :
    splitTokens isKeyChar (read ++ foldHash drop (a ++ c :: b)) =
      splitTokens isKeyChar (read ++ foldHash drop a) ++ pieces (c :: b) := by
  induction a generalizing drop read with
  | nil =>
    rw [nil_append, ← splitTokens_foldHash drop (c :: b)]
    have hempty : foldHash drop [] = [] := by cases drop <;> rfl
    rw [hempty, append_nil]
    cases drop with
    | true =>
      obtain ⟨before, rfl⟩ := hdrop rfl
      rw [append_assoc, singleton_append, splitTokens_append (by decide),
        splitTokens_append (by decide)]
      simp [splitTokens]
    | false =>
      rw [foldHash_cons]
      split
      · rw [splitTokens_append (by decide), splitTokens_cons (by decide)]
      · rw [Bool.false_and, if_neg (by decide), splitTokens_append hc, splitTokens_cons hc]
  | cons d a ih =>
    rw [cons_append, foldHash_cons, foldHash_cons]
    split
    · have ih := ih true (read ++ ' ' :: ("UNIT".toList ++ [' '])) fun _ =>
        ⟨read ++ ' ' :: "UNIT".toList, by simp⟩
      simpa using ih
    · split
      · exact ih _ read fun _ => hdrop (by simp_all)
      · have ih := ih false (read ++ [d]) (by simp)
        simpa using ih

theorem pieces_append (hc : isKeyChar c = false) : pieces (a ++ c :: b) = pieces a ++ pieces (c :: b) :=
  splitTokens_foldHash_append hc false [] (by simp)

theorem pieces_cons (hc : isKeyChar c = false) (hash : c ≠ '#') : pieces (c :: b) = pieces b := by
  unfold pieces
  rw [foldHash_cons, if_neg hash, Bool.false_and, if_neg (by decide), splitTokens_cons hc]

theorem pieces_hash : pieces ('#' :: b) = "UNIT".toList :: pieces b := by
  unfold pieces
  rw [foldHash_cons, if_pos rfl, splitTokens_cons (by decide), splitTokens_append (by decide), splitTokens_foldHash]
  rfl

variable {t : Text} {tokens : List Text}

theorem pieces_token (h : IsToken t) : pieces t = [t] := by
  have hfold : ∀ s : Text, (∀ c ∈ s, isKeyChar c = true) → foldHash false s = s := by
    intro s hs
    induction s with
    | nil => rfl
    | cons c s ih =>
      have hhash : c ≠ '#' := fun hc => absurd (hc ▸ hs c mem_cons_self) (by decide)
      rw [foldHash_cons, if_neg hhash, Bool.false_and, if_neg (by decide),
        ih fun c hc => hs c (mem_cons_of_mem _ hc)]
  unfold pieces splitTokens
  rw [hfold t h.2, splitOnP_eq_singleton fun c hc => by simp [h.2 c hc]]
  simp [h.1]

theorem pieces_words (h : ∀ t ∈ tokens, IsToken t) : pieces (words tokens) = tokens := by
  induction tokens with
  | nil => rfl
  | cons t tokens ih =>
    have ht := h t mem_cons_self
    by_cases hnil : tokens = []
    · rw [hnil, words_singleton, pieces_token ht]
    · rw [words_cons_of_ne_nil hnil, pieces_append (by decide), pieces_token ht,
        pieces_cons (by decide) (by decide), ih fun t ht => h t (mem_cons_of_mem _ ht)]
      rfl

def addressTable : List (String × List String) := suffixes ++ directionals ++ units

theorem addressTokenAliases_table : ∀ entry ∈ addressTable, ∀ name ∈ entry.1 :: entry.2,
    IsToken name.toList ∧ addressTokenAliases name.toList = entry.1.toList := by
  decide +kernel

theorem addressTokenAliases_cases (t : Text) :
    addressTokenAliases t = t ∨ ∃ entry ∈ addressTable, addressTokenAliases t = entry.1.toList := by
  unfold addressTokenAliases
  split
  · rename_i canon variants hfind
    exact Or.inr ⟨(canon, variants), mem_of_find?_eq_some hfind, rfl⟩
  · exact Or.inl rfl

theorem addressTokenAliases_idem (t : Text) :
    addressTokenAliases (addressTokenAliases t) = addressTokenAliases t := by
  rcases addressTokenAliases_cases t with h | ⟨entry, hentry, h⟩
  · rw [h, h]
  · rw [h]
    exact (addressTokenAliases_table entry hentry entry.1 mem_cons_self).2

theorem collapseUnits_idem (prev : Option Text) (tokens : List Text) :
    collapseUnits prev (collapseUnits prev tokens) = collapseUnits prev tokens := by
  induction tokens generalizing prev with
  | nil => rfl
  | cons t tokens ih =>
    by_cases hrun : (t = "UNIT".toList && prev = some "UNIT".toList) = true
    · have hprev : prev = some t := by simp_all
      rw [collapseUnits, if_pos hrun, hprev, ih]
    · rw [collapseUnits, if_neg hrun, collapseUnits, if_neg hrun, ih]

theorem collapseUnits_twice (prev : Option Text) (before after : List Text) :
    collapseUnits prev (before ++ "UNIT".toList :: "UNIT".toList :: after) =
      collapseUnits prev (before ++ "UNIT".toList :: after) := by
  induction before generalizing prev with
  | nil =>
    have hdrop : collapseUnits (some "UNIT".toList) ("UNIT".toList :: after) =
        collapseUnits (some "UNIT".toList) after := by
      rw [collapseUnits, if_pos (by simp)]
    rw [nil_append, nil_append, collapseUnits, hdrop, ← collapseUnits]
  | cons t before ih =>
    rw [cons_append, cons_append, collapseUnits, collapseUnits, ih]

theorem upperPlain_ascii (hu : u.Splits starter) (h : ∀ c ∈ t, c.toNat < 128) :
    u.upperPlain t = t.map Char.toUpper := by
  induction t with
  | nil => exact u.upperPlain_nil
  | cons c t ih =>
    obtain ⟨hstarter, hupper⟩ := hu.ascii c (h c mem_cons_self)
    have hsplit := hu.split [] c t hstarter
    rw [u.upperPlain_nil, hupper, ih fun c hc => h c (mem_cons_of_mem _ hc)] at hsplit
    exact hsplit

theorem toNat_lt_of_isKeyChar (h : isKeyChar c = true) : c.toNat < 128 := by
  simp only [isKeyChar, Char.isDigit, Bool.or_eq_true, Bool.and_eq_true, decide_eq_true_eq] at h
  rcases h with h | h
  · exact lt_of_le_of_lt (UInt32.le_iff_toNat_le.mp h.2) (by decide)
  · exact lt_of_le_of_lt (UInt32.le_iff_toNat_le.mp h.2) (by decide)

theorem toUpper_of_isKeyChar (h : isKeyChar c = true) : c.toUpper = c := by
  have hall : ∀ n < 128, isKeyChar (Char.ofNat n) = true →
      (Char.ofNat n).toUpper = Char.ofNat n := by
    decide
  have hc := hall c.toNat (toNat_lt_of_isKeyChar h)
  rw [Char.ofNat_toNat] at hc
  exact hc h

/-- Digits, upper-case letters and the blank are plain upper case already. -/
theorem upperPlain_plain (hu : u.Splits starter)
    (h : ∀ c ∈ t, c = ' ' ∨ isKeyChar c = true) : u.upperPlain t = t := by
  have hplain : ∀ c ∈ t, c.toNat < 128 ∧ c.toUpper = c := by
    intro c hc
    rcases h c hc with rfl | hkey
    · decide
    · exact ⟨toNat_lt_of_isKeyChar hkey, toUpper_of_isKeyChar hkey⟩
  rw [upperPlain_ascii hu fun c hc => (hplain c hc).1]
  calc t.map Char.toUpper = t.map id := map_congr_left fun c hc => (hplain c hc).2
    _ = t := map_id t

theorem upperPlain_words (hu : u.Splits starter) (h : ∀ t ∈ tokens, IsToken t) :
    u.upperPlain (words tokens) = words tokens := by
  apply upperPlain_plain hu
  intro c hc
  rcases mem_words hc with hblank | ⟨t, ht, hmem⟩
  · exact Or.inl hblank
  · exact Or.inr ((h t ht).2 c hmem)

theorem canonicalAddressPart_idem (hu : u.Splits starter) (value : Text) :
    canonicalAddressPart u (canonicalAddressPart u value) = canonicalAddressPart u value := by
  have htoken : ∀ t ∈ canonicalTokens u value, IsToken t := fun t => isToken_of_mem
  have halias : (canonicalTokens u value).map addressTokenAliases = canonicalTokens u value := by
    refine (map_congr_left fun t ht => ?_).trans (map_id _)
    obtain ⟨piece, -, rfl⟩ := mem_map.mp ((collapseUnits_sublist _ _).subset ht)
    exact addressTokenAliases_idem piece
  unfold canonicalAddressPart
  rw [canonicalTokens_eq (words (canonicalTokens u value)), upperPlain_words hu htoken,
    pieces_words htoken, halias]
  exact congrArg words (collapseUnits_idem none _)

/-- Read in upper case, the text is separators other than the number sign. -/
def Separates (u : Unicode) (starter : Char → Prop) (sep : Text) : Prop :=
  sep ≠ [] ∧ ∀ c ∈ sep, starter c ∧ u.upperPlain [c] ≠ [] ∧
    ∀ d ∈ u.upperPlain [c], isKeyChar d = false ∧ d ≠ '#'

inductive Respelled (u : Unicode) (starter : Char → Prop) : Text → Text → Prop
  | upper (a b : Text) : u.upperPlain a = u.upperPlain b → Respelled u starter a b
  | asciiCase (a b : Text) : a.map Char.toUpper = b.map Char.toUpper → Respelled u starter a b
  | separators (a b sep sep' : Text) : Separates u starter sep → Separates u starter sep' →
    Respelled u starter (a ++ sep ++ b) (a ++ sep' ++ b)
  | front (b sep : Text) : Separates u starter sep → Respelled u starter (sep ++ b) b
  | back (a sep : Text) : Separates u starter sep → Respelled u starter (a ++ sep) a
  | variant (a b : Text) (entry : String × List String) (name name' : String) :
    entry ∈ addressTable → name ∈ entry.1 :: entry.2 → name' ∈ entry.1 :: entry.2 →
    Respelled u starter (a ++ ' ' :: (name.toList ++ ' ' :: b))
      (a ++ ' ' :: (name'.toList ++ ' ' :: b))
  | hash (a b : Text) :
    Respelled u starter (a ++ '#' :: b) (a ++ ' ' :: ("UNIT".toList ++ ' ' :: b))
  | twice (a b : Text) :
    Respelled u starter (a ++ ' ' :: ("UNIT UNIT".toList ++ ' ' :: b))
      (a ++ ' ' :: ("UNIT".toList ++ ' ' :: b))
  | symm (a b : Text) : Respelled u starter a b → Respelled u starter b a
  | trans (a b c : Text) : Respelled u starter a b → Respelled u starter b c →
    Respelled u starter a c

theorem upperPlain_ascii_cons (hu : u.Splits starter) (hc : c.toNat < 128) :
    u.upperPlain (a ++ c :: b) = u.upperPlain a ++ c.toUpper :: u.upperPlain b := by
  rw [hu.split a c b (hu.ascii c hc).1, (hu.ascii c hc).2, append_assoc, singleton_append]

theorem upperPlain_case (hu : u.Splits starter) (a b : Text) :
    u.upperPlain (a ++ b.map Char.toUpper) = u.upperPlain (a ++ b) := by
  have hascii : ∀ n < 128, (Char.ofNat n).toUpper.toNat < 128 ∧
      (Char.ofNat n).toUpper.toUpper = (Char.ofNat n).toUpper := by
    decide
  induction b generalizing a with
  | nil => rfl
  | cons c b ih =>
    by_cases hc : c.toNat < 128
    · have hupper := hascii c.toNat hc
      rw [Char.ofNat_toNat] at hupper
      have ih := ih []
      rw [nil_append, nil_append] at ih
      rw [map_cons, upperPlain_ascii_cons hu hupper.1, upperPlain_ascii_cons hu hc, ih, hupper.2]
    · have hsame : c.toUpper = c := by
        unfold Char.toUpper
        rw [dif_neg]
        intro hlower
        exact hc (lt_of_le_of_lt (UInt32.le_iff_toNat_le.mp hlower.2) (by decide))
      have ih := ih (a ++ [c])
      simpa [hsame] using ih

theorem pieces_separators (hu : u.Splits starter) (a : Text) {b sep : Text}
    (h : Separates u starter sep) :
    pieces (u.upperPlain (a ++ sep ++ b)) = pieces (u.upperPlain a) ++ pieces (u.upperPlain b) := by
  have hread : ∀ read t : Text, read ≠ [] → (∀ d ∈ read, isKeyChar d = false ∧ d ≠ '#') →
      ∀ before : Text, pieces (before ++ read ++ t) = pieces before ++ pieces t := by
    intro read t
    induction read with
    | nil => exact fun h => absurd rfl h
    | cons d read ih =>
      intro _ hsep before
      obtain ⟨hkey, hhash⟩ := hsep d mem_cons_self
      rw [append_assoc, cons_append, pieces_append hkey, pieces_cons hkey hhash]
      by_cases hnil : read = []
      · rw [hnil, nil_append]
      · have ih := ih hnil (fun d hd => hsep d (mem_cons_of_mem _ hd)) []
        rw [nil_append] at ih
        rw [ih]
        rfl
  obtain ⟨hne, hsep⟩ := h
  induction sep generalizing a with
  | nil => exact absurd rfl hne
  | cons c sep ih =>
    obtain ⟨hstarter, hnonempty, hplain⟩ := hsep c mem_cons_self
    rw [append_assoc, cons_append, hu.split a c _ hstarter, hread _ _ hnonempty hplain]
    by_cases hnil : sep = []
    · rw [hnil, nil_append]
    · have ih := ih [] hnil fun c hc => hsep c (mem_cons_of_mem _ hc)
      rw [nil_append, u.upperPlain_nil] at ih
      rw [ih]
      rfl

theorem pieces_between (hu : u.Splits starter) (a b : Text) (h : ∀ t ∈ tokens, IsToken t) :
    pieces (u.upperPlain (a ++ ' ' :: (words tokens ++ ' ' :: b))) =
      pieces (u.upperPlain a) ++ (tokens ++ pieces (u.upperPlain b)) := by
  have hblank : (' ' : Char).toUpper = ' ' := by decide
  rw [upperPlain_ascii_cons hu (by decide), upperPlain_ascii_cons hu (by decide),
    upperPlain_words hu h, hblank, pieces_append (by decide), pieces_cons (by decide) (by decide), pieces_append (by decide),
    pieces_words h, pieces_cons (by decide) (by decide)]

theorem canonicalTokens_respelled (hu : u.Splits starter) (h : Respelled u starter a b) :
    canonicalTokens u a = canonicalTokens u b := by
  have hunit : ∀ t ∈ ["UNIT".toList], IsToken t := by decide
  rw [canonicalTokens_eq, canonicalTokens_eq]
  induction h with
  | upper a b h => rw [h]
  | asciiCase a b h =>
    have ha := upperPlain_case hu [] a
    have hb := upperPlain_case hu [] b
    rw [nil_append, nil_append] at ha hb
    rw [← ha, h, hb]
  | separators a b sep sep' hsep hsep' =>
    rw [pieces_separators hu a hsep, pieces_separators hu a hsep']
  | front b sep hsep =>
    have hfront := @pieces_separators _ _ hu [] b _ hsep
    rw [nil_append, u.upperPlain_nil] at hfront
    rw [hfront]
    rfl
  | back a sep hsep =>
    have hback := @pieces_separators _ _ hu a [] _ hsep
    rw [append_nil, u.upperPlain_nil] at hback
    rw [hback]
    exact congrArg _ (congrArg _ (append_nil _))
  | variant a b entry name name' hentry hname hname' =>
    obtain ⟨htoken, hcanon⟩ := addressTokenAliases_table entry hentry name hname
    obtain ⟨htoken', hcanon'⟩ := addressTokenAliases_table entry hentry name' hname'
    have hread := pieces_between hu a b (forall_mem_singleton.mpr htoken)
    have hread' := pieces_between hu a b (forall_mem_singleton.mpr htoken')
    rw [words_singleton] at hread hread'
    rw [hread, hread']
    simp [hcanon, hcanon']
  | hash a b =>
    have hread := pieces_between hu a b hunit
    have hhash : ('#' : Char).toUpper = '#' := by decide
    rw [words_singleton] at hread
    rw [hread, upperPlain_ascii_cons hu (by decide), hhash, pieces_append (by decide), pieces_hash]
    rfl
  | twice a b =>
    have hread := pieces_between hu a b hunit
    have htokens : ∀ t ∈ ["UNIT".toList, "UNIT".toList], IsToken t := by decide
    have htwice := pieces_between hu a b htokens
    have hcanon : addressTokenAliases "UNIT".toList = "UNIT".toList := by decide
    have hword : words ["UNIT".toList, "UNIT".toList] = "UNIT UNIT".toList := by decide
    rw [words_singleton] at hread
    rw [hword] at htwice
    rw [hread, htwice]
    simp only [map_append, map_cons, cons_append, nil_append, hcanon]
    exact collapseUnits_twice none _ _
  | symm a b _ ih => exact ih.symm
  | trans a b c _ _ ih ih' => exact ih.trans ih'

theorem kineticLeadKeyOrNull_eq {address city state address' city' state' : Text}
    (ha : canonicalAddressPart u address = canonicalAddressPart u address')
    (hc : canonicalAddressPart u city = canonicalAddressPart u city')
    (hs : canonicalAddressPart u state = canonicalAddressPart u state') :
    kineticLeadKeyOrNull u address city state = kineticLeadKeyOrNull u address' city' state' := by
  unfold kineticLeadKeyOrNull streetKeyOf normalizeKineticAddressKey
  rw [addressIdentityOf_eq_iff.mpr ha, ha, hc, hs]

/-- What the key of a lead owes to the spelling of its address. -/
structure StableSpelling (u : Unicode) (starter : Char → Prop) : Prop where
  idempotent : ∀ value,
    canonicalAddressPart u (canonicalAddressPart u value) = canonicalAddressPart u value
  respelled : ∀ a b, Respelled u starter a b → canonicalAddressPart u a = canonicalAddressPart u b
  rejoined : ∀ address, canonicalAddressPart u address =
    glue (addressIdentityOf u address).house
      (glue (addressIdentityOf u address).street (addressIdentityOf u address).unit)
  sameKey : ∀ address address' city city' state state', Respelled u starter address address' →
    Respelled u starter city city' → Respelled u starter state state' →
    kineticLeadKeyOrNull u address city state = kineticLeadKeyOrNull u address' city' state'
  apart : ∀ address address' city city' state state' key,
    kineticLeadKeyOrNull u address city state = some key →
    kineticLeadKeyOrNull u address' city' state' = some key →
    addressIdentityOf u address = addressIdentityOf u address'
  keyless : ∀ address city state, kineticLeadKeyOrNull u address city state = none ↔
    (addressIdentityOf u address).street = []

/-- Case, separators, aliases, number signs and repeated designators leave the key as it is, and two
doors that differ in house, street or unit never share one. -/
theorem stableSpelling (hu : u.Splits starter) : StableSpelling u starter where
  idempotent := canonicalAddressPart_idem hu
  respelled a b h := congrArg words (canonicalTokens_respelled hu h)
  rejoined := canonicalAddressPart_eq
  sameKey address address' city city' state state' ha hc hs :=
    kineticLeadKeyOrNull_eq (congrArg words (canonicalTokens_respelled hu ha))
      (congrArg words (canonicalTokens_respelled hu hc))
      (congrArg words (canonicalTokens_respelled hu hs))
  apart address address' city city' state state' key h h' := by
    unfold kineticLeadKeyOrNull at h h'
    rw [Option.ite_none_left_eq_some] at h h'
    have hkey := Option.some.inj (h.2.trans h'.2.symm)
    exact addressIdentityOf_eq_iff.mpr (normalizeKineticAddressKey_inj hkey).1
  keyless address city state := by
    unfold kineticLeadKeyOrNull streetKeyOf
    simp

theorem stableSpelling_ascii : StableSpelling .ascii fun _ => True :=
  stableSpelling Unicode.splits_ascii

/-- A hyphen is not dropped: the letter behind it becomes a token of its own. -/
theorem not_punctuationFree_hyphen :
    ¬ ∀ a b : Text, kineticLeadKeyOrNull .ascii (a ++ '-' :: b) [] [] =
      kineticLeadKeyOrNull .ascii (a ++ b) [] [] := by
  intro h
  exact absurd (h "123".toList "A Main St".toList) (by decide +kernel)

end HomefrontFiber.FreshFiber
