import Mathlib.Data.List.TakeWhile
import HomefrontFiber.Foundation.ScriptText

/-!
# Tables as comma-separated text

An export writes one line for each record, quotes the cells that hold a separator, and puts an
apostrophe before a text that spreadsheet software would run as a formula. The one tokenizer of the
server reads such a text back: a quoted field may hold commas and line breaks, a doubled quote is a
quote, and a row ends at any of the three kinds of line break.
-/

namespace HomefrontFiber.Spreadsheet

open ScriptText List

def quote : Char := '\x22'

def apostrophe : Char := '\x27'

/-- `[=+\-@]`. -/
def isTrigger (c : Char) : Bool := c ∈ ['=', '+', '-', '@']

/-- `[",\n\r]`. -/
def isSeparator (c : Char) : Bool := c ∈ [quote, ',', '\n', '\r']

/-- `/^[\s]*[=+\-@]/`. -/
def startsFormula (text : Text) : Bool := (text.dropWhile isSpace).head?.any isTrigger

/-- `/^[\t\r]/`. -/
def startsTab (text : Text) : Bool := text.head?.any fun c => c = '\t' || c = '\r'

/-- `replace(/"/g, '""')`. -/
def doubled (text : Text) : Text := text.flatMap fun c => if c = quote then [quote, quote] else [c]

@[simp] theorem doubled_nil : doubled [] = [] := rfl

theorem doubled_cons (c : Char) (text : Text) :
    doubled (c :: text) = (if c = quote then [quote, quote] else [c]) ++ doubled text := rfl

def guarded (text : Text) : Text :=
  if startsFormula text || startsTab text then apostrophe :: text else text

def csvCell (value : Option Text) : Text :=
  let text := guarded (value.getD [])
  if text.any isSeparator then quote :: doubled text ++ [quote] else text

/-- A record, with its keys in their order and what it holds under each. -/
structure Record where
  keys : List Text
  get : Text → Option Text

def join (separator : Char) (pieces : List Text) : Text := [separator].intercalate pieces

def recordLine (headers : List Text) (row : Record) : Text :=
  join ',' (headers.map fun h => csvCell (row.get h))

def toCsv : List Record → Text
  | [] => []
  | first :: others =>
    let headers := first.keys
    join '\n' (join ',' (headers.map fun h => csvCell (some h)) ::
      (first :: others).map (recordLine headers)) ++ ['\n']

/-- What the tokenizer has read: the rows, the fields of the row at hand, the field at hand, whether
it stands inside quotes, and whether the next character belongs to the one before it. -/
structure Tokens where
  rows : List (List Text) := []
  row : List Text := []
  field : Text := []
  quoted : Bool := false
  skip : Bool := false

namespace Tokens

def push (s : Tokens) (c : Char) : Tokens := { s with field := s.field ++ [c] }

def endField (s : Tokens) : Tokens := { s with row := s.row ++ [s.field], field := [] }

def endRow (s : Tokens) : Tokens :=
  { s.endField with rows := s.rows ++ [s.endField.row], row := [] }

/-- One round of the loop of `parseCsvRows` at a character and the one behind it. -/
def read (s : Tokens) (c : Char) (next : Option Char) : Tokens :=
  if s.skip then { s with skip := false }
  else if s.quoted then
    if c = quote then
      if next = some quote then { s.push quote with skip := true } else { s with quoted := false }
    else s.push c
  else if c = quote then { s with quoted := true }
  else if c = ',' then s.endField
  else if c = '\n' ∨ c = '\r' then
    -- A carriage return and the line feed behind it are one break.
    { s.endRow with skip := c = '\r' ∧ next = some '\n' }
  else s.push c

def scan (s : Tokens) : Text → Tokens
  | [] => s
  | c :: rest => scan (s.read c rest.head?) rest

end Tokens

def parseCsvRows (text : Text) : List (List Text) := (Tokens.scan {} text).endRow.rows

namespace Tokens

variable {s : Tokens}

structure Open (s : Tokens) : Prop where
  quoted : s.quoted = false
  skip : s.skip = false

theorem Open.read_plain (h : s.Open) {c : Char} (hc : isSeparator c = false) (next : Option Char) :
    s.read c next = s.push c := by
  simp only [isSeparator, mem_cons, not_mem_nil, or_false, decide_eq_false_iff_not,
    not_or] at hc
  obtain ⟨hquote, hcomma, hlf, hcr⟩ := hc
  simp [read, h.quoted, h.skip, hquote, hcomma, hlf, hcr]

theorem Open.scan_plain (h : s.Open) {text : Text} (hplain : ∀ c ∈ text, isSeparator c = false)
    (rest : Text) : s.scan (text ++ rest) = scan { s with field := s.field ++ text } rest := by
  induction text generalizing s with
  | nil => rw [nil_append, append_nil]
  | cons c text ih =>
    have hpush : (s.push c).Open := ⟨h.quoted, h.skip⟩
    rw [cons_append, scan, h.read_plain (hplain c mem_cons_self),
      ih hpush fun d hd => hplain d (mem_cons_of_mem c hd)]
    simp only [push, append_assoc, singleton_append]

/-- Inside quotes a doubled text goes into the field, up to a quote that stands alone. -/
theorem scan_doubled (hquoted : s.quoted = true) (hskip : s.skip = false) (text : Text)
    {rest : Text} (hrest : rest.head? ≠ some quote) :
    s.scan (doubled text ++ quote :: rest) =
      scan { s with field := s.field ++ text, quoted := false } rest := by
  induction text generalizing s with
  | nil =>
    have hclose : s.read quote rest.head? = { s with quoted := false } := by
      simp [read, hquoted, hskip, hrest]
    rw [doubled_nil, nil_append, append_nil, scan, hclose]
  | cons c text ih =>
    have hpush := ih (s := s.push c) hquoted hskip
    rw [doubled_cons]
    by_cases hc : c = quote
    · -- The second of the two quotes is passed over.
      subst hc
      have hfirst : s.read quote (some quote) = { s.push quote with skip := true } := by
        simp [read, hquoted, hskip]
      have hsecond (next : Option Char) :
          read { s.push quote with skip := true } quote next = s.push quote := by
        simp [read, push, hskip]
      rw [if_pos rfl, append_assoc, cons_append, singleton_append, scan,
        head?_cons, hfirst, scan, hsecond, hpush]
      simp only [push, append_assoc, singleton_append]
    · have hread (next : Option Char) : s.read c next = s.push c := by
        simp [read, hquoted, hskip, hc]
      rw [if_neg hc, append_assoc, singleton_append, scan, hread, hpush]
      simp only [push, append_assoc, singleton_append]

theorem Open.scan_csvCell (h : s.Open) (hfield : s.field = []) (value : Option Text) {rest : Text}
    (hrest : rest.head? ≠ some quote) :
    s.scan (csvCell value ++ rest) = scan { s with field := guarded (value.getD []) } rest := by
  unfold csvCell
  dsimp only
  split
  · have hopen : s.read quote
        (doubled (guarded (value.getD [])) ++ quote :: rest).head? = { s with quoted := true } := by
      simp [read, h.quoted, h.skip]
    rw [cons_append, cons_append, append_assoc, singleton_append, scan, hopen,
      scan_doubled (s := { s with quoted := true }) rfl h.skip _ hrest, hfield]
    simp only [nil_append, ← h.quoted]
  · rename_i hany
    have hplain : ∀ c ∈ guarded (value.getD []), isSeparator c = false := by
      simpa using hany
    rw [h.scan_plain hplain, hfield, nil_append]

theorem Open.scan_line (h : s.Open) (hfield : s.field = []) (value : Option Text)
    (values : List (Option Text)) (rest : Text) :
    s.scan (join ',' ((value :: values).map csvCell) ++ '\n' :: rest) =
      scan { s with
        rows := s.rows ++ [s.row ++ (value :: values).map fun v => guarded (v.getD [])]
        row := [] } rest := by
  induction values generalizing s value with
  | nil =>
    have hbreak (next : Option Char) :
        read { s with field := guarded (value.getD []) } '\n' next =
          { s with rows := s.rows ++ [s.row ++ [guarded (value.getD [])]], row := [] } := by
      simp [read, h.quoted, h.skip, endRow, endField, hfield, quote]
    rw [join, map_singleton, intercalate_singleton,
      h.scan_csvCell hfield value (by simp [quote]), scan, hbreak]
    rfl
  | cons next values ih =>
    have hcomma (after : Option Char) :
        read { s with field := guarded (value.getD []) } ',' after =
          { s with row := s.row ++ [guarded (value.getD [])] } := by
      simp [read, h.quoted, h.skip, endField, hfield, quote]
    have hnext : Open { s with row := s.row ++ [guarded (value.getD [])] } := ⟨h.quoted, h.skip⟩
    have hjoin : join ',' ((value :: next :: values).map csvCell) =
        csvCell value ++ ',' :: join ',' ((next :: values).map csvCell) := by
      simp [join, List.intercalate]
    rw [hjoin, append_assoc, cons_append, h.scan_csvCell hfield value (by simp [quote]),
      scan, hcomma, ih hnext hfield]
    simp only [map_cons, append_assoc, singleton_append]

theorem Open.scan_lines (h : s.Open) (hrow : s.row = []) (hfield : s.field = [])
    {table : List (List (Option Text))} (hne : table ≠ [])
    (hcells : ∀ values ∈ table, values ≠ []) :
    s.scan (join '\n' (table.map fun values => join ',' (values.map csvCell)) ++ ['\n']) =
      { s with rows := s.rows ++ table.map fun values => values.map fun v => guarded (v.getD []) } := by
  induction table generalizing s with
  | nil => exact absurd rfl hne
  | cons values table ih =>
    obtain ⟨value, values, rfl⟩ := exists_cons_of_ne_nil (hcells values mem_cons_self)
    cases table with
    | nil =>
      rw [map_singleton, join, intercalate_singleton, h.scan_line hfield, scan, hrow]
      rfl
    | cons next table =>
      have hrest : Open { s with
          rows := s.rows ++ [s.row ++ (value :: values).map fun v => guarded (v.getD [])]
          row := [] } := ⟨h.quoted, h.skip⟩
      have hjoin : join '\n' (((value :: values) :: next :: table).map
            fun values => join ',' (values.map csvCell)) =
          join ',' ((value :: values).map csvCell) ++ '\n' ::
            join '\n' ((next :: table).map fun values => join ',' (values.map csvCell)) := by
        simp [join, List.intercalate]
      rw [hjoin, append_assoc, cons_append, h.scan_line hfield,
        ih hrest rfl hfield (cons_ne_nil _ _) fun v hv => hcells v (mem_cons_of_mem _ hv),
        hrow]
      simp only [nil_append, map_cons, append_assoc, singleton_append]

end Tokens

/-- Blanks, perhaps none, and then one of the characters that begin a formula. -/
def BeginsFormula (text : Text) : Prop :=
  ∃ blanks c rest, text = blanks ++ c :: rest ∧ (∀ b ∈ blanks, isSpace b = true) ∧
    c ∈ ['=', '+', '-', '@']

def BeginsTab (text : Text) : Prop := text.head? = some '\t' ∨ text.head? = some '\r'

theorem isSpace_of_trigger {c : Char} (h : c ∈ ['=', '+', '-', '@']) : isSpace c = false := by
  simp only [mem_cons, not_mem_nil, or_false] at h
  rcases h with rfl | rfl | rfl | rfl <;> decide

theorem startsFormula_iff {text : Text} : startsFormula text = true ↔ BeginsFormula text := by
  unfold startsFormula BeginsFormula
  constructor
  · intro h
    cases hdrop : text.dropWhile isSpace with
    | nil =>
      rw [hdrop] at h
      cases h
    | cons c rest =>
      rw [hdrop] at h
      refine ⟨text.takeWhile isSpace, c, rest, ?_, ?_, of_decide_eq_true h⟩
      · rw [← hdrop, takeWhile_append_dropWhile]
      · exact fun b hb => mem_takeWhile_imp hb
  · rintro ⟨blanks, c, rest, rfl, hblanks, hc⟩
    have hdrop : (blanks ++ c :: rest).dropWhile isSpace = c :: rest := by
      rw [dropWhile_append_of_pos hblanks, dropWhile_cons_of_neg]
      rw [isSpace_of_trigger hc]
      exact Bool.false_ne_true
    rw [hdrop]
    exact decide_eq_true hc

theorem startsTab_iff {text : Text} : startsTab text = true ↔ BeginsTab text := by
  unfold startsTab BeginsTab
  cases text with
  | nil => simp
  | cons c rest => simp

instance (text : Text) : Decidable (BeginsFormula text) := decidable_of_iff _ startsFormula_iff

instance (text : Text) : Decidable (BeginsTab text) := decidable_of_iff _ startsTab_iff

def shown (text : Text) : Text :=
  if BeginsFormula text ∨ BeginsTab text then apostrophe :: text else text

theorem guarded_eq (text : Text) : guarded text = shown text := by
  simp only [guarded, shown, Bool.or_eq_true, startsFormula_iff, startsTab_iff]

theorem not_beginsFormula_shown (text : Text) : ¬ BeginsFormula (shown text) := by
  unfold shown
  rw [← startsFormula_iff]
  split
  · have hfirst : startsFormula (apostrophe :: text) = false := by
      simp [startsFormula, show isSpace apostrophe = false by decide,
        show isTrigger apostrophe = false by decide]
    rw [hfirst]
    exact Bool.false_ne_true
  · rename_i h
    exact fun hformula => h (Or.inl (startsFormula_iff.mp hformula))

/-- What a record holds under a header; what it does not hold is empty. -/
def Record.text (row : Record) (header : Text) : Text := (row.get header).getD []

/-- The table of an export: its header row, one row for each record and a last blank row. -/
def exported (first : Record) (others : List Record) : List (List Text) :=
  first.keys.map shown ::
    (first :: others).map (fun row => first.keys.map fun h => shown (row.text h)) ++ [[[]]]

theorem parseCsvRows_toCsv (first : Record) (others : List Record) (hkeys : first.keys ≠ []) :
    parseCsvRows (toCsv (first :: others)) = exported first others := by
  have hopen : Tokens.Open {} := ⟨rfl, rfl⟩
  have hcells : ∀ values ∈ first.keys.map some ::
      (first :: others).map (fun row => first.keys.map row.get), values ≠ [] := by
    intro values hmem
    rcases mem_cons.mp hmem with rfl | hmem
    · simpa using hkeys
    · obtain ⟨row, -, rfl⟩ := mem_map.mp hmem
      simpa using hkeys
  have hscan := hopen.scan_lines rfl rfl (cons_ne_nil _ _) hcells
  have htext : toCsv (first :: others) = join '\n' ((first.keys.map some ::
      (first :: others).map fun row => first.keys.map row.get).map
        fun values => join ',' (values.map csvCell)) ++ ['\n'] := by
    simp [toCsv, Function.comp_def, funext fun row => recordLine.eq_1 first.keys row]
  unfold parseCsvRows exported
  rw [htext, hscan]
  simp [Tokens.endRow, Tokens.endField, guarded_eq, Record.text, Function.comp_def]

/-- An export reads back cell by cell, and no cell of it runs as a formula. -/
theorem csv_roundTrips (first : Record) (others : List Record) (hkeys : first.keys ≠ []) :
    parseCsvRows (toCsv (first :: others)) = exported first others ∧
      ∀ row ∈ parseCsvRows (toCsv (first :: others)), ∀ cell ∈ row, ¬ BeginsFormula cell := by
  have hparse := parseCsvRows_toCsv first others hkeys
  refine ⟨hparse, ?_⟩
  intro row hrow cell hcell
  rw [hparse, exported, cons_append, mem_cons, mem_append, mem_map,
    mem_singleton] at hrow
  rcases hrow with rfl | ⟨source, -, rfl⟩ | rfl
  · obtain ⟨header, -, rfl⟩ := mem_map.mp hcell
    exact not_beginsFormula_shown header
  · obtain ⟨header, -, rfl⟩ := mem_map.mp hcell
    exact not_beginsFormula_shown (source.text header)
  · rw [mem_singleton.mp hcell, ← startsFormula_iff]
    exact Bool.false_ne_true

/-- A quoted header, a cell of separators only and a formula behind a blank. -/
def awkwardRecord : Record where
  keys := ["na,me".toList, "note".toList]
  get header := if header = "note".toList then some " =1".toList else some [quote, '\r', '\n', ',']

theorem csv_roundTrips_awkward :
    parseCsvRows (toCsv [awkwardRecord]) = exported awkwardRecord [] ∧
      ∀ row ∈ parseCsvRows (toCsv [awkwardRecord]), ∀ cell ∈ row, ¬ BeginsFormula cell :=
  csv_roundTrips awkwardRecord [] (by decide)

end HomefrontFiber.Spreadsheet
