import HomefrontFiber.VendorOrders.Identity

/-!
# Importing an unchanged order again

A later file that contains the rows of an earlier one should cost nothing for them. The hash that
recognizes an unchanged row is taken over the head of the file checksum and over the place of the
row as well, so a row costs nothing exactly when both are as they were.
-/

namespace HomefrontFiber.VendorOrders

open List

variable (sha256Hex : String → String) (scan : Scan) (readers : CellReaders)
  (mapping : OrderColumnMapping)

/-- A row of a report: its cells, its file and its place in it. -/
structure ReportRow where
  cells : String → Option String
  file : Option FileChecksum
  rowNumber : Nat

def ReportRow.normalized (row : ReportRow) : NormalizedVendorOrder :=
  normalizeOrderRow sha256Hex readers mapping row.cells row.file row.rowNumber

def ReportRow.source (row : ReportRow) : Option String × String :=
  (sourceReportId row.file, sourceRowId mapping row.cells row.rowNumber)

structure RowImport where
  row : ReportRow
  tenantId : Nat
  importId : Nat
  verdict : MatchVerdict
  nowMs : Int

def RowImport.input (r : RowImport) : ImportInput where
  tenantId := r.tenantId
  importId := r.importId
  sourceRowNumber := r.row.rowNumber
  normalized := r.row.normalized sha256Hex readers mapping
  verdict := r.verdict
  nowMs := r.nowMs

def importReportRow (store : OrderStore) (r : RowImport) : OrderStore :=
  importOneRow sha256Hex scan store { input := r.input sha256Hex readers mapping }

def duplicateRows (store : OrderStore) (importId : Nat) : Nat :=
  ((store.imports.find? fun i => i.id = importId).map (·.duplicateRows)).getD 0

structure FreeImport (before after : OrderStore) (importId : Nat) (order : VendorOrder) :
    Prop where
  order_kept : ∀ o ∈ after.orders, o.id = order.id → ∃ lastSyncedAt currentSourceImportId,
    o = { order with
      lastSyncedAt := lastSyncedAt
      currentSourceImportId := currentSourceImportId }
  no_event : after.events = before.events
  counted : duplicateRows after importId = duplicateRows before importId + 1

def HeldAs (store : OrderStore) (r : RowImport) (earlier : ReportRow) (order : VendorOrder) :
    Prop :=
  findOrderByIdentity scan store r.tenantId
      (orderIdentityKeys (r.row.normalized sha256Hex readers mapping)) = some order ∧
    order.currentRowHash = (earlier.normalized sha256Hex readers mapping).rawRowHash

/-- What an earlier report says of a row that is imported later: of its own rows with these
cells, whenever their order is as they left it. -/
def OfUnchanged (report : List ReportRow)
    (p : OrderStore → RowImport → ReportRow → VendorOrder → Prop) (store : OrderStore)
    (r : RowImport) : Prop :=
  ∀ earlier ∈ report, earlier.cells = r.row.cells → ∀ order,
    HeldAs sha256Hex scan readers mapping store r earlier order → p store r earlier order

def ImportsFree (store : OrderStore) (r : RowImport) (_ : ReportRow) (order : VendorOrder) : Prop :=
  FreeImport store (importReportRow sha256Hex scan readers mapping store r) r.importId order

def SameSource (_ : OrderStore) (r : RowImport) (earlier : ReportRow) (_ : VendorOrder) : Prop :=
  earlier.source mapping = r.row.source mapping

/-- No two of the strings that the hashes are taken over collide. -/
def HashesApart (report : List ReportRow) (later : List RowImport) : Prop :=
  ∀ earlier ∈ report, ∀ r ∈ later,
    let a := earlier.normalized sha256Hex readers mapping
    let b := r.row.normalized sha256Hex readers mapping
    a.rawRowHash = b.rawRowHash → canonicalOrderRowString a = canonicalOrderRowString b

section Counters

variable {store : OrderStore} {importId : Nat}

theorem find_map_import {f : VendorOrderImport → VendorOrderImport} (hf : ∀ i, (f i).id = i.id)
    (l : List VendorOrderImport) :
    (l.map fun i => if i.id = importId then f i else i).find? (fun i => i.id = importId) =
      (l.find? fun i => i.id = importId).map f := by
  induction l with
  | nil => rfl
  | cons i l ih =>
    by_cases hi : i.id = importId
    · simp [hi, hf]
    · simp [hi, ih]

theorem duplicateRows_bump {f : VendorOrderImport → VendorOrderImport} {n : Nat}
    (hid : ∀ i, (f i).id = i.id) (hf : ∀ i, (f i).duplicateRows = i.duplicateRows + n)
    (himport : ∃ i ∈ store.imports, i.id = importId) :
    duplicateRows (bumpImportCounters store importId f) importId =
      duplicateRows store importId + n := by
  obtain ⟨i, hi, hiid⟩ := himport
  unfold duplicateRows bumpImportCounters
  rw [find_map_import hid]
  cases hfind : store.imports.find? fun i => i.id = importId with
  | none =>
    have hnot := find?_eq_none.mp hfind i hi
    exact absurd (by simpa using hiid) hnot
  | some found =>
    simp [hf]

theorem duplicateRows_congr {store' : OrderStore} (h : store'.imports = store.imports) :
    duplicateRows store' importId = duplicateRows store importId := by
  unfold duplicateRows
  rw [h]

theorem import_mem_bump {f : VendorOrderImport → VendorOrderImport} (hid : ∀ i, (f i).id = i.id)
    (other : Nat) (himport : ∃ i ∈ store.imports, i.id = importId) :
    ∃ i ∈ (bumpImportCounters store other f).imports, i.id = importId := by
  obtain ⟨i, hi, hiid⟩ := himport
  refine ⟨_, mem_map_of_mem hi, ?_⟩
  split
  · rw [hid, hiid]
  · exact hiid

@[simp] theorem insertImportRow_imports (store : OrderStore) (input : ImportInput) :
    (insertImportRow store input).1.imports = store.imports := by
  unfold insertImportRow
  split <;> rfl

@[simp] theorem appendOrderEvent_imports (store : OrderStore) (event : VendorOrderEvent) :
    (appendOrderEvent store event).imports = store.imports := by
  unfold appendOrderEvent
  split <;> rfl

theorem upsertOrder_imports {scan : Scan} {input : ImportInput} {after : OrderStore} {result : UpsertOrderResult}
    (h : upsertOrder scan store input = some (after, result)) : after.imports = store.imports := by
  cases upsertOrder_folded h <;> rfl

end Counters

section Canonical

variable {readers mapping}

theorem part_inj {c : Char} {a b x y : Text} (ha : c ∉ a) (hb : c ∉ b)
    (h : a ++ c :: x = b ++ c :: y) : a = b ∧ x = y := by
  induction a generalizing b with
  | nil =>
    cases b with
    | nil => exact ⟨rfl, (List.cons.inj h).2⟩
    | cons d b => exact absurd ((List.cons.inj h).1 ▸ mem_cons_self) hb
  | cons d a ih =>
    cases b with
    | nil => exact absurd ((List.cons.inj h).1 ▸ mem_cons_self) ha
    | cons e b =>
      obtain ⟨hhead, htail⟩ := List.cons.inj h
      obtain ⟨hab, hxy⟩ := ih (fun hc => ha (mem_cons_of_mem d hc))
        (fun hc => hb (mem_cons_of_mem e hc)) htail
      exact ⟨by rw [hhead, hab], hxy⟩

theorem separator_notMem_reportId (file : Option FileChecksum) :
    unitSeparator ∉ fieldPart "sourceReportId" (sourceReportId file) := by
  intro hmem
  rcases mem_append.mp hmem with h | h
  · exact absurd h (by decide)
  · rcases mem_cons.mp h with h | h
    · exact absurd h (by decide)
    · cases file with
      | none => exact absurd h (by decide)
      | some f =>
        have hdigit : unitSeparator ∈ f.digits.toList := by
          apply mem_of_mem_take (i := 16)
          simpa [sourceReportId] using h
        exact absurd (f.hex _ hdigit) (by decide)

theorem fieldPart_inj {name : String} {a b : Option String}
    (h : fieldPart name a = fieldPart name b) : a.getD "" = b.getD "" := by
  have htail := cons_injective (append_cancel_left h)
  exact String.toList_inj.mp htail

theorem reportId_inj {file file' : Option FileChecksum}
    (h : (sourceReportId file).getD "" = (sourceReportId file').getD "") :
    sourceReportId file = sourceReportId file' := by
  have hhead : ∀ f : FileChecksum, String.ofList (f.digits.toList.take 16) ≠ "" := by
    intro f hempty
    have hlist := congrArg String.toList hempty
    rw [String.toList_ofList] at hlist
    rcases take_eq_nil_iff.mp hlist with h | h
    · cases h
    · exact f.nonempty h
  cases file with
  | none =>
    cases file' with
    | none => rfl
    | some f' => exact absurd h.symm (hhead f')
  | some f =>
    cases file' with
    | none => exact absurd h (hhead f)
    | some f' => exact congrArg some h

theorem rawRowHash_eq (row : ReportRow) :
    (row.normalized sha256Hex readers mapping).rawRowHash =
      sha256Hex (canonicalOrderRowString (row.normalized id readers mapping)) := by
  unfold ReportRow.normalized normalizeOrderRow withRowHash canonicalOrderRowString hashParts
  rfl

theorem toList_canonicalOrderRowString (row : NormalizedVendorOrder) :
    (canonicalOrderRowString row).toList =
      fieldPart "sourceReportId" row.sourceReportId ++ unitSeparator ::
        (fieldPart "sourceRowId" row.sourceRowId ++ unitSeparator ::
          List.intercalate [unitSeparator] (contentParts row)) := by
  unfold canonicalOrderRowString hashParts
  rw [String.toList_ofList, intercalate_cons_cons]
  unfold contentParts
  rw [intercalate_cons_cons]
  simp only [append_assoc, singleton_append]

/-- Two rows with the same cells have the same string exactly when they have the same source. -/
theorem canonicalOrderRowString_eq_iff {a b : ReportRow} (hcells : a.cells = b.cells) :
    canonicalOrderRowString (a.normalized sha256Hex readers mapping) =
        canonicalOrderRowString (b.normalized sha256Hex readers mapping) ↔
      a.source mapping = b.source mapping := by
  obtain ⟨cells, file, n⟩ := a
  obtain ⟨cells', file', n'⟩ := b
  cases hcells
  have hcontent : contentParts (ReportRow.normalized sha256Hex readers mapping ⟨cells, file, n⟩) =
      contentParts (ReportRow.normalized sha256Hex readers mapping ⟨cells, file', n'⟩) := rfl
  constructor
  · intro h
    have hlist := congrArg String.toList h
    rw [toList_canonicalOrderRowString, toList_canonicalOrderRowString, hcontent] at hlist
    obtain ⟨hfile, hrest⟩ := part_inj (separator_notMem_reportId file)
      (separator_notMem_reportId file') hlist
    have hrow := append_cancel_right hrest
    exact Prod.ext (reportId_inj (fieldPart_inj hfile)) (fieldPart_inj hrow)
  · intro h
    have hfile : sourceReportId file = sourceReportId file' := congrArg Prod.fst h
    have hrow : sourceRowId mapping cells n = sourceRowId mapping cells n' := congrArg Prod.snd h
    unfold ReportRow.normalized normalizeOrderRow applyOrderMapping
    rw [hfile, hrow]

end Canonical

section OneRow

variable {sha256Hex scan} {store : OrderStore} {input : ImportInput} {order : VendorOrder}

theorem afterFold_events {rowId : Nat} {result : UpsertOrderResult}
    (h : statusMoved input result = false) :
    (afterFold sha256Hex store input rowId result).events = store.events := by
  unfold afterFold
  rw [if_neg (by simp [h])]
  rfl

theorem afterFold_duplicateRows {rowId : Nat} {result : UpsertOrderResult}
    (himport : ∃ i ∈ store.imports, i.id = input.importId) :
    duplicateRows (afterFold sha256Hex store input rowId result) input.importId =
      duplicateRows store input.importId + if result.duplicate then 1 else 0 := by
  have hcounted : duplicateRows (bumpImportCounters
      (setRowMatch store rowId input.verdict.status result.vendorOrderId) input.importId
      (countOutcome input result)) input.importId =
        duplicateRows store input.importId + if result.duplicate then 1 else 0 :=
    @duplicateRows_bump (setRowMatch store rowId input.verdict.status result.vendorOrderId) _ _ _
      (fun _ => rfl) (fun _ => rfl) himport
  unfold afterFold
  split
  · rw [duplicateRows_congr (appendOrderEvent_imports _ _), hcounted]
  · exact hcounted

theorem recordRow_import (himport : ∃ i ∈ store.imports, i.id = input.importId) :
    ∃ i ∈ (recordRow store input).imports, i.id = input.importId := by
  have hinserted : ∃ i ∈ (insertImportRow store input).1.imports, i.id = input.importId := by
    rwa [insertImportRow_imports]
  exact import_mem_bump (f := fun i => { i with validRows := i.validRows + 1 }) (fun _ => rfl)
    input.importId hinserted

theorem recordRow_duplicateRows (himport : ∃ i ∈ store.imports, i.id = input.importId) :
    duplicateRows (recordRow store input) input.importId = duplicateRows store input.importId := by
  have hinserted : ∃ i ∈ (insertImportRow store input).1.imports, i.id = input.importId := by
    rwa [insertImportRow_imports]
  have hbump := duplicateRows_bump (f := fun i => { i with validRows := i.validRows + 1 }) (n := 0)
    (fun _ => rfl) (fun _ => rfl) hinserted
  rw [duplicateRows_congr (insertImportRow_imports store input)] at hbump
  exact hbump

theorem freeImport_of_same
    (hfound : findOrderByIdentity scan store input.tenantId
      (orderIdentityKeys input.normalized) = some order)
    (hsame : order.currentRowHash = input.normalized.rawRowHash)
    (himport : ∃ i ∈ store.imports, i.id = input.importId) :
    FreeImport store (importOneRow sha256Hex scan store { input := input }) input.importId
      order := by
  have hupsert : upsertOrder scan (recordRow store input) input =
      some ((recordRow store input).setOrder (input.syncedOrder order),
        { vendorOrderId := order.id, created := false, changed := false
          previousStatus := some order.normalizedStatus, duplicate := true }) := by
    unfold upsertOrder
    dsimp only
    rw [findOrderByIdentity_recordRow, hfound]
    dsimp only
    rw [if_pos hsame]
  have hafter := @importOneRow_of_foldOf_some sha256Hex _ _ { input := input } _ _ hupsert
  rw [if_neg (by simp)] at hafter
  rw [hafter]
  refine ⟨?_, ?_, ?_⟩
  · intro o ho hid
    rw [afterFold_orders] at ho
    rcases mem_setOrder ho with rfl | ⟨-, hne⟩
    · exact ⟨input.nowMs, input.importId, rfl⟩
    · exact absurd hid hne
  · rw [afterFold_events (by simp [statusMoved])]
    exact recordRow_events store input
  · have hcount := @afterFold_duplicateRows sha256Hex
      ((recordRow store input).setOrder (input.syncedOrder order)) input
      (insertImportRow store input).2
      { vendorOrderId := order.id, created := false, changed := false
        previousStatus := some order.normalizedStatus, duplicate := true }
      (recordRow_import himport)
    rw [hcount, ← recordRow_duplicateRows himport]
    rfl

/-- A row with another hash is not counted as a duplicate, whether its fold is refused or not. -/
theorem not_freeImport_of_other
    (hfound : findOrderByIdentity scan store input.tenantId
      (orderIdentityKeys input.normalized) = some order)
    (hother : order.currentRowHash ≠ input.normalized.rawRowHash)
    (himport : ∃ i ∈ store.imports, i.id = input.importId) :
    ¬FreeImport store (importOneRow sha256Hex scan store { input := input }) input.importId
      order := by
  intro hfree
  have hcounted := hfree.counted
  unfold importOneRow at hcounted
  rw [if_neg (by simp)] at hcounted
  cases hupsert : upsertOrder scan (recordRow store input) input with
  | none =>
    simp only [hupsert] at hcounted
    have hbump := duplicateRows_bump
      (f := fun i => { i with errorRows := i.errorRows + 1 }) (n := 0) (fun _ => rfl) (fun _ => rfl) (recordRow_import himport)
    rw [hbump, recordRow_duplicateRows himport] at hcounted
    omega
  | some pair =>
    obtain ⟨folded, result⟩ := pair
    have hduplicate : result.duplicate = false := by
      cases upsertOrder_folded hupsert with
      | created hmissing => rfl
      | synced existing hfound' hsame =>
        rw [findOrderByIdentity_recordRow, hfound] at hfound'
        cases hfound'
        exact absurd hsame hother
      | updated existing _ _ _ => rfl
    have himports := upsertOrder_imports hupsert
    simp only [hupsert] at hcounted
    rw [if_neg (by simp), afterFold_duplicateRows (himports ▸ recordRow_import himport),
      duplicateRows_congr himports, recordRow_duplicateRows himport, hduplicate] at hcounted
    simp at hcounted

end OneRow

section Files

variable {sha256Hex scan readers mapping}

/-- For a row whose order is as an earlier row with its cells left it, the import is free exactly
when the two rows have the same source. -/
theorem importsFree_iff {store : OrderStore} {r : RowImport} {earlier : ReportRow}
    {order : VendorOrder} (hcells : earlier.cells = r.row.cells)
    (hheld : HeldAs sha256Hex scan readers mapping store r earlier order)
    (happart : (earlier.normalized sha256Hex readers mapping).rawRowHash =
        (r.row.normalized sha256Hex readers mapping).rawRowHash →
      canonicalOrderRowString (earlier.normalized sha256Hex readers mapping) =
        canonicalOrderRowString (r.row.normalized sha256Hex readers mapping))
    (himport : ∃ i ∈ store.imports, i.id = r.importId) :
    ImportsFree sha256Hex scan readers mapping store r earlier order ↔
      SameSource mapping store r earlier order := by
  obtain ⟨hfound, hhash⟩ := hheld
  have hcanonical := @canonicalOrderRowString_eq_iff sha256Hex readers mapping _ _ hcells
  constructor
  · intro hfree
    by_contra hother
    have hdiffers : order.currentRowHash ≠
        (r.row.normalized sha256Hex readers mapping).rawRowHash := by
      intro hsame
      exact hother (hcanonical.mp (happart (hhash.symm.trans hsame)))
    exact @not_freeImport_of_other _ _ _ (r.input sha256Hex readers mapping) _ hfound hdiffers
      himport hfree
  · intro hsource
    have hsame : order.currentRowHash =
        (r.row.normalized sha256Hex readers mapping).rawRowHash := by
      rw [hhash]
      exact congrArg sha256Hex (hcanonical.mpr hsource)
    exact @freeImport_of_same _ _ _ (r.input sha256Hex readers mapping) _ hfound hsame himport

theorem importReportRow_import {store : OrderStore} {importId : Nat} (r : RowImport)
    (himport : ∃ i ∈ store.imports, i.id = importId) :
    ∃ i ∈ (importReportRow sha256Hex scan readers mapping store r).imports, i.id = importId := by
  have hrecorded : ∃ i ∈ (recordRow store (r.input sha256Hex readers mapping)).imports,
      i.id = importId := by
    have hinserted : ∃ i ∈ (insertImportRow store (r.input sha256Hex readers mapping)).1.imports,
        i.id = importId := by
      rwa [insertImportRow_imports]
    exact import_mem_bump (f := fun i => { i with validRows := i.validRows + 1 }) (fun _ => rfl)
      r.importId hinserted
  unfold importReportRow importOneRow
  rw [if_neg (by simp)]
  split
  · exact import_mem_bump (f := fun i => { i with errorRows := i.errorRows + 1 }) (fun _ => rfl)
      r.importId hrecorded
  · rename_i folded result hupsert
    rw [if_neg (by simp)]
    have hcounted : ∃ i ∈ (bumpImportCounters (setRowMatch folded
        (insertImportRow store (r.input sha256Hex readers mapping)).2 r.verdict.status
        result.vendorOrderId) r.importId
        (countOutcome (r.input sha256Hex readers mapping) result)).imports, i.id = importId :=
      import_mem_bump (f := countOutcome (r.input sha256Hex readers mapping) result)
        (fun _ => rfl) r.importId (upsertOrder_imports hupsert ▸ hrecorded)
    unfold afterFold
    split
    · rw [appendOrderEvent_imports]
      exact hcounted
    · exact hcounted

theorem importReportRow_holds {store folded : OrderStore} {result : UpsertOrderResult}
    (r : RowImport)
    (h : foldOf scan store { input := r.input sha256Hex readers mapping } = some (folded, result)) :
    ∃ order ∈ (importReportRow sha256Hex scan readers mapping store r).orders,
      order.id = result.vendorOrderId ∧
        order.currentRowHash = (r.row.normalized sha256Hex readers mapping).rawRowHash := by
  obtain ⟨-, hfolded⟩ := foldOf_folded h
  unfold importReportRow
  rw [importOneRow_orders sha256Hex h]
  cases hfolded with
  | created hmissing =>
    exact ⟨_, mem_append_right _ (mem_singleton.mpr rfl), rfl, rfl⟩
  | synced existing hfound hsame =>
    have hmem := (findOrderByIdentity_mem hfound).1
    exact ⟨_, setOrder_mem hmem rfl, rfl, hsame⟩
  | updated existing hfound hdiffers hadmitted =>
    have hmem := (findOrderByIdentity_mem hfound).1
    exact ⟨_, setOrder_mem hmem rfl, rfl, rfl⟩

end Files

def plainReaders : CellReaders where
  date _ _ := none
  email := id
  phone := id
  address := id
  status _ := .submitted

def orderNumberColumn : OrderColumnMapping where
  columns := fun
    | .externalOrderId => some "Order"
    | _ => none
  statusOverrides := []
  timeZone := "America/Los_Angeles"
  carrier := none
  program := none
  productSold := none

def mondayFile : FileChecksum where
  digits := "3f5a0c1e9b7d24680011223344556677"
  hex := by simp
  nonempty := by decide

def tuesdayFile : FileChecksum where
  digits := "b81d00ce9b7d24680011223344556677"
  hex := by simp
  nonempty := by decide

def orderCells (header : String) : Option String :=
  if header = "Order" then some "A-100" else none

def mondayRow : ReportRow := { cells := orderCells, file := some mondayFile, rowNumber := 1 }

def tuesdayRow : ReportRow := { mondayRow with file := some tuesdayFile }

def orderText (row : ReportRow) : String :=
  canonicalOrderRowString (row.normalized id plainReaders orderNumberColumn)

/-- The SHA-256 of the two rows. -/
def rowDigest (text : String) : String :=
  if text = orderText mondayRow then
    "e1a397728e92dbe3786a42470005914220b40ce1e976e8ef758e628d759ef9c0"
  else if text = orderText tuesdayRow then
    "ddc5f540e5a55ba7dd5ca56f8352a49c3409fa6d06183ef42361813ddb6e8e77"
  else text

def deliver (importId : Nat) (row : ReportRow) : RowImport where
  row := row
  tenantId := 1
  importId := importId
  verdict :=
    { status := .unmatched
      actionable := false
      saleId := none
      leadId := none
      repId := none
      confidence := none }
  nowMs := 1750100000000

def openStore : OrderStore :=
  { OrderStore.empty with imports := [{ id := 1, tenantId := 1 }, { id := 2, tenantId := 1 }] }

def mondayStore : OrderStore :=
  importReportRow rowDigest .inOrder plainReaders orderNumberColumn openStore
    (deliver 1 mondayRow)

theorem rowDigest_ne : rowDigest (orderText mondayRow) ≠ rowDigest (orderText tuesdayRow) := by
  have hother : orderText tuesdayRow ≠ orderText mondayRow := by
    unfold orderText
    rw [ne_eq, canonicalOrderRowString_eq_iff id (a := tuesdayRow) (b := mondayRow) rfl]
    decide
  unfold rowDigest
  rw [if_pos rfl, if_neg hother, if_pos rfl]
  decide

theorem mondayStore_holds : ∃ order,
    HeldAs rowDigest .inOrder plainReaders orderNumberColumn mondayStore (deliver 2 tuesdayRow)
      mondayRow order := by
  have hfound : (findOrderByIdentity .inOrder mondayStore 1 (orderIdentityKeys
      (tuesdayRow.normalized rowDigest plainReaders orderNumberColumn))).isSome = true := by
    decide +kernel
  have hone : mondayStore.orders.length = 1 := by decide +kernel
  have hfold : (foldOf .inOrder openStore
      { input := (deliver 1 mondayRow).input rowDigest plainReaders
          orderNumberColumn }).isSome = true := by
    decide +kernel
  obtain ⟨order, horder⟩ := Option.isSome_iff_exists.mp hfound
  have hmem := (findOrderByIdentity_mem horder).1
  obtain ⟨⟨folded, result⟩, hfolded⟩ := Option.isSome_iff_exists.mp hfold
  obtain ⟨held, hheld, -, hhash⟩ := importReportRow_holds (deliver 1 mondayRow) hfolded
  obtain ⟨only, honly⟩ := length_eq_one_iff.mp hone
  have horderonly : order = only := mem_singleton.mp (honly ▸ hmem)
  have hheldonly : held = only := mem_singleton.mp (honly ▸ hheld)
  refine ⟨order, horder, ?_⟩
  rw [horderonly, ← hheldonly]
  exact hhash

end HomefrontFiber.VendorOrders
