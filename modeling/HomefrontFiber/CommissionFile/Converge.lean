import HomefrontFiber.CommissionFile.Lines
import HomefrontFiber.Foundation.FirstOf

/-!
# Lines converge

The restatements of a line may be imported in any order. The newest one decides the status and the
amounts whatever came before it. Its dates are merged with those of the restatements before it, so
the order shows in the money facts exactly when an older restatement has a date that the newest one
lacks, is read before its own dates, and differs from them.
-/

namespace HomefrontFiber.CommissionFile

open List

variable (sha256Hex : String → String)

structure SameMoney (a b : LineMoney) : Prop where
  lineStatus : a.lineStatus = b.lineStatus
  pendingAmountCents : a.pendingAmountCents = b.pendingAmountCents
  paidAmountCents : a.paidAmountCents = b.paidAmountCents
  facts : commissionLinkFacts a = commissionLinkFacts b

structure Restatements (restatements : List NormalizedCommissionLine)
    (newest : NormalizedCommissionLine) : Prop where
  mem : newest ∈ restatements
  key : ∀ x ∈ restatements, commissionLineKey x = commissionLineKey newest
  scores : ∀ x ∈ restatements, ∀ y ∈ restatements, score x.money = score y.money → x = y
  le_newest : ∀ x ∈ restatements, score x.money ≤ score newest.money
  hashes : ∀ x ∈ restatements, rawRowHash sha256Hex x = rawRowHash sha256Hex newest → x = newest
  /-- An upload before 1970 scores below none at all. -/
  uploads : newest.money.uploadDate.isSome = true ∨
    ∀ x ∈ restatements, ∀ upload ∈ x.money.uploadDate, 0 ≤ upload

/-- Whatever the order of the imports, their split into files and their repetitions, and whatever
other lines are imported between them, the line ends with the money of the newest restatement. -/
def LinesConverge (tenantId : Nat) (restatements : List NormalizedCommissionLine)
    (newest : NormalizedCommissionLine) : Prop :=
  ∀ inputs : List LineImport,
    (∀ i ∈ inputs, i.tenantId = tenantId →
      commissionLineKey i.line = commissionLineKey newest → i.line ∈ restatements) →
    (∀ x ∈ restatements, ∃ i ∈ inputs, i.tenantId = tenantId ∧ i.line = x) →
    ∃ l, findLineByKey (run (importLine sha256Hex) [] inputs) tenantId
        (commissionLineKey newest) = some l ∧ SameMoney l.money newest.money

def effectiveColumns : List (LineMoney → Option Int) :=
  [(·.actDeactDate), (·.paymentDate), (·.uploadDate)]

def paidPeriodColumns : List (LineMoney → Option Text) :=
  [fun line => isoDay line.paymentDate, fun line => isoDay line.uploadDate]

def pendingPeriodColumns : List (LineMoney → Option Text) := [fun line => isoDay line.uploadDate]

def periodColumns (line : LineMoney) : List (LineMoney → Option Text) :=
  if line.category = .chargeback ∨ line.lineStatus = .closed then paidPeriodColumns
  else pendingPeriodColumns

/-- The dates of an older restatement that stand before those of the newest one are the same. -/
def DatesAgree (newest older : LineMoney) : Prop :=
  newest.category = .paymentBatch ∨ newest.category = .unknown ∨
    Agrees effectiveColumns newest older ∧ Agrees (periodColumns newest) newest older

instance (newest older : LineMoney) : Decidable (DatesAgree newest older) :=
  inferInstanceAs (Decidable (_ ∨ _ ∨ _ ∧ _))

theorem merges_effectiveColumns : Merges LineMoney.over effectiveColumns := by
  intro f hf new old
  simp only [effectiveColumns, mem_cons, not_mem_nil, or_false] at hf
  rcases hf with rfl | rfl | rfl <;> rfl

theorem isoDay_or (a b : Option Int) : isoDay (a.or b) = (isoDay a).or (isoDay b) :=
  Option.map_or

theorem merges_periodColumns (line : LineMoney) : Merges LineMoney.over (periodColumns line) := by
  intro f hf new old
  unfold periodColumns at hf
  split_ifs at hf
  · simp only [paidPeriodColumns, mem_cons, not_mem_nil, or_false] at hf
    rcases hf with rfl | rfl <;> exact isoDay_or _ _
  · simp only [pendingPeriodColumns, mem_cons, not_mem_nil, or_false] at hf
    subst hf
    exact isoDay_or _ _

theorem firstOf_effectiveColumns (line : LineMoney) : firstOf effectiveColumns line =
    line.actDeactDate.or (line.paymentDate.or line.uploadDate) := by
  simp [effectiveColumns, firstOf_cons]

/-- The facts of a line that is merged with an older one are its own exactly when the dates of the
older one agree. -/
theorem facts_over_iff (newest older : LineMoney) :
    commissionLinkFacts (newest.over older) = commissionLinkFacts newest ↔
      DatesAgree newest older := by
  have heffective := firstOf_over_iff merges_effectiveColumns newest older
  have hperiod := firstOf_over_iff (merges_periodColumns newest) newest older
  rw [firstOf_effectiveColumns, firstOf_effectiveColumns] at heffective
  unfold DatesAgree
  rw [← heffective, ← hperiod]
  unfold commissionLinkFacts periodColumns
  by_cases hbatch : newest.category = .paymentBatch
  · simp [LineMoney.over, hbatch]
  by_cases hunknown : newest.category = .unknown
  · simp [LineMoney.over, hunknown]
  by_cases hchargeback : newest.category = .chargeback
  · simp [LineMoney.over, hchargeback, paidPeriodColumns, firstOf_cons]
  by_cases hclosed : newest.lineStatus = .closed
  · simp [LineMoney.over, hbatch, hunknown, hchargeback, hclosed, paidPeriodColumns, firstOf_cons]
  · simp [LineMoney.over, hbatch, hunknown, hchargeback, hclosed, pendingPeriodColumns,
      firstOf_cons]

variable {a b older : LineMoney} {x : NormalizedCommissionLine}

theorem DatesAgree.merge {newest : LineMoney} (ha : DatesAgree newest a)
    (hb : DatesAgree newest b) : DatesAgree newest (a.over b) := by
  rcases ha with h | h | ⟨ha, ha'⟩
  · exact .inl h
  · exact .inr (.inl h)
  · rcases hb with h | h | ⟨hb, hb'⟩
    · exact .inl h
    · exact .inr (.inl h)
    · exact .inr (.inr ⟨ha.merge merges_effectiveColumns hb,
        ha'.merge (merges_periodColumns newest) hb'⟩)

theorem sameMoney_over_iff (newest older : LineMoney) :
    SameMoney (newest.over older) newest ↔ DatesAgree newest older := by
  rw [← facts_over_iff]
  exact ⟨fun h => h.facts, fun h => ⟨rfl, rfl, rfl, h⟩⟩

/-- A line that a restatement left: its status, at most its upload and at most a payment date
more. -/
structure LeftBy (held older : LineMoney) : Prop where
  lineStatus : held.lineStatus = older.lineStatus
  uploadDate : held.uploadDate.getD 0 ≤ older.uploadDate.getD 0

theorem score_lt_iff : score a < score b ↔
    a.uploadDate.getD 0 < b.uploadDate.getD 0 ∨ a.uploadDate.getD 0 = b.uploadDate.getD 0 ∧
      (closedScore a < closedScore b ∨
        closedScore a = closedScore b ∧ paymentScore a < paymentScore b) := by
  unfold score
  rw [Prod.Lex.toLex_lt_toLex]
  simp only [Prod.Lex.toLex_lt_toLex]

theorem supersedes_iff :
    commissionRestatementSupersedes a b = true ↔ score b < score a := decide_eq_true_iff

theorem not_supersedes_iff :
    commissionRestatementSupersedes a b = false ↔ ¬score b < score a := decide_eq_false_iff_not

theorem paymentScore_le_one (line : LineMoney) : paymentScore line ≤ 1 := by
  unfold paymentScore
  split <;> omega

/-- What an older restatement left does not supersede a newer one, whatever payment date it kept. -/
theorem LeftBy.not_supersedes {held newer : LineMoney} (h : LeftBy held older)
    (hlt : score older < score newer) : commissionRestatementSupersedes held newer = false := by
  have hclosed : closedScore held = closedScore older := by
    unfold closedScore
    rw [h.lineStatus]
  have hup := h.uploadDate
  have hpayment := paymentScore_le_one held
  rw [not_supersedes_iff, score_lt_iff]
  rw [score_lt_iff] at hlt
  omega

theorem leftBy_self (line : LineMoney) : LeftBy line line := ⟨rfl, le_refl _⟩

theorem leftBy_over {new held : LineMoney}
    (happlies : commissionRestatementSupersedes held new = false) : LeftBy (new.over held) new := by
  refine ⟨rfl, ?_⟩
  rw [not_supersedes_iff, score_lt_iff] at happlies
  cases hnew : new.uploadDate with
  | some upload => simp [LineMoney.over, hnew]
  | none =>
    simp only [LineMoney.over, hnew, Option.none_or, Option.getD_none] at happlies ⊢
    omega

/-- The newest restatement, merged with what came before it, still supersedes the older ones. -/
theorem supersedes_of_over {newest held : LineMoney}
    (happlies : commissionRestatementSupersedes held newest = false)
    (hupload : newest.uploadDate.isSome = true ∨ ∀ upload ∈ held.uploadDate, 0 ≤ upload)
    (hlt : score older < score newest) :
    commissionRestatementSupersedes (newest.over held) older = true := by
  have hpayment : paymentScore newest ≤ paymentScore (newest.over held) := by
    unfold paymentScore LineMoney.over
    cases newest.paymentDate <;> simp
  have hclosed : closedScore (newest.over held) = closedScore newest := rfl
  have hsame : (newest.over held).uploadDate.getD 0 = newest.uploadDate.getD 0 := by
    rw [not_supersedes_iff, score_lt_iff] at happlies
    cases hnewest : newest.uploadDate with
    | some upload => simp [LineMoney.over, hnewest]
    | none =>
      rw [hnewest] at hupload happlies
      cases hheld : held.uploadDate with
      | none => simp [LineMoney.over, hnewest, hheld]
      | some upload =>
        have hpos : 0 ≤ upload := by
          rcases hupload with h | h
          · cases h
          · exact h upload hheld
        simp only [hheld, Option.getD_some, Option.getD_none] at happlies
        simp only [LineMoney.over, hnewest, hheld, Option.none_or, Option.getD_some,
          Option.getD_none]
        omega
  rw [supersedes_iff, score_lt_iff, hsame, hclosed]
  rw [score_lt_iff] at hlt
  omega

/-- What the line of a key holds: its money and the hash of the row that it took it from. -/
def held (lines : List CommissionLine) (tenantId : Nat) (lineKey : String) :
    Option (LineMoney × String) :=
  (findLineByKey lines tenantId lineKey).map fun l => (l.money, l.currentRowHash)

def restated (old : Option (LineMoney × String)) (line : NormalizedCommissionLine) :
    LineMoney × String :=
  match old with
  | none => (line.money, rawRowHash sha256Hex line)
  | some (money, hash) =>
    if hash = rawRowHash sha256Hex line then (money, hash)
    else if commissionRestatementSupersedes money line.money then (money, hash)
    else (line.money.over money, rawRowHash sha256Hex line)

def restatedAll (old : Option (LineMoney × String)) (lines : List NormalizedCommissionLine) :
    Option (LineMoney × String) :=
  run (fun old line => some (restated sha256Hex old line)) old lines

section Store

variable {sha256Hex} {lines : List CommissionLine} {tenantId : Nat} {lineKey : String}

theorem findLineByKey_mem {l : CommissionLine} (h : findLineByKey lines tenantId lineKey = some l) :
    l ∈ lines ∧ l.tenantId = tenantId ∧ l.lineKey = lineKey := by
  have hkey := find?_some h
  simp only [Bool.decide_and, Bool.and_eq_true, decide_eq_true_eq] at hkey
  exact ⟨mem_of_find?_eq_some h, hkey⟩

theorem findLineByKey_setLine (hnumbered : Numbered (·.id) lines) {old new : CommissionLine}
    (hold : old ∈ lines) (hid : new.id = old.id) (htenant : new.tenantId = old.tenantId)
    (hkey : new.lineKey = old.lineKey) : findLineByKey (setLine lines new) tenantId lineKey =
      (findLineByKey lines tenantId lineKey).map fun l => if l.id = new.id then new else l := by
  unfold findLineByKey setLine
  rw [find?_map]
  congr 1
  apply find?_congr
  intro l hl
  dsimp only [Function.comp]
  split
  · rename_i hsame
    have heq : l = old := hnumbered.eq_of_key hl hold (hsame.trans hid)
    rw [htenant, hkey, heq]
  · rfl

theorem held_setLine (hnumbered : Numbered (·.id) lines) {old new : CommissionLine}
    (hfound : findLineByKey lines old.tenantId old.lineKey = some old) (hid : new.id = old.id)
    (htenant : new.tenantId = old.tenantId) (hkey : new.lineKey = old.lineKey) :
    held (setLine lines new) tenantId lineKey =
      if old.tenantId = tenantId ∧ old.lineKey = lineKey then
        some (new.money, new.currentRowHash)
      else held lines tenantId lineKey := by
  unfold held
  rw [findLineByKey_setLine hnumbered (findLineByKey_mem hfound).1 hid htenant hkey]
  split
  · rename_i hown
    rw [← hown.1, ← hown.2, hfound]
    simp [hid]
  · rename_i hother
    cases hfind : findLineByKey lines tenantId lineKey with
    | none => rfl
    | some l =>
      obtain ⟨hl, hltenant, hlkey⟩ := findLineByKey_mem hfind
      have hne : l.id ≠ new.id := by
        intro hsame
        have heq : l = old :=
          hnumbered.eq_of_key hl (findLineByKey_mem hfound).1 (hsame.trans hid)
        subst heq
        exact hother ⟨hltenant, hlkey⟩
      simp [hne]

theorem held_snoc {line : CommissionLine}
    (hmissing : findLineByKey lines line.tenantId line.lineKey = none) :
    held (lines ++ [line]) tenantId lineKey =
      if line.tenantId = tenantId ∧ line.lineKey = lineKey then
        some (line.money, line.currentRowHash)
      else held lines tenantId lineKey := by
  unfold held findLineByKey at *
  rw [find?_append]
  split
  · rename_i hown
    rw [← hown.1, ← hown.2, hmissing]
    simp
  · rename_i hother
    simp [hother]

theorem numbered_setLine (hnumbered : Numbered (·.id) lines) (new : CommissionLine) :
    Numbered (·.id) (setLine lines new) := by
  apply hnumbered.map
  intro l _
  split
  · rename_i hsame
    exact hsame.symm
  · rfl

theorem numbered_importLine (hnumbered : Numbered (·.id) lines) (input : LineImport) :
    Numbered (·.id) (importLine sha256Hex lines input) := by
  unfold importLine upsertLineFromRow
  split
  · exact hnumbered.snoc rfl
  · split_ifs <;> exact numbered_setLine hnumbered _

theorem importLine_found {input : LineImport} {existing : CommissionLine}
    (hfind : findLineByKey lines input.tenantId (commissionLineKey input.line) = some existing) :
    ∃ new : CommissionLine, importLine sha256Hex lines input = setLine lines new ∧
      new.id = existing.id ∧ new.tenantId = existing.tenantId ∧ new.lineKey = existing.lineKey ∧
      (new.money, new.currentRowHash) =
        restated sha256Hex (some (existing.money, existing.currentRowHash)) input.line := by
  unfold importLine upsertLineFromRow restated
  rw [hfind]
  dsimp only
  by_cases hsame : existing.currentRowHash = rawRowHash sha256Hex input.line
  · rw [if_pos hsame, if_pos hsame]
    exact ⟨_, rfl, rfl, rfl, rfl, rfl⟩
  · rw [if_neg hsame, if_neg hsame]
    by_cases holder : commissionRestatementSupersedes existing.money input.line.money = true
    · rw [if_pos holder, if_pos holder]
      exact ⟨_, rfl, rfl, rfl, rfl, rfl⟩
    · rw [if_neg holder, if_neg holder]
      exact ⟨_, rfl, rfl, rfl, rfl, rfl⟩

theorem held_importLine (hnumbered : Numbered (·.id) lines) (input : LineImport) :
    held (importLine sha256Hex lines input) tenantId lineKey =
      if input.tenantId = tenantId ∧ commissionLineKey input.line = lineKey then
        some (restated sha256Hex (held lines tenantId lineKey) input.line)
      else held lines tenantId lineKey := by
  cases hfind : findLineByKey lines input.tenantId (commissionLineKey input.line) with
  | none =>
    have hsnoc := @held_snoc lines tenantId lineKey
      (input.insertedLine sha256Hex (lines.length + 1)) hfind
    unfold importLine upsertLineFromRow
    rw [hfind]
    refine hsnoc.trans (ite_congr rfl ?_ fun _ => rfl)
    intro hown
    obtain ⟨rfl, rfl⟩ := hown
    unfold held
    rw [hfind]
    rfl
  | some existing =>
    obtain ⟨new, himport, hid, hnewtenant, hnewkey, hmoney⟩ :=
      @importLine_found sha256Hex _ _ _ hfind
    obtain ⟨-, htenant, hkey⟩ := findLineByKey_mem hfind
    have hfound : findLineByKey lines existing.tenantId existing.lineKey = some existing := by
      rw [htenant, hkey]
      exact hfind
    rw [himport, held_setLine hnumbered hfound hid hnewtenant hnewkey, htenant, hkey]
    refine ite_congr rfl ?_ fun _ => rfl
    intro hown
    obtain ⟨rfl, rfl⟩ := hown
    rw [hmoney, held, hfind]
    rfl

/-- The restatements of a line among the imports, in their order. -/
def restatementsOf (tenantId : Nat) (lineKey : String) (inputs : List LineImport) :
    List NormalizedCommissionLine :=
  (inputs.filter fun i => i.tenantId = tenantId ∧ commissionLineKey i.line = lineKey).map (·.line)

theorem held_run (hnumbered : Numbered (·.id) lines) (inputs : List LineImport) :
    held (run (importLine sha256Hex) lines inputs) tenantId lineKey =
      restatedAll sha256Hex (held lines tenantId lineKey)
        (restatementsOf tenantId lineKey inputs) := by
  induction inputs generalizing lines with
  | nil => rfl
  | cons input inputs ih =>
    rw [run_cons, ih (numbered_importLine hnumbered input), held_importLine hnumbered input]
    unfold restatementsOf
    rw [filter_cons]
    by_cases hown : input.tenantId = tenantId ∧ commissionLineKey input.line = lineKey
    · simp only [hown, and_self, decide_true, if_true, map_cons, restatedAll, run_cons]
    · simp only [hown, decide_false, if_false, Bool.false_eq_true]

end Store

section OneLine

variable {sha256Hex} {restatements : List NormalizedCommissionLine}
  {newest : NormalizedCommissionLine}

theorem Restatements.lt_newest (hr : Restatements sha256Hex restatements newest)
    (hx : x ∈ restatements) (hne : x ≠ newest) :
    score x.money < score newest.money := by
  apply lt_of_le_of_ne (hr.le_newest x hx)
  intro heq
  exact hne (hr.scores x hx newest hr.mem heq)

/-- What the line holds before the newest restatement arrives. -/
structure OlderHeld (sha256Hex : String → String) (restatements : List NormalizedCommissionLine)
    (newest : NormalizedCommissionLine) (p : LineMoney × String) : Prop where
  left : ∃ x ∈ restatements, x ≠ newest ∧ p.2 = rawRowHash sha256Hex x ∧ LeftBy p.1 x.money
  upload : newest.money.uploadDate.isSome = true ∨ ∀ upload ∈ p.1.uploadDate, 0 ≤ upload

theorem olderHeld_created (hr : Restatements sha256Hex restatements newest)
    (hx : x ∈ restatements) (hne : x ≠ newest) :
    OlderHeld sha256Hex restatements newest (x.money, rawRowHash sha256Hex x) := by
  refine ⟨⟨x, hx, hne, rfl, leftBy_self x.money⟩, ?_⟩
  rcases hr.uploads with h | h
  · exact .inl h
  · exact .inr (h x hx)

/-- An older restatement leaves an older line, whose dates agree if they agreed before. -/
theorem olderHeld_restated (hr : Restatements sha256Hex restatements newest)
    (hagree : ∀ x ∈ restatements, DatesAgree newest.money x.money)
    {old : Option (LineMoney × String)}
    (hold : ∀ p ∈ old, OlderHeld sha256Hex restatements newest p ∧ DatesAgree newest.money p.1)
    (hx : x ∈ restatements) (hne : x ≠ newest) :
    OlderHeld sha256Hex restatements newest (restated sha256Hex old x) ∧
      DatesAgree newest.money (restated sha256Hex old x).1 := by
  cases old with
  | none => exact ⟨olderHeld_created hr hx hne, hagree x hx⟩
  | some p =>
    obtain ⟨money, hash⟩ := p
    have hp := hold (money, hash) rfl
    unfold restated
    dsimp only
    split_ifs with hsame holder
    · exact hp
    · exact hp
    · have happlies : commissionRestatementSupersedes money x.money = false := by
        simpa using holder
      refine ⟨⟨⟨x, hx, hne, rfl, leftBy_over happlies⟩, ?_⟩, (hagree x hx).merge hp.2⟩
      rcases hr.uploads with h | h
      · exact .inl h
      · rcases hp.1.upload with hsome | hheld
        · exact .inl hsome
        · refine .inr fun upload hupload => ?_
          rcases Option.or_eq_some_iff.mp hupload with hnew | ⟨-, hkept⟩
          · exact h x hx upload hnew
          · exact hheld upload hkept

/-- The newest restatement takes the line over, and supersedes every other from then on. -/
theorem restated_newest (hr : Restatements sha256Hex restatements newest) {money : LineMoney}
    {hash : String} (hold : OlderHeld sha256Hex restatements newest (money, hash)) :
    restated sha256Hex (some (money, hash)) newest =
        (newest.money.over money, rawRowHash sha256Hex newest) ∧
      ∀ y ∈ restatements, y ≠ newest →
        commissionRestatementSupersedes (newest.money.over money) y.money = true := by
  obtain ⟨x, hx, hne, rfl, hleft⟩ := hold.left
  have hhash : rawRowHash sha256Hex x ≠ rawRowHash sha256Hex newest :=
    fun heq => hne (hr.hashes x hx heq)
  have happlies := hleft.not_supersedes (hr.lt_newest hx hne)
  constructor
  · unfold restated
    dsimp only
    rw [if_neg hhash, happlies, if_neg Bool.false_ne_true]
  · intro y hy hyne
    exact supersedes_of_over happlies hold.upload (hr.lt_newest hy hyne)

theorem restatedAll_settled (hr : Restatements sha256Hex restatements newest) {money : LineMoney}
    (hsupersedes : ∀ y ∈ restatements, y ≠ newest →
      commissionRestatementSupersedes money y.money = true)
    {later : List NormalizedCommissionLine} (hlater : ∀ y ∈ later, y ∈ restatements) :
    restatedAll sha256Hex (some (money, rawRowHash sha256Hex newest)) later =
      some (money, rawRowHash sha256Hex newest) := by
  induction later with
  | nil => rfl
  | cons y later ih =>
    have hy : y ∈ restatements := hlater y mem_cons_self
    have hstep : restated sha256Hex (some (money, rawRowHash sha256Hex newest)) y =
        (money, rawRowHash sha256Hex newest) := by
      unfold restated
      dsimp only
      by_cases hnewest : y = newest
      · rw [hnewest, if_pos rfl]
      · have hhash : rawRowHash sha256Hex newest ≠ rawRowHash sha256Hex y :=
          fun heq => hnewest (hr.hashes y hy heq.symm)
        rw [if_neg hhash, hsupersedes y hy hnewest, if_pos rfl]
    unfold restatedAll at ih ⊢
    rw [run_cons, hstep]
    exact ih fun z hz => hlater z (mem_cons_of_mem y hz)

/-- When the dates agree, the newest restatement decides the money of the line whatever came
before it and whatever follows. -/
theorem restatedAll_converges (hr : Restatements sha256Hex restatements newest)
    (hagree : ∀ x ∈ restatements, DatesAgree newest.money x.money)
    {imported : List NormalizedCommissionLine} (hmem : ∀ x ∈ imported, x ∈ restatements)
    (hnewest : newest ∈ imported) : ∃ money,
      restatedAll sha256Hex none imported = some (money, rawRowHash sha256Hex newest) ∧
        SameMoney money newest.money := by
  obtain ⟨before, later, rfl, hfirst⟩ := eq_append_cons_of_mem hnewest
  have hbefore : ∀ x ∈ before, x ∈ restatements ∧ x ≠ newest := by
    intro x hx
    refine ⟨hmem x (mem_append_left _ hx), ?_⟩
    rintro rfl
    exact hfirst hx
  have hlater : ∀ y ∈ later, y ∈ restatements :=
    fun y hy => hmem y (mem_append_right _ (mem_cons_of_mem newest hy))
  have hold : ∀ p ∈ restatedAll sha256Hex none before,
      OlderHeld sha256Hex restatements newest p ∧ DatesAgree newest.money p.1 := by
    unfold restatedAll
    apply @run_invariant _ _ _ (fun old =>
      ∀ p ∈ old, OlderHeld sha256Hex restatements newest p ∧ DatesAgree newest.money p.1)
      fun _ x => x ∈ restatements ∧ x ≠ newest
    · intro old x hold hx p hp
      cases hp
      exact olderHeld_restated hr hagree hold hx.1 hx.2
    · exact fun p hp => absurd hp (by simp)
    · exact along_of_forall hbefore
  unfold restatedAll at hold ⊢
  rw [run_append, run_cons]
  cases hrun : run (fun old line => some (restated sha256Hex old line)) none before with
  | none =>
    have hlt : ∀ y ∈ restatements, y ≠ newest →
        commissionRestatementSupersedes newest.money y.money = true :=
      fun y hy hyne => supersedes_iff.mpr (hr.lt_newest hy hyne)
    exact ⟨newest.money, restatedAll_settled hr hlt hlater, rfl, rfl, rfl, rfl⟩
  | some p =>
    obtain ⟨money, hash⟩ := p
    obtain ⟨holder, hdates⟩ := hold (money, hash) hrun
    obtain ⟨hstep, hsupersedes⟩ := restated_newest hr holder
    rw [hstep]
    exact ⟨_, restatedAll_settled hr hsupersedes hlater, (sameMoney_over_iff _ _).mpr hdates⟩

end OneLine

theorem datesAgree_self (line : LineMoney) : DatesAgree line line :=
  .inr (.inr ⟨agrees_self _ line, agrees_self _ line⟩)

def importsOf (tenantId : Nat) (lines : List NormalizedCommissionLine) : List LineImport :=
  lines.map fun line => { tenantId := tenantId, importId := 1, line := line, nowMs := 0 }

theorem restatementsOf_importsOf {tenantId : Nat} {lineKey : String}
    {lines : List NormalizedCommissionLine} (h : ∀ x ∈ lines, commissionLineKey x = lineKey) :
    restatementsOf tenantId lineKey (importsOf tenantId lines) = lines := by
  unfold restatementsOf importsOf
  rw [filter_eq_self.mpr, map_map]
  · exact map_id lines
  · intro i hi
    obtain ⟨x, hx, rfl⟩ := mem_map.mp hi
    simp [h x hx]

/-- An older restatement, the newest one and then all of them leave the line with the dates of the
older one where the newest one has none. -/
theorem held_older_first {restatements : List NormalizedCommissionLine}
    {newest : NormalizedCommissionLine} (tenantId : Nat)
    (hr : Restatements sha256Hex restatements newest) (hx : x ∈ restatements) (hne : x ≠ newest) :
    held (run (importLine sha256Hex) [] (importsOf tenantId (x :: newest :: restatements))) tenantId
        (commissionLineKey newest) =
      some (newest.money.over x.money, rawRowHash sha256Hex newest) := by
  have hkeys : ∀ y ∈ x :: newest :: restatements,
      commissionLineKey y = commissionLineKey newest := by
    intro y hy
    rcases mem_cons.mp hy with rfl | hy
    · exact hr.key y hx
    · rcases mem_cons.mp hy with rfl | hy
      · rfl
      · exact hr.key y hy
  have hnone : held [] tenantId (commissionLineKey newest) = none := rfl
  obtain ⟨hstep, hsupersedes⟩ := restated_newest hr (olderHeld_created hr hx hne)
  rw [held_run Numbered.nil, restatementsOf_importsOf hkeys, hnone]
  have hfirst : restated sha256Hex none x = (x.money, rawRowHash sha256Hex x) := rfl
  have hsettled := @restatedAll_settled _ _ _ hr _ hsupersedes restatements fun y hy => hy
  unfold restatedAll at hsettled ⊢
  rw [run_cons, run_cons, hfirst, hstep]
  exact hsettled

/-- Convergence makes the dates agree: an older restatement may come just before the newest. -/
theorem datesAgree_of_linesConverge (tenantId : Nat) {restatements : List NormalizedCommissionLine}
    {newest : NormalizedCommissionLine} (hr : Restatements sha256Hex restatements newest)
    (hconverge : LinesConverge sha256Hex tenantId restatements newest) :
    ∀ x ∈ restatements, DatesAgree newest.money x.money := by
  intro x hx
  by_cases hne : x = newest
  · rw [hne]
    exact datesAgree_self newest.money
  · have hown : ∀ i ∈ importsOf tenantId (x :: newest :: restatements), i.tenantId = tenantId →
        commissionLineKey i.line = commissionLineKey newest → i.line ∈ restatements := by
      intro i hi _ _
      obtain ⟨y, hy, rfl⟩ := mem_map.mp hi
      rcases mem_cons.mp hy with rfl | hy
      · exact hx
      · rcases mem_cons.mp hy with rfl | hy
        · exact hr.mem
        · exact hy
    have hall : ∀ y ∈ restatements, ∃ i ∈ importsOf tenantId (x :: newest :: restatements),
        i.tenantId = tenantId ∧ i.line = y := by
      intro y hy
      have hmem : y ∈ x :: newest :: restatements :=
        mem_cons_of_mem x (mem_cons_of_mem newest hy)
      exact ⟨_, mem_map_of_mem hmem, rfl, rfl⟩
    obtain ⟨l, hl, hsame⟩ := hconverge _ hown hall
    have hheld := held_older_first sha256Hex tenantId hr hx hne
    unfold held at hheld
    rw [hl] at hheld
    have hmoney : l.money = newest.money.over x.money :=
      congrArg Prod.fst (Option.some_inj.mp hheld)
    rw [hmoney] at hsame
    exact (sameMoney_over_iff _ _).mp hsame

/-- The restatements of a line converge whatever the order of the files exactly when the dates of
the older ones agree with those of the newest. -/
theorem linesConverge_iff (tenantId : Nat) {restatements : List NormalizedCommissionLine}
    {newest : NormalizedCommissionLine} (hr : Restatements sha256Hex restatements newest) :
    LinesConverge sha256Hex tenantId restatements newest ↔
      ∀ x ∈ restatements, DatesAgree newest.money x.money := by
  constructor
  · exact datesAgree_of_linesConverge sha256Hex tenantId hr
  · intro hagree inputs hown hall
    have hmem : ∀ x ∈ restatementsOf tenantId (commissionLineKey newest) inputs,
        x ∈ restatements := by
      intro x hx
      obtain ⟨i, hi, rfl⟩ := mem_map.mp hx
      obtain ⟨hi, hkey⟩ := mem_filter.mp hi
      simp only [Bool.decide_and, Bool.and_eq_true, decide_eq_true_eq] at hkey
      exact hown i hi hkey.1 hkey.2
    have hnewest : newest ∈ restatementsOf tenantId (commissionLineKey newest) inputs := by
      obtain ⟨i, hi, htenant, hline⟩ := hall newest hr.mem
      apply mem_map.mpr
      refine ⟨i, mem_filter.mpr ⟨hi, ?_⟩, hline⟩
      rw [hline, htenant]
      simp
    obtain ⟨money, hfinal, hsame⟩ := restatedAll_converges hr hagree hmem hnewest
    have hheld := @held_run sha256Hex [] tenantId (commissionLineKey newest) Numbered.nil inputs
    have hnone : held [] tenantId (commissionLineKey newest) = none := rfl
    rw [hnone, hfinal] at hheld
    obtain ⟨l, hl, hmoney⟩ := Option.map_eq_some_iff.mp hheld
    refine ⟨l, hl, ?_⟩
    rw [(Prod.mk.inj hmoney).1]
    exact hsame

/-- July's row: open, acted on June 20. -/
def julyRow : NormalizedCommissionLine where
  texts := { accountNumber := some "X9", accountKey := some "X9", product := some "Fiber",
             productKey := some "FIBER" }
  money :=
    { category := .activation
      lineStatus := .opened
      pendingAmountCents := some 4500
      actDeactDate := some 1781913600000
      uploadDate := some 1782864000000 }

/-- August's row: closed and paid, with its act date, or without it. -/
def augustRow (actDeactDate : Option Int) : NormalizedCommissionLine :=
  { julyRow with
    money :=
      { category := .activation
        lineStatus := .closed
        paidAmountCents := some 4500
        actDeactDate := actDeactDate
        uploadDate := some 1785542400000
        paymentDate := some 1785888000000 } }

/-- The SHA-256 of the three rows. -/
def lineDigest (text : String) : String :=
  if text = canonicalCommissionRowString julyRow then
    "2f87da97365399b0d17c76796fd121e7cb7c5cf807c2ff1f452902a24fa7b6f2"
  else if text = canonicalCommissionRowString (augustRow none) then
    "cd7e961a73d13e90ccf2e1e60d327cac388bb52484806e1e035d49870b508190"
  else if text = canonicalCommissionRowString (augustRow (some 1781913600000)) then
    "36b106c00854a0ca43a920de1d81c848a7c8071f0ee123e1bbc6210b710ff23f"
  else text

theorem restatements_julyAugust {actDeactDate : Option Int}
    (hhash : rawRowHash lineDigest julyRow ≠ rawRowHash lineDigest (augustRow actDeactDate)) :
    Restatements lineDigest [julyRow, augustRow actDeactDate] (augustRow actDeactDate) := by
  have huploads : (1782864000000 : Int) < 1785542400000 := by decide
  have hlt : score julyRow.money < score (augustRow actDeactDate).money :=
    score_lt_iff.mpr (.inl huploads)
  have haccount : julyRow.texts.accountKey.getD "" ≠ "" := by decide
  have hkey : commissionLineKey julyRow = commissionLineKey (augustRow actDeactDate) := by
    unfold commissionLineKey
    exact (if_pos (.inl haccount)).trans (if_pos (.inl haccount)).symm
  constructor
  case mem => exact mem_cons_of_mem _ mem_cons_self
  case key => simp [hkey]
  case scores => simp [hlt.ne, hlt.ne']
  case le_newest => simp [hlt.le]
  case hashes => simp [hhash]
  case uploads => exact .inl rfl

theorem linesConverge_julyAugust :
    LinesConverge lineDigest 1 [julyRow, augustRow (some 1781913600000)]
      (augustRow (some 1781913600000)) := by
  apply (linesConverge_iff lineDigest 1 (restatements_julyAugust (by decide +kernel))).mpr
  intro x hx
  simp only [mem_cons, not_mem_nil, or_false] at hx
  rcases hx with rfl | rfl <;> decide

/-- Imported after July's file, August's row without an act date keeps July's. -/
theorem not_linesConverge_julyAugust :
    ¬LinesConverge lineDigest 1 [julyRow, augustRow none] (augustRow none) := by
  intro hconverge
  have hr : Restatements lineDigest [julyRow, augustRow none] (augustRow none) :=
    restatements_julyAugust (by decide +kernel)
  have hagree := datesAgree_of_linesConverge lineDigest 1 hr hconverge julyRow mem_cons_self
  exact absurd hagree (by decide)

end HomefrontFiber.CommissionFile
