import Mathlib.Data.List.Dedup
import HomefrontFiber.Foundation.Alternating
import HomefrontFiber.Foundation.Runs
import HomefrontFiber.Foundation.Table
import HomefrontFiber.Commission.OverrideStore

/-!
# Pairs of the override ledger

What each write of the ledger does to a pair. Updates act on the rows of a pair one by one; a sync
appends an EARN to a closed pair or answers the open EARN of a pair with its CLAWBACK, and leaves
every other pair alone.
-/

namespace HomefrontFiber.Commission

open Alternating List

def KeepsPair (f : OverrideRow → OverrideRow) : Prop :=
  ∀ r, (f r).id = r.id ∧ (f r).saleId = r.saleId ∧ (f r).beneficiaryRepId = r.beneficiaryRepId ∧
    (f r).pairSeq = r.pairSeq

variable {s : Nat} {r r' : OverrideRow} {f : OverrideRow → OverrideRow} {l : List OverrideRow}

theorem mem_pairRows {rows : List OverrideRow} {b : Nat} :
    r ∈ pairRows rows s b ↔ r ∈ rows ∧ r.saleId = s ∧ r.beneficiaryRepId = b := by
  simp [pairRows]

theorem pairRows_append (rows rows' : List OverrideRow) (s b : Nat) :
    pairRows (rows ++ rows') s b = pairRows rows s b ++ pairRows rows' s b :=
  filter_append ..

theorem pairRows_append_self (rows : List OverrideRow) {b : Nat}
    (hs : r.saleId = s) (hb : r.beneficiaryRepId = b) :
    pairRows (rows ++ [r]) s b = pairRows rows s b ++ [r] := by
  rw [pairRows_append]
  simp [pairRows, hs, hb]

theorem pairRows_append_other {rows : List OverrideRow} {b : Nat}
    (h : ¬ (r.saleId = s ∧ r.beneficiaryRepId = b)) :
    pairRows (rows ++ [r]) s b = pairRows rows s b := by
  rw [pairRows_append]
  simp only [pairRows, filter_cons, h, decide_false, Bool.false_eq_true, if_false,
    filter_nil, append_nil]

theorem pairRows_map (hf : KeepsPair f) (rows : List OverrideRow) (s b : Nat) :
    pairRows (rows.map f) s b = (pairRows rows s b).map f := by
  unfold pairRows
  rw [filter_map]
  congr 1
  refine filter_congr fun r _ => ?_
  simp only [Function.comp_apply, (hf r).2.1, (hf r).2.2.1]

/-- The EARN of an open pair. A RESOLVED one was resolved by an adjustment. -/
def OpenEarn (r : OverrideRow) : Prop :=
  r.entryType = .earn ∧ (r.status = .resolved ↔ r.resolvedAdjustmentId.isSome)

structure Couple (e c : OverrideRow) : Prop where
  earn : e.entryType = .earn
  clawback : c.entryType = .clawback
  seq : c.pairSeq = e.pairSeq + 1
  amount : c.amountCents = -e.amountCents
  week : c.earnedWeekStartUtc = e.earnedWeekStartUtc
  earn_not_held : e.status ≠ .held
  claw_not_held : c.status ≠ .held

/-- `r'` is `r` up to its lifecycle columns and the week it is paid in. -/
structure SameEntry (r' r : OverrideRow) : Prop where
  id : r'.id = r.id
  saleId : r'.saleId = r.saleId
  beneficiary : r'.beneficiaryRepId = r.beneficiaryRepId
  role : r'.beneficiaryRole = r.beneficiaryRole
  entryType : r'.entryType = r.entryType
  pairSeq : r'.pairSeq = r.pairSeq
  amount : r'.amountCents = r.amountCents

theorem SameEntry.refl (r : OverrideRow) : SameEntry r r := ⟨rfl, rfl, rfl, rfl, rfl, rfl, rfl⟩

theorem SameEntry.trans {r'' : OverrideRow} (h' : SameEntry r'' r') (h : SameEntry r' r) :
    SameEntry r'' r where
  id := h'.id.trans h.id
  saleId := h'.saleId.trans h.saleId
  beneficiary := h'.beneficiary.trans h.beneficiary
  role := h'.role.trans h.role
  entryType := h'.entryType.trans h.entryType
  pairSeq := h'.pairSeq.trans h.pairSeq
  amount := h'.amount.trans h.amount

theorem SameEntry.ite {p : Prop} [Decidable p] (h : SameEntry r' r) :
    SameEntry (if p then r' else r) r := by
  split
  · exact h
  · exact SameEntry.refl r

theorem SameEntry.keepsPair (h : ∀ r, SameEntry (f r) r) :
    KeepsPair f := fun r => ⟨(h r).id, (h r).saleId, (h r).beneficiary, (h r).pairSeq⟩

theorem Couple.of_sameEntry {e c e' c' : OverrideRow} (h : Couple e c) (he : SameEntry e' e)
    (hc : SameEntry c' c) (hw : c'.earnedWeekStartUtc = e'.earnedWeekStartUtc)
    (heh : e'.status ≠ .held) (hch : c'.status ≠ .held) : Couple e' c' where
  earn := he.entryType.trans h.earn
  clawback := hc.entryType.trans h.clawback
  seq := by rw [hc.pairSeq, he.pairSeq, h.seq]
  amount := by rw [hc.amount, he.amount, h.amount]
  week := hw
  earn_not_held := heh
  claw_not_held := hch

structure LedgerWf (rows : List OverrideRow) : Prop where
  ids : Numbered (·.id) rows
  pairs : ∀ s b, Alternates OpenEarn Couple (pairRows rows s b)
  seqs : ∀ s b, (pairRows rows s b).map (·.pairSeq) = List.range (pairRows rows s b).length
  settled : ∀ r ∈ rows, r.status = .settled ↔ r.settledStatementId.isSome

theorem ledgerWf_nil : LedgerWf [] where
  ids := Numbered.nil
  pairs _ _ := .inl Closed.nil
  seqs _ _ := rfl
  settled _ h := absurd h not_mem_nil

/-- A row-wise update that keeps every couple and every open EARN keeps the ledger well formed. -/
theorem LedgerWf.map {rows : List OverrideRow} (h : LedgerWf rows)
    (hf : KeepsPair f) (hopen : ∀ e ∈ rows, OpenEarn e → OpenEarn (f e))
    (hcouple : ∀ e ∈ rows, ∀ c ∈ rows, Couple e c → Couple (f e) (f c))
    (hsettled : ∀ r ∈ rows, (f r).status = .settled ↔ (f r).settledStatementId.isSome) :
    LedgerWf (rows.map f) where
  ids := h.ids.map fun r _ => (hf r).1
  pairs s b := by
    rw [pairRows_map hf]
    exact (h.pairs s b).map (fun e he => hopen e (mem_pairRows.mp he).1)
      fun e he c hc => hcouple e (mem_pairRows.mp he).1 c (mem_pairRows.mp hc).1
  seqs s b := by
    rw [pairRows_map hf, map_map, length_map, ← h.seqs s b]
    exact map_congr_left fun r _ => (hf r).2.2.2
  settled := by
    intro r hr
    obtain ⟨r', hr', rfl⟩ := mem_map.mp hr
    exact hsettled r' hr'

theorem LedgerWf.snoc {rows : List OverrideRow} (h : LedgerWf rows) {r : OverrideRow}
    (hid : r.id = rows.length + 1)
    (hseq : r.pairSeq = (pairRows rows r.saleId r.beneficiaryRepId).length)
    (hpair : Alternates OpenEarn Couple (pairRows rows r.saleId r.beneficiaryRepId ++ [r]))
    (hsettled : r.status = .settled ↔ r.settledStatementId.isSome) : LedgerWf (rows ++ [r]) where
  ids := h.ids.snoc hid
  pairs s b := by
    by_cases hsb : r.saleId = s ∧ r.beneficiaryRepId = b
    · obtain ⟨rfl, rfl⟩ := hsb
      rwa [pairRows_append_self rows rfl rfl]
    · rw [pairRows_append_other hsb]
      exact h.pairs s b
  seqs s b := by
    by_cases hsb : r.saleId = s ∧ r.beneficiaryRepId = b
    · obtain ⟨rfl, rfl⟩ := hsb
      rw [pairRows_append_self rows rfl rfl, map_append, h.seqs, length_append,
        length_singleton, range_succ, map_singleton, hseq]
    · rw [pairRows_append_other hsb]
      exact h.seqs s b
  settled := by
    intro r' hr'
    rcases mem_append.mp hr' with hr' | hr'
    · exact h.settled r' hr'
    · rw [mem_singleton.mp hr']
      exact hsettled

section Close

variable {rows h : List OverrideRow} {x b : Nat} {earn : OverrideRow} (now : Stamp)

theorem keepsPair_mootRow (earn : OverrideRow) : KeepsPair (mootRow now earn) := by
  intro r
  unfold mootRow
  split <;> exact ⟨rfl, rfl, rfl, rfl⟩

theorem mootRow_of_id_ne (hid : r.id ≠ earn.id) : mootRow now earn r = r :=
  if_neg fun hr => hid hr.1

theorem mootRow_earn_ne_held : (mootRow now earn earn).status ≠ .held := by
  unfold mootRow
  split
  · simp
  · rename_i hn
    intro hheld
    exact hn ⟨rfl, by rw [hheld]; decide, by rw [hheld]; decide⟩

theorem clawRow_ne_held (n id : Nat) : (clawRow now earn n id).status ≠ .held := by
  unfold clawRow clawVerdict
  cases earn.status <;> simp

theorem clawRow_ne_settled (n id : Nat) : (clawRow now earn n id).status ≠ .settled := by
  unfold clawRow clawVerdict
  cases earn.status <;> simp

/-- The rows after the pair `h ++ [earn]` is closed. -/
def closedRows (rows h : List OverrideRow) (earn : OverrideRow) : List OverrideRow :=
  rows.map (mootRow now earn) ++ [clawRow now earn (h.length + 1) (rows.length + 1)]

theorem couple_claw (hearn : earn.entryType = .earn) {n : Nat} (hseq : earn.pairSeq = n)
    (id : Nat) : Couple (mootRow now earn earn) (clawRow now earn (n + 1) id) where
  earn := by
    unfold mootRow
    split <;> exact hearn
  clawback := rfl
  seq := by rw [(keepsPair_mootRow now earn earn).2.2.2, hseq]; rfl
  amount := by
    unfold mootRow
    split <;> rfl
  week := by
    unfold mootRow
    split <;> rfl
  earn_not_held := mootRow_earn_ne_held now
  claw_not_held := clawRow_ne_held now _ _

theorem mem_of_pairRows (hpair : pairRows rows x b = h ++ [earn]) :
    earn ∈ rows ∧ earn.saleId = x ∧ earn.beneficiaryRepId = b :=
  mem_pairRows.mp (hpair ▸ mem_append_right _ (mem_singleton_self _))

variable (hwf : LedgerWf rows) (hpair : pairRows rows x b = h ++ [earn])

include hwf hpair

theorem LedgerWf.pairSeq_last : earn.pairSeq = h.length := by
  have := hwf.seqs x b
  rw [hpair, map_append, length_append, length_singleton, range_succ] at this
  simpa using (append_inj' this rfl).2

theorem LedgerWf.map_mootRow_of_ne (hl : ∀ r ∈ l, r ∈ rows ∧ r ≠ earn) :
    l.map (mootRow now earn) = l := by
  obtain ⟨hmem, _⟩ := mem_of_pairRows hpair
  refine (map_congr_left fun r hr => ?_).trans (map_id l)
  exact mootRow_of_id_ne now fun hid => (hl r hr).2 (hwf.ids.eq_of_key (hl r hr).1 hmem hid)

theorem LedgerWf.notMem_init : earn ∉ h := by
  intro hmem
  have hnd : ((pairRows rows x b).map (·.id)).Nodup :=
    hwf.ids.nodup.sublist (filter_sublist.map _)
  rw [hpair, map_append, nodup_append] at hnd
  exact hnd.2.2 _ (mem_map_of_mem hmem) _ (mem_singleton_self _) rfl

theorem pairRows_closedRows_self :
    pairRows (closedRows now rows h earn) x b =
      h ++ [mootRow now earn earn, clawRow now earn (h.length + 1) (rows.length + 1)] := by
  obtain ⟨_, hx, hb⟩ := mem_of_pairRows hpair
  have hinit : h.map (mootRow now earn) = h := by
    refine hwf.map_mootRow_of_ne now hpair fun r hr => ⟨?_, ?_⟩
    · exact (mem_pairRows.mp (hpair ▸ mem_append_left _ hr : r ∈ pairRows rows x b)).1
    · rintro rfl
      exact hwf.notMem_init hpair hr
  have hself := pairRows_append_self (rows.map (mootRow now earn)) hx hb
    (r := clawRow now earn (h.length + 1) (rows.length + 1))
  unfold closedRows
  rw [hself, pairRows_map (keepsPair_mootRow now earn), hpair, map_append, hinit,
    append_assoc]
  rfl

theorem pairRows_closedRows_other {b' : Nat} (hsb : ¬ (s = x ∧ b' = b)) :
    pairRows (closedRows now rows h earn) s b' = pairRows rows s b' := by
  obtain ⟨_, hx, hb⟩ := mem_of_pairRows hpair
  unfold closedRows
  rw [pairRows_append_other, pairRows_map (keepsPair_mootRow now earn)]
  · refine hwf.map_mootRow_of_ne now hpair fun r hr => ?_
    obtain ⟨hr, hs, hb'⟩ := mem_pairRows.mp hr
    refine ⟨hr, ?_⟩
    rintro rfl
    exact hsb ⟨hs.symm.trans hx, hb'.symm.trans hb⟩
  · rintro ⟨hs, hb'⟩
    exact hsb ⟨hs.symm.trans hx, hb'.symm.trans hb⟩

theorem LedgerWf.closedRows (hclosed : Closed Couple h) (hopen : OpenEarn earn) :
    LedgerWf (closedRows now rows h earn) where
  ids := (hwf.ids.map fun r _ => (keepsPair_mootRow now earn r).1).snoc (by simp [clawRow])
  pairs s b' := by
    by_cases hsb : s = x ∧ b' = b
    · obtain ⟨rfl, rfl⟩ := hsb
      rw [pairRows_closedRows_self now hwf hpair]
      exact .inl (hclosed.couple (couple_claw now hopen.1 (hwf.pairSeq_last hpair) _))
    · rw [pairRows_closedRows_other now hwf hpair hsb]
      exact hwf.pairs s b'
  seqs s b' := by
    by_cases hsb : s = x ∧ b' = b
    · obtain ⟨rfl, rfl⟩ := hsb
      have hs := hwf.seqs s b'
      rw [hpair] at hs
      rw [pairRows_closedRows_self now hwf hpair,
        show h ++ [mootRow now earn earn, clawRow now earn (h.length + 1) (rows.length + 1)] =
          (h ++ [mootRow now earn earn]) ++ [clawRow now earn (h.length + 1) (rows.length + 1)] by
          simp, map_append, map_append, map_singleton,
        (keepsPair_mootRow now earn earn).2.2.2]
      rw [map_append, map_singleton] at hs
      rw [hs]
      simp [range_succ, clawRow]
    · rw [pairRows_closedRows_other now hwf hpair hsb]
      exact hwf.seqs s b'
  settled := by
    intro r hr
    rcases mem_append.mp hr with hr | hr
    · obtain ⟨r', hr', rfl⟩ := mem_map.mp hr
      unfold mootRow
      split
      · rename_i hmoot
        have heq := hwf.ids.eq_of_key hr' (mem_of_pairRows hpair).1 hmoot.1
        have hns := mt (hwf.settled r' hr').mpr (heq ▸ hmoot.2.1)
        simpa using hns
      · exact hwf.settled r' hr'
    · rw [mem_singleton.mp hr]
      simp only [clawRow_ne_settled, false_iff]
      simp [clawRow]

end Close

section Open

variable (db : Db) (now : Stamp) (sale : Sale) (week : Stamp) (snapshot : List ChainSnapshotNode)
  (a : OverrideAward) (n : Nat)

theorem earnRow_status :
    (earnRow db now sale week snapshot a n).status = .exception ∨
      (earnRow db now sale week snapshot a n).status = .held ∨
      (earnRow db now sale week snapshot a n).status = .payable := by
  unfold earnRow
  dsimp only
  split
  · exact .inl rfl
  · split
    · exact .inr (.inl rfl)
    · exact .inr (.inr rfl)

theorem openEarn_earnRow : OpenEarn (earnRow db now sale week snapshot a n) := by
  refine ⟨rfl, ?_⟩
  rcases earnRow_status db now sale week snapshot a n with h | h | h <;> rw [h] <;> simp [earnRow]

theorem earnRow_not_settled : (earnRow db now sale week snapshot a n).status ≠ .settled := by
  rcases earnRow_status db now sale week snapshot a n with h | h | h <;> rw [h] <;> decide

theorem LedgerWf.opened {rows : List OverrideRow} (hwf : LedgerWf rows)
    (hclosed : Closed Couple (pairRows rows sale.id a.repId)) :
    LedgerWf (rows ++ [earnRow { db with overrides := rows } now sale week snapshot a
      (pairRows rows sale.id a.repId).length]) := by
  refine hwf.snoc rfl rfl (hclosed.open (openEarn_earnRow ..)) ?_
  simp only [earnRow_not_settled, false_iff]
  simp [earnRow]

end Open

section Sync

variable {db : Db} {x : Nat} {week now : Stamp} {I : List OverrideRow → Prop}

theorem mem_pairBeneficiaries {rows : List OverrideRow} {b : Nat} :
    b ∈ pairBeneficiaries rows x ↔ pairRows rows x b ≠ [] := by
  unfold pairBeneficiaries
  rw [mem_insertionSort, mem_dedup, mem_map, ne_eq, eq_nil_iff_forall_not_mem]
  constructor
  · rintro ⟨r, hr, rfl⟩ hnone
    have hr := mem_filter.mp hr
    exact hnone r (mem_pairRows.mpr ⟨hr.1, by simpa using hr.2, rfl⟩)
  · intro h
    obtain ⟨r, hr⟩ := not_forall_not.mp h
    obtain ⟨hr, hx, hb⟩ := mem_pairRows.mp hr
    exact ⟨r, mem_filter.mpr ⟨hr, by simpa using hx⟩, hb⟩

theorem pairBeneficiaries_nodup (rows : List OverrideRow) (x : Nat) :
    (pairBeneficiaries rows x).Nodup :=
  (perm_insertionSort ..).nodup_iff.mpr (nodup_dedup _)

theorem saleById_id {sale : Sale} (h : db.saleById x = some sale) : sale.id = x := by
  simpa using find?_some h

theorem closePair_eq (now : Stamp) {rows : List OverrideRow} (hwf : LedgerWf rows) {b : Nat}
    (hpair : pairRows db.overrides x b = pairRows rows x b) :
    (Closed Couple (pairRows rows x b) ∧
      closePair now x db.overrides { db with overrides := rows } b =
        { db with overrides := rows }) ∨
    ∃ h earn, pairRows rows x b = h ++ [earn] ∧ Closed Couple h ∧ OpenEarn earn ∧
      closePair now x db.overrides { db with overrides := rows } b =
        { db with overrides := closedRows now rows h earn } := by
  unfold closePair
  rw [hpair]
  rcases hwf.pairs x b with hc | ⟨h, earn, hc, he, hh⟩
  · refine .inl ⟨hc, ?_⟩
    rw [if_pos hc.length_even]
  · refine .inr ⟨h, earn, hh, hc, he, ?_⟩
    have hodd : ¬ (h ++ [earn]).length % 2 = 0 := by
      have := hc.length_even
      rw [length_append, length_singleton]
      omega
    rw [hh, if_neg hodd, getLast?_append]
    simp only [getLast?_singleton, Option.some_or]
    rw [if_neg (by rw [he.1]; decide), length_append, length_singleton]
    rfl

/-- What a sync of a sale that is not QUALIFIED keeps: every open pair of the sale is closed. -/
theorem foldl_closePair_rows (hwf : LedgerWf db.overrides) (hI : I db.overrides)
    (hclose : ∀ b rows h earn, LedgerWf rows → I rows → pairRows rows x b = h ++ [earn] →
      Closed Couple h → OpenEarn earn → I (closedRows now rows h earn)) :
    ∃ rows, (pairBeneficiaries db.overrides x).foldl (closePair now x db.overrides) db =
        { db with overrides := rows } ∧ LedgerWf rows ∧ I rows ∧
      ∀ b, Closed Couple (pairRows rows x b) := by
  have key := foldl_induction (f := closePair now x db.overrides)
    (I := fun bs d => bs.Nodup ∧ ∃ rows, d = { db with overrides := rows } ∧ LedgerWf rows ∧
      I rows ∧ (∀ b ∈ bs, pairRows db.overrides x b = pairRows rows x b) ∧
      ∀ b, b ∉ bs → Closed Couple (pairRows rows x b))
    (l := pairBeneficiaries db.overrides x) (s := db) ?_ ?_
  · obtain ⟨_, rows, hd, hw, hi, _, hall⟩ := key
    exact ⟨rows, hd, hw, hi, fun b => hall b not_mem_nil⟩
  · rintro b bs d ⟨hnd, rows, rfl, hw, hi, hsame, hdone⟩
    have hnb := (nodup_cons.mp hnd).1
    refine ⟨(nodup_cons.mp hnd).2, ?_⟩
    rcases closePair_eq now hw (hsame b mem_cons_self) with
      ⟨hc, he⟩ | ⟨h, earn, hh, hc, ho, he⟩
    · refine ⟨rows, he, hw, hi, fun b' hb' => hsame b' (mem_cons_of_mem _ hb'), ?_⟩
      intro b' hb'
      by_cases hbb : b' = b
      · exact hbb ▸ hc
      · exact hdone b' fun hmem => (mem_cons.mp hmem).elim hbb hb'
    · refine ⟨_, he, hw.closedRows now hh hc ho, hclose b rows h earn hw hi hh hc ho, ?_, ?_⟩
      · intro b' hb'
        rw [pairRows_closedRows_other now hw hh
          (fun hsb => hnb (hsb.2 ▸ hb'))]
        exact hsame b' (mem_cons_of_mem _ hb')
      · intro b' hb'
        by_cases hbb : b' = b
        · rw [hbb, pairRows_closedRows_self now hw hh]
          exact hc.couple (couple_claw now ho.1 (hw.pairSeq_last hh) _)
        · rw [pairRows_closedRows_other now hw hh (fun hsb => hbb hsb.2)]
          exact hdone b' fun hmem => (mem_cons.mp hmem).elim hbb hb'
  · refine ⟨pairBeneficiaries_nodup _ _, db.overrides, rfl, hwf, hI, fun _ _ => rfl, ?_⟩
    intro b hb
    rw [mem_pairBeneficiaries, not_not] at hb
    rw [hb]
    exact Closed.nil

theorem foldl_openPair_rows (now week : Stamp) {sale : Sale} {snapshot : List ChainSnapshotNode}
    {awards : List OverrideAward} (hnd : (awards.map (·.repId)).Nodup)
    (hwf : LedgerWf db.overrides) (hI : I db.overrides)
    (hopen : ∀ a ∈ awards, ∀ rows, LedgerWf rows → I rows →
      Closed Couple (pairRows rows sale.id a.repId) →
      I (rows ++ [earnRow { db with overrides := rows } now sale week snapshot a
        (pairRows rows sale.id a.repId).length])) :
    ∃ rows, awards.foldl (openPair now sale week snapshot db.overrides) db =
        { db with overrides := rows } ∧ LedgerWf rows ∧ I rows := by
  have key := foldl_induction (f := openPair now sale week snapshot db.overrides)
    (I := fun as d => (as.map (·.repId)).Nodup ∧ (∀ a ∈ as, a ∈ awards) ∧
      ∃ rows, d = { db with overrides := rows } ∧ LedgerWf rows ∧ I rows ∧
      ∀ a ∈ as, pairRows db.overrides sale.id a.repId = pairRows rows sale.id a.repId)
    (l := awards) (s := db) ?_ ?_
  · obtain ⟨_, _, rows, hd, hw, hi, _⟩ := key
    exact ⟨rows, hd, hw, hi⟩
  · rintro a as d ⟨hnd, hmem, rows, rfl, hw, hi, hsame⟩
    rw [map_cons, nodup_cons] at hnd
    have hrest : ∀ a' ∈ as, a' ∈ awards := fun a' ha' => hmem a' (mem_cons_of_mem _ ha')
    refine ⟨hnd.2, hrest, ?_⟩
    unfold openPair
    dsimp only
    rw [hsame a mem_cons_self]
    split
    · exact ⟨rows, rfl, hw, hi, fun a' ha' => hsame a' (mem_cons_of_mem _ ha')⟩
    · rename_i hodd
      have hc := (hw.pairs sale.id a.repId).closed hodd
      refine ⟨_, rfl, hw.opened db now sale week snapshot a hc,
        hopen a (hmem a mem_cons_self) rows hw hi hc, ?_⟩
      intro a' ha'
      rw [hsame a' (mem_cons_of_mem _ ha'), pairRows_append_other]
      rintro ⟨_, hb⟩
      exact hnd.1 (mem_map.mpr ⟨a', ha', hb.symm⟩)
  · exact ⟨hnd, fun _ h => h, db.overrides, rfl, hwf, hI, fun _ _ => rfl⟩

theorem saleAwards_nodup (db : Db) (sale : Sale) :
    ((saleAwards db sale).1.map (·.repId)).Nodup ∧ ((saleAwards db sale).1.map (·.role)).Nodup := by
  unfold saleAwards
  split
  · split
    · exact ⟨nodup_nil, nodup_nil⟩
    · exact computeFlatOverrides_nodup ‹_› _
  · exact ⟨nodup_nil, nodup_nil⟩

/-- The rule for a sync: it writes the override table only, by opening closed pairs of a QUALIFIED
sale and by closing all open pairs of any other. -/
theorem syncOverridesForSale_rows (x : Nat) (week now : Stamp) (hwf : LedgerWf db.overrides)
    (hI : I db.overrides)
    (hopen : ∀ sale, db.saleById x = some sale → sale.status = .qualified →
      ∀ a ∈ (saleAwards db sale).1, ∀ rows, LedgerWf rows → I rows →
      Closed Couple (pairRows rows sale.id a.repId) →
      I (rows ++ [earnRow { db with overrides := rows } now sale week (saleAwards db sale).2 a
        (pairRows rows sale.id a.repId).length]))
    (hclose : ∀ sale, db.saleById x = some sale → sale.status ≠ .qualified →
      ∀ b rows h earn, LedgerWf rows → I rows → pairRows rows x b = h ++ [earn] →
      Closed Couple h → OpenEarn earn → I (closedRows now rows h earn)) :
    ∃ rows, syncOverridesForSale x week now db = { db with overrides := rows } ∧ LedgerWf rows ∧
      I rows ∧ ∀ sale, db.saleById x = some sale → sale.status ≠ .qualified →
        ∀ b, Closed Couple (pairRows rows x b) := by
  unfold syncOverridesForSale
  cases hsale : db.saleById x with
  | none => exact ⟨db.overrides, rfl, hwf, hI, fun _ h => absurd h (by simp)⟩
  | some sale =>
    dsimp only
    split
    · rename_i hq
      obtain ⟨rows, he, hw, hi⟩ := foldl_openPair_rows now week
        (saleAwards_nodup db sale).1 hwf hI (hopen sale hsale hq)
      refine ⟨rows, he, hw, hi, fun sale' hs hn => ?_⟩
      rw [Option.some.injEq] at hs
      exact absurd (hs ▸ hq) hn
    · rename_i hq
      obtain ⟨rows, he, hw, hi, hall⟩ := foldl_closePair_rows hwf hI (hclose sale hsale hq)
      exact ⟨rows, he, hw, hi, fun _ _ _ => hall⟩

/-- A sync of a QUALIFIED sale opens the closed pairs of its awards and leaves all others alone. -/
theorem syncOverridesForSale_opens (week now : Stamp) (hwf : LedgerWf db.overrides) {sale : Sale}
    (hsale : db.saleById x = some sale) (hst : sale.status = .qualified) :
    ∃ rows, syncOverridesForSale x week now db = { db with overrides := rows } ∧ LedgerWf rows ∧
      ∀ s b, pairRows rows s b = pairRows db.overrides s b ∨
        s = x ∧ Closed Couple (pairRows db.overrides s b) ∧
          ∃ a ∈ (saleAwards db sale).1, a.repId = b ∧ ∃ d n, pairRows rows s b =
            pairRows db.overrides s b ++
              [earnRow d now sale week (saleAwards db sale).2 a n] := by
  have key := syncOverridesForSale_rows x week now (I := fun rows =>
    ∀ s b, pairRows rows s b = pairRows db.overrides s b ∨
      s = x ∧ Closed Couple (pairRows db.overrides s b) ∧
        ∃ a ∈ (saleAwards db sale).1, a.repId = b ∧ ∃ d n, pairRows rows s b =
          pairRows db.overrides s b ++
            [earnRow d now sale week (saleAwards db sale).2 a n]) hwf
    (fun _ _ => .inl rfl) ?_ ?_
  · obtain ⟨rows, he, hw, hI, _⟩ := key
    exact ⟨rows, he, hw, hI⟩
  · intro sale' hs _ a ha rows _ hI hc s b
    rw [hsale, Option.some.injEq] at hs
    subst hs
    by_cases hsb : sale.id = s ∧ a.repId = b
    · obtain ⟨rfl, rfl⟩ := hsb
      rw [pairRows_append_self (s := sale.id) (b := a.repId) rows rfl rfl]
      rcases hI sale.id a.repId with hsame | ⟨_, hc', a', _, _, d, n, hl⟩
      · exact .inr ⟨saleById_id hsale, hsame ▸ hc, a, ha, rfl, _, _, by rw [hsame]⟩
      · have hlen := congrArg List.length hl
        have h1 := hc.length_even
        have h2 := hc'.length_even
        rw [length_append, length_singleton] at hlen
        omega
    · rw [pairRows_append_other hsb]
      exact hI s b
  · intro sale' hs hq
    rw [hsale, Option.some.injEq] at hs
    exact absurd (hs ▸ hst) hq

/-- The pair `l'` is `l`, closed if it was open: its EARN is answered by a CLAWBACK. -/
def ClosedAs (now : Stamp) (l l' : List OverrideRow) : Prop :=
  (Closed Couple l ∧ l' = l) ∨
    ∃ h earn id, l = h ++ [earn] ∧ Closed Couple h ∧ OpenEarn earn ∧
      l' = h ++ [mootRow now earn earn, clawRow now earn (h.length + 1) id]

theorem ClosedAs.length_even {l' : List OverrideRow} (h : ClosedAs now l l') :
    l'.length % 2 = 0 := by
  rcases h with ⟨hc, rfl⟩ | ⟨h, earn, id, _, hc, _, rfl⟩
  · exact hc.length_even
  · have := hc.length_even
    simp only [length_append, length_cons, length_nil]
    omega

/-- A sync of a sale that is not QUALIFIED closes its open pairs and leaves all others alone. -/
theorem syncOverridesForSale_closes (week now : Stamp) (hwf : LedgerWf db.overrides) {sale : Sale}
    (hsale : db.saleById x = some sale) (hst : sale.status ≠ .qualified) :
    ∃ rows, syncOverridesForSale x week now db = { db with overrides := rows } ∧ LedgerWf rows ∧
      (∀ b, ClosedAs now (pairRows db.overrides x b) (pairRows rows x b)) ∧
      ∀ s b, s ≠ x → pairRows rows s b = pairRows db.overrides s b := by
  have key := syncOverridesForSale_rows x week now (I := fun rows =>
    (∀ b, pairRows rows x b = pairRows db.overrides x b ∨
      ClosedAs now (pairRows db.overrides x b) (pairRows rows x b)) ∧
    ∀ s b, s ≠ x → pairRows rows s b = pairRows db.overrides s b) hwf
    ⟨fun _ => .inl rfl, fun _ _ _ => rfl⟩ ?_ ?_
  · obtain ⟨rows, he, hw, hI, hall⟩ := key
    refine ⟨rows, he, hw, fun b => ?_, hI.2⟩
    rcases hI.1 b with hsame | hc
    · exact .inl ⟨hsame ▸ hall sale hsale hst b, hsame⟩
    · exact hc
  · intro sale' hs hq
    rw [hsale, Option.some.injEq] at hs
    exact absurd (hs ▸ hq) hst
  · intro sale' _ _ b rows h earn hw hI hpair hc ho
    refine ⟨fun b' => ?_, fun s b' hsx => ?_⟩
    · by_cases hb : b' = b
      · rw [hb, pairRows_closedRows_self now hw hpair]
        rcases hI.1 b with hsame | ⟨hcl, hsame⟩ | ⟨h', earn', id, _, hc', _, hl⟩
        · exact .inr (.inr ⟨h, earn, _, hsame ▸ hpair, hc, ho, rfl⟩)
        · exact .inr (.inr ⟨h, earn, _, hsame ▸ hpair, hc, ho, rfl⟩)
        · have hlen := congrArg List.length (hpair.symm.trans hl)
          have h1 := hc.length_even
          have h2 := hc'.length_even
          simp only [length_append, length_cons, length_nil] at hlen
          omega
      · rw [pairRows_closedRows_other now hw hpair fun hsb => hb hsb.2]
        exact hI.1 b'
    · rw [pairRows_closedRows_other now hw hpair fun hsb => hsx hsb.1]
      exact hI.2 s b' hsx

end Sync

end HomefrontFiber.Commission
