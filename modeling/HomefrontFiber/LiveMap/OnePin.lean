import Mathlib.Data.Multiset.Basic
import HomefrontFiber.LiveMap.Doors

/-!
# The pins are a partition of the leads

Every lead is listed by one pin, and a pin's own lead ranks above the others it lists. A door, and
the lead it elects, are the same whatever the order of the leads.
-/

namespace HomefrontFiber.LiveMap

open FreshFiber ScriptText List

variable (env : Platform)

def LeadRow.leadIds (row : LeadRow) : List Text := row.mergedLeadIds.getD [row.idText]

def LeadRow.single (lead : DedupableLead) : LeadRow := { lead with }

def LeadRow.face (row : LeadRow) : DedupableLead × Multiset Text × Option Nat :=
  (row.toDedupableLead, (row.leadIds : Multiset Text), row.mergedCount)

/-- What both passes make of the rows: the houses `entries`, and the doors they stand at. -/
structure Doors (rows : List LeadRow) (h : Houses) (groups first : Text → List LeadRow)
    (entries : List (Text × LeadRow)) : Prop where
  settled : h.Settled env groups first entries []
  ofHouse : ∀ k, (first k).Perm (ofHouse env rows k)
  elected : ∀ e ∈ entries, RowElected env e.2 (first e.1)
  all : ∀ k, first k ≠ [] → ∃ e ∈ entries, e.1 = k
  passthrough : h.passthrough = rows.filter fun row => houseKey env row.toDedupableLead = none

theorem doors_dedupe (rows : List LeadRow) : ∃ groups first entries,
    Doors env rows (secondPass env (firstPass env rows)) groups first entries := by
  obtain ⟨first, hfirst, hhouses, hpass⟩ := firstPass_holds env rows
  obtain ⟨groups, hsettled, hpass'⟩ := hfirst.secondPass
  refine ⟨groups, first, _, hsettled, hhouses, fun e he => ?_, fun k hk => ?_, hpass'.trans hpass⟩
  · exact hfirst.elected e.1 e.2 (InsertionMap.get?_eq_some_iff.mpr he)
  · cases hs : (firstPass env rows).survivors.get? k with
    | none =>
      rw [hfirst.survivor] at hs
      exact absurd (head?_eq_none_iff.mp hs) hk
    | some s => exact ⟨(k, s), InsertionMap.get?_eq_some_iff.mp hs, rfl⟩

variable {env} {rows : List LeadRow} {h : Houses} {groups first : Text → List LeadRow}
  {entries : List (Text × LeadRow)} {e : Text × LeadRow}

variable {x row : LeadRow}

namespace Doors

variable (hd : Doors env rows h groups first entries)

include hd

theorem has_mem (he : h.Has e) : e ∈ entries := by
  have hmem := hd.settled.origin e he
  rw [append_nil] at hmem
  exact hmem

theorem mem_first (e : Text × LeadRow) :
    x ∈ first e.1 ↔ x ∈ rows ∧ houseKey env x.toDedupableLead = some e.1 := by
  rw [(hd.ofHouse e.1).mem_iff]
  unfold LiveMap.ofHouse
  rw [mem_filter, decide_eq_true_eq]

theorem houseKey_survivor (he : e ∈ entries) :
    e.2 ∈ rows ∧ houseKey env e.2.toDedupableLead = some e.1 :=
  (hd.mem_first e).mp (hd.elected e he).mem

theorem mem_group (he : h.Has e) : x ∈ groups e.1 ↔ x ∈ rows ∧
    ∃ f ∈ entries, houseKey env x.toDedupableLead = some f.1 ∧ door env f = door env e := by
  rw [(hd.settled.group e (hd.has_mem he) he).mem_iff]
  unfold atDoor
  rw [mem_flatMap]
  constructor
  · rintro ⟨f, hf, hx⟩
    obtain ⟨hf, hdoor⟩ := mem_filter.mp hf
    obtain ⟨hrow, hkey⟩ := (hd.mem_first f).mp hx
    exact ⟨hrow, f, hf, hkey, of_decide_eq_true hdoor⟩
  · rintro ⟨hrow, f, hf, hkey, hdoor⟩
    exact ⟨f, mem_filter.mpr ⟨hf, decide_eq_true hdoor⟩, (hd.mem_first f).mpr ⟨hrow, hkey⟩⟩

theorem eq_of_key {f : Text × LeadRow} (he : e ∈ entries) (hf : f ∈ entries) (hkey : e.1 = f.1) :
    e = f := by
  have hkeys := hd.settled.keys
  rw [append_nil] at hkeys
  exact inj_on_of_nodup_map hkeys he hf hkey

theorem disjoint {f : Text × LeadRow} (he : h.Has e) (hf : h.Has f)
    (hxe : x ∈ groups e.1) (hxf : x ∈ groups f.1) : e = f := by
  obtain ⟨-, a, ha, hakey, hadoor⟩ := (hd.mem_group he).mp hxe
  obtain ⟨-, b, hb, hbkey, hbdoor⟩ := (hd.mem_group hf).mp hxf
  have hab : a = b := hd.eq_of_key ha hb (Option.some.inj (hakey.symm.trans hbkey))
  exact hd.settled.separate e (hd.has_mem he) f (hd.has_mem hf) he hf
    (hadoor.symm.trans (hab ▸ hbdoor))

theorem nodup_group (hrows : rows.Nodup) (he : h.Has e) : (groups e.1).Nodup := by
  rw [(hd.settled.group e (hd.has_mem he) he).nodup_iff]
  unfold atDoor
  rw [nodup_flatMap]
  constructor
  · intro f _
    rw [(hd.ofHouse f.1).nodup_iff]
    exact hrows.filter _
  · have hkeys := hd.settled.keys
    rw [append_nil] at hkeys
    apply List.Pairwise.filter
    apply (pairwise_map.mp hkeys).imp
    intro a b hab x hxa hxb
    have hkeyA := ((hd.mem_first a).mp hxa).2
    have hkeyB := ((hd.mem_first b).mp hxb).2
    exact hab (Option.some.inj (hkeyA.symm.trans hkeyB))

theorem perm_groups (hrows : rows.Nodup) :
    (h.survivors.entries.flatMap (fun e => groups e.1)).Perm
      (rows.filter fun row => houseKey env row.toDedupableLead ≠ none) := by
  have hhas : ∀ e ∈ h.survivors.entries, h.Has e :=
    fun e he => InsertionMap.get?_eq_some_iff.mpr he
  rw [perm_ext_iff_of_nodup _ (hrows.filter _)]
  · intro x
    rw [mem_flatMap, mem_filter, decide_eq_true_eq]
    constructor
    · rintro ⟨e, he, hx⟩
      obtain ⟨hrow, f, -, hkey, -⟩ := (hd.mem_group (hhas e he)).mp hx
      exact ⟨hrow, by simp [hkey]⟩
    · rintro ⟨hrow, hkey⟩
      obtain ⟨key, hkey⟩ := Option.ne_none_iff_exists'.mp hkey
      have hmem : x ∈ first key := (hd.mem_first (key, x)).mpr ⟨hrow, hkey⟩
      obtain ⟨f, hf, rfl⟩ := hd.all key (ne_nil_of_mem hmem)
      obtain ⟨e, -, he, hdoor⟩ := hd.settled.met f hf
      exact ⟨e, InsertionMap.get?_eq_some_iff.mp he,
        (hd.mem_group he).mpr ⟨hrow, f, hf, hkey, hdoor.symm⟩⟩
  · rw [nodup_flatMap]
    refine ⟨fun e he => hd.nodup_group hrows (hhas e he), ?_⟩
    apply (pairwise_map.mp h.survivors.nodup).imp_of_mem
    intro a b ha hb hab x hxa hxb
    exact hab (congrArg Prod.fst (hd.disjoint (hhas a ha) (hhas b hb) hxa hxb))

theorem leadIds_row (hsingle : ∀ x ∈ rows, x.mergedLeadIds = none) (he : h.Has e) :
    (h.row e).leadIds = (groups e.1).map fun row => row.idText := by
  have hids := hd.settled.holds.ids_eq e.1
  have helected := hd.settled.holds.elected e.1 e.2 he
  unfold Houses.row
  dsimp only
  rw [hids]
  split
  · rfl
  · rename_i hone
    obtain ⟨tail, htail⟩ := head?_eq_some_iff.mp helected.head
    rw [length_map, htail, length_cons] at hone
    have hnil : tail = [] := length_eq_zero_iff.mp (by omega)
    unfold LeadRow.leadIds
    rw [hsingle e.2 (hd.houseKey_survivor (hd.has_mem he)).1, htail, hnil]
    rfl

theorem mergedCount_row (hsingle : ∀ x ∈ rows, x.mergedCount = none) (he : h.Has e) :
    (h.row e).mergedCount =
      if 1 < (groups e.1).length then some (groups e.1).length else none := by
  unfold Houses.row
  dsimp only
  rw [hd.settled.holds.ids_eq, length_map]
  split
  · rfl
  · exact hsingle e.2 (hd.houseKey_survivor (hd.has_mem he)).1

end Doors

theorem Houses.row_toDedupableLead (h : Houses) (e : Text × LeadRow) :
    (h.row e).toDedupableLead = e.2.toDedupableLead := by
  unfold Houses.row
  dsimp only
  split <;> rfl

theorem rooftopKey_eq_none {lead : DedupableLead} (hkey : houseKey env lead = none) :
    rooftopKey env lead = none := by
  unfold houseKey at hkey
  unfold rooftopKey
  cases hlat : lead.lat with
  | none => rfl
  | some lat =>
    cases hlng : lead.lng with
    | none => rfl
    | some lng =>
      rw [hlat, hlng] at hkey
      dsimp only at hkey
      split at hkey <;> cases hkey

variable (env) in
/-- Two rows of the map that are different houses on different rooftops. -/
def Apart (a b : LeadRow) : Prop :=
  (∀ k, houseKey env a.toDedupableLead = some k → houseKey env b.toDedupableLead ≠ some k) ∧
    ∀ roof, rooftopKey env a.toDedupableLead = some roof →
      rooftopKey env b.toDedupableLead ≠ some roof

theorem apart_of_none {a b : LeadRow} (hkey : houseKey env b.toDedupableLead = none) :
    Apart env a b := by
  refine ⟨fun k _ => ?_, fun roof _ => ?_⟩
  · rw [hkey]
    exact fun h => nomatch h
  · rw [rooftopKey_eq_none hkey]
    exact fun h => nomatch h

theorem dedupeLeads_apart (rows : List LeadRow) :
    (dedupeLeads env rows).Pairwise (Apart env) := by
  obtain ⟨groups, first, entries, hd⟩ := doors_dedupe env rows
  unfold dedupeLeads
  rw [pairwise_append]
  refine ⟨?_, ?_, fun a _ b hb => ?_⟩
  · rw [pairwise_map]
    apply (pairwise_map.mp (InsertionMap.nodup _)).imp_of_mem
    intro a b ha hb hab
    have ha : Houses.Has _ a := InsertionMap.get?_eq_some_iff.mpr ha
    have hb : Houses.Has _ b := InsertionMap.get?_eq_some_iff.mpr hb
    unfold Apart
    rw [Houses.row_toDedupableLead, Houses.row_toDedupableLead]
    constructor
    · intro k hka hkb
      rw [(hd.houseKey_survivor (hd.has_mem ha)).2] at hka
      rw [(hd.houseKey_survivor (hd.has_mem hb)).2] at hkb
      exact hab (Option.some.inj (hka.trans hkb.symm))
    · intro roof hra hrb
      have hdoor := (door_roof hra).trans (door_roof hrb).symm
      exact hab (congrArg Prod.fst
        (hd.settled.separate a (hd.has_mem ha) b (hd.has_mem hb) ha hb hdoor))
  · rw [hd.passthrough]
    apply pairwise_of_forall_mem_list
    intro a _ b hb
    exact apart_of_none (of_decide_eq_true (mem_filter.mp hb).2)
  · rw [hd.passthrough] at hb
    exact apart_of_none (of_decide_eq_true (mem_filter.mp hb).2)

theorem mem_dedupeLeads
    (hd : Doors env rows (secondPass env (firstPass env rows)) groups first entries) :
    row ∈ dedupeLeads env rows ↔
      (∃ e, (secondPass env (firstPass env rows)).Has e ∧
        (secondPass env (firstPass env rows)).row e = row) ∨
      row ∈ rows ∧ houseKey env row.toDedupableLead = none := by
  unfold dedupeLeads
  rw [mem_append, hd.passthrough, mem_filter, decide_eq_true_eq, mem_map]
  apply or_congr _ Iff.rfl
  constructor
  · rintro ⟨e, he, hrow⟩
    exact ⟨e, InsertionMap.get?_eq_some_iff.mpr he, hrow⟩
  · rintro ⟨e, he, hrow⟩
    exact ⟨e, InsertionMap.get?_eq_some_iff.mp he, hrow⟩

section

variable (hsingle : ∀ x ∈ rows, x = .single x.toDedupableLead)

include hsingle

theorem leadIds_of_single (hx : x ∈ rows) : x.leadIds = [x.idText] := by
  rw [hsingle x hx]
  rfl

theorem dedupeLeads_ids (hrows : rows.Nodup) :
    ((dedupeLeads env rows).flatMap LeadRow.leadIds).Perm (rows.map fun row => row.idText) := by
  obtain ⟨groups, first, entries, hd⟩ := doors_dedupe env rows
  have hids : ∀ x ∈ rows, x.mergedLeadIds = none := fun x hx => by rw [hsingle x hx]; rfl
  unfold dedupeLeads
  rw [flatMap_append, flatMap_map]
  have hmerged := List.Perm.flatMap_left
    (f := fun e => ((secondPass env (firstPass env rows)).row e).leadIds)
    (g := fun e => (groups e.1).map fun row => row.idText)
    (secondPass env (firstPass env rows)).survivors.entries fun e he =>
      List.Perm.of_eq (hd.leadIds_row hids (InsertionMap.get?_eq_some_iff.mpr he))
  rw [← map_flatMap] at hmerged
  have hlone := List.Perm.flatMap_left (f := LeadRow.leadIds) (g := fun x => [x.idText])
    (secondPass env (firstPass env rows)).passthrough fun x hx => by
      rw [hd.passthrough] at hx
      exact List.Perm.of_eq (leadIds_of_single hsingle (mem_filter.mp hx).1)
  rw [← map_eq_flatMap, hd.passthrough] at hlone
  rw [hd.passthrough]
  refine (hmerged.append hlone).trans ?_
  rw [← map_append]
  apply List.Perm.map
  refine ((hd.perm_groups hrows).append_right _).trans ?_
  refine perm_append_comm.trans ?_
  have hsplit := filter_append_perm
    (fun row : LeadRow => decide (houseKey env row.toDedupableLead = none)) rows
  simpa only [decide_not] using hsplit

theorem dedupeLeads_head (hrow : row ∈ dedupeLeads env rows) :
    row.leadIds.head? = some row.idText := by
  obtain ⟨groups, first, entries, hd⟩ := doors_dedupe env rows
  have hids : ∀ x ∈ rows, x.mergedLeadIds = none := fun x hx => by rw [hsingle x hx]; rfl
  rcases (mem_dedupeLeads hd).mp hrow with ⟨e, he, rfl⟩ | ⟨hrow, -⟩
  · rw [hd.leadIds_row hids he, head?_map,
      (hd.settled.holds.elected e.1 e.2 he).head, Option.map_some]
    unfold DedupableLead.idText
    rw [Houses.row_toDedupableLead]
  · rw [leadIds_of_single hsingle hrow]
    rfl

theorem dedupeLeads_count (hrow : row ∈ dedupeLeads env rows) :
    row.mergedCount = if 1 < row.leadIds.length then some row.leadIds.length else none := by
  obtain ⟨groups, first, entries, hd⟩ := doors_dedupe env rows
  have hids : ∀ x ∈ rows, x.mergedLeadIds = none := fun x hx => by rw [hsingle x hx]; rfl
  have hcounts : ∀ x ∈ rows, x.mergedCount = none := fun x hx => by rw [hsingle x hx]; rfl
  rcases (mem_dedupeLeads hd).mp hrow with ⟨e, he, rfl⟩ | ⟨hrow, -⟩
  · rw [hd.leadIds_row hids he, hd.mergedCount_row hcounts he, length_map]
  · rw [leadIds_of_single hsingle hrow, hcounts row hrow]
    rfl

end

section

variable {rows' : List LeadRow} {h' : Houses} {groups' first' : Text → List LeadRow}
  {entries' : List (Text × LeadRow)}

theorem Doors.entries_subset (hd : Doors env rows h groups first entries)
    (hd' : Doors env rows' h' groups' first' entries') (hperm : rows.Perm rows')
    (hids : ∀ x ∈ rows, ∀ y ∈ rows, x.id = y.id → x = y) (he : e ∈ entries) : e ∈ entries' := by
  have hhouse : (first e.1).Perm (first' e.1) :=
    ((hd.ofHouse e.1).trans (hperm.filter _)).trans (hd'.ofHouse e.1).symm
  have helected := hd.elected e he
  have hne : first' e.1 ≠ [] := ne_nil_of_mem (hhouse.mem_iff.mp helected.mem)
  obtain ⟨f, hf, hkey⟩ := hd'.all e.1 hne
  have helected' := hd'.elected f hf
  rw [hkey] at helected'
  have hsame : e.2 = f.2 := helected.unique helected' hhouse fun x hx y hy hrank =>
    hids x ((hd.mem_first e).mp hx).1 y ((hd.mem_first e).mp hy).1 (id_of_rank env hrank)
  rw [show e = f from Prod.ext hkey.symm hsame]
  exact hf

theorem Doors.same (hd : Doors env rows h groups first entries)
    (hd' : Doors env rows' h' groups' first' entries') (hperm : rows.Perm rows')
    (hrows : rows.Nodup) (hids : ∀ x ∈ rows, ∀ y ∈ rows, x.id = y.id → x = y) (he : h.Has e) :
    ∃ f, h'.Has f ∧ f.2 = e.2 ∧ (groups' f.1).Perm (groups e.1) := by
  have hids' : ∀ x ∈ rows', ∀ y ∈ rows', x.id = y.id → x = y := fun x hx y hy =>
    hids x (hperm.mem_iff.mpr hx) y (hperm.mem_iff.mpr hy)
  have hto : ∀ g ∈ entries, g ∈ entries' := fun g hg => hd.entries_subset hd' hperm hids hg
  have hback : ∀ g ∈ entries', g ∈ entries :=
    fun g hg => hd'.entries_subset hd hperm.symm hids' hg
  obtain ⟨f, -, hf, hdoor⟩ := hd'.settled.met e (hto e (hd.has_mem he))
  have hgroup : (groups' f.1).Perm (groups e.1) := by
    rw [perm_ext_iff_of_nodup (hd'.nodup_group (hperm.nodup_iff.mp hrows) hf)
      (hd.nodup_group hrows he)]
    intro x
    rw [hd'.mem_group hf, hd.mem_group he, hdoor, hperm.mem_iff]
    constructor
    · rintro ⟨hx, g, hg, hfacts⟩
      exact ⟨hx, g, hback g hg, hfacts⟩
    · rintro ⟨hx, g, hg, hfacts⟩
      exact ⟨hx, g, hto g hg, hfacts⟩
  refine ⟨f, hf, ?_, hgroup⟩
  have hmem : ∀ x ∈ groups' f.1, x ∈ rows' := fun x hx => ((hd'.mem_group hf).mp hx).1
  exact (hd'.settled.holds.elected f.1 f.2 hf).unique (hd.settled.holds.elected e.1 e.2 he) hgroup
    fun x hx y hy hrank => hids' x (hmem x hx) y (hmem y hy) (id_of_rank env hrank)

theorem dedupeLeads_face_subset (hsingle : ∀ x ∈ rows, x = .single x.toDedupableLead)
    (hperm : rows.Perm rows') (hrows : rows.Nodup)
    (hids : ∀ x ∈ rows, ∀ y ∈ rows, x.id = y.id → x = y) (hrow : row ∈ dedupeLeads env rows) :
    row.face ∈ (dedupeLeads env rows').map LeadRow.face := by
  have hsingle' : ∀ x ∈ rows', x = .single x.toDedupableLead :=
    fun x hx => hsingle x (hperm.mem_iff.mpr hx)
  have hraw : ∀ {l : List LeadRow}, (∀ x ∈ l, x = .single x.toDedupableLead) →
      (∀ x ∈ l, x.mergedLeadIds = none) ∧ ∀ x ∈ l, x.mergedCount = none := fun hl =>
    ⟨fun x hx => by rw [hl x hx]; rfl, fun x hx => by rw [hl x hx]; rfl⟩
  obtain ⟨groups, first, entries, hd⟩ := doors_dedupe env rows
  obtain ⟨groups', first', entries', hd'⟩ := doors_dedupe env rows'
  rcases (mem_dedupeLeads hd).mp hrow with ⟨e, he, rfl⟩ | ⟨hrow, hkey⟩
  · obtain ⟨f, hf, hsame, hgroup⟩ := hd.same hd' hperm hrows hids he
    refine mem_map.mpr ⟨_, (mem_dedupeLeads hd').mpr (Or.inl ⟨f, hf, rfl⟩), ?_⟩
    unfold LeadRow.face
    rw [Houses.row_toDedupableLead, Houses.row_toDedupableLead, hsame,
      hd.leadIds_row (hraw hsingle).1 he, hd'.leadIds_row (hraw hsingle').1 hf,
      hd.mergedCount_row (hraw hsingle).2 he, hd'.mergedCount_row (hraw hsingle').2 hf,
      hgroup.length_eq, Multiset.coe_eq_coe.mpr (hgroup.map _)]
  · exact mem_map_of_mem
      ((mem_dedupeLeads hd').mpr (Or.inr ⟨hperm.mem_iff.mp hrow, hkey⟩))

theorem dedupeLeads_face_nodup (hsingle : ∀ x ∈ rows, x = .single x.toDedupableLead)
    (hnames : (rows.map fun row => row.idText).Nodup) :
    ((dedupeLeads env rows).map LeadRow.face).Nodup := by
  have hall : ((dedupeLeads env rows).flatMap LeadRow.leadIds).Nodup :=
    (dedupeLeads_ids hsingle hnames.of_map).nodup_iff.mpr hnames
  have hapart := (nodup_flatMap.mp hall).2
  unfold List.Nodup
  rw [pairwise_map]
  apply hapart.imp_of_mem
  intro a b ha hb hdisjoint hface
  have hleads : (a.leadIds : Multiset Text) = b.leadIds := congrArg (fun f => f.2.1) hface
  have hmem : a.idText ∈ a.leadIds := mem_of_head? (dedupeLeads_head hsingle ha)
  exact hdisjoint hmem ((Multiset.coe_eq_coe.mp hleads).mem_iff.mp hmem)

end

variable (env) in
def keyed (row : LeadRow) : Option (Text × LeadRow) :=
  (houseKey env row.toDedupableLead).map fun key => (key, row)

theorem Houses.addAll_entries (rows : List LeadRow) (h : Houses)
    (hnew : ∀ row ∈ rows, ∀ k, houseKey env row.toDedupableLead = some k →
      h.survivors.get? k = none) (hapart : rows.Pairwise (Apart env)) :
    (rows.foldl (Houses.add env) h).survivors.entries =
      h.survivors.entries ++ rows.filterMap (keyed env) := by
  induction rows generalizing h with
  | nil => exact (append_nil _).symm
  | cons row rows ih =>
    obtain ⟨hrow, hrest⟩ := pairwise_cons.mp hapart
    rw [foldl_cons]
    cases hkey : houseKey env row.toDedupableLead with
    | none =>
      have hkeyed : keyed env row = none := by
        unfold keyed
        rw [hkey]
        rfl
      rw [Houses.add_passthrough hkey, filterMap_cons_none hkeyed]
      exact ih _ (fun x hx => hnew x (mem_cons_of_mem _ hx)) hrest
    | some key =>
      have hkeyed : keyed env row = some (key, row) := by
        unfold keyed
        rw [hkey]
        rfl
      have hfree := hnew row mem_cons_self key hkey
      have hadd : (h.add env row).survivors = h.survivors.set key row := by
        unfold Houses.add
        rw [hkey]
        dsimp only
        rw [hfree]
      rw [ih _ _ hrest, hadd, InsertionMap.entries_set_new hfree, append_assoc,
        filterMap_cons_some hkeyed]
      · rfl
      · intro x hx k hk
        rw [hadd, InsertionMap.get?_set]
        split
        · rename_i hsame
          rw [hsame] at hk
          exact absurd hk ((hrow x hx).1 key hkey)
        · exact hnew x (mem_cons_of_mem _ hx) k hk

theorem Rooftops.visitAll_apart (entries : List (Text × LeadRow)) (r : Rooftops)
    (hnew : ∀ e ∈ entries, ∀ roof, rooftopKey env e.2.toDedupableLead = some roof →
      r.byRoof.get? roof = none) (hapart : entries.Pairwise fun a b => Apart env a.2 b.2) :
    (entries.foldl (Rooftops.visit env) r).houses = r.houses := by
  induction entries generalizing r with
  | nil => rfl
  | cons e entries ih =>
    obtain ⟨he, hrest⟩ := pairwise_cons.mp hapart
    rw [foldl_cons]
    cases hroof : rooftopKey env e.2.toDedupableLead with
    | none =>
      have hvisit : r.visit env e = r := by
        unfold Rooftops.visit
        rw [hroof]
      rw [hvisit]
      exact ih r (fun x hx => hnew x (mem_cons_of_mem _ hx)) hrest
    | some roof =>
      have hfree := hnew e mem_cons_self roof hroof
      have hvisit : r.visit env e = { r with byRoof := r.byRoof.set roof e.1 } := by
        unfold Rooftops.visit
        rw [hroof]
        dsimp only
        rw [hfree]
      rw [hvisit, ih _ _ hrest]
      intro x hx roof' hroof'
      rw [InsertionMap.get?_set]
      split
      · rename_i hsame
        rw [hsame] at hroof'
        exact absurd hroof' ((he x hx).2 roof hroof)
      · exact hnew x (mem_cons_of_mem _ hx) roof' hroof'

theorem length_ofHouse (hapart : rows.Pairwise (Apart env)) (k : Text) :
    (LiveMap.ofHouse env rows k).length ≤ 1 := by
  have hkeys : ∀ x ∈ LiveMap.ofHouse env rows k, houseKey env x.toDedupableLead = some k :=
    fun x hx => of_decide_eq_true (mem_filter.mp hx).2
  have hpairwise : (LiveMap.ofHouse env rows k).Pairwise (Apart env) := hapart.filter _
  match hrows : LiveMap.ofHouse env rows k with
  | [] => exact Nat.zero_le _
  | [_] => exact Nat.le_refl _
  | a :: b :: _ =>
    rw [hrows] at hkeys hpairwise
    have hab := (pairwise_cons.mp hpairwise).1 b mem_cons_self
    exact absurd (hkeys b (by simp)) (hab.1 k (hkeys a (by simp)))

theorem map_keyed (rows : List LeadRow) : (rows.filterMap (keyed env)).map Prod.snd =
    rows.filter fun row => houseKey env row.toDedupableLead ≠ none := by
  induction rows with
  | nil => rfl
  | cons row rows ih =>
    cases hkey : houseKey env row.toDedupableLead with
    | none =>
      rw [filterMap_cons_none (by simp [keyed, hkey]), filter_cons_of_neg (by simp [hkey])]
      exact ih
    | some key =>
      have hkeyed : keyed env row = some (key, row) := by
        unfold keyed
        rw [hkey]
        rfl
      rw [filterMap_cons_some hkeyed, filter_cons_of_pos (by simp [hkey]), map_cons,
        ih]

theorem dedupeLeads_of_apart (hapart : rows.Pairwise (Apart env)) :
    dedupeLeads env rows =
      (rows.filter fun row => houseKey env row.toDedupableLead ≠ none) ++
        rows.filter fun row => houseKey env row.toDedupableLead = none := by
  obtain ⟨first, hfirst, hhouses, hpass⟩ := firstPass_holds env rows
  have hentries : (firstPass env rows).survivors.entries = rows.filterMap (keyed env) :=
    Houses.addAll_entries rows .empty (fun _ _ _ _ => rfl) hapart
  have hsecond : secondPass env (firstPass env rows) = firstPass env rows := by
    unfold secondPass
    apply Rooftops.visitAll_apart
    · exact fun _ _ _ _ => rfl
    · rw [hentries]
      apply List.Pairwise.filterMap (keyed env) _ hapart
      intro a b hab x hx y hy
      obtain ⟨_, -, rfl⟩ := Option.map_eq_some_iff.mp hx
      obtain ⟨_, -, rfl⟩ := Option.map_eq_some_iff.mp hy
      exact hab
  -- each house has one lead, so that no row is annotated
  have hrow : ∀ e ∈ rows.filterMap (keyed env), (firstPass env rows).row e = e.2 := by
    intro e he
    unfold Houses.row
    rw [if_neg]
    rw [hfirst.ids_eq, length_map, (hhouses e.1).length_eq, not_lt]
    exact length_ofHouse hapart e.1
  unfold dedupeLeads
  dsimp only
  rw [hsecond, hentries, map_congr_left hrow, map_keyed, hpass]

theorem dedupeLeads_idem (rows : List LeadRow) :
    dedupeLeads env (dedupeLeads env rows) = dedupeLeads env rows := by
  obtain ⟨groups, first, entries, hd⟩ := doors_dedupe env rows
  rw [dedupeLeads_of_apart (dedupeLeads_apart rows)]
  have hmerged : ∀ x ∈ (secondPass env (firstPass env rows)).survivors.entries.map
      (secondPass env (firstPass env rows)).row, houseKey env x.toDedupableLead ≠ none := by
    intro x hx
    obtain ⟨e, he, rfl⟩ := mem_map.mp hx
    have hhas := hd.has_mem (InsertionMap.get?_eq_some_iff.mpr he)
    rw [Houses.row_toDedupableLead, (hd.houseKey_survivor hhas).2]
    exact fun h => nomatch h
  have hlone : ∀ x ∈ (secondPass env (firstPass env rows)).passthrough,
      houseKey env x.toDedupableLead = none := by
    intro x hx
    rw [hd.passthrough] at hx
    exact of_decide_eq_true (mem_filter.mp hx).2
  unfold dedupeLeads
  rw [filter_append, filter_append,
    filter_eq_self.mpr fun x hx => decide_eq_true (hmerged x hx),
    filter_eq_nil_iff.mpr fun x hx => by simpa using hlone x hx,
    filter_eq_nil_iff.mpr fun x hx => by simpa using hmerged x hx,
    filter_eq_self.mpr fun x hx => decide_eq_true (hlone x hx), append_nil,
    nil_append]

structure OnePinPerHouse (env : Platform) (leads : List DedupableLead) (pins : List LeadRow) :
    Prop where
  partition : (pins.flatMap LeadRow.leadIds).Perm (leads.map (·.idText)) ∧
    (pins.flatMap LeadRow.leadIds).Nodup
  survivor : ∀ pin ∈ pins, pin.toDedupableLead ∈ leads ∧ pin.leadIds.head? = some pin.idText
  highest : ∀ pin ∈ pins, ∀ lead ∈ leads, lead.idText ∈ pin.leadIds →
    lead = pin.toDedupableLead ∨ isHigherPriority env pin.toDedupableLead lead = true
  counted : ∀ pin ∈ pins,
    pin.mergedCount = if 1 < pin.leadIds.length then some pin.leadIds.length else none
  apart : pins.Pairwise (Apart env)
  order : ∀ other : List DedupableLead, other.Perm leads →
    ((dedupeLeads env (other.map .single)).map LeadRow.face).Perm (pins.map LeadRow.face)
  stable : dedupeLeads env pins = pins

/-- The pins of any list of leads with ids of their own. -/
theorem dedupeLeads_onePin (env : Platform) (leads : List DedupableLead)
    (hids : (leads.map (·.id)).Nodup) :
    OnePinPerHouse env leads (dedupeLeads env (leads.map .single)) := by
  have hrow : ∀ x ∈ leads.map LeadRow.single, x = .single x.toDedupableLead := by
    intro x hx
    obtain ⟨lead, -, rfl⟩ := mem_map.mp hx
    rfl
  have hapart : ∀ x ∈ leads.map LeadRow.single, ∀ y ∈ leads.map LeadRow.single,
      x.id = y.id → x = y := by
    intro x hx y hy hid
    obtain ⟨a, ha, rfl⟩ := mem_map.mp hx
    obtain ⟨b, hb, rfl⟩ := mem_map.mp hy
    rw [inj_on_of_nodup_map hids ha hb hid]
  have hidTexts : ((leads.map LeadRow.single).map fun row => row.idText) =
      (leads.map (·.id)).map decimal := by
    rw [map_map, map_map]
    rfl
  have hnames : ((leads.map LeadRow.single).map fun row => row.idText).Nodup := by
    rw [hidTexts]
    exact hids.map decimal_injective
  have hrows : (leads.map LeadRow.single).Nodup := hnames.of_map
  have hpartition : ((dedupeLeads env _).flatMap LeadRow.leadIds).Perm _ :=
    dedupeLeads_ids hrow hrows
  obtain ⟨groups, first, entries, hd⟩ := doors_dedupe env (leads.map LeadRow.single)
  constructor
  · refine ⟨?_, hpartition.nodup_iff.mpr hnames⟩
    rw [map_map] at hpartition
    exact hpartition
  · intro pin hpin
    refine ⟨?_, dedupeLeads_head hrow hpin⟩
    have hlead : ∀ x ∈ leads.map LeadRow.single, x.toDedupableLead ∈ leads := by
      intro x hx
      obtain ⟨lead, hlead, rfl⟩ := mem_map.mp hx
      exact hlead
    rcases (mem_dedupeLeads hd).mp hpin with ⟨e, he, rfl⟩ | ⟨hpin, -⟩
    · rw [Houses.row_toDedupableLead]
      exact hlead _ (hd.houseKey_survivor (hd.has_mem he)).1
    · exact hlead _ hpin
  · intro pin hpin lead hlead hlisted
    have hmem : LeadRow.single lead ∈ leads.map LeadRow.single := mem_map_of_mem hlead
    rcases (mem_dedupeLeads hd).mp hpin with ⟨e, he, rfl⟩ | ⟨hpin, -⟩
    · rw [hd.leadIds_row (fun x hx => by rw [hrow x hx]; rfl) he] at hlisted
      obtain ⟨x, hx, hname⟩ := mem_map.mp hlisted
      have hsame : x = .single lead :=
        hapart x ((hd.mem_group he).mp hx).1 _ hmem (decimal_injective hname)
      subst hsame
      have hbest := (hd.settled.holds.elected e.1 e.2 he).best _ hx
      rw [Houses.row_toDedupableLead, isHigherPriority_iff]
      rcases lt_or_eq_of_le hbest with hlt | heq
      · exact Or.inr hlt
      · left
        have hid := id_of_rank env heq
        have hsame := hapart _ hmem _ (hd.houseKey_survivor (hd.has_mem he)).1 hid
        exact congrArg LeadRow.toDedupableLead hsame
    · rw [leadIds_of_single hrow hpin, mem_singleton] at hlisted
      left
      exact congrArg LeadRow.toDedupableLead (hapart _ hmem _ hpin (decimal_injective hlisted))
  · exact fun pin hpin => dedupeLeads_count hrow hpin
  · exact dedupeLeads_apart _
  · intro other hother
    have hperm : (other.map LeadRow.single).Perm (leads.map LeadRow.single) := hother.map _
    have hrow' : ∀ x ∈ other.map LeadRow.single, x = .single x.toDedupableLead :=
      fun x hx => hrow x (hperm.mem_iff.mp hx)
    have hnames' := (hperm.map fun row => row.idText).nodup_iff.mpr hnames
    rw [perm_ext_iff_of_nodup (dedupeLeads_face_nodup hrow' hnames')
      (dedupeLeads_face_nodup hrow hnames)]
    intro face
    constructor
    · intro hface
      obtain ⟨pin, hpin, rfl⟩ := mem_map.mp hface
      exact dedupeLeads_face_subset hrow' hperm hnames'.of_map
        (fun x hx y hy => hapart x (hperm.mem_iff.mp hx) y (hperm.mem_iff.mp hy)) hpin
    · intro hface
      obtain ⟨pin, hpin, rfl⟩ := mem_map.mp hface
      exact dedupeLeads_face_subset hrow hperm.symm hrows hapart hpin
  · exact dedupeLeads_idem _

/-- A platform for texts without marks and coordinates below `10 ^ 21`; no lead was knocked. -/
def mapPlatform : Platform := { unicode := .ascii, large := fun _ => [], parseDate := fun _ => none }

/-- A house of Concord whose twin has the postal city of the neighbouring town. -/
def boundaryLead (id : Int) (city : String) (score : Rat) : DedupableLead where
  id
  lat := some (3540871 / 100000)
  lng := some (-8057952 / 100000)
  address := some "12 Oak Street".toList
  city := some city.toList
  state := some "NC".toList
  leadScore := some score
  leadTag := none
  lastKnockedAt := none

theorem dedupeLeads_onePin_boundary :
    OnePinPerHouse mapPlatform
        [boundaryLead 1 "Concord" 50, boundaryLead 2 "concord" 60, boundaryLead 3 "Kannapolis" 70]
        (dedupeLeads mapPlatform
          ([boundaryLead 1 "Concord" 50, boundaryLead 2 "concord" 60,
            boundaryLead 3 "Kannapolis" 70].map .single)) ∧
      (dedupeLeads mapPlatform
        ([boundaryLead 1 "Concord" 50, boundaryLead 2 "concord" 60,
          boundaryLead 3 "Kannapolis" 70].map .single)).map LeadRow.leadIds =
        [["3".toList, "2".toList, "1".toList]] :=
  ⟨dedupeLeads_onePin _ _ (by decide), by decide +kernel⟩

end HomefrontFiber.LiveMap
