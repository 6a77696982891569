import Mathlib.Data.List.Perm.Lattice
import HomefrontFiber.LiveMap.DedupeLeads

/-!
# The doors of the second pass

Both passes only ever merge two groups into one whose first is elected. What the second pass does to
the houses depends on the rooftops of their elected leads alone, so the groups at the end are the
doors: the houses whose elected leads stand on one rooftop.
-/

namespace HomefrontFiber.LiveMap

open FreshFiber ScriptText List

variable (env : Platform)

def rank (row : DedupableLead) : Int ×ₗ Rat ×ₗ Int ×ₗ Int :=
  let r := priorityRank env row
  toLex (r.1, toLex (r.2.1, toLex (r.2.2.1, r.2.2.2)))

variable {current : DedupableLead} {s : LeadRow} {loser roof : Text} {f : Text × LeadRow}
  {d : Text ⊕ Text}

theorem isHigherPriority_iff {candidate : DedupableLead} :
    isHigherPriority env candidate current = true ↔ rank env current < rank env candidate := by
  unfold isHigherPriority rank
  simp only [Prod.Lex.toLex_lt_toLex, ite_not]
  split_ifs with h₁ h₂ h₃
  · simp [h₁, h₂, h₃]
  · simp only [h₁, h₂, lt_irrefl, true_and, false_or, decide_eq_true_eq]
    constructor
    · exact Or.inl
    · rintro (h | h)
      · exact h
      · exact absurd h.1.symm h₃
  · simp only [h₁, lt_irrefl, true_and, false_or, decide_eq_true_eq]
    constructor
    · exact Or.inl
    · rintro (h | h)
      · exact h
      · exact absurd h.1.symm h₂
  · rw [decide_eq_true_eq]
    constructor
    · exact Or.inl
    · rintro (h | h)
      · exact h
      · exact absurd h.1.symm h₁

theorem isHigherPriority_eq_false {candidate : DedupableLead}
    (h : ¬ isHigherPriority env candidate current = true) :
    rank env candidate ≤ rank env current := by
  rw [isHigherPriority_iff] at h
  exact not_lt.mp h

theorem id_of_rank {a b : DedupableLead} (h : rank env a = rank env b) : a.id = b.id := by
  have hlast := congrArg (fun r : Int ×ₗ Rat ×ₗ Int ×ₗ Int => (ofLex (ofLex (ofLex r).2).2).2) h
  change -a.id = -b.id at hlast
  omega

abbrev RowElected (s : LeadRow) (group : List LeadRow) : Prop :=
  Elected (fun row : LeadRow => rank env row.toDedupableLead) s group

/-- The maps of the houses describe these groups of leads; a house that is gone has the empty group. -/
structure Houses.Holds (h : Houses) (groups : Text → List LeadRow) : Prop where
  survivor : ∀ k, h.survivors.get? k = (groups k).head?
  ids : ∀ k, h.groupIds.get? k =
    if groups k = [] then none else some ((groups k).map fun row => row.idText)
  elected : ∀ k s, h.survivors.get? k = some s → RowElected env s (groups k)

variable {env} {h : Houses} {groups : Text → List LeadRow}

theorem Houses.Holds.ids_eq (hh : h.Holds env groups) (k : Text) :
    h.ids k = (groups k).map fun row => row.idText := by
  unfold Houses.ids
  rw [hh.ids]
  split
  · rename_i hnil
    rw [hnil]
    rfl
  · rfl

theorem Houses.Holds.set (hh : h.Holds env groups) {key : Text} {group : List LeadRow}
    (hs : RowElected env s group) (survivors : InsertionMap Text LeadRow)
    (hsurvivors : ∀ k, survivors.get? k = if k = key then some s else h.survivors.get? k) :
    Houses.Holds env { h with
        survivors
        groupIds := h.groupIds.set key (group.map fun row => row.idText) }
      (Function.update groups key group) := by
  have hne : group ≠ [] := ne_nil_of_mem hs.mem
  constructor
  · intro k
    rw [hsurvivors]
    by_cases hk : k = key
    · subst hk
      rw [if_pos rfl, Function.update_self, hs.head]
    · rw [if_neg hk, Function.update_of_ne hk, hh.survivor]
  · intro k
    rw [InsertionMap.get?_set]
    by_cases hk : k = key
    · subst hk
      rw [if_pos rfl, Function.update_self, if_neg hne]
    · rw [if_neg hk, Function.update_of_ne hk, hh.ids]
  · intro k t ht
    rw [hsurvivors] at ht
    by_cases hk : k = key
    · subst hk
      rw [if_pos rfl, Option.some.injEq] at ht
      rw [Function.update_self, ← ht]
      exact hs
    · rw [if_neg hk] at ht
      rw [Function.update_of_ne hk]
      exact hh.elected k t ht

theorem Houses.Holds.add (hh : h.Holds env groups) {lead : LeadRow} {key : Text}
    (hkey : houseKey env lead.toDedupableLead = some key) :
    ∃ group, group.Perm (lead :: groups key) ∧
      (h.add env lead).Holds env (Function.update groups key group) ∧
      (h.add env lead).passthrough = h.passthrough := by
  unfold Houses.add
  rw [hkey]
  dsimp only
  cases hcurrent : h.survivors.get? key with
  | none =>
    have hnil : groups key = [] := by
      have hhead := hh.survivor key
      rw [hcurrent] at hhead
      exact head?_eq_none_iff.mp hhead.symm
    refine ⟨[lead], by rw [hnil], ?_, rfl⟩
    exact hh.set (Elected.singleton lead) _ fun k => InsertionMap.get?_set _ _ _ _
  | some current =>
    have helected := hh.elected key current hcurrent
    dsimp only
    split
    · rename_i hhigher
      refine ⟨lead :: groups key, List.Perm.refl _, ?_, rfl⟩
      rw [hh.ids_eq]
      exact hh.set ((Elected.singleton lead).append helected
        (le_of_lt ((isHigherPriority_iff env).mp hhigher))) _ fun k => InsertionMap.get?_set _ _ _ _
    · rename_i hlower
      refine ⟨groups key ++ [lead], perm_append_singleton _ _, ?_, rfl⟩
      have hgroup := helected.append (Elected.singleton lead)
        (isHigherPriority_eq_false env hlower)
      have hset := hh.set hgroup h.survivors fun k => by
        split
        · rename_i hk
          rw [hk, hcurrent]
        · rfl
      rw [map_append, map_singleton] at hset
      rw [hh.ids_eq]
      exact hset

theorem Houses.add_passthrough {lead : LeadRow}
    (hkey : houseKey env lead.toDedupableLead = none) :
    h.add env lead = { h with passthrough := h.passthrough ++ [lead] } := by
  unfold Houses.add
  rw [hkey]

theorem Houses.Holds.absorb (hh : h.Holds env groups) {key : Text} {t : LeadRow}
    (hne : key ≠ loser) (hs : h.survivors.get? key = some s) (ht : h.survivors.get? loser = some t)
    (hle : rank env t.toDedupableLead ≤ rank env s.toDedupableLead) : (h.absorb key loser).Holds env
      (Function.update (Function.update groups key (groups key ++ groups loser)) loser []) := by
  have hgroup := (hh.elected key s hs).append (hh.elected loser t ht) hle
  have hset := hh.set hgroup h.survivors fun k => by
    split
    · rename_i hk
      rw [hk, hs]
    · rfl
  rw [map_append, ← hh.ids_eq, ← hh.ids_eq] at hset
  constructor
  · intro k
    change (h.survivors.delete loser).get? k = _
    rw [InsertionMap.get?_delete]
    by_cases hk : k = loser
    · subst hk
      rw [if_pos rfl, Function.update_self]
      rfl
    · rw [if_neg hk, Function.update_of_ne hk]
      exact hset.survivor k
  · intro k
    change InsertionMap.get? (InsertionMap.delete _ loser) k = _
    rw [InsertionMap.get?_delete]
    by_cases hk : k = loser
    · subst hk
      rw [if_pos rfl, Function.update_self, if_pos rfl]
    · rw [if_neg hk, Function.update_of_ne hk]
      exact hset.ids k
  · intro k u hu
    change (h.survivors.delete loser).get? k = some u at hu
    rw [InsertionMap.get?_delete] at hu
    by_cases hk : k = loser
    · rw [if_pos hk] at hu
      cases hu
    · rw [if_neg hk] at hu
      rw [Function.update_of_ne hk]
      exact hset.elected k u hu

variable (env) in
def ofHouse (leads : List LeadRow) (key : Text) : List LeadRow :=
  leads.filter fun row => houseKey env row.toDedupableLead = some key

theorem Houses.Holds.addAll (hh : h.Holds env groups) (leads : List LeadRow) :
    ∃ groups', (leads.foldl (Houses.add env) h).Holds env groups' ∧
      (∀ k, (groups' k).Perm (groups k ++ ofHouse env leads k)) ∧
      (leads.foldl (Houses.add env) h).passthrough =
        h.passthrough ++ leads.filter fun row => houseKey env row.toDedupableLead = none := by
  induction leads generalizing h groups with
  | nil =>
    refine ⟨groups, hh, fun k => ?_, (append_nil _).symm⟩
    exact List.Perm.of_eq (append_nil _).symm
  | cons lead leads ih =>
    rw [foldl_cons]
    cases hkey : houseKey env lead.toDedupableLead with
    | none =>
      have hadd := Houses.add_passthrough (h := h) hkey
      have hh' : (h.add env lead).Holds env groups := by
        rw [hadd]
        exact ⟨hh.survivor, hh.ids, hh.elected⟩
      obtain ⟨groups', hholds, hgroups, hpass⟩ := ih hh'
      refine ⟨groups', hholds, fun k => ?_, ?_⟩
      · have hother : ofHouse env (lead :: leads) k = ofHouse env leads k :=
          filter_cons_of_neg (by simp [hkey])
        rw [hother]
        exact hgroups k
      · rw [hpass, hadd, filter_cons_of_pos (by simp [hkey]), append_assoc]
        rfl
    | some key =>
      obtain ⟨group, hgroup, hh', hkept⟩ := hh.add hkey
      obtain ⟨groups', hholds, hgroups, hpass⟩ := ih hh'
      refine ⟨groups', hholds, fun k => ?_, ?_⟩
      · by_cases hk : k = key
        · subst hk
          have hown : ofHouse env (lead :: leads) k = lead :: ofHouse env leads k :=
            filter_cons_of_pos (by simp [hkey])
          have hcase := hgroups k
          rw [Function.update_self] at hcase
          rw [hown]
          exact (hcase.trans (hgroup.append_right _)).trans perm_middle.symm
        · have hother : ofHouse env (lead :: leads) k = ofHouse env leads k :=
            filter_cons_of_neg (by simp [hkey, Ne.symm hk])
          rw [hother]
          have hcase := hgroups k
          rw [Function.update_of_ne hk] at hcase
          exact hcase
      · rw [hpass, hkept, filter_cons_of_neg (by simp [hkey])]

theorem Houses.empty_holds : Houses.empty.Holds env fun _ => [] where
  survivor _ := rfl
  ids _ := rfl
  elected _ _ hs := nomatch hs

variable (env) in
theorem firstPass_holds (leads : List LeadRow) :
    ∃ groups, (firstPass env leads).Holds env groups ∧
      (∀ k, (groups k).Perm (ofHouse env leads k)) ∧
      (firstPass env leads).passthrough =
        leads.filter fun row => houseKey env row.toDedupableLead = none :=
  Houses.empty_holds.addAll leads

variable (env) in
/-- Where an elected lead stands: on a rooftop, or else in its own house. -/
def door (e : Text × LeadRow) : Text ⊕ Text :=
  match rooftopKey env e.2.toDedupableLead with
  | some roof => .inl roof
  | none => .inr e.1

theorem door_roof {e : Text × LeadRow}
    (hroof : rooftopKey env e.2.toDedupableLead = some roof) : door env e = .inl roof := by
  unfold door
  rw [hroof]

theorem door_inl {e : Text × LeadRow} :
    door env e = .inl roof ↔ rooftopKey env e.2.toDedupableLead = some roof := by
  unfold door
  cases rooftopKey env e.2.toDedupableLead <;> simp

theorem door_house {e : Text × LeadRow} (hroof : rooftopKey env e.2.toDedupableLead = none)
    (hdoor : door env f = door env e) : f.1 = e.1 := by
  unfold door at hdoor
  rw [hroof] at hdoor
  cases hf : rooftopKey env f.2.toDedupableLead with
  | some _ => rw [hf] at hdoor; cases hdoor
  | none =>
    rw [hf] at hdoor
    exact Sum.inr.inj hdoor

def Houses.Has (h : Houses) (e : Text × LeadRow) : Prop := h.survivors.get? e.1 = some e.2

variable (env) in
def atDoor (first : Text → List LeadRow) (entries : List (Text × LeadRow)) (d : Text ⊕ Text) :
    List LeadRow :=
  (entries.filter fun e => door env e = d).flatMap fun e => first e.1

variable (env) in
/-- The houses met so far, `past`, are merged by their doors; those to come are untouched. -/
structure Houses.Settled (h : Houses) (groups first : Text → List LeadRow)
    (past rest : List (Text × LeadRow)) : Prop where
  keys : ((past ++ rest).map Prod.fst).Nodup
  holds : h.Holds env groups
  origin : ∀ e, h.Has e → e ∈ past ++ rest
  pending : ∀ e ∈ rest, h.Has e ∧ groups e.1 = first e.1
  group : ∀ e ∈ past, h.Has e → (groups e.1).Perm (atDoor env first past (door env e))
  separate : ∀ e ∈ past, ∀ f ∈ past, h.Has e → h.Has f → door env e = door env f → e = f
  met : ∀ e ∈ past, ∃ f ∈ past, h.Has f ∧ door env f = door env e

theorem Houses.Has.eq_of_key {e : Text × LeadRow} (he : h.Has e) (hf : h.Has f)
    (hkey : e.1 = f.1) : e = f := by
  have hrow : some e.2 = some f.2 := by
    rw [← he, ← hf, hkey]
  exact Prod.ext hkey (Option.some.inj hrow)

theorem Houses.has_absorb {e : Text × LeadRow} {key : Text} :
    (h.absorb key loser).Has e ↔ h.Has e ∧ e.1 ≠ loser := by
  change (h.survivors.delete loser).get? e.1 = some e.2 ↔ _
  rw [InsertionMap.get?_delete]
  by_cases hk : e.1 = loser
  · simp [hk]
  · simp [hk, Houses.Has]

theorem atDoor_append_self {first : Text → List LeadRow} {past : List (Text × LeadRow)}
    {e : Text × LeadRow} (h : door env e = d) :
    atDoor env first (past ++ [e]) d = atDoor env first past d ++ first e.1 := by
  unfold atDoor
  rw [filter_append, flatMap_append, filter_cons_of_pos (by simp [h]),
    filter_nil, flatMap_singleton]

theorem atDoor_append_of_ne {first : Text → List LeadRow} {past : List (Text × LeadRow)}
    {e : Text × LeadRow} (h : door env e ≠ d) :
    atDoor env first (past ++ [e]) d = atDoor env first past d := by
  unfold atDoor
  rw [filter_append, filter_cons_of_neg (by simp [h]), filter_nil, append_nil]

theorem atDoor_eq_nil {first : Text → List LeadRow} {past : List (Text × LeadRow)}
    (h : ∀ e ∈ past, door env e ≠ d) : atDoor env first past d = [] := by
  unfold atDoor
  rw [filter_eq_nil_iff.mpr fun e he => by simpa using h e he]
  rfl

section

variable {first : Text → List LeadRow} {past rest : List (Text × LeadRow)} {e : Text × LeadRow}

theorem Houses.Settled.apart (hs : h.Settled env groups first past (e :: rest)) :
    (∀ f ∈ past, f.1 ≠ e.1) ∧ (∀ f ∈ rest, f.1 ≠ e.1) ∧
      ∀ f ∈ past, ∀ x ∈ rest, x.1 ≠ f.1 := by
  have hkeys := hs.keys
  rw [map_append, map_cons, nodup_append] at hkeys
  obtain ⟨-, hrest, hdisjoint⟩ := hkeys
  refine ⟨fun f hf => ?_, fun f hf hkey => ?_, fun f hf x hx => ?_⟩
  · exact hdisjoint _ (mem_map_of_mem hf) _ mem_cons_self
  · exact (nodup_cons.mp hrest).1 (hkey ▸ mem_map_of_mem hf)
  · exact (hdisjoint _ (mem_map_of_mem hf) _
      (mem_cons_of_mem _ (mem_map_of_mem hx))).symm

/-- The house of `e` is the first at its door. -/
theorem Houses.Settled.open (hs : h.Settled env groups first past (e :: rest))
    (hnew : ∀ f ∈ past, door env f ≠ door env e) :
    h.Settled env groups first (past ++ [e]) rest := by
  have hown := hs.pending e mem_cons_self
  constructor
  · rw [← append_cons]
    exact hs.keys
  · exact hs.holds
  · intro f hf
    rw [← append_cons]
    exact hs.origin f hf
  · exact fun f hf => hs.pending f (mem_cons_of_mem _ hf)
  · intro f hf hhas
    rcases mem_append.mp hf with hf | hf
    · rw [atDoor_append_of_ne fun heq => hnew f hf heq.symm]
      exact hs.group f hf hhas
    · rw [mem_singleton.mp hf, atDoor_append_self rfl, atDoor_eq_nil hnew, hown.2]
      exact List.Perm.refl _
  · intro f hf g hg hhas hhas' hdoor
    rcases mem_append.mp hf with hf | hf <;> rcases mem_append.mp hg with hg | hg
    · exact hs.separate f hf g hg hhas hhas' hdoor
    · rw [mem_singleton.mp hg] at hdoor
      exact absurd hdoor (hnew f hf)
    · rw [mem_singleton.mp hf] at hdoor
      exact absurd hdoor.symm (hnew g hg)
    · rw [mem_singleton.mp hf, mem_singleton.mp hg]
  · intro f hf
    rcases mem_append.mp hf with hf | hf
    · obtain ⟨g, hg, hmet⟩ := hs.met f hf
      exact ⟨g, mem_append_left _ hg, hmet⟩
    · rw [mem_singleton.mp hf]
      exact ⟨e, mem_append_right _ mem_cons_self, hown.1, rfl⟩

/-- The house of `e` and the one met at its door become one, whichever of them stays. -/
theorem Houses.Settled.merge (hs : h.Settled env groups first past (e :: rest))
    {winner loser : Text × LeadRow} (hf : f ∈ past) (hhas : h.Has f)
    (hdoor : door env f = door env e) (hpair : winner = e ∧ loser = f ∨ winner = f ∧ loser = e)
    (hle : rank env loser.2.toDedupableLead ≤ rank env winner.2.toDedupableLead) :
    ∃ groups', (h.absorb winner.1 loser.1).Settled env groups' first (past ++ [e]) rest := by
  obtain ⟨hpast, hrest, hboth⟩ := hs.apart
  have hown := hs.pending e mem_cons_self
  have hne : winner.1 ≠ loser.1 := by
    rcases hpair with ⟨rfl, rfl⟩ | ⟨rfl, rfl⟩
    · exact (hpast _ hf).symm
    · exact hpast _ hf
  have hwinner : h.Has winner ∧ winner ∈ past ++ [e] ∧ door env winner = door env e := by
    rcases hpair with ⟨rfl, rfl⟩ | ⟨rfl, rfl⟩
    · exact ⟨hown.1, mem_append_right _ mem_cons_self, rfl⟩
    · exact ⟨hhas, mem_append_left _ hf, hdoor⟩
  have hloser : h.Has loser ∧ loser ∈ past ++ [e] ∧ door env loser = door env e := by
    rcases hpair with ⟨rfl, rfl⟩ | ⟨rfl, rfl⟩
    · exact ⟨hhas, mem_append_left _ hf, hdoor⟩
    · exact ⟨hown.1, mem_append_right _ mem_cons_self, rfl⟩
  have hgroup : (groups winner.1 ++ groups loser.1).Perm
      (atDoor env first (past ++ [e]) (door env e)) := by
    have hmet := hs.group f hf hhas
    rw [hdoor] at hmet
    rw [atDoor_append_self rfl, ← hown.2]
    rcases hpair with ⟨rfl, rfl⟩ | ⟨rfl, rfl⟩
    · exact perm_append_comm.trans (hmet.append_right _)
    · exact hmet.append_right _
  refine ⟨_, ?_, hs.holds.absorb hne hwinner.1 hloser.1 hle, ?_, ?_, ?_, ?_, ?_⟩
  · rw [← append_cons]
    exact hs.keys
  · intro x hx
    rw [← append_cons]
    exact hs.origin x (Houses.has_absorb.mp hx).1
  · intro x hx
    have hother : x.1 ≠ winner.1 ∧ x.1 ≠ loser.1 := by
      rcases hpair with ⟨rfl, rfl⟩ | ⟨rfl, rfl⟩
      · exact ⟨hrest x hx, hboth _ hf x hx⟩
      · exact ⟨hboth _ hf x hx, hrest x hx⟩
    have hkept := hs.pending x (mem_cons_of_mem _ hx)
    refine ⟨Houses.has_absorb.mpr ⟨hkept.1, hother.2⟩, ?_⟩
    rw [Function.update_of_ne hother.2, Function.update_of_ne hother.1]
    exact hkept.2
  · intro x hx hhas'
    obtain ⟨hxhas, hxloser⟩ := Houses.has_absorb.mp hhas'
    rw [Function.update_of_ne hxloser]
    by_cases hxwinner : x.1 = winner.1
    · rw [hxhas.eq_of_key hwinner.1 hxwinner, Function.update_self, hwinner.2.2]
      exact hgroup
    · rw [Function.update_of_ne hxwinner]
      have hxe : x ≠ e := by
        rintro rfl
        rcases hpair with ⟨rfl, rfl⟩ | ⟨rfl, rfl⟩
        · exact hxwinner rfl
        · exact hxloser rfl
      have hxf : x ≠ f := by
        rintro rfl
        rcases hpair with ⟨rfl, rfl⟩ | ⟨rfl, rfl⟩
        · exact hxloser rfl
        · exact hxwinner rfl
      have hxpast : x ∈ past := by
        rcases mem_append.mp hx with hx | hx
        · exact hx
        · exact absurd (mem_singleton.mp hx) hxe
      rw [atDoor_append_of_ne]
      · exact hs.group x hxpast hxhas
      · intro hxdoor
        exact hxf (hs.separate x hxpast f hf hxhas hhas (hxdoor.symm.trans hdoor.symm))
  · -- of the two houses at the door of `e` one is left
    have hleft : ∀ x ∈ past ++ [e], (h.absorb winner.1 loser.1).Has x →
        door env x = door env e → x = winner := by
      intro x hx hxhas hxdoor
      obtain ⟨hxhas, hxloser⟩ := Houses.has_absorb.mp hxhas
      rcases mem_append.mp hx with hx | hx
      · have hxf := hs.separate x hx f hf hxhas hhas (hxdoor.trans hdoor.symm)
        rcases hpair with ⟨rfl, rfl⟩ | ⟨rfl, rfl⟩
        · exact absurd (congrArg Prod.fst hxf) hxloser
        · exact hxf
      · have hxe := mem_singleton.mp hx
        rcases hpair with ⟨rfl, rfl⟩ | ⟨rfl, rfl⟩
        · exact hxe
        · exact absurd (congrArg Prod.fst hxe) hxloser
    intro x hx y hy hxhas hyhas hxy
    by_cases hxdoor : door env x = door env e
    · rw [hleft x hx hxhas hxdoor, hleft y hy hyhas (hxy.symm.trans hxdoor)]
    · have hpast' : ∀ z ∈ past ++ [e], door env z = door env x → z ∈ past := by
        intro z hz hzdoor
        rcases mem_append.mp hz with hz | hz
        · exact hz
        · rw [mem_singleton.mp hz] at hzdoor
          exact absurd hzdoor.symm hxdoor
      exact hs.separate x (hpast' x hx rfl) y (hpast' y hy hxy.symm)
        (Houses.has_absorb.mp hxhas).1 (Houses.has_absorb.mp hyhas).1 hxy
  · intro x hx
    have hold : ∃ g ∈ past ++ [e], h.Has g ∧ door env g = door env x := by
      rcases mem_append.mp hx with hx | hx
      · obtain ⟨g, hg, hmet⟩ := hs.met x hx
        exact ⟨g, mem_append_left _ hg, hmet⟩
      · rw [mem_singleton.mp hx]
        exact ⟨f, mem_append_left _ hf, hhas, hdoor⟩
    obtain ⟨g, hg, hghas, hgdoor⟩ := hold
    by_cases hgloser : g.1 = loser.1
    · refine ⟨winner, hwinner.2.1, Houses.has_absorb.mpr ⟨hwinner.1, hne⟩, ?_⟩
      rw [← hgdoor, hghas.eq_of_key hloser.1 hgloser, hloser.2.2, hwinner.2.2]
    · exact ⟨g, hg, Houses.has_absorb.mpr ⟨hghas, hgloser⟩, hgdoor⟩

variable (env) in
/-- The index of the rooftops names the house that stands at each of them. -/
def Rooftops.Known (r : Rooftops) (past : List (Text × LeadRow)) : Prop :=
  ∀ roof k, r.byRoof.get? roof = some k ↔
    ∃ f ∈ past, r.houses.Has f ∧ f.1 = k ∧ door env f = .inl roof

variable {r : Rooftops}

theorem Rooftops.Known.set {houses : Houses} {winner : Text × LeadRow}
    (hr : r.Known env past) (hs : houses.Settled env groups first (past ++ [e]) rest)
    (hwinner : winner ∈ past ++ [e]) (hhas : houses.Has winner)
    (hroof : door env winner = .inl roof) (he : door env e = .inl roof)
    (hkept : ∀ f ∈ past, door env f ≠ .inl roof → (houses.Has f ↔ r.houses.Has f)) :
    Rooftops.Known env { houses, byRoof := r.byRoof.set roof winner.1 } (past ++ [e]) := by
  intro roof' k
  rw [InsertionMap.get?_set]
  by_cases hroof' : roof' = roof
  · subst hroof'
    rw [if_pos rfl, Option.some.injEq]
    constructor
    · rintro rfl
      exact ⟨winner, hwinner, hhas, rfl, hroof⟩
    · rintro ⟨f, hf, hfhas, hfkey, hfroof⟩
      rw [← hfkey, hs.separate f hf winner hwinner hfhas hhas (hfroof.trans hroof.symm)]
  · have hother : ∀ f : Text × LeadRow, door env f = .inl roof' → door env f ≠ .inl roof := by
      intro f hf hf'
      exact hroof' (Sum.inl.inj (hf.symm.trans hf'))
    rw [if_neg hroof', hr roof' k]
    constructor
    · rintro ⟨f, hf, hfhas, hfkey, hfroof⟩
      exact ⟨f, mem_append_left _ hf, (hkept f hf (hother f hfroof)).mpr hfhas, hfkey, hfroof⟩
    · rintro ⟨f, hf, hfhas, hfkey, hfroof⟩
      rcases mem_append.mp hf with hf | hf
      · exact ⟨f, hf, (hkept f hf (hother f hfroof)).mp hfhas, hfkey, hfroof⟩
      · rw [mem_singleton.mp hf] at hfroof
        exact absurd he (hother e hfroof)

theorem Rooftops.visit_settled (hs : r.houses.Settled env groups first past (e :: rest))
    (hr : r.Known env past) :
    ∃ groups', (r.visit env e).houses.Settled env groups' first (past ++ [e]) rest ∧
      (r.visit env e).Known env (past ++ [e]) ∧
      (r.visit env e).houses.passthrough = r.houses.passthrough := by
  have hown := (hs.pending e mem_cons_self).1
  obtain ⟨hpast, -, -⟩ := hs.apart
  unfold Rooftops.visit
  cases hroof : rooftopKey env e.2.toDedupableLead with
  | none =>
    have hnew : ∀ f ∈ past, door env f ≠ door env e :=
      fun f hf hdoor => hpast f hf (door_house hroof hdoor)
    refine ⟨groups, hs.open hnew, ?_, rfl⟩
    intro roof k
    rw [hr roof k]
    constructor
    · rintro ⟨f, hf, hfacts⟩
      exact ⟨f, mem_append_left _ hf, hfacts⟩
    · rintro ⟨f, hf, hfhas, hfkey, hfroof⟩
      rcases mem_append.mp hf with hf | hf
      · exact ⟨f, hf, hfhas, hfkey, hfroof⟩
      · rw [mem_singleton.mp hf, door_inl, hroof] at hfroof
        cases hfroof
  | some roof =>
    have hdoor := door_roof hroof
    dsimp only
    cases hknown : r.byRoof.get? roof with
    | none =>
      have hnew : ∀ f ∈ past, door env f ≠ door env e := by
        intro f hf hdoor'
        obtain ⟨g, hg, hghas, hgdoor⟩ := hs.met f hf
        have hget := (hr roof g.1).mpr ⟨g, hg, hghas, rfl, hgdoor.trans (hdoor'.trans hdoor)⟩
        rw [hknown] at hget
        cases hget
      have hopen := hs.open hnew
      exact ⟨groups, hopen, hr.set hopen (mem_append_right _ mem_cons_self) hown hdoor
        hdoor fun _ _ _ => Iff.rfl, rfl⟩
    | some winnerKey =>
      obtain ⟨f, hf, hfhas, hfkey, hfroof⟩ := (hr roof winnerKey).mp hknown
      have hfdoor : door env f = door env e := hfroof.trans hdoor.symm
      have hwinner : r.houses.survivors.get? winnerKey = some f.2 := by
        rw [← hfkey]
        exact hfhas
      -- a house at another door is not the one that goes
      have hkept : ∀ key loser : Text × LeadRow, door env loser = .inl roof →
          r.houses.Has loser → ∀ g ∈ past, door env g ≠ .inl roof →
          ((r.houses.absorb key.1 loser.1).Has g ↔ r.houses.Has g) := by
        intro key loser hloser hloserHas g _ hgdoor
        rw [Houses.has_absorb]
        refine ⟨And.left, fun hg => ⟨hg, fun hkey => hgdoor ?_⟩⟩
        rw [hg.eq_of_key hloserHas hkey, hloser]
      dsimp only
      rw [hwinner]
      dsimp only
      split
      · rename_i hhigher
        obtain ⟨groups', hs'⟩ := hs.merge hf hfhas hfdoor (Or.inl ⟨rfl, rfl⟩)
          (le_of_lt ((isHigherPriority_iff env).mp hhigher))
        have hhas : (r.houses.absorb e.1 f.1).Has e :=
          Houses.has_absorb.mpr ⟨hown, (hpast f hf).symm⟩
        rw [← hfkey]
        exact ⟨groups', hs', hr.set hs' (mem_append_right _ mem_cons_self) hhas hdoor
          hdoor (hkept e f hfroof hfhas), rfl⟩
      · rename_i hlower
        obtain ⟨groups', hs'⟩ := hs.merge hf hfhas hfdoor (Or.inr ⟨rfl, rfl⟩)
          (isHigherPriority_eq_false env hlower)
        have hhas : (r.houses.absorb f.1 e.1).Has f := Houses.has_absorb.mpr ⟨hfhas, hpast f hf⟩
        have hset := hr.set hs' (mem_append_left _ hf) hhas hfroof hdoor
          (hkept f e hdoor hown)
        rw [← hfkey]
        refine ⟨groups', hs', fun roof' k => ?_, rfl⟩
        rw [← hset roof' k]
        rw [InsertionMap.get?_set]
        split
        · rename_i hsame
          rw [hsame, hknown, hfkey]
        · rfl

theorem Rooftops.visitAll_settled (hs : r.houses.Settled env groups first past rest)
    (hr : r.Known env past) :
    ∃ groups', (rest.foldl (Rooftops.visit env) r).houses.Settled env groups' first
        (past ++ rest) [] ∧
      (rest.foldl (Rooftops.visit env) r).houses.passthrough = r.houses.passthrough := by
  induction rest generalizing r groups past with
  | nil =>
    rw [append_nil]
    exact ⟨groups, hs, rfl⟩
  | cons e rest ih =>
    obtain ⟨groups', hs', hr', hpass⟩ := Rooftops.visit_settled hs hr
    obtain ⟨groups'', hs'', hpass'⟩ := ih hs' hr'
    rw [← append_cons] at hs''
    exact ⟨groups'', hs'', hpass'.trans hpass⟩

end

theorem Houses.Holds.settled (hh : h.Holds env groups) :
    h.Settled env groups groups [] h.survivors.entries where
  keys := h.survivors.nodup
  holds := hh
  origin _ he := InsertionMap.get?_eq_some_iff.mp he
  pending _ he := ⟨InsertionMap.get?_eq_some_iff.mpr he, rfl⟩
  group _ he := absurd he not_mem_nil
  separate _ he := absurd he not_mem_nil
  met _ he := absurd he not_mem_nil

theorem Houses.Holds.secondPass (hh : h.Holds env groups) :
    ∃ groups', (secondPass env h).Settled env groups' groups h.survivors.entries [] ∧
      (secondPass env h).passthrough = h.passthrough := by
  apply Rooftops.visitAll_settled (r := { houses := h, byRoof := .empty }) hh.settled
  intro roof k
  constructor
  · intro hget
    cases hget
  · rintro ⟨f, hf, -⟩
    cases hf

end HomefrontFiber.LiveMap
