import HomefrontFiber.Team.Hierarchy

/-!
# The uplines on the console

The console shows the first team lead and the first manager above a member. It finds them by a walk
of its own, which stops as soon as it has both; the pay of a sale takes them from the whole chain.
Where the chain is shorter than the hop budget the two name the same people.
-/

namespace HomefrontFiber.Team

open Commission Forest List

structure UplineSlots where
  teamLeadId : Option Nat
  managerId : Option Nat

def UplineSlots.get (slots : UplineSlots) : SlotRole → Option Nat
  | .teamLead => slots.teamLeadId
  | .manager => slots.managerId

/-- A member on the way up takes the slot of its role while that is empty. -/
def UplineSlots.visit (slots : UplineSlots) (id : Nat) (role : MemberRole) : UplineSlots where
  teamLeadId := slots.teamLeadId.or (if role = .teamLead then some id else none)
  managerId := slots.managerId.or (if role = .manager then some id else none)

def UplineSlots.full (slots : UplineSlots) : Bool :=
  slots.teamLeadId.isSome && slots.managerId.isSome

/-- The walk up from `cursor` for the slots that are still empty. `seen` holds the member and
everyone passed so far. -/
def walkSlots (members : List Member) :
    (budget : Nat) → (seen : List Nat) → (cursor : Option Nat) → UplineSlots → UplineSlots
  | 0, _, _, slots => slots
  | _ + 1, _, none, slots => slots
  | budget + 1, seen, some id, slots =>
    if id ∈ seen then slots
    else
      match members.find? (·.id = id) with
      | none => slots
      | some node =>
        let slots := slots.visit node.id node.role
        if slots.full then slots
        else walkSlots members budget (id :: seen) node.reportsToId slots

def uplineSlotsFromIndex (memberId : Nat) (members : List Member) : UplineSlots :=
  walkSlots members maxHops [memberId]
    ((members.find? (·.id = memberId)).bind (·.reportsToId)) { teamLeadId := none, managerId := none }

def firstInSlot (slot : SlotRole) (chain : List UplineChainNode) : Option Nat :=
  (chain.find? (·.role.slot = some slot)).map (·.repId)

@[simp] theorem firstInSlot_nil (slot : SlotRole) : firstInSlot slot [] = none := rfl

theorem firstInSlot_cons (slot : SlotRole) (node : UplineChainNode)
    (chain : List UplineChainNode) : firstInSlot slot (node :: chain) =
      if node.role.slot = some slot then some node.repId else firstInSlot slot chain := by
  unfold firstInSlot
  rw [find?_cons]
  by_cases h : node.role.slot = some slot <;> simp [h]

theorem UplineSlots.get_visit (slots : UplineSlots) (id : Nat) (role : MemberRole)
    (slot : SlotRole) : (slots.visit id role).get slot =
      (slots.get slot).or (if role.slot = some slot then some id else none) := by
  cases slot <;> cases role <;> simp [visit, get, MemberRole.slot]

variable {slots : UplineSlots} {members : List Member} {chain : List UplineChainNode}

theorem UplineSlots.full_get (h : slots.full = true) (slot : SlotRole) :
    (slots.get slot).isSome = true := by
  simp only [full, Bool.and_eq_true] at h
  cases slot
  · exact h.1
  · exact h.2

/-- The walk of the console fills its empty slots from the chain that the pay of a sale uses. -/
theorem walkSlots_get {budget level : Nat} {seen : List Nat} {cursor : Option Nat}
    (h : walkChain members budget level seen cursor = some chain) (slot : SlotRole) :
    (walkSlots members budget seen cursor slots).get slot =
      (slots.get slot).or (firstInSlot slot chain) := by
  induction budget generalizing level seen cursor chain slots with
  | zero => simp [walkChain] at h
  | succ budget ih =>
    cases cursor with
    | none =>
      rw [walkChain, Option.some.injEq] at h
      rw [walkSlots, ← h, firstInSlot_nil, Option.or_none]
    | some id =>
      unfold walkChain at h
      unfold walkSlots
      by_cases hseen : id ∈ seen
      · rw [if_pos hseen] at h
        cases h
      · rw [if_neg hseen] at h ⊢
        cases hm : members.find? (·.id = id) with
        | none =>
          simp only [hm, Option.some.injEq] at h
          dsimp only
          rw [← h, firstInSlot_nil, Option.or_none]
        | some m =>
          simp only [hm] at h
          dsimp only
          obtain ⟨rest, hrest, rfl⟩ := Option.map_eq_some_iff.mp h
          have hvisit : (slots.visit m.id m.role).get slot =
              (slots.get slot).or (if m.role.slot = some slot then some m.id else none) :=
            slots.get_visit m.id m.role slot
          have hfirst : (slots.get slot).or (firstInSlot slot
              ({ repId := m.id, role := m.role, level := level, active := m.active } :: rest)) =
              ((slots.visit m.id m.role).get slot).or (firstInSlot slot rest) := by
            rw [hvisit, firstInSlot_cons, Option.or_assoc]
            by_cases hslot : m.role.slot = some slot
            · simp [hslot]
            · simp [hslot]
          rw [hfirst]
          by_cases hfull : (slots.visit m.id m.role).full = true
          · -- the rest of the chain finds both slots taken
            rw [if_pos hfull, Option.or_of_isSome (UplineSlots.full_get hfull slot)]
          · rw [if_neg hfull]
            exact ih hrest

theorem uplineSlotsFromIndex_get {memberId : Nat}
    (h : resolveOverrideChain memberId members = some chain) (slot : SlotRole) :
    (uplineSlotsFromIndex memberId members).get slot = firstInSlot slot chain := by
  have hget : (uplineSlotsFromIndex memberId members).get slot =
      (UplineSlots.get { teamLeadId := none, managerId := none } slot).or (firstInSlot slot chain) :=
    walkSlots_get h slot
  cases slot <;> simpa [UplineSlots.get] using hget

theorem nodeVerdict_of_pos {rates : OverrideRates} (hrates : ∀ slot, 0 < rates.slotRateCents slot)
    (filled : List SlotRole) (node : UplineChainNode) :
    nodeVerdict rates filled node =
      match node.role.slot with
      | none => .error .notASlotRole
      | some slot =>
        if slot ∈ filled then .error .slotFilled
        else .ok { repId := node.repId, role := slot, level := node.level,
                   amountCents := rates.slotRateCents slot } := by
  unfold nodeVerdict
  cases node.role.slot with
  | none => rfl
  | some slot =>
    dsimp only
    rw [if_neg (Int.not_le.mpr (hrates slot))]

section Awards

variable {rates : OverrideRates}

/-- The awards in a slot: one to its first member on the chain, unless the slot is taken. -/
theorem flatOverridesFrom_slot (hrates : ∀ slot, 0 < rates.slotRateCents slot)
    (slot : SlotRole) (filled : List SlotRole) (chain : List UplineChainNode) :
    ((flatOverridesFrom rates filled chain).1.filter (·.role = slot)).map (·.repId) =
      if slot ∈ filled then [] else (firstInSlot slot chain).toList := by
  induction chain generalizing filled with
  | nil => simp [flatOverridesFrom]
  | cons node chain ih =>
    unfold flatOverridesFrom
    rw [nodeVerdict_of_pos hrates, firstInSlot_cons]
    cases hslot : node.role.slot with
    | none => simpa using ih filled
    | some own =>
      by_cases hown : own ∈ filled
      · simp only [hown, if_true, ih filled]
        by_cases hsame : own = slot
        · rw [← hsame, if_pos hown, if_pos hown]
        · have hslots : some own ≠ some slot := fun h => hsame (Option.some.inj h)
          rw [if_neg hslots]
      · simp only [hown, if_false]
        by_cases hsame : own = slot
        · subst hsame
          have hrest := ih (own :: filled)
          rw [if_pos mem_cons_self] at hrest
          simp [hown, hrest]
        · have hrest := ih (own :: filled)
          have hmem : slot ∈ own :: filled ↔ slot ∈ filled := by
            simp [mem_cons, Ne.symm hsame]
          simp only [hmem] at hrest
          simp [hsame, hrest]

theorem nodeVerdict_rate {filled : List SlotRole} {node : UplineChainNode} {award : OverrideAward}
    (h : nodeVerdict rates filled node = .ok award) :
    award.amountCents = rates.slotRateCents award.role := by
  unfold nodeVerdict at h
  split at h
  · cases h
  · split at h
    · cases h
    · split at h
      · cases h
      · cases h
        rfl

theorem flatOverridesFrom_rate (filled : List SlotRole) (chain : List UplineChainNode) :
    ∀ a ∈ (flatOverridesFrom rates filled chain).1, a.amountCents = rates.slotRateCents a.role := by
  induction chain generalizing filled with
  | nil => simp [flatOverridesFrom]
  | cons node chain ih =>
    unfold flatOverridesFrom
    split
    · exact ih filled
    · rename_i award hok
      intro a ha
      rcases mem_cons.mp ha with rfl | ha
      · exact nodeVerdict_rate hok
      · exact ih _ a ha

theorem sum_by_slot {awards : List OverrideAward}
    (h : ∀ a ∈ awards, a.amountCents = rates.slotRateCents a.role) :
    (awards.map (·.amountCents)).sum =
      (awards.filter (·.role = .teamLead)).length * rates.slotRateCents .teamLead +
      (awards.filter (·.role = .manager)).length * rates.slotRateCents .manager := by
  induction awards with
  | nil => simp
  | cons a awards ih =>
    have hown := h a mem_cons_self
    have hrest := ih fun b hb => h b (mem_cons_of_mem _ hb)
    rw [map_cons, sum_cons, hrest, hown]
    cases hrole : a.role with
    | teamLead =>
      rw [filter_cons_of_pos (by simp [hrole]), filter_cons_of_neg (by simp [hrole]),
        length_cons]
      rw [Int.natCast_succ, Int.add_mul, Int.one_mul]
      omega
    | manager =>
      rw [filter_cons_of_neg (by simp [hrole]), filter_cons_of_pos (by simp [hrole]),
        length_cons]
      rw [Int.natCast_succ, Int.add_mul, Int.one_mul]
      omega

end Awards

/-- Nobody on the roster has as many people above as a walk has hops. -/
def Shallow (members : List Member) : Prop :=
  ∀ m ∈ members, ∀ above, Lineage (supervisorOf members) (supervisorOf members m.id) above →
    above.length < maxHops

theorem exists_chain (hac : Acyclic (reportsTo members))
    (hshallow : Shallow members) (seller : Nat) :
    ∃ chain, resolveOverrideChain seller members = some chain := by
  cases hm : members.find? (·.id = seller) with
  | none => exact ⟨[], by rw [resolveOverrideChain, hm]; rfl⟩
  | some m =>
    obtain ⟨hmem, hid⟩ := mem_of_find?_key hm
    have hac' := acyclic_supervisorOf hac
    obtain ⟨above, hl⟩ := exists_lineage hac' (fun _ _ => supervisorOf_mem_ids)
      (supervisorOf members seller)
    have hvisited : ∀ v ∈ [seller], (members.find? (·.id = v)).isSome ∧ v ∉ above := by
      intro v hv
      rw [mem_singleton.mp hv, hm]
      exact ⟨rfl, fun h => hac' seller (hl.mem_iff_above.mp h)⟩
    have hwalk : above.length < maxHops → ∃ chain,
        resolveOverrideChain seller members = some chain ∧ chain.map (·.repId) = above :=
      (walkChain_lineage hac' hl hvisited).1
    obtain ⟨chain, hchain, -⟩ := hwalk (hshallow m hmem above (hid ▸ hl))
    exact ⟨chain, hchain⟩

/-- What a slot earns on a sale: its rate when someone is in it. -/
def UplineSlots.pay (slots : UplineSlots) (rates : OverrideRates) (slot : SlotRole) : Int :=
  if (slots.get slot).isSome then rates.slotRateCents slot else 0

/-- The awards of a sale go to the uplines that the console shows, each once and at its rate. -/
structure PaidAsShown (members : List Member) (seller : Nat) (rates : OverrideRates)
    (awards : List OverrideAward) : Prop where
  beneficiaries : ∀ id, id ∈ awards.map (·.repId) ↔
    (uplineSlotsFromIndex seller members).teamLeadId = some id ∨
      (uplineSlotsFromIndex seller members).managerId = some id
  slots : ∀ slot, (awards.filter (·.role = slot)).map (·.repId) =
    ((uplineSlotsFromIndex seller members).get slot).toList
  others : ∀ a ∈ awards, a.repId ≠ seller
  total : (awards.map (·.amountCents)).sum =
    (uplineSlotsFromIndex seller members).pay rates .teamLead +
      (uplineSlotsFromIndex seller members).pay rates .manager

theorem computeFlatOverrides_paidAsShown {seller : Nat}
    {rates : OverrideRates} (hrates : ∀ slot, 0 < rates.slotRateCents slot)
    (h : resolveOverrideChain seller members = some chain) :
    PaidAsShown members seller rates (computeFlatOverrides chain rates).1 := by
  have hslots : ∀ slot, ((computeFlatOverrides chain rates).1.filter (·.role = slot)).map
      (·.repId) = ((uplineSlotsFromIndex seller members).get slot).toList := by
    intro slot
    rw [uplineSlotsFromIndex_get h]
    exact flatOverridesFrom_slot hrates slot [] chain
  have hcount : ∀ slot, ((computeFlatOverrides chain rates).1.filter (·.role = slot)).length =
      ((uplineSlotsFromIndex seller members).get slot).toList.length := by
    intro slot
    rw [← hslots slot, length_map]
  have hpay : ∀ slot, (((computeFlatOverrides chain rates).1.filter (·.role = slot)).length : Int) *
      rates.slotRateCents slot = (uplineSlotsFromIndex seller members).pay rates slot := by
    intro slot
    rw [hcount slot, UplineSlots.pay]
    cases (uplineSlotsFromIndex seller members).get slot <;> simp
  have hmem : ∀ slot id, (∃ a ∈ (computeFlatOverrides chain rates).1, a.role = slot ∧
      a.repId = id) ↔ (uplineSlotsFromIndex seller members).get slot = some id := by
    intro slot id
    rw [← Option.mem_toList, ← hslots slot]
    simp [and_assoc]
  refine ⟨fun id => ?_, hslots, fun a ha heq => ?_, ?_⟩
  · have hlead := hmem .teamLead id
    have hmanager := hmem .manager id
    simp only [UplineSlots.get] at hlead hmanager
    rw [← hlead, ← hmanager, mem_map]
    constructor
    · rintro ⟨a, ha, hid⟩
      cases hrole : a.role
      · exact Or.inl ⟨a, ha, hrole, hid⟩
      · exact Or.inr ⟨a, ha, hrole, hid⟩
    · rintro (⟨a, ha, -, hid⟩ | ⟨a, ha, -, hid⟩) <;> exact ⟨a, ha, hid⟩
  · have hon := (flatOverridesFrom_sublist rates [] chain).subset
      (mem_map_of_mem (f := (·.repId)) ha)
    obtain ⟨n, hn, hid⟩ := mem_map.mp hon
    exact (walkChain_fresh h).2 n hn (by simp [hid, heq])
  · have hsum := sum_by_slot (@flatOverridesFrom_rate rates [] chain)
    exact hsum.trans (congrArg₂ (· + ·) (hpay .teamLead) (hpay .manager))

/-- Who the console shows is who gets paid. -/
theorem paid_as_shown {members : List Member} (hac : Acyclic (reportsTo members))
    (hshallow : Shallow members) (seller : Nat) {rates : OverrideRates}
    (hlead : 0 < rates.teamLeadCents) (hmanager : 0 < rates.managerCents) :
    ∃ chain, resolveOverrideChain seller members = some chain ∧
      PaidAsShown members seller rates (computeFlatOverrides chain rates).1 := by
  have hrates : ∀ slot, 0 < rates.slotRateCents slot := by
    intro slot
    cases slot
    · exact hlead
    · exact hmanager
  obtain ⟨chain, hchain⟩ := exists_chain hac hshallow seller
  exact ⟨chain, hchain, computeFlatOverrides_paidAsShown hrates hchain⟩

theorem shallow_of_small (hac : Acyclic (reportsTo members))
    (hsmall : members.length < maxHops) : Shallow members := by
  intro m hm above hl
  have hids : above ⊆ members.map (·.id) := by
    intro b hb
    obtain ⟨y, -, hy⟩ := Relation.TransGen.tail'_iff.mp (hl.mem_iff_above.mp hb)
    obtain ⟨n, hn⟩ := Option.isSome_iff_exists.mp (Option.filter_eq_some_iff.mp hy).2
    exact mem_map.mpr ⟨n, mem_of_find?_key hn⟩
  have hle := ((hl.nodup (acyclic_supervisorOf hac)).subperm hids).length_le
  rw [length_map] at hle
  omega

def threeDeep : List Member :=
  [⟨1, .manager, none, true, none, none⟩, ⟨2, .teamLead, some 1, true, none, none⟩,
    ⟨3, .rep, some 2, true, none, none⟩]

theorem paid_as_shown_threeDeep : ∃ chain, resolveOverrideChain 3 threeDeep = some chain ∧
    PaidAsShown threeDeep 3 ⟨.flatPerSale, 500, 200⟩
      (computeFlatOverrides chain ⟨.flatPerSale, 500, 200⟩).1 := by
  have hstep : ∀ a b, reportsTo threeDeep a = some b → b < a := by
    intro a b hab
    obtain ⟨m, hm, rfl, hb⟩ := exists_of_reportsTo hab
    simp only [threeDeep, mem_cons, not_mem_nil, or_false] at hm
    rcases hm with rfl | rfl | rfl <;> cases hb <;> decide
  have hac : Acyclic (reportsTo threeDeep) := by
    have hless : ∀ a b, Above (reportsTo threeDeep) a b → b < a := by
      intro a b h
      induction h with
      | single h => exact hstep _ _ h
      | tail _ h ih => exact (hstep _ _ h).trans ih
    exact fun a ha => lt_irrefl a (hless a a ha)
  exact paid_as_shown hac (shallow_of_small hac (by decide)) 3 (by decide) (by decide)

end HomefrontFiber.Team
