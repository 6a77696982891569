import HomefrontFiber.Foundation.Forest
import HomefrontFiber.Foundation.Runs
import HomefrontFiber.Foundation.Table
import HomefrontFiber.Commission.OverrideStore

/-!
# The reporting hierarchy

The reports-to edges of a roster, the check that admits an edit of one, and the two walks that the
application makes over them: up from a seller to the uplines, and down from a leader to the
downline. Admitted edits keep the chart a forest.
-/

namespace HomefrontFiber.Team

open Commission Forest List

def reportsTo (members : List Member) (id : Nat) : Option Nat :=
  (members.find? (·.id = id)).bind (·.reportsToId)

/-- The walk up from `cursor`: it meets the member, reaches a top, or runs out of hops. -/
def walksBackTo (memberId : Nat) (reportsTo : Nat → Option Nat) : Nat → Nat → Bool
  | 0, _ => true
  | hops + 1, cursor =>
    match reportsTo cursor with
    | none => false
    | some above => above = memberId || walksBackTo memberId reportsTo hops above

def wouldCreateReportsCycle (memberId : Nat) (supervisorId : Option Nat)
    (reportsTo : Nat → Option Nat) : Bool :=
  match supervisorId with
  | none => false
  | some supervisor => supervisor = memberId || walksBackTo memberId reportsTo maxHops supervisor

def maxNodes : Nat := 5000

def childrenOf (members : List Member) (parent : Nat) : List Nat :=
  (members.filter (·.reportsToId = some parent)).map (·.id)

def downlineOf (rootId : Nat) (members : List Member) : List Nat :=
  search (childrenOf members) maxNodes rootId

structure SupervisorEdit where
  memberId : Nat
  supervisorId : Option Nat

def updateTeamMember (members : List Member) (e : SupervisorEdit) : List Member :=
  members.map fun m => if m.id = e.memberId then { m with reportsToId := e.supervisorId } else m

/-- An edit of a supervisor, refused when it would close a loop. -/
def admitEdit (members : List Member) (e : SupervisorEdit) : List Member :=
  if wouldCreateReportsCycle e.memberId e.supervisorId (reportsTo members) then members
  else updateTeamMember members e

def Distinct (members : List Member) : Prop := (members.map (·.id)).Nodup

variable {m : Member} {a b : Nat}

section Edits

variable {members : List Member}

theorem reportsTo_of_mem (h : Distinct members) (hm : m ∈ members) :
    reportsTo members m.id = m.reportsToId := by
  rw [reportsTo, find?_key h hm, Option.bind_some]

theorem exists_of_reportsTo (h : reportsTo members a = some b) :
    ∃ m ∈ members, m.id = a ∧ m.reportsToId = some b := by
  obtain ⟨m, hm, hb⟩ := Option.bind_eq_some_iff.mp h
  obtain ⟨hmem, hid⟩ := mem_of_find?_key hm
  exact ⟨m, hmem, hid, hb⟩

theorem updateTeamMember_ids (e : SupervisorEdit) :
    (updateTeamMember members e).map (·.id) = members.map (·.id) := by
  rw [updateTeamMember, map_map]
  refine map_congr_left fun m _ => ?_
  dsimp only [Function.comp_apply]
  split <;> rfl

theorem find?_updateTeamMember (e : SupervisorEdit) (id : Nat) :
    (updateTeamMember members e).find? (·.id = id) = (members.find? (·.id = id)).map fun m =>
      if m.id = e.memberId then { m with reportsToId := e.supervisorId } else m := by
  rw [updateTeamMember, find?_map]
  congr 2
  funext m
  dsimp only [Function.comp_apply]
  split <;> rfl

theorem reportsTo_updateTeamMember (e : SupervisorEdit) :
    reportsTo (updateTeamMember members e) = reportsTo members ∨
      reportsTo (updateTeamMember members e) =
        Function.update (reportsTo members) e.memberId e.supervisorId := by
  have hother : ∀ id, id ≠ e.memberId →
      reportsTo (updateTeamMember members e) id = reportsTo members id := by
    intro id hne
    rw [reportsTo, reportsTo, find?_updateTeamMember]
    cases hf : members.find? (·.id = id) with
    | none => rfl
    | some m =>
      have hid : m.id = id := (mem_of_find?_key hf).2
      rw [Option.map_some, if_neg (hid ▸ hne)]
  cases hf : members.find? (·.id = e.memberId) with
  | none =>
    refine Or.inl (funext fun id => ?_)
    by_cases hid : id = e.memberId
    · rw [hid, reportsTo, reportsTo, find?_updateTeamMember, hf, Option.map_none]
    · exact hother id hid
  | some m =>
    refine Or.inr (funext fun id => ?_)
    by_cases hid : id = e.memberId
    · have hm : m.id = e.memberId := (mem_of_find?_key hf).2
      rw [hid, Function.update_self, reportsTo, find?_updateTeamMember, hf, Option.map_some,
        if_pos hm, Option.bind_some]
    · rw [Function.update_of_ne hid, hother id hid]

theorem not_above_of_walksBackTo {up : Nat → Option Nat} {memberId hops cursor : Nat}
    (h : walksBackTo memberId up hops cursor = false) : ¬ Above up cursor memberId := by
  induction hops generalizing cursor with
  | zero => simp [walksBackTo] at h
  | succ hops ih =>
    cases hup : up cursor with
    | none => exact not_above_of_none hup
    | some above =>
      simp only [walksBackTo, hup, Bool.or_eq_false_iff, decide_eq_false_iff_not] at h
      rw [above_iff]
      rintro ⟨b, hb, hmem⟩
      rw [hup, Option.some.injEq] at hb
      subst hb
      rcases hmem with heq | hmem
      · exact h.1 heq.symm
      · exact ih h.2 hmem

theorem acyclic_admitEdit (h : Acyclic (reportsTo members)) (e : SupervisorEdit) :
    Acyclic (reportsTo (admitEdit members e)) := by
  unfold admitEdit
  split
  · exact h
  · rename_i hallowed
    rcases @reportsTo_updateTeamMember members e with hsame | hupd
    · rw [hsame]
      exact h
    · rw [hupd]
      apply Acyclic.update h
      intro b hb
      rw [hb] at hallowed
      simp only [wouldCreateReportsCycle, Bool.or_eq_true, decide_eq_true_eq, not_or,
        Bool.not_eq_true] at hallowed
      exact ⟨hallowed.1, not_above_of_walksBackTo hallowed.2⟩

theorem admitEdit_ids (e : SupervisorEdit) :
    (admitEdit members e).map (·.id) = members.map (·.id) := by
  unfold admitEdit
  split
  · rfl
  · exact updateTeamMember_ids e

end Edits

section Walks

variable {members : List Member}

/-- The supervisor of a member who is still on the roster. An edge to nobody ends a chain. -/
def supervisorOf (members : List Member) (id : Nat) : Option Nat :=
  (reportsTo members id).filter fun s => (members.find? (·.id = s)).isSome

theorem reportsTo_of_supervisorOf (h : supervisorOf members a = some b) :
    reportsTo members a = some b := (Option.filter_eq_some_iff.mp h).1

theorem acyclic_supervisorOf (h : Acyclic (reportsTo members)) :
    Acyclic (supervisorOf members) :=
  fun a ha => h a (ha.mono fun _ _ => reportsTo_of_supervisorOf)

theorem above_supervisorOf {r : Nat} (hr : (members.find? (·.id = r)).isSome) :
    Above (supervisorOf members) a r ↔ Above (reportsTo members) a r := by
  refine ⟨fun h => h.mono fun _ _ => reportsTo_of_supervisorOf, fun h => ?_⟩
  induction h using Relation.TransGen.head_induction_on with
  | single h => exact Above.single (Option.filter_eq_some_iff.mpr ⟨h, hr⟩)
  | @head a b hab hbr ih =>
    refine Above.head (Option.filter_eq_some_iff.mpr ⟨hab, ?_⟩) ih
    obtain ⟨c, hbc, _⟩ := above_iff.mp hbr
    obtain ⟨m, hm, _⟩ := Option.bind_eq_some_iff.mp hbc
    rw [hm]
    rfl

/-- The walk up returns the lineage of its cursor, if that is shorter than the budget. -/
theorem walkChain_lineage (hac : Acyclic (supervisorOf members)) {budget level : Nat}
    {visited l : List Nat} {cursor : Option Nat}
    (hl : Lineage (supervisorOf members)
      (cursor.filter fun s => (members.find? (·.id = s)).isSome) l)
    (hvisited : ∀ v ∈ visited, (members.find? (·.id = v)).isSome ∧ v ∉ l) :
    (l.length < budget →
      ∃ chain, walkChain members budget level visited cursor = some chain ∧
        chain.map (·.repId) = l) ∧
    (budget ≤ l.length → walkChain members budget level visited cursor = none) := by
  induction budget generalizing level visited cursor l with
  | zero => exact ⟨fun h => absurd h (Nat.not_lt_zero _), fun _ => rfl⟩
  | succ budget ih =>
    cases cursor with
    | none =>
      cases hl
      exact ⟨fun _ => ⟨[], rfl, rfl⟩, fun h => absurd h (by simp)⟩
    | some id =>
      unfold walkChain
      cases hm : members.find? (·.id = id) with
      | none =>
        have hnot : id ∉ visited := fun hv => by simpa [hm] using (hvisited id hv).1
        rw [Option.filter_some, hm] at hl
        cases hl
        rw [if_neg hnot]
        exact ⟨fun _ => ⟨[], rfl, rfl⟩, fun h => absurd h (by simp)⟩
      | some m =>
        rw [Option.filter_some, hm, Option.isSome_some, if_pos rfl] at hl
        cases hl with
        | @step _ l hl =>
          have hid : m.id = id := (mem_of_find?_key hm).2
          have hnot : id ∉ visited := fun hv => (hvisited id hv).2 mem_cons_self
          have hsup : supervisorOf members id =
              m.reportsToId.filter fun s => (members.find? (·.id = s)).isSome := by
            rw [supervisorOf, reportsTo, hm, Option.bind_some]
          have hself : id ∉ l := fun h => hac id (hl.mem_iff_above.mp h)
          have hvisited' : ∀ v ∈ id :: visited, (members.find? (·.id = v)).isSome ∧ v ∉ l := by
            intro v hv
            rcases mem_cons.mp hv with rfl | hv
            · exact ⟨by rw [hm]; rfl, hself⟩
            · exact ⟨(hvisited v hv).1, fun h => (hvisited v hv).2 (mem_cons_of_mem _ h)⟩
          obtain ⟨hshort, hlong⟩ := ih (hsup ▸ hl) hvisited'
          rw [if_neg hnot, length_cons]
          dsimp only
          constructor
          · intro hlt
            obtain ⟨chain, hchain, hids⟩ := hshort (by omega)
            refine ⟨_, by rw [hchain]; rfl, ?_⟩
            rw [map_cons, hids, hid]
          · intro hle
            rw [hlong (by omega), Option.map_none]

/-- The way up from a member of an acyclic roster: its lineage, or corrupt when that has as many
people as the walk has hops. -/
theorem resolveOverrideChain_lineage (h : Distinct members) (hac : Acyclic (reportsTo members))
    (hm : m ∈ members) {above : List Nat}
    (hl : Lineage (supervisorOf members) (supervisorOf members m.id) above) :
    (above.length < maxHops →
      ∃ chain, resolveOverrideChain m.id members = some chain ∧ chain.map (·.repId) = above) ∧
    (maxHops ≤ above.length → resolveOverrideChain m.id members = none) := by
  apply walkChain_lineage (acyclic_supervisorOf hac) hl
  intro v hv
  rw [mem_singleton.mp hv, find?_key h hm]
  exact ⟨rfl, fun hmem => acyclic_supervisorOf hac m.id (hl.mem_iff_above.mp hmem)⟩

theorem mem_childrenOf (h : Distinct members) {p c : Nat} :
    c ∈ childrenOf members p ↔ reportsTo members c = some p := by
  unfold childrenOf
  rw [mem_map]
  constructor
  · rintro ⟨m, hm, rfl⟩
    obtain ⟨hmem, hp⟩ := mem_filter.mp hm
    rw [reportsTo_of_mem h hmem]
    simpa using hp
  · intro hc
    obtain ⟨m, hm, hid, hp⟩ := exists_of_reportsTo hc
    exact ⟨m, mem_filter.mpr ⟨hm, by simpa using hp⟩, hid⟩

/-- The leader of a downline: a member, or an id that nobody reports to. -/
def Leads (members : List Member) (r : Nat) : Prop :=
  (members.find? (·.id = r)).isSome ∨ ∀ m ∈ members, m.reportsToId ≠ some r

/-- Fewer than `maxNodes` people are below anyone on a roster of at most `maxNodes` members. -/
theorem downline_few (hac : Acyclic (reportsTo members)) (hsize : members.length ≤ maxNodes)
    {r : Nat} (hr : Leads members r) (l : List Nat) (hnd : l.Nodup)
    (hbelow : ∀ x ∈ l, Above (reportsTo members) x r) : l.length < maxNodes := by
  have hids : ∀ x ∈ l, x ∈ members.map (·.id) := by
    intro x hx
    obtain ⟨b, hb, _⟩ := above_iff.mp (hbelow x hx)
    obtain ⟨m, hm, hid, _⟩ := exists_of_reportsTo hb
    exact mem_map.mpr ⟨m, hm, hid⟩
  rcases hr with hr | hr
  · obtain ⟨m, hm⟩ := Option.isSome_iff_exists.mp hr
    have hmem : r ∈ members.map (·.id) := mem_map.mpr ⟨m, mem_of_find?_key hm⟩
    have hnd' : (r :: l).Nodup := nodup_cons.mpr ⟨fun h => hac r (hbelow r h), hnd⟩
    have hle := (hnd'.subperm (cons_subset.mpr ⟨hmem, hids⟩)).length_le
    rw [length_map, length_cons] at hle
    omega
  · cases l with
    | nil => decide
    | cons x l =>
      obtain ⟨y, _, hy⟩ := Relation.TransGen.tail'_iff.mp (hbelow x mem_cons_self)
      obtain ⟨m, hm, _, hmr⟩ := exists_of_reportsTo hy
      exact absurd hmr (hr m hm)

theorem mem_downlineOf (h : Distinct members) (hac : Acyclic (reportsTo members))
    (hsize : members.length ≤ maxNodes) {r : Nat} (hr : Leads members r) :
    (downlineOf r members).Nodup ∧
      ∀ x, x ∈ downlineOf r members ↔ Above (reportsTo members) x r :=
  search_found (fun _ _ => mem_childrenOf h) hac (downline_few hac hsize hr)

theorem mem_lineage_iff_above {r : Nat} {above : List Nat} (hr : Leads members r)
    (hl : Lineage (supervisorOf members) (supervisorOf members a) above) :
    r ∈ above ↔ Above (reportsTo members) a r := by
  rw [hl.mem_iff_above]
  rcases hr with hr | hr
  · exact above_supervisorOf hr
  · have hnone : ∀ x, ¬ Above (reportsTo members) x r := by
      intro x hx
      obtain ⟨y, _, hy⟩ := Relation.TransGen.tail'_iff.mp hx
      obtain ⟨m, hm, _, hmr⟩ := exists_of_reportsTo hy
      exact hr m hm hmr
    exact ⟨fun hx => absurd (hx.mono fun _ _ => reportsTo_of_supervisorOf) (hnone a),
      fun hx => absurd hx (hnone a)⟩

theorem supervisorOf_mem_ids (h : supervisorOf members a = some b) : a ∈ members.map (·.id) := by
  obtain ⟨m, hm, hid, _⟩ := exists_of_reportsTo (reportsTo_of_supervisorOf h)
  exact mem_map.mpr ⟨m, hm, hid⟩

end Walks

/-- On a forest every member has a way up; while it is shorter than the hop budget, the chain lists
it, and whoever it lists has the member in their downline. -/
structure WalksAgree (members : List Member) (m : Member) (above : List Nat) : Prop where
  lineage : Lineage (supervisorOf members) (supervisorOf members m.id) above
  chain : above.length < maxHops → ∃ chain, resolveOverrideChain m.id members = some chain ∧
    (chain.map (·.repId)).Nodup ∧
    ∀ r, Leads members r → (m.id ∈ downlineOf r members ↔ r ∈ chain.map (·.repId))
  corrupt : maxHops ≤ above.length → resolveOverrideChain m.id members = none

theorem walksAgree {members : List Member} (h : Distinct members)
    (hac : Acyclic (reportsTo members)) (hsize : members.length ≤ maxNodes)
    (hm : m ∈ members) : ∃ above, WalksAgree members m above := by
  obtain ⟨above, hl⟩ := exists_lineage (acyclic_supervisorOf hac)
    (fun _ _ => supervisorOf_mem_ids) (supervisorOf members m.id)
  obtain ⟨hshort, hlong⟩ := resolveOverrideChain_lineage h hac hm hl
  refine ⟨above, hl, fun hlt => ?_, hlong⟩
  obtain ⟨chain, hchain, hids⟩ := hshort hlt
  refine ⟨chain, hchain, hids ▸ hl.nodup (acyclic_supervisorOf hac), fun r hr => ?_⟩
  rw [(mem_downlineOf h hac hsize hr).2, hids, mem_lineage_iff_above hr hl]

/-- What holds of the chart after every sequence of admitted edits. -/
theorem orgChart_run {members : List Member} (h : Distinct members)
    (hac : Acyclic (reportsTo members)) (hsize : members.length ≤ maxNodes)
    (edits : List SupervisorEdit) :
    Acyclic (reportsTo (run admitEdit members edits)) ∧
      (∀ m ∈ run admitEdit members edits, ∃ above,
        WalksAgree (run admitEdit members edits) m above) ∧
      ∀ r, Leads (run admitEdit members edits) r →
        (downlineOf r (run admitEdit members edits)).Nodup := by
  have hids : (run admitEdit members edits).map (·.id) = members.map (·.id) :=
    @run_invariant_all _ _ admitEdit (fun ms => ms.map (·.id) = members.map (·.id))
      (fun _ e hms => (admitEdit_ids e).trans hms) _ edits rfl
  have hdist : Distinct (run admitEdit members edits) := by
    unfold Distinct
    rw [hids]
    exact h
  have hacyc : Acyclic (reportsTo (run admitEdit members edits)) :=
    @run_invariant_all _ _ admitEdit (fun ms => Acyclic (reportsTo ms))
      (fun _ e hms => acyclic_admitEdit hms e) _ edits hac
  have hlen : (run admitEdit members edits).length ≤ maxNodes := by
    have hsame := congrArg List.length hids
    rw [length_map, length_map] at hsame
    omega
  exact ⟨hacyc, fun m hm => walksAgree hdist hacyc hlen hm,
    fun r hr => (mem_downlineOf hdist hacyc hlen hr).1⟩

/-- Two branches of sixty members each, where everyone reports to the member before them. -/
def twoBranches : List Member :=
  (List.range 120).map fun i =>
    { id := i + 1
      role := .rep
      reportsToId := if i = 0 ∨ i = 60 then none else some i
      active := true
      overrideTeamLeadCents := none
      overrideManagerCents := none }

theorem twoBranches_distinct : Distinct twoBranches := by
  have hids : twoBranches.map (·.id) = (List.range 120).map (· + 1) := by
    rw [twoBranches, map_map]
    rfl
  rw [Distinct, hids]
  exact List.Nodup.map (add_left_injective 1) nodup_range

theorem above_twoBranches (h : Above (reportsTo twoBranches) a b) :
    a ≤ 120 ∧ b < a ∧ (60 < a → 60 < b) := by
  have hstep : ∀ a b, reportsTo twoBranches a = some b → a ≤ 120 ∧ b < a ∧ (60 < a → 60 < b) := by
    intro a b hab
    obtain ⟨m, hm, hid, hb⟩ := exists_of_reportsTo hab
    obtain ⟨i, hi, rfl⟩ := mem_map.mp hm
    rw [mem_range] at hi
    dsimp only at hid hb
    split at hb
    · simp at hb
    · rw [Option.some.injEq] at hb
      omega
  induction h with
  | single h => exact hstep _ _ h
  | tail _ h ih =>
    have hlast := hstep _ _ h
    omega

theorem twoBranches_acyclic : Acyclic (reportsTo twoBranches) :=
  fun a ha => lt_irrefl a (above_twoBranches ha).2.1

theorem twoBranches_short {above : List Nat}
    (hl : Lineage (supervisorOf twoBranches) (supervisorOf twoBranches a) above) :
    above.length ≤ 60 := by
  have hnd := hl.nodup (acyclic_supervisorOf twoBranches_acyclic)
  have habove : ∀ b ∈ above, a ≤ 120 ∧ b < a ∧ (60 < a → 60 < b) := fun b hb =>
    above_twoBranches ((hl.mem_iff_above.mp hb).mono fun _ _ => reportsTo_of_supervisorOf)
  have hbranch : ∃ first, above ⊆ List.range' first 60 := by
    by_cases ha : 60 < a
    · refine ⟨61, fun b hb => mem_range'_1.mpr ?_⟩
      have hb := habove b hb
      omega
    · refine ⟨0, fun b hb => mem_range'_1.mpr ?_⟩
      have hb := habove b hb
      omega
  obtain ⟨first, hsub⟩ := hbranch
  simpa using (hnd.subperm hsub).length_le

/-- The first member of the second branch is hung below the last one of the first. -/
def stackBranches : SupervisorEdit where
  memberId := 61
  supervisorId := some 60

/-- Both branches are shorter than the hop budget and the edit is admitted, but the chain of the
last member is corrupt afterwards. -/
theorem not_chainsIntact_stackedBranches :
    ¬ ∀ (members : List Member) (edits : List SupervisorEdit), Distinct members →
      Acyclic (reportsTo members) → members.length ≤ maxNodes →
      (∀ m ∈ members, ∀ above, Lineage (supervisorOf members) (supervisorOf members m.id) above →
        above.length < maxHops) →
      ∀ m ∈ run admitEdit members edits,
        resolveOverrideChain m.id (run admitEdit members edits) ≠ none := by
  intro hclaim
  have hlast : 120 ∈ (run admitEdit twoBranches [stackBranches]).map (·.id) := by decide +kernel
  have hcorrupt : resolveOverrideChain 120 (run admitEdit twoBranches [stackBranches]) = none := by
    decide +kernel
  obtain ⟨m, hm, hid⟩ := mem_map.mp hlast
  refine hclaim twoBranches [stackBranches] twoBranches_distinct twoBranches_acyclic (by decide)
    (fun m _ above hl => ?_) m hm (hid ▸ hcorrupt)
  have hle := twoBranches_short hl
  rw [maxHops]
  omega

theorem orgChart_run_stackedBranches :
    Acyclic (reportsTo (run admitEdit twoBranches [stackBranches])) ∧
      (∀ m ∈ run admitEdit twoBranches [stackBranches], ∃ above,
        WalksAgree (run admitEdit twoBranches [stackBranches]) m above) ∧
      ∀ r, Leads (run admitEdit twoBranches [stackBranches]) r →
        (downlineOf r (run admitEdit twoBranches [stackBranches])).Nodup :=
  orgChart_run twoBranches_distinct twoBranches_acyclic (by decide) [stackBranches]

end HomefrontFiber.Team
