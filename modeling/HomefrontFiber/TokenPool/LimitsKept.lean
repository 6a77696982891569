import HomefrontFiber.TokenPool.Limits

/-!
# Every piece keeps the limits

Most pieces update slots without touching a token, or drop the token with its keys. A mint replaces
the keys with none. A key is added to a token that has room, by a lease always and by a refreshed
lease under the condition of the run.
-/

namespace HomefrontFiber.TokenPool

open List Option

variable {o : PoolSettings} {p : Pool}

namespace BudgetWf

variable {slots : List TokenSlot} {mints : Nat} {charges : List (Nat × String)}

theorem start : BudgetWf o [] 0 [] where
  known := nofun
  bounded _ := Nat.zero_le _
  older := nofun
  own := nofun
  keys := nofun

section

variable (h : BudgetWf o slots mints charges)
include h

theorem map {f : TokenSlot → TokenSlot} (hid : ∀ s, (f s).id = s.id)
    (htoken : ∀ s, (f s).token = none ∨
      (f s).token = s.token ∧ (f s).addressKeys = s.addressKeys) :
    BudgetWf o (slots.map f) mints charges := by
  have hkeep : ∀ s t, t ∈ (f s).token → t ∈ s.token ∧ (f s).addressKeys = s.addressKeys := by
    intro s t ht
    rcases htoken s with hnone | ⟨hsame, hkeys⟩
    · rw [hnone] at ht
      cases ht
    · exact ⟨hsame ▸ ht, hkeys⟩
  constructor
  · exact h.known
  · exact h.bounded
  · intro s hs t ht
    obtain ⟨b, hb, rfl⟩ := mem_map.mp hs
    exact h.older b hb t (hkeep b t ht).1
  · intro s hs t ht s' hs' t' ht' hmint
    obtain ⟨b, hb, rfl⟩ := mem_map.mp hs
    obtain ⟨b', hb', rfl⟩ := mem_map.mp hs'
    rw [hid, hid]
    exact h.own b hb t (hkeep b t ht).1 b' hb' t' (hkeep b' t' ht').1 hmint
  · intro s hs t ht
    obtain ⟨b, hb, rfl⟩ := mem_map.mp hs
    rw [(hkeep b t ht).2]
    exact h.keys b hb t (hkeep b t ht).1

theorem create {slot : TokenSlot} (hnone : slot.token = none) :
    BudgetWf o (slots ++ [slot]) mints charges := by
  have hmem : ∀ s t, s ∈ slots ++ [slot] → t ∈ s.token → s ∈ slots := by
    intro s t hs ht
    rcases mem_append.mp hs with hs | hs
    · exact hs
    · obtain rfl := mem_singleton.mp hs
      rw [hnone] at ht
      cases ht
  constructor
  · exact h.known
  · exact h.bounded
  · exact fun s hs t ht => h.older s (hmem s t hs ht) t ht
  · exact fun s hs t ht s' hs' t' ht' => h.own s (hmem s t hs ht) t ht s' (hmem s' t' hs' ht') t' ht'
  · exact fun s hs t ht => h.keys s (hmem s t hs ht) t ht

theorem mint {slotId : Nat} {text : String} {f : TokenSlot → TokenSlot} (hid : ∀ s, (f s).id = s.id)
    (htoken : ∀ s, (f s).token = some ⟨text, mints⟩) (hkeys : ∀ s, (f s).addressKeys = []) :
    BudgetWf o (slots.map fun s => if s.id = slotId then f s else s) (mints + 1) charges := by
  have hcases : ∀ b ∈ slots, ∀ t ∈ (if b.id = slotId then f b else b).token,
      (b.id = slotId ∧ t.mint = mints) ∨ (b.id ≠ slotId ∧ t ∈ b.token ∧ t.mint < mints) := by
    intro b hb t ht
    split at ht
    · rename_i heq
      rw [htoken] at ht
      exact .inl ⟨heq, (some.inj ht) ▸ rfl⟩
    · rename_i hne
      exact .inr ⟨hne, ht, h.older b hb t ht⟩
  constructor
  · exact fun c hc => (h.known c hc).trans (Nat.lt_succ_self mints)
  · exact h.bounded
  · intro s hs t ht
    obtain ⟨b, hb, rfl⟩ := mem_map.mp hs
    rcases hcases b hb t ht with ⟨-, hmint⟩ | ⟨-, -, hlt⟩
    · omega
    · omega
  · intro s hs t ht s' hs' t' ht' hmint
    obtain ⟨b, hb, rfl⟩ := mem_map.mp hs
    obtain ⟨b', hb', rfl⟩ := mem_map.mp hs'
    rw [SlotsWf.updateAt_id hid, SlotsWf.updateAt_id hid]
    rcases hcases b hb t ht with ⟨hb₁, hm⟩ | ⟨-, ht₁, hlt⟩
    · rcases hcases b' hb' t' ht' with ⟨hb₂, -⟩ | ⟨-, -, hlt'⟩
      · rw [hb₁, hb₂]
      · omega
    · rcases hcases b' hb' t' ht' with ⟨-, hm'⟩ | ⟨-, ht₂, -⟩
      · omega
      · exact h.own b hb t ht₁ b' hb' t' ht₂ hmint
  · intro s hs t ht
    obtain ⟨b, hb, rfl⟩ := mem_map.mp hs
    rcases hcases b hb t ht with ⟨heq, hmint⟩ | ⟨hne, ht₁, -⟩
    · rw [if_pos heq, hkeys]
      refine ⟨nodup_nil, fun key => ⟨nofun, fun hc => ?_⟩⟩
      exact absurd (h.known _ hc) (by simp [hmint])
    · rw [if_neg hne]
      exact h.keys b hb t ht₁

theorem map_at (hids : (slots.map TokenSlot.id).Nodup)
    {slot : TokenSlot} (hslot : slot ∈ slots) (hnone : slot.token = none)
    {f : TokenSlot → TokenSlot} (hid : ∀ s, (f s).id = s.id) (htoken : ∀ s, (f s).token = s.token) :
    BudgetWf o (slots.map fun s => if s.id = slot.id then f s else s) mints charges := by
  have hsame : slots.map (fun s => if s.id = slot.id then f s else s) =
      slots.map fun s => if s.id = slot.id then { f s with token := none } else s := by
    apply map_congr_left
    intro s hs
    split
    · rename_i heq
      obtain rfl := inj_on_of_nodup_map hids hs hslot heq
      rw [← hnone, ← htoken]
    · rfl
  rw [hsame]
  apply h.map
  · intro s
    split
    · exact hid s
    · rfl
  · intro s
    split
    · exact .inl rfl
    · exact .inr ⟨rfl, rfl⟩

theorem length_le {slot : TokenSlot} (hs : slot ∈ slots)
    {t : Token} (ht : t ∈ slot.token) : slot.addressKeys.length ≤ o.maxChecksPerToken := by
  obtain ⟨hnd, hmem⟩ := h.keys slot hs t ht
  have hsub : slot.addressKeys ⊆ ((charges.filter (·.1 = t.mint)).map Prod.snd).dedup := by
    intro key hkey
    rw [mem_dedup]
    have hcharged := (hmem key).mp hkey
    exact mem_map.mpr ⟨(t.mint, key), mem_filter.mpr ⟨hcharged, by simp⟩, rfl⟩
  exact (subperm_of_subset hnd hsub).length_le.trans (h.bounded t.mint)

end

theorem mem_addKey {key k : String} {slot : TokenSlot} :
    k ∈ (TokenSlot.addKey key slot).addressKeys ↔ k ∈ slot.addressKeys ∨ k = key := by
  unfold TokenSlot.addKey
  split
  · rename_i hknown
    constructor
    · exact .inl
    · rintro (hk | rfl)
      · exact hk
      · exact hknown
  · simp

theorem charge (h : BudgetWf o slots mints charges) (hids : (slots.map TokenSlot.id).Nodup)
    {slot : TokenSlot} (hslot : slot ∈ slots) {t : Token} (ht : slot.token = some t) {key : String}
    (hroom : slot.hasRoom o.maxChecksPerToken (some key) = true) :
    BudgetWf o (slots.map fun s => if s.id = slot.id then TokenSlot.addKey key s else s) mints
      (charges ++ [(t.mint, key)]) := by
  have hother : ∀ b ∈ slots, b.id ≠ slot.id → ∀ u ∈ b.token, u.mint ≠ t.mint :=
    fun b hb hne u hu hmint => hne (h.own b hb u hu slot hslot t ht hmint)
  obtain ⟨hnd, hmem⟩ := h.keys slot hslot t ht
  have hnd' : (TokenSlot.addKey key slot).addressKeys.Nodup := by
    unfold TokenSlot.addKey
    split
    · exact hnd
    · rename_i hfresh
      exact List.Nodup.append hnd (nodup_singleton key) (by simpa using hfresh)
  have hlength : (TokenSlot.addKey key slot).addressKeys.length ≤ o.maxChecksPerToken := by
    unfold TokenSlot.addKey
    split
    · exact h.length_le hslot ht
    · rename_i hfresh
      rw [length_append, length_singleton]
      unfold TokenSlot.hasRoom at hroom
      apply Nat.succ_le_of_lt
      simpa [hfresh] using hroom
  constructor
  · intro c hc
    rcases mem_append.mp hc with hc | hc
    · exact h.known c hc
    · obtain rfl := mem_singleton.mp hc
      exact h.older slot hslot t ht
  · intro m
    by_cases hm : t.mint = m
    · have hsub : ((((charges ++ [(t.mint, key)]).filter (·.1 = m)).map Prod.snd).dedup) ⊆
          (TokenSlot.addKey key slot).addressKeys := by
        intro k hk
        rw [mem_dedup] at hk
        obtain ⟨c, hc, rfl⟩ := mem_map.mp hk
        obtain ⟨hc, hcm⟩ := mem_filter.mp hc
        rw [mem_addKey]
        rcases mem_append.mp hc with hc | hc
        · left
          rw [hmem, hm, ← of_decide_eq_true hcm]
          exact hc
        · right
          rw [mem_singleton.mp hc]
      exact (subperm_of_subset (nodup_dedup _) hsub).length_le.trans hlength
    · have hsame : (charges ++ [(t.mint, key)]).filter (·.1 = m) = charges.filter (·.1 = m) := by
        rw [filter_append, filter_cons_of_neg (by simpa using hm), filter_nil,
          append_nil]
      rw [hsame]
      exact h.bounded m
  · intro s hs u hu
    obtain ⟨b, hb, rfl⟩ := mem_map.mp hs
    split at hu
    · exact h.older b hb u hu
    · exact h.older b hb u hu
  · intro s hs u hu s' hs' u' hu' hmint
    obtain ⟨b, hb, rfl⟩ := mem_map.mp hs
    obtain ⟨b', hb', rfl⟩ := mem_map.mp hs'
    have hid : ∀ c, (TokenSlot.addKey key c).id = c.id := fun _ => rfl
    rw [SlotsWf.updateAt_id hid, SlotsWf.updateAt_id hid]
    have htoken : ∀ c : TokenSlot, (if c.id = slot.id then TokenSlot.addKey key c else c).token = c.token := by
      intro c
      split <;> rfl
    rw [htoken] at hu hu'
    exact h.own b hb u hu b' hb' u' hu' hmint
  · intro s hs u hu
    obtain ⟨b, hb, rfl⟩ := mem_map.mp hs
    by_cases heq : b.id = slot.id
    · obtain rfl := inj_on_of_nodup_map hids hb hslot heq
      rw [if_pos rfl] at hu ⊢
      obtain rfl : t = u := some.inj (ht.symm.trans hu)
      refine ⟨hnd', fun k => ?_⟩
      rw [mem_addKey, hmem, mem_append, mem_singleton, Prod.mk.injEq]
      simp
    · rw [if_neg heq] at hu ⊢
      obtain ⟨hndb, hmemb⟩ := h.keys b hb u hu
      refine ⟨hndb, fun k => ?_⟩
      rw [hmemb, mem_append, mem_singleton, Prod.mk.injEq]
      have hne := hother b hb heq u hu
      simp [hne]

end BudgetWf

/-- An update that concerns neither the refresh of a slot nor the charges of a token it keeps. -/
structure Harmless (f : TokenSlot → TokenSlot) : Prop where
  id : ∀ s, (f s).id = s.id
  inFlight : ∀ s, (f s).refreshInFlight = s.refreshInFlight
  token : ∀ s, (f s).token = none ∨ (f s).token = s.token ∧ (f s).addressKeys = s.addressKeys

namespace Harmless

variable {f : TokenSlot → TokenSlot}

theorem ite (h : Harmless f) (c : TokenSlot → Prop) [DecidablePred c] :
    Harmless fun s => if c s then f s else s where
  id s := by
    split
    · exact h.id s
    · rfl
  inFlight s := by
    split
    · exact h.inFlight s
    · rfl
  token s := by
    split
    · exact h.token s
    · exact .inr ⟨rfl, rfl⟩

theorem of_same (hid : ∀ s, (f s).id = s.id)
    (hflight : ∀ s, (f s).refreshInFlight = s.refreshInFlight)
    (htoken : ∀ s, (f s).token = s.token) (hkeys : ∀ s, (f s).addressKeys = s.addressKeys) :
    Harmless f := ⟨hid, hflight, fun s => .inr ⟨htoken s, hkeys s⟩⟩

theorem of_drop (hid : ∀ s, (f s).id = s.id)
    (hflight : ∀ s, (f s).refreshInFlight = s.refreshInFlight) (htoken : ∀ s, (f s).token = none) :
    Harmless f := ⟨hid, hflight, fun s => .inl (htoken s)⟩

end Harmless

structure Leasable (o : PoolSettings) (p : Pool) (addressKey : Option String) (slot : TokenSlot) :
    Prop where
  mem : slot ∈ p.slots
  ready : slot.isReady p.nowMs o.refreshMarginMs = true
  room : slot.hasRoom o.maxChecksPerToken addressKey = true

theorem pickReady_some {addressKey : Option String} {lane : Option Lane} {slot : TokenSlot}
    (h : p.pickReady o addressKey lane = some slot) : Leasable o p addressKey slot := by
  unfold Pool.pickReady at h
  have hmem := mem_mergeSort.mp (mem_of_head? h)
  obtain ⟨hslot, hfilter⟩ := mem_filter.mp hmem
  simp only [Bool.and_eq_true] at hfilter
  exact ⟨hslot, hfilter.1.2, hfilter.2⟩

/-- What every change that a lease or a warming makes to a pool keeps. -/
structure Kept (o : PoolSettings) (I : Pool → Prop) : Prop where
  frame : ∀ {p}, I p → ∀ calls refusals warmInFlight nowMs,
    I { p with
      calls := calls, refusals := refusals, warmInFlight := warmInFlight, nowMs := nowMs }
  updateStates : ∀ {p}, I p → I p.updateStates
  createSlot : ∀ {p}, I p → I (p.createSlot o)
  refreshSlot : ∀ {p}, I p → ∀ slotId force, I (p.refreshSlot o slotId force)
  grant : ∀ {p}, I p → ∀ {c slot}, Leasable o p c.addressKey slot → ∀ token, I (p.grant c slot token)

namespace Kept

variable {I : Pool → Prop} {c : LeaseCall} {slot : Option TokenSlot}

section

variable (hI : Kept o I)
include hI

theorem suspend (h : I p) (call : Call) : I (p.suspend call) := hI.frame h _ _ _ _

theorem refuse (h : I p) (error : LeaseError) : I (p.refuse error) :=
  hI.frame h _ _ _ _

theorem awaitReady (h : I p) (aborted : Bool) (point : LeasePoint) :
    I (p.awaitReady c aborted point) := by
  unfold Pool.awaitReady
  split
  · exact hI.refuse h _
  · exact hI.suspend h _

theorem leaseSlot (h : I p) (aborted : Bool)
    (hslot : ∀ s ∈ slot, Leasable o p c.addressKey s) : I (p.leaseSlot o c aborted slot) := by
  unfold Pool.leaseSlot
  split
  · exact hI.refuse h _
  · rename_i s token hpicked
    obtain ⟨b, hb, hmap⟩ := bind_eq_some_iff.mp hpicked
    obtain ⟨u, -, hpair⟩ := map_eq_some_iff.mp hmap
    obtain ⟨rfl, rfl⟩ := Prod.mk.inj hpair
    split
    · exact hI.refuse h _
    · split
      · exact hI.grant h (hslot b hb) u
      · exact hI.refuse h _

theorem leaseAny (h : I p) (aborted : Bool)
    (hslot : ∀ s ∈ slot, Leasable o p c.addressKey s) : I (p.leaseAny o c aborted slot) := by
  unfold Pool.leaseAny
  split
  · rename_i s hs
    apply hI.leaseSlot h
    rintro b ⟨⟩
    rcases or_eq_some_iff.mp hs with hs | ⟨-, hs⟩
    · exact hslot s hs
    · obtain ⟨lane, -, hpicked⟩ := bind_eq_some_iff.mp hs
      exact pickReady_some hpicked
  · split
    · exact hI.awaitReady h aborted _
    · exact hI.leaseSlot h aborted fun s hs => pickReady_some hs

theorem growLane (lane : Option Lane) (attempts : Nat) (h : I p) :
    I (Pool.growLane o lane attempts p).1 := by
  induction attempts generalizing p with
  | zero => exact h
  | succ attempts ih =>
    unfold Pool.growLane
    split
    · dsimp only
      split
      · exact hI.createSlot h
      · exact ih (hI.createSlot h)
    · exact h

theorem leaseCreated (h : I p) (aborted : Bool)
    (hslot : ∀ s ∈ slot, Leasable o p c.addressKey s) : I (p.leaseCreated o c aborted slot) := by
  unfold Pool.leaseCreated
  split
  · have hgrown := hI.growLane c.lane (c.lane.elim 1 Lane.count) h
    split
    · rename_i q slotId hq
      rw [hq] at hgrown
      exact hI.awaitReady hgrown aborted _
    · rename_i q hq
      rw [hq] at hgrown
      exact hI.leaseAny hgrown aborted fun s hs => pickReady_some hs
  · exact hI.leaseAny h aborted hslot

theorem leaseRecycled (h : I p) (aborted : Bool)
    (hslot : ∀ s ∈ slot, Leasable o p c.addressKey s) : I (p.leaseRecycled o c aborted slot) := by
  unfold Pool.leaseRecycled
  split
  · exact hI.awaitReady h aborted _
  · exact hI.leaseCreated h aborted hslot

theorem leaseExpanded (h : I p) (aborted : Bool)
    (hslot : ∀ s ∈ slot, Leasable o p c.addressKey s) : I (p.leaseExpanded o c aborted slot) := by
  unfold Pool.leaseExpanded
  split
  · exact hI.awaitReady (hI.createSlot h) aborted _
  · exact hI.leaseRecycled h aborted hslot

theorem lease (h : I p) (c : LeaseCall) (aborted : Bool) : I (p.lease o c aborted) := by
  unfold Pool.lease
  split
  · exact hI.refuse h _
  · split
    · exact hI.awaitReady h aborted _
    · rename_i s hs
      apply hI.leaseExpanded h
      rintro b ⟨⟩
      exact pickReady_some hs

theorem createSlots (n : Nat) (h : I p) : I (Pool.createSlots o n p) := by
  induction n generalizing p with
  | zero => exact h
  | succ n ih => exact ih (hI.createSlot h)

theorem refreshSlots (h : I p) (slotIds : List Nat) : I (p.refreshSlots o slotIds) := by
  induction slotIds generalizing p with
  | nil => exact h
  | cons slotId slotIds ih => exact ih (hI.refreshSlot h slotId true)

theorem ensureWarm (h : I p) : I (p.ensureWarm o) := by
  unfold Pool.ensureWarm
  split
  · exact h
  · exact hI.frame (hI.refreshSlots (hI.createSlots _ (hI.updateStates h)) _) _ _ _ _

theorem refreshDueSlots (h : I p) (maxWave : Option Nat) : I (p.refreshDueSlots o maxWave) := by
  unfold Pool.refreshDueSlots
  dsimp only
  split
  · exact hI.updateStates h
  · exact hI.refreshSlots (hI.updateStates h) _

theorem resumeLease (h : I p) (c : LeaseCall) (aborted : Bool)
    (point : LeasePoint) : I (p.resumeLease o c aborted point) := by
  cases point with
  | beforeWarm => exact hI.suspend (hI.ensureWarm h) _
  | afterWarm => exact hI.awaitReady h aborted _
  | beforeDue => exact hI.suspend (hI.refreshDueSlots h _) _
  | afterDue => exact hI.leaseExpanded h aborted fun s hs => pickReady_some hs
  | beforeExpand slotId => exact hI.suspend (hI.refreshSlot h slotId true) _
  | afterExpand => exact hI.leaseRecycled h aborted fun s hs => pickReady_some hs
  | beforeRecycle slotId => exact hI.suspend (hI.refreshSlot h slotId true) _
  | afterRecycle => exact hI.leaseCreated h aborted fun s hs => pickReady_some hs
  | beforeCreate slotId => exact hI.suspend (hI.refreshSlot h slotId true) _
  | afterCreate => exact hI.leaseAny h aborted fun s hs => pickReady_some hs
  | afterRace => exact hI.leaseSlot h aborted fun s hs => pickReady_some hs

theorem resumeWarmFull (h : I p) : I (p.resumeWarmFull o) := by
  unfold Pool.resumeWarmFull
  split
  · exact hI.suspend h _
  · split
    · exact hI.suspend h _
    · exact hI.suspend (hI.refreshSlot h _ true) _

theorem resumeCall (h : I p) (aborted : Bool) {call : Call}
    (hcharge : ∀ slotId key, call = .refreshLease slotId (some key) → ∀ slot ∈ p.slot? slotId,
      I (p.charge slot key)) : I (p.resumeCall o aborted call) := by
  cases call with
  | lease c point => exact hI.resumeLease h c aborted point
  | refreshLease slotId addressKey =>
    simp only [Pool.resumeCall, Pool.resumeRefreshLease]
    cases hslot : p.slot? slotId with
    | none => exact h
    | some slot =>
      cases addressKey with
      | none => exact h
      | some key => exact hcharge slotId key rfl slot hslot
  | maintain => exact hI.ensureWarm h
  | warmFull => exact hI.resumeWarmFull h
  | warmReused => exact hI.suspend h _
  | warmDone => exact hI.frame h _ _ _ _

theorem giveUp (h : I p) (i : Nat) : I (p.giveUp i) := by
  unfold Pool.giveUp
  split
  · exact hI.frame h _ _ _ _
  · exact hI.frame h _ _ _ _
  · exact h

/-- The pieces that settle no refresh and drop or release nothing. -/
theorem run (h : I p) : ∀ piece : Piece, match piece with
    | .lease .. | .refreshSlot .. | .refreshLease _ | .maintain | .ensureWarm | .giveUp _ =>
      I (piece.run o p)
    | _ => True
  | .lease _ _ _ aborted => hI.lease h _ aborted
  | .refreshSlot slotId force => hI.refreshSlot h slotId force
  | .refreshLease i => by
    dsimp only [Piece.run]
    cases p.leases[i]? with
    | none => exact h
    | some lease => exact hI.suspend (hI.refreshSlot h lease.slotId true) _
  | .maintain => hI.suspend (hI.refreshDueSlots (hI.updateStates h) none) _
  | .ensureWarm => hI.ensureWarm h
  | .giveUp i => hI.giveUp h i
  | .release _ | .invalidate _ | .retireSlot _ | .retireLane .. | .retireGeneration | .expire _
  | .resumeRefresh .. | .resumeCall .. => trivial

end

end Kept

namespace PoolWf

theorem start (nowMs : Int) : PoolWf o (.start nowMs) where
  slots := ⟨nodup_nil, nofun, Nat.zero_le _, nodup_nil, nofun⟩
  permits := PermitsWf.start
  budget := BudgetWf.start
  leases := nofun

theorem map (h : PoolWf o p) {f : TokenSlot → TokenSlot} (hf : Harmless f) :
    PoolWf o { p with slots := p.slots.map f } where
  slots := h.slots.map hf.id hf.inFlight
  permits := h.permits
  budget := h.budget.map hf.id hf.token
  leases := h.leases

theorem updateSlot (h : PoolWf o p) {f : TokenSlot → TokenSlot} (hf : Harmless f) (slotId : Nat) :
    PoolWf o (p.updateSlot slotId f) := h.map (hf.ite fun s => s.id = slotId)

theorem updateStates (h : PoolWf o p) : PoolWf o p.updateStates := by
  have hlapse : Harmless TokenSlot.lapse :=
    Harmless.of_drop (fun _ => rfl) (fun _ => rfl) (fun _ => rfl)
  exact h.map (hlapse.ite fun s => s.state = .ready ∧ s.expiresAt ≤ p.nowMs)

theorem createSlot (h : PoolWf o p) : PoolWf o (p.createSlot o) := by
  unfold Pool.createSlot
  split
  · rename_i hroom
    exact ⟨h.slots.create hroom, h.permits, h.budget.create rfl, h.leases⟩
  · exact h

theorem slot?_some {slotId : Nat} {slot : TokenSlot} (h : p.slot? slotId = some slot) :
    slot ∈ p.slots ∧ slot.id = slotId := mem_of_find?_key h

theorem refreshSlot (h : PoolWf o p) (slotId : Nat) (force : Bool) :
    PoolWf o (p.refreshSlot o slotId force) := by
  unfold Pool.refreshSlot
  split
  · exact h
  · rename_i slot hslot
    obtain ⟨hmem, rfl⟩ := slot?_some hslot
    split
    · exact h
    · split
      · exact h
      · rename_i hfree
        have hid : ∀ s : TokenSlot, s.beginRefresh.id = s.id := fun _ => rfl
        constructor
        · exact h.slots.begin_ hmem ((Bool.not_eq_true _).mp hfree) hid fun _ => rfl
        · exact h.permits.begin_ slot.id
        · apply h.budget.map (SlotsWf.updateAt_id hid slot.id)
          intro s
          right
          split <;> exact ⟨rfl, rfl⟩
        · exact h.leases

theorem charge (h : PoolWf o p) {slot : TokenSlot} (hslot : slot ∈ p.slots) {key : String}
    (hroom : slot.token.isSome = true → slot.hasRoom o.maxChecksPerToken (some key) = true) :
    PoolWf o (p.charge slot key) := by
  have hid : ∀ s, (TokenSlot.addKey key s).id = s.id := fun _ => rfl
  constructor
  · exact h.slots.map (SlotsWf.updateAt_id hid slot.id) fun s => by split <;> rfl
  · exact h.permits
  · cases htoken : slot.token with
    | none =>
      have hcharges : (p.charge slot key).charges = p.charges := by
        unfold Pool.charge
        simp [htoken]
      rw [hcharges]
      apply h.budget.map_at h.slots.ids hslot htoken hid
      exact fun _ => rfl
    | some t =>
      have hcharges : (p.charge slot key).charges = p.charges ++ [(t.mint, key)] := by
        unfold Pool.charge
        simp [htoken]
      rw [hcharges]
      exact h.budget.charge h.slots.ids hslot htoken (hroom (by rw [htoken]; rfl))
  · exact h.leases

theorem grant (h : PoolWf o p) {c : LeaseCall} {slot : TokenSlot}
    (hslot : Leasable o p c.addressKey slot) (token : Token) : PoolWf o (p.grant c slot token) := by
  have hlease : Harmless (TokenSlot.addLease (p.leaseSequence + 1)) :=
    Harmless.of_same (fun _ => rfl) (fun _ => rfl) (fun _ => rfl) (fun _ => rfl)
  have hready := hslot.ready
  unfold TokenSlot.isReady at hready
  simp only [Bool.and_eq_true, decide_eq_true_eq] at hready
  obtain ⟨⟨hstate, -⟩, hopen⟩ := hready
  have hgranted : ∀ (checksUsed : Nat), ∀ l ∈ p.leases ++ [{
      slotId := slot.id, token := token, expiresAt := slot.expiresAt, addressKey := c.addressKey
      checksUsed := checksUsed, slotState := slot.state, grantedAt := p.nowMs }],
      l.slotState = .ready ∧ l.grantedAt + o.refreshMarginMs < l.expiresAt := by
    intro checksUsed l hl
    rcases mem_append.mp hl with hl | hl
    · exact h.leases l hl
    · obtain rfl := mem_singleton.mp hl
      exact ⟨hstate, hopen⟩
  unfold Pool.grant
  cases hkey : c.addressKey with
  | none =>
    have hupdated := h.updateSlot hlease slot.id
    rw [hkey] at hgranted
    exact ⟨hupdated.slots, hupdated.permits, hupdated.budget, hgranted _⟩
  | some key =>
    rw [hkey] at hgranted
    dsimp only
    split
    · have hupdated := h.updateSlot hlease slot.id
      exact ⟨hupdated.slots, hupdated.permits, hupdated.budget, hgranted _⟩
    · have hroom := hslot.room
      rw [hkey] at hroom
      have hcharged : PoolWf o (p.charge slot key) := h.charge hslot.mem fun _ => hroom
      have hupdated := hcharged.updateSlot hlease slot.id
      exact ⟨hupdated.slots, hupdated.permits, hupdated.budget, hgranted _⟩

theorem kept : Kept o (PoolWf o) where
  frame h _ _ _ _ := ⟨h.slots, h.permits, h.budget, h.leases⟩
  updateStates h := h.updateStates
  createSlot h := h.createSlot
  refreshSlot h slotId force := h.refreshSlot slotId force
  grant h _ _ hslot token := h.grant hslot token

theorem of_phase (h : PoolWf o p) {refreshes : List Refresh} {waiters : List Nat} {active : Nat}
    (hids : refreshes.map Refresh.slotId = p.refreshes.map Refresh.slotId)
    (hpermits : PermitsWf o refreshes waiters active) :
    PoolWf o { p with
      refreshes := refreshes, refreshWaiters := waiters, activeRefreshes := active } where
  slots := by
    constructor
    · exact h.slots.ids
    · exact h.slots.bounded
    · exact h.slots.size
    · rw [hids]
      exact h.slots.single
    · intro r hr
      have hmem : r.slotId ∈ p.refreshes.map Refresh.slotId := hids ▸ mem_map_of_mem hr
      obtain ⟨b, hb, hid⟩ := mem_map.mp hmem
      obtain ⟨s, hs, hsid, hsf⟩ := h.slots.inFlight b hb
      exact ⟨s, hs, hsid.trans hid, hsf⟩
  permits := hpermits
  budget := h.budget
  leases := h.leases

theorem enterPermit (h : PoolWf o p) {r : Refresh} (hr : r ∈ p.refreshes)
    (hphase : r.phase = .syncing ∨ r.phase = .backingOff)
    (hfree : p.activeRefreshes < o.maxConcurrentRefreshes →
      p.activeRefreshes + p.woken < o.maxConcurrentRefreshes) :
    PoolWf o (p.enterPermit o r.slotId) := by
  unfold Pool.enterPermit
  split
  · exact h.of_phase (setPhase_slotIds _ _ _) (h.permits.queue h.slots.single hr hphase)
  · rename_i hpermit
    have hroom := hfree (not_le.mp hpermit)
    have hheld : r.phase.holdsPermit = false := by
      rcases hphase with hp | hp <;> rw [hp] <;> rfl
    have hwaiting : r.phase ≠ .waiting := by rcases hphase with hp | hp <;> simp [hp]
    have hwoken : r.phase ≠ .woken := by rcases hphase with hp | hp <;> simp [hp]
    apply h.of_phase (setPhase_slotIds _ _ _)
    apply h.permits.move h.slots.single hr hwaiting
    · rw [hheld]
      rfl
    · rw [if_neg hwoken]
      unfold Pool.woken at hroom
      simp only [reduceCtorEq, if_false]
      omega

theorem releasePermit (h : PoolWf o p) {r : Refresh} (hr : r ∈ p.refreshes) {result : MintResult}
    (hphase : r.phase = .settled result) : PoolWf o (p.releasePermit r.slotId result) := by
  have hheld : r.phase.holdsPermit = true := by rw [hphase]; rfl
  have hactive : 0 < p.activeRefreshes := by
    rw [h.permits.held, countP_pos_iff]
    exact ⟨r, hr, hheld⟩
  have hbound := h.permits.bound
  have hreleased : PermitsWf o (setPhase p.refreshes r.slotId (.released result)) p.refreshWaiters
      (p.activeRefreshes - 1) := by
    apply h.permits.move h.slots.single hr (by simp [hphase])
    · have hfree : (RefreshPhase.released result).holdsPermit = false := rfl
      rw [hheld, hfree]
      simp only [if_true, Bool.false_eq_true, if_false]
      omega
    · simp only [hphase, reduceCtorEq, if_false]
      omega
  unfold Pool.releasePermit
  cases hw : p.refreshWaiters with
  | nil =>
    rw [hw] at hreleased
    simp only [Pool.setPhase, hw]
    exact h.of_phase (setPhase_slotIds _ _ _) hreleased
  | cons w rest =>
    rw [hw] at hreleased
    simp only [Pool.setPhase, hw]
    apply h.of_phase
    · exact (setPhase_slotIds _ _ _).trans (setPhase_slotIds _ _ _)
    · apply hreleased.wake
      · rw [setPhase_slotIds]
        exact h.slots.single
      · have hcount := countP_setPhase h.slots.single hr (fun q => q = .woken) (.released result)
        simp only [hphase, reduceCtorEq, decide_false, Bool.false_eq_true, if_false, add_zero]
          at hcount
        omega

theorem settleRefresh (h : PoolWf o p) {r : Refresh} (hr : r ∈ p.refreshes) {result : MintResult}
    (hphase : r.phase = .released result) : PoolWf o (p.settleRefresh o r.slotId result) := by
  have hpermits := h.permits.finish h.slots.single hr hphase
  have hfailed : ∀ message, BudgetWf o
      (p.slots.map fun s => if s.id = r.slotId then s.failRefresh message else s) p.mints
      p.charges := by
    intro message
    have hid : ∀ s, (TokenSlot.failRefresh message s).id = s.id := fun _ => rfl
    apply h.budget.map (SlotsWf.updateAt_id hid r.slotId)
    intro s
    split
    · exact .inl rfl
    · exact .inr ⟨rfl, rfl⟩
  have hslots : ∀ f : TokenSlot → TokenSlot, (∀ s, (f s).id = s.id) → SlotsWf o
      (p.slots.map fun s => if s.id = r.slotId then f s else s)
      (p.refreshes.filter (·.slotId ≠ r.slotId)) := fun f hid => h.slots.finish hid
  unfold Pool.settleRefresh
  dsimp only
  cases result with
  | failed message => exact ⟨hslots _ fun _ => rfl, hpermits, hfailed message, h.leases⟩
  | minted token expiresAt =>
    dsimp only
    split
    · exact ⟨hslots _ fun _ => rfl, hpermits, hfailed _, h.leases⟩
    · refine ⟨hslots _ fun _ => rfl, hpermits, ?_, h.leases⟩
      exact h.budget.mint (fun _ => rfl) (fun _ => rfl) fun _ => rfl

theorem syncMintBackoffFromFleet (h : PoolWf o p) (shared : Option (Nat × Int)) :
    PoolWf o (p.syncMintBackoffFromFleet shared) ∧
      (p.syncMintBackoffFromFleet shared).refreshes = p.refreshes ∧
      (p.syncMintBackoffFromFleet shared).activeRefreshes = p.activeRefreshes := by
  cases shared with
  | none => exact ⟨h, rfl, rfl⟩
  | some fleet => exact ⟨⟨h.slots, h.permits, h.budget, h.leases⟩, rfl, rfl⟩

theorem resumeRefresh (h : PoolWf o p) {r : Refresh} (hr : r ∈ p.refreshes)
    (shared : Option (Nat × Int)) (result : MintResult)
    (hfree : r.phase = .syncing ∨ r.phase = .backingOff →
      p.activeRefreshes < o.maxConcurrentRefreshes →
        p.activeRefreshes + p.woken < o.maxConcurrentRefreshes) :
    PoolWf o (p.resumeRefresh o r shared result) := by
  have hbound := h.permits.bound
  unfold Pool.resumeRefresh
  cases hphase : r.phase with
  | syncing =>
    obtain ⟨hq, hrefreshes, hactive⟩ := h.syncMintBackoffFromFleet shared
    dsimp only
    split
    · apply hq.of_phase (setPhase_slotIds _ _ _)
      apply hq.permits.move hq.slots.single (hrefreshes.symm ▸ hr) (by simp [hphase])
      · rw [hphase]
        rfl
      · have hqbound := hq.permits.bound
        simp only [hphase, reduceCtorEq, if_false]
        omega
    · apply hq.enterPermit (hrefreshes.symm ▸ hr) (.inl hphase)
      unfold Pool.woken
      rw [hrefreshes, hactive]
      exact hfree (.inl hphase)
  | backingOff => exact h.enterPermit hr (.inr hphase) (hfree (.inr hphase))
  | waiting => exact h
  | woken =>
    apply h.of_phase (setPhase_slotIds _ _ _)
    apply h.permits.move h.slots.single hr (by simp [hphase])
    · rw [hphase]
      rfl
    · simp only [hphase, reduceCtorEq, if_false, if_true]
      omega
  | minting =>
    apply h.of_phase (setPhase_slotIds _ _ _)
    apply h.permits.move h.slots.single hr (by simp [hphase])
    · rw [hphase]
      rfl
    · simp only [hphase, reduceCtorEq, if_false]
      omega
  | settled result => exact h.releasePermit hr hphase
  | released result => exact h.settleRefresh hr hphase

theorem retire (h : PoolWf o p) (which : TokenSlot → Bool) : PoolWf o (p.retire which) := by
  have hdrop : Harmless fun s : TokenSlot => { s.dropToken with leases := 0 } :=
    Harmless.of_drop (fun _ => rfl) (fun _ => rfl) (fun _ => rfl)
  exact h.map (hdrop.ite fun s => (which s && s.token.isSome) = true)

theorem invalidate (h : PoolWf o p) (token : String) : PoolWf o (p.invalidate token) := by
  have hdrop : Harmless fun s : TokenSlot => { s.dropToken with health := .degraded } :=
    Harmless.of_drop (fun _ => rfl) (fun _ => rfl) (fun _ => rfl)
  unfold Pool.invalidate
  split
  · exact h
  · exact h.map (hdrop.ite fun s => s.token.any (·.text = token) = true)

theorem retireLane (h : PoolWf o p) (laneId : Int) (laneCount : Nat) :
    PoolWf o (p.retireLane laneId laneCount) := by
  unfold Pool.retireLane
  split
  · exact h
  · exact h.retire _

theorem expire (h : PoolWf o p) (slotId : Nat) : PoolWf o (p.expire slotId) := by
  have hdrop : Harmless fun s : TokenSlot =>
      { s.dropToken with state := .expired, health := .unhealthy } :=
    Harmless.of_drop (fun _ => rfl) (fun _ => rfl) (fun _ => rfl)
  exact h.updateSlot hdrop slotId

theorem release (h : PoolWf o p) (i : Nat) : PoolWf o (p.release i) := by
  unfold Pool.release
  split
  · exact h
  · rename_i lease hlease
    split
    · exact h
    · have hdrop : Harmless TokenSlot.dropLease :=
        Harmless.of_same (fun _ => rfl) (fun _ => rfl) (fun _ => rfl) (fun _ => rfl)
      have hdropped := h.updateSlot hdrop lease.slotId
      refine ⟨hdropped.slots, hdropped.permits, hdropped.budget, ?_⟩
      intro l hl
      obtain ⟨j, hj⟩ := mem_iff_getElem?.mp hl
      dsimp only at hj
      rw [getElem?_modify] at hj
      obtain ⟨b, hb, hbl⟩ := map_eq_some_iff.mp hj
      have hkept := h.leases b (mem_of_getElem? hb)
      split at hbl
      · rw [← hbl]
        exact hkept
      · rw [← hbl]
        exact hkept

theorem step (h : PoolWf o p) (a : Action) (hmeets : Meets o p a) : PoolWf o (step o p a) := by
  have hnow : PoolWf o (p.wait a.waitMs) := kept.frame h _ _ _ _
  have hrun := kept.run hnow a.piece
  unfold TokenPool.step
  unfold Meets at hmeets
  cases hpiece : a.piece with
  | release i => exact hnow.release i
  | invalidate token => exact hnow.invalidate token
  | retireSlot slotId => exact hnow.retire _
  | retireLane laneId laneCount => exact hnow.retireLane laneId laneCount
  | retireGeneration => exact hnow.retire _
  | expire slotId => exact hnow.expire slotId
  | resumeRefresh i shared result =>
    rw [hpiece] at hmeets
    simp only [Piece.run]
    cases hr : (p.wait a.waitMs).refreshes[i]? with
    | none => exact hnow
    | some r => exact hnow.resumeRefresh (mem_of_getElem? hr) shared result (hmeets r hr)
  | resumeCall i aborted =>
    rw [hpiece] at hmeets
    simp only [Piece.run]
    cases hcall : (p.wait a.waitMs).calls[i]? with
    | none => exact hnow
    | some call =>
      have herased : PoolWf o { p.wait a.waitMs with calls := (p.wait a.waitMs).calls.eraseIdx i } :=
        kept.frame hnow _ _ _ _
      apply kept.resumeCall herased aborted
      rintro slotId key rfl slot hslot
      have hcalls : p.calls[i]? = some (.refreshLease slotId (some key)) := hcall
      simp only [hcalls] at hmeets
      exact herased.charge (slot?_some hslot).1 (hmeets slot hslot)
  | _ =>
    rw [hpiece] at hrun
    exact hrun

theorem withinLimits (h : PoolWf o p) : WithinLimits o p where
  mints := by
    have hheld := h.permits.held
    have hbound := h.permits.bound
    have hle : p.mintsInFlight ≤ p.refreshes.countP (·.phase.holdsPermit) := by
      apply countP_mono_left
      intro r _ hr
      rw [of_decide_eq_true hr]
      rfl
    omega
  single slotId := by
    have hcount := nodup_iff_count_le_one.mp h.slots.single slotId
    rw [count_eq_countP, countP_map] at hcount
    exact hcount
  leases := h.leases
  charges := h.budget.bounded
  size := h.slots.size

end PoolWf

/-- The limits hold in every state of a run in which woken waiters are not overtaken and refreshed
leases are charged to tokens with room. -/
theorem withinLimits_run (o : PoolSettings) (nowMs : Int) (as : List Action)
    (h : Along (step o) (Meets o) (.start nowMs) as) :
    WithinLimits o (run (step o) (.start nowMs) as) := by
  have hstep : ∀ p a, PoolWf o p → Meets o p a → PoolWf o (step o p a) :=
    fun p a hp hmeets => hp.step a hmeets
  exact (run_invariant hstep (PoolWf.start nowMs) h).withinLimits

/-- A pool of some size with one permit and one address for a token. -/
def narrowPool (size : Nat) : PoolSettings where
  maxSize := size
  warmMinimum := size
  refreshMarginMs := 1000
  maxLeasesPerToken := 10
  maxConcurrentRefreshes := 1
  maxChecksPerToken := 1

/-- The refresh at a place of the list goes on, with an answer of the provider. -/
def goOn (i : Nat) : Action where
  piece := .resumeRefresh i none (.minted "bearer" 600000)

def leaseFor (addressKey : String) : Action where
  piece := .lease (some addressKey) none 180000 false

def wholeRefresh : List Action := List.replicate 4 (goOn 0)

theorem withinLimits_run_lease : WithinLimits (narrowPool 1) (run (step (narrowPool 1)) (.start 0)
      ({ piece := .ensureWarm } :: wholeRefresh ++ [leaseFor "1 main st"])) := by
  apply withinLimits_run
  decide +kernel

/-- Two holders of one slot, from two tokens, refresh their leases at once. And three slots are
refreshed with one permit: the third takes the permit between the first's giving it back and the
second's running. -/
theorem not_withinLimits : ¬ WithinLimits (narrowPool 1) (run (step (narrowPool 1)) (.start 0)
      ({ piece := .ensureWarm } :: wholeRefresh ++ [leaseFor "1 main st"] ++
        { piece := .refreshSlot 0 true } :: wholeRefresh ++ [leaseFor "2 main st"] ++
        { piece := .refreshLease 0 } :: { piece := .refreshLease 1 } :: wholeRefresh ++
        [{ piece := .resumeCall 1 false }, { piece := .resumeCall 1 false }])) ∧
    ¬ WithinLimits (narrowPool 3) (run (step (narrowPool 3)) (.start 0)
      ({ piece := .ensureWarm } :: wholeRefresh ++ wholeRefresh ++ wholeRefresh ++
        [{ piece := .refreshSlot 0 true }, { piece := .refreshSlot 1 true }, goOn 0, goOn 1,
          { piece := .refreshSlot 2 true }, goOn 0, goOn 0, goOn 2, goOn 1])) := by
  constructor
  · intro h
    have hcharges := h.charges 2
    revert hcharges
    decide +kernel
  · intro h
    have hmints := h.mints
    revert hmints
    decide +kernel

end HomefrontFiber.TokenPool
