import HomefrontFiber.TokenPool.Calls

/-!
# The limits of the token pool

A permit is given back before the waiter that it is meant for runs, so a waiter that has been woken
counts as holding one. What a token was charged with since its mint is what its slot lists, because
the list is emptied only with the token.
-/

namespace HomefrontFiber.TokenPool

open List

variable {o : PoolSettings} {p : Pool}

namespace RefreshPhase

def holdsPermit : RefreshPhase → Bool
  | .minting | .settled _ => true
  | _ => false

end RefreshPhase

namespace Pool

def mintsInFlight (p : Pool) : Nat := p.refreshes.countP (·.phase = .minting)

def woken (p : Pool) : Nat := p.refreshes.countP (·.phase = .woken)

/-- The distinct address keys that a token has been charged with. -/
def chargedKeys (p : Pool) (mint : Nat) : List String :=
  ((p.charges.filter (·.1 = mint)).map Prod.snd).dedup

end Pool

structure WithinLimits (o : PoolSettings) (p : Pool) : Prop where
  mints : p.mintsInFlight ≤ o.maxConcurrentRefreshes
  single : ∀ slotId, p.refreshes.countP (·.slotId = slotId) ≤ 1
  leases : ∀ l ∈ p.leases, l.slotState = .ready ∧ l.grantedAt + o.refreshMarginMs < l.expiresAt
  charges : ∀ mint, (p.chargedKeys mint).length ≤ o.maxChecksPerToken
  size : p.slots.length ≤ o.maxSize

/-- A refresh does not take the permit that a woken waiter is about to take, and the address of a
refreshed lease is charged to a token that has room for it. -/
def Meets (o : PoolSettings) (p : Pool) (a : Action) : Prop :=
  match a.piece with
  | .resumeRefresh i _ _ => ∀ r ∈ p.refreshes[i]?, r.phase = .syncing ∨ r.phase = .backingOff →
    p.activeRefreshes < o.maxConcurrentRefreshes →
      p.activeRefreshes + p.woken < o.maxConcurrentRefreshes
  | .resumeCall i _ => match p.calls[i]? with
    | some (.refreshLease slotId (some key)) => ∀ slot ∈ p.slot? slotId,
      slot.token.isSome = true → slot.hasRoom o.maxChecksPerToken (some key) = true
    | _ => True
  | _ => True

instance (o : PoolSettings) (p : Pool) : DecidablePred (Meets o p) := fun a => by
  unfold Meets
  split
  · infer_instance
  · split <;> infer_instance
  · infer_instance

/-- One refresh for a slot that has one in flight, and none for another. -/
structure SlotsWf (o : PoolSettings) (slots : List TokenSlot) (refreshes : List Refresh) : Prop where
  ids : (slots.map TokenSlot.id).Nodup
  bounded : ∀ s ∈ slots, s.id < slots.length
  size : slots.length ≤ o.maxSize
  single : (refreshes.map Refresh.slotId).Nodup
  inFlight : ∀ r ∈ refreshes, ∃ s ∈ slots, s.id = r.slotId ∧ s.refreshInFlight = true

/-- Permits are held by refreshes that mint, and woken waiters count with them. -/
structure PermitsWf (o : PoolSettings) (refreshes : List Refresh) (waiters : List Nat)
    (active : Nat) : Prop where
  held : active = refreshes.countP (·.phase.holdsPermit)
  bound : active + refreshes.countP (·.phase = .woken) ≤ o.maxConcurrentRefreshes
  once : waiters.Nodup
  waiting : ∀ w ∈ waiters, ⟨w, .waiting⟩ ∈ refreshes

structure BudgetWf (o : PoolSettings) (slots : List TokenSlot) (mints : Nat)
    (charges : List (Nat × String)) : Prop where
  known : ∀ c ∈ charges, c.1 < mints
  bounded : ∀ mint, ((charges.filter (·.1 = mint)).map Prod.snd).dedup.length ≤ o.maxChecksPerToken
  older : ∀ s ∈ slots, ∀ t ∈ s.token, t.mint < mints
  own : ∀ s ∈ slots, ∀ t ∈ s.token, ∀ s' ∈ slots, ∀ t' ∈ s'.token, t.mint = t'.mint → s.id = s'.id
  keys : ∀ s ∈ slots, ∀ t ∈ s.token, s.addressKeys.Nodup ∧
    ∀ key, key ∈ s.addressKeys ↔ (t.mint, key) ∈ charges

structure PoolWf (o : PoolSettings) (p : Pool) : Prop where
  slots : SlotsWf o p.slots p.refreshes
  permits : PermitsWf o p.refreshes p.refreshWaiters p.activeRefreshes
  budget : BudgetWf o p.slots p.mints p.charges
  leases : ∀ l ∈ p.leases, l.slotState = .ready ∧ l.grantedAt + o.refreshMarginMs < l.expiresAt

variable {slotId : Nat} {r : Refresh}

namespace SlotsWf

variable {slots : List TokenSlot} {refreshes : List Refresh}

theorem eq_of_id (h : SlotsWf o slots refreshes) {s s' : TokenSlot} (hs : s ∈ slots)
    (hs' : s' ∈ slots) (hid : s.id = s'.id) : s = s' := inj_on_of_nodup_map h.ids hs hs' hid

variable {f : TokenSlot → TokenSlot}

theorem map (h : SlotsWf o slots refreshes)
    (hid : ∀ s, (f s).id = s.id) (hflight : ∀ s, (f s).refreshInFlight = s.refreshInFlight) :
    SlotsWf o (slots.map f) refreshes where
  ids := nodup_key_map h.ids hid
  bounded s hs := by
    obtain ⟨b, hb, rfl⟩ := mem_map.mp hs
    rw [hid, length_map]
    exact h.bounded b hb
  size := by
    rw [length_map]
    exact h.size
  single := h.single
  inFlight r hr := by
    obtain ⟨s, hs, hsid, hsf⟩ := h.inFlight r hr
    exact ⟨f s, mem_map_of_mem hs, (hid s).trans hsid, (hflight s).trans hsf⟩

theorem updateAt_id (hid : ∀ s, (f s).id = s.id) (slotId : Nat)
    (s : TokenSlot) : (if s.id = slotId then f s else s).id = s.id := by
  split
  · exact hid s
  · rfl

theorem create (h : SlotsWf o slots refreshes) (hroom : slots.length < o.maxSize) :
    SlotsWf o (slots ++ [{ id := slots.length }]) refreshes where
  ids := by
    rw [map_append, map_cons, map_nil]
    apply List.Nodup.append h.ids (nodup_singleton _)
    intro i hold hnew
    obtain ⟨s, hs, rfl⟩ := mem_map.mp hold
    exact absurd (mem_singleton.mp hnew) (h.bounded s hs).ne
  bounded s hs := by
    rw [length_append, length_singleton]
    rcases mem_append.mp hs with hs | hs
    · exact (h.bounded s hs).trans (Nat.lt_succ_self _)
    · obtain rfl := mem_singleton.mp hs
      exact Nat.lt_succ_self _
  size := by
    rw [length_append, length_singleton]
    exact hroom
  single := h.single
  inFlight r hr := by
    obtain ⟨s, hs, hsid, hsf⟩ := h.inFlight r hr
    exact ⟨s, mem_append_left _ hs, hsid, hsf⟩

theorem begin_ (h : SlotsWf o slots refreshes) {slot : TokenSlot} (hslot : slot ∈ slots)
    (hfree : slot.refreshInFlight = false)
    (hid : ∀ s, (f s).id = s.id) (hflight : ∀ s, (f s).refreshInFlight = true) :
    SlotsWf o (slots.map fun s => if s.id = slot.id then f s else s)
      (refreshes ++ [⟨slot.id, .syncing⟩]) where
  ids := nodup_key_map h.ids (updateAt_id hid slot.id)
  bounded s hs := by
    obtain ⟨b, hb, rfl⟩ := mem_map.mp hs
    rw [length_map]
    split
    · rw [hid]
      exact h.bounded b hb
    · exact h.bounded b hb
  size := by
    rw [length_map]
    exact h.size
  single := by
    rw [map_append, map_cons, map_nil]
    apply List.Nodup.append h.single (nodup_singleton _)
    intro i hold hnew
    obtain ⟨r, hr, rfl⟩ := mem_map.mp hold
    obtain ⟨s, hs, hsid, hsf⟩ := h.inFlight r hr
    obtain rfl := h.eq_of_id hs hslot (hsid.trans (mem_singleton.mp hnew))
    rw [hfree] at hsf
    cases hsf
  inFlight r hr := by
    rcases mem_append.mp hr with hr | hr
    · obtain ⟨s, hs, hsid, hsf⟩ := h.inFlight r hr
      refine ⟨_, mem_map_of_mem hs, ?_⟩
      split
      · exact ⟨(hid s).trans hsid, hflight s⟩
      · exact ⟨hsid, hsf⟩
    · obtain rfl := mem_singleton.mp hr
      refine ⟨_, mem_map_of_mem hslot, ?_⟩
      rw [if_pos rfl]
      exact ⟨hid slot, hflight slot⟩

theorem finish (h : SlotsWf o slots refreshes) (hid : ∀ s, (f s).id = s.id) :
    SlotsWf o (slots.map fun s => if s.id = slotId then f s else s)
      (refreshes.filter (·.slotId ≠ slotId)) where
  ids := nodup_key_map h.ids (updateAt_id hid slotId)
  bounded s hs := by
    obtain ⟨b, hb, rfl⟩ := mem_map.mp hs
    rw [length_map]
    split
    · rw [hid]
      exact h.bounded b hb
    · exact h.bounded b hb
  size := by
    rw [length_map]
    exact h.size
  single := (h.single.sublist (filter_sublist.map Refresh.slotId))
  inFlight r hr := by
    obtain ⟨hr, hne⟩ := mem_filter.mp hr
    obtain ⟨s, hs, hsid, hsf⟩ := h.inFlight r hr
    refine ⟨_, mem_map_of_mem hs, ?_⟩
    rw [if_neg (by simpa [hsid] using hne)]
    exact ⟨hsid, hsf⟩

end SlotsWf

def setPhase (refreshes : List Refresh) (slotId : Nat) (phase : RefreshPhase) : List Refresh :=
  refreshes.map fun r => if r.slotId = slotId then { r with phase := phase } else r

theorem setPhase_slotIds (refreshes : List Refresh) (slotId : Nat) (phase : RefreshPhase) :
    (setPhase refreshes slotId phase).map Refresh.slotId = refreshes.map Refresh.slotId := by
  unfold setPhase
  rw [map_map]
  apply map_congr_left
  intro r _
  rw [Function.comp_apply]
  split <;> rfl

theorem setPhase_of_fresh {refreshes : List Refresh}
    (h : slotId ∉ refreshes.map Refresh.slotId) (phase : RefreshPhase) :
    setPhase refreshes slotId phase = refreshes := by
  unfold setPhase
  conv_rhs => rw [← map_id refreshes]
  apply map_congr_left
  intro r hr
  have hne : r.slotId ≠ slotId := fun heq => h (heq ▸ mem_map_of_mem hr)
  exact if_neg hne

theorem countP_setPhase {refreshes : List Refresh} (hnd : (refreshes.map Refresh.slotId).Nodup)
    (hr : r ∈ refreshes) (q : RefreshPhase → Bool) (phase : RefreshPhase) :
    (setPhase refreshes r.slotId phase).countP (q ·.phase) + (if q r.phase then 1 else 0) =
      refreshes.countP (q ·.phase) + if q phase then 1 else 0 := by
  induction refreshes with
  | nil => cases hr
  | cons a refreshes ih =>
    obtain ⟨hfresh, hnd⟩ := nodup_cons.mp hnd
    rcases mem_cons.mp hr with rfl | hr
    · have hrest := setPhase_of_fresh hfresh phase
      unfold setPhase at hrest ⊢
      rw [map_cons, if_pos rfl, hrest, countP_cons, countP_cons]
      dsimp only
      omega
    · have hne : a.slotId ≠ r.slotId := fun heq => hfresh (heq ▸ mem_map_of_mem hr)
      have hih := ih hnd hr
      unfold setPhase at hih ⊢
      rw [map_cons, if_neg hne, countP_cons, countP_cons]
      omega

theorem mem_setPhase_of_ne {refreshes : List Refresh} (hr : r ∈ refreshes)
    (hne : r.slotId ≠ slotId) (phase : RefreshPhase) :
    r ∈ setPhase refreshes slotId phase :=
  mem_map.mpr ⟨r, hr, if_neg hne⟩

theorem mem_setPhase_self {refreshes : List Refresh} (hr : r ∈ refreshes)
    (phase : RefreshPhase) : ⟨r.slotId, phase⟩ ∈ setPhase refreshes r.slotId phase :=
  mem_map.mpr ⟨r, hr, if_pos rfl⟩

namespace PermitsWf

variable {refreshes : List Refresh} {waiters : List Nat} {active : Nat}

theorem start : PermitsWf o [] [] 0 where
  held := rfl
  bound := Nat.zero_le _
  once := nodup_nil
  waiting := nofun

theorem move (h : PermitsWf o refreshes waiters active)
    (hnd : (refreshes.map Refresh.slotId).Nodup) (hr : r ∈ refreshes)
    (hphase : r.phase ≠ .waiting) {phase : RefreshPhase} {active' : Nat}
    (hheld : active' + (if r.phase.holdsPermit then 1 else 0) =
      active + if phase.holdsPermit then 1 else 0)
    (hbound : active' + refreshes.countP (·.phase = .woken) + (if phase = .woken then 1 else 0) ≤
      o.maxConcurrentRefreshes + if r.phase = .woken then 1 else 0) :
    PermitsWf o (setPhase refreshes r.slotId phase) waiters active' where
  held := by
    have hcount := countP_setPhase hnd hr RefreshPhase.holdsPermit phase
    have hold := h.held
    omega
  bound := by
    have hcount := countP_setPhase hnd hr (fun q => q = .woken) phase
    simp only [decide_eq_true_eq] at hcount
    omega
  once := h.once
  waiting w hw := by
    have hmem := h.waiting w hw
    apply mem_setPhase_of_ne hmem
    intro heq
    have hsame := inj_on_of_nodup_map hnd hmem hr heq
    exact hphase (hsame ▸ rfl)

theorem queue (h : PermitsWf o refreshes waiters active)
    (hnd : (refreshes.map Refresh.slotId).Nodup) (hr : r ∈ refreshes)
    (hphase : r.phase = .syncing ∨ r.phase = .backingOff) :
    PermitsWf o (setPhase refreshes r.slotId .waiting) (waiters ++ [r.slotId]) active := by
  have hne : r.phase ≠ .waiting := by rcases hphase with hp | hp <;> simp [hp]
  have hheld : r.phase.holdsPermit = false := by rcases hphase with hp | hp <;> rw [hp] <;> rfl
  have hwoken : r.phase ≠ .woken := by rcases hphase with hp | hp <;> simp [hp]
  have hfree : r.slotId ∉ waiters := fun hw =>
    hne (congrArg Refresh.phase (inj_on_of_nodup_map hnd hr (h.waiting _ hw) rfl))
  have hmoved : PermitsWf o (setPhase refreshes r.slotId .waiting) waiters active := by
    apply h.move hnd hr hne
    · rw [hheld]
      rfl
    · have hbound := h.bound
      simpa [hwoken] using hbound
  constructor
  · exact hmoved.held
  · exact hmoved.bound
  · exact List.Nodup.append h.once (nodup_singleton _) (by simpa using hfree)
  · intro w hw
    rcases mem_append.mp hw with hw | hw
    · exact hmoved.waiting w hw
    · obtain rfl := mem_singleton.mp hw
      exact mem_setPhase_self hr .waiting

theorem wake {w : Nat} (h : PermitsWf o refreshes (w :: waiters) active)
    (hnd : (refreshes.map Refresh.slotId).Nodup)
    (hfree : active + refreshes.countP (·.phase = .woken) < o.maxConcurrentRefreshes) :
    PermitsWf o (setPhase refreshes w .woken) waiters active := by
  have hr := h.waiting w mem_cons_self
  obtain ⟨hfresh, honce⟩ := nodup_cons.mp h.once
  constructor
  · have hcount := countP_setPhase hnd hr RefreshPhase.holdsPermit .woken
    have hold := h.held
    have hwaiting : RefreshPhase.waiting.holdsPermit = false := rfl
    have hwoken : RefreshPhase.woken.holdsPermit = false := rfl
    dsimp only at hcount
    rw [hwaiting, hwoken, if_neg Bool.false_ne_true, add_zero, add_zero] at hcount
    omega
  · have hcount := countP_setPhase hnd hr (fun q => q = .woken) .woken
    simp only [reduceCtorEq, decide_false, Bool.false_eq_true, if_false, add_zero, decide_true,
      if_true] at hcount
    omega
  · exact honce
  · intro v hv
    apply mem_setPhase_of_ne (h.waiting v (mem_cons_of_mem w hv))
    rintro rfl
    exact hfresh hv

theorem begin_ (h : PermitsWf o refreshes waiters active) (slotId : Nat) :
    PermitsWf o (refreshes ++ [⟨slotId, .syncing⟩]) waiters active where
  held := by
    rw [countP_append]
    exact h.held
  bound := by
    rw [countP_append]
    exact h.bound
  once := h.once
  waiting w hw := mem_append_left _ (h.waiting w hw)

theorem finish (h : PermitsWf o refreshes waiters active)
    (hnd : (refreshes.map Refresh.slotId).Nodup) (hr : r ∈ refreshes)
    {result : MintResult} (hphase : r.phase = .released result) :
    PermitsWf o (refreshes.filter (·.slotId ≠ r.slotId)) waiters active := by
  have hcount : ∀ q : RefreshPhase → Bool, q (.released result) = false →
      (refreshes.filter (·.slotId ≠ r.slotId)).countP (q ·.phase) =
        refreshes.countP (q ·.phase) := by
    intro q hq
    rw [countP_filter]
    apply countP_congr
    intro s hs
    by_cases hid : s.slotId = r.slotId
    · have hsame := inj_on_of_nodup_map hnd hs hr hid
      simp [hsame, hphase, hq]
    · simp [hid]
  constructor
  · rw [hcount _ rfl]
    exact h.held
  · rw [hcount (fun q => q = .woken) (by simp)]
    exact h.bound
  · exact h.once
  · intro w hw
    have hmem := h.waiting w hw
    refine mem_filter.mpr ⟨hmem, ?_⟩
    simp only [ne_eq, decide_not, Bool.not_eq_true', decide_eq_false_iff_not]
    intro heq
    have hsame := inj_on_of_nodup_map hnd hmem hr heq
    rw [← hsame] at hphase
    cases hphase

end PermitsWf

end HomefrontFiber.TokenPool
