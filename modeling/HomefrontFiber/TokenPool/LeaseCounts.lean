import HomefrontFiber.TokenPool.LimitsKept

/-!
# The lease counts of the token pool

A retirement sets the count of its slot to zero while the leases of the retired token are still
out, and their closures go on lowering the count. The leases are kept in the order in which they
were granted, so the number of leases granted when a slot was last retired tells those taken
before from those taken since.
-/

namespace HomefrontFiber.TokenPool

open List

variable {o : PoolSettings} {p : Pool} {since : Nat → Nat}

/-- The slots that a piece retires, if they have a token. -/
def Piece.meant (slot : TokenSlot) : Piece → Bool
  | .retireSlot slotId => slot.id = slotId
  | .retireLane laneId laneCount => 0 < laneCount && slot.onLane ⟨laneId, laneCount⟩
  | .retireGeneration => true
  | _ => false

def Piece.retires (p : Pool) (slotId : Nat) (piece : Piece) : Bool :=
  p.slots.any fun slot => slot.id = slotId && (piece.meant slot && slot.token.isSome)

/-- The leases taken on a slot from the `n`-th of the pool on that have not been released. -/
def heldFrom (n slotId : Nat) (leases : List Lease) : Nat :=
  (leases.drop n).countP fun l => l.slotId = slotId && !l.released

/-- A pool with the number of leases that had been granted when each slot was last retired. -/
structure Observed where
  pool : Pool
  since : Nat → Nat

namespace Observed

def start (nowMs : Int) : Observed := ⟨.start nowMs, fun _ => 0⟩

def held (s : Observed) (slotId : Nat) : Nat := heldFrom (s.since slotId) slotId s.pool.leases

def TruthfulCounts (s : Observed) : Prop := ∀ slot ∈ s.pool.slots, slot.leases = s.held slot.id

def step (o : PoolSettings) (s : Observed) (a : Action) : Observed where
  pool := TokenPool.step o s.pool a
  since slotId := if a.piece.retires s.pool slotId then s.pool.leases.length else s.since slotId

/-- A lease that is released for the first time was taken since its slot was last retired, or no
lease taken since is held. -/
def ReleasesCurrent (s : Observed) (a : Action) : Prop :=
  match a.piece with
  | .release i => ∀ l ∈ s.pool.leases[i]?, l.released = false →
    s.since l.slotId ≤ i ∨ s.held l.slotId = 0
  | _ => True

end Observed

theorem heldFrom_append {n slotId : Nat} {leases : List Lease} (hn : n ≤ leases.length)
    (lease : Lease) : heldFrom n slotId (leases ++ [lease]) =
      heldFrom n slotId leases + if lease.slotId = slotId && !lease.released then 1 else 0 := by
  unfold heldFrom
  rw [drop_append_of_le_length hn, countP_append, countP_singleton]

theorem countP_modify {α : Type} (q : α → Bool) (f : α → α) {l : List α} {i : Nat} {a : α}
    (h : l[i]? = some a) : (l.modify i f).countP q + (if q a then 1 else 0) =
      l.countP q + if q (f a) then 1 else 0 := by
  induction l generalizing i with
  | nil => cases h
  | cons b l ih =>
    cases i with
    | zero =>
      cases h
      rw [modify_zero_cons, countP_cons, countP_cons]
      omega
    | succ i =>
      have hrest := ih h
      rw [modify_succ_cons, countP_cons, countP_cons]
      omega

/-- The release of a lease is seen from the places up to its own. -/
theorem heldFrom_release {n i slotId : Nat} {leases : List Lease} {l : Lease}
    (hl : leases[i]? = some l) (hheld : l.released = false) :
    heldFrom n slotId (leases.modify i fun l => { l with released := true }) +
      (if n ≤ i ∧ l.slotId = slotId then 1 else 0) = heldFrom n slotId leases := by
  unfold heldFrom
  by_cases hi : n ≤ i
  · have hat : (leases.drop n)[i - n]? = some l := by
      rw [getElem?_drop, Nat.add_sub_cancel' hi]
      exact hl
    have hcount := countP_modify (fun l => l.slotId = slotId && !l.released)
      (fun l => { l with released := true }) hat
    rw [drop_modify_of_ge _ _ _ _ hi]
    simpa [hheld, hi] using hcount
  · rw [drop_modify_of_lt _ _ _ _ (not_le.mp hi), if_neg fun h => hi h.1, Nat.add_zero]

/-- The slots are numbered in the order of their creation. Where `Truth` holds, their counts are
those of the leases taken since their last retirement. -/
structure Counted (Truth : Prop) (since : Nat → Nat) (p : Pool) : Prop where
  ids : p.slots.map TokenSlot.id = List.range p.slots.length
  leases : ∀ l ∈ p.leases, l.slotId < p.slots.length
  granted : ∀ slotId, since slotId ≤ p.leases.length
  truth : Truth → ∀ slot ∈ p.slots, slot.leases = heldFrom (since slot.id) slot.id p.leases

namespace Counted

variable {Truth : Prop}

theorem lt_of_mem (h : Counted Truth since p) {slot : TokenSlot} (hslot : slot ∈ p.slots) :
    slot.id < p.slots.length := by
  have hid := mem_map_of_mem (f := TokenSlot.id) hslot
  rw [h.ids] at hid
  exact mem_range.mp hid

theorem eq_of_id (h : Counted Truth since p) {s s' : TokenSlot} (hs : s ∈ p.slots)
    (hs' : s' ∈ p.slots) (hid : s.id = s'.id) : s = s' := by
  have hids : (p.slots.map TokenSlot.id).Nodup := h.ids ▸ nodup_range
  exact inj_on_of_nodup_map hids hs hs' hid

theorem ids_map {slots : List TokenSlot} (h : slots.map TokenSlot.id = List.range slots.length)
    {f : TokenSlot → TokenSlot} (hid : ∀ s, (f s).id = s.id) :
    (slots.map f).map TokenSlot.id = List.range (slots.map f).length := by
  rw [map_map, length_map, ← h]
  exact map_congr_left fun s _ => hid s

section

variable (h : Counted Truth since p)
include h

/-- What becomes of a slot, other than its number and its count, is no matter. -/
theorem map {f : TokenSlot → TokenSlot} (hid : ∀ s, (f s).id = s.id)
    (hleases : ∀ s, (f s).leases = s.leases) :
    Counted Truth since { p with slots := p.slots.map f } where
  ids := ids_map h.ids hid
  leases l hl := by
    rw [length_map]
    exact h.leases l hl
  granted := h.granted
  truth ht slot hslot := by
    obtain ⟨s, hs, rfl⟩ := mem_map.mp hslot
    rw [hid, hleases]
    exact h.truth ht s hs

theorem updateSlot {f : TokenSlot → TokenSlot}
    (hid : ∀ s, (f s).id = s.id) (hleases : ∀ s, (f s).leases = s.leases) (slotId : Nat) :
    Counted Truth since (p.updateSlot slotId f) := by
  apply h.map
  · exact SlotsWf.updateAt_id hid slotId
  · intro s
    split
    · exact hleases s
    · rfl

/-- Only slots and leases are counted. -/
theorem of_same {q : Pool} (hslots : q.slots = p.slots)
    (hleases : q.leases = p.leases) : Counted Truth since q := by
  obtain ⟨hids, hbound, hgranted, htruth⟩ := h
  constructor
  · rwa [hslots]
  · rwa [hslots, hleases]
  · rwa [hleases]
  · rwa [hslots, hleases]

theorem createSlot : Counted Truth since (p.createSlot o) := by
  unfold Pool.createSlot
  split
  · constructor
    · dsimp only
      rw [map_append, h.ids, length_append, length_singleton, range_succ,
        map_singleton]
    · intro l hl
      rw [length_append]
      exact (h.leases l hl).trans_le (Nat.le_add_right _ _)
    · exact h.granted
    · intro ht slot hslot
      rcases mem_append.mp hslot with hslot | hslot
      · exact h.truth ht slot hslot
      · obtain rfl := mem_singleton.mp hslot
        symm
        unfold heldFrom
        rw [countP_eq_zero]
        intro l hl
        have hlt := h.leases l (mem_of_mem_drop hl)
        simp [hlt.ne]
  · exact h

theorem refreshSlot (slotId : Nat) (force : Bool) :
    Counted Truth since (p.refreshSlot o slotId force) := by
  have hbegun := h.updateSlot (f := TokenSlot.beginRefresh) (fun _ => rfl) (fun _ => rfl) slotId
  unfold Pool.refreshSlot
  split
  · exact h
  · split
    · exact h
    · split
      · exact h
      · exact hbegun.of_same rfl rfl

theorem charge (slot : TokenSlot) (key : String) : Counted Truth since (p.charge slot key) := by
  have hkeyed := h.updateSlot (f := TokenSlot.addKey key) (fun _ => rfl) (fun _ => rfl) slot.id
  exact hkeyed.of_same rfl rfl

/-- A granted lease is the last of the list, so it counts as taken since. -/
theorem addLease {q : Pool} {lease : Lease} {slotId n : Nat} (hslot : slotId < p.slots.length)
    (hslots : q.slots = (p.updateSlot slotId (TokenSlot.addLease n)).slots)
    (hleases : q.leases = p.leases ++ [lease]) (hid : lease.slotId = slotId)
    (hheld : lease.released = false) : Counted Truth since q := by
  have hlength : q.slots.length = p.slots.length := by
    rw [hslots]
    exact length_map _
  constructor
  · rw [hlength, hslots]
    have hids := ids_map h.ids (SlotsWf.updateAt_id (f := TokenSlot.addLease n) (fun _ => rfl) slotId)
    rwa [length_map] at hids
  · intro l hl
    rw [hleases] at hl
    rw [hlength]
    rcases mem_append.mp hl with hl | hl
    · exact h.leases l hl
    · rwa [mem_singleton.mp hl, hid]
  · intro slotId
    rw [hleases, length_append]
    exact (h.granted slotId).trans (Nat.le_add_right _ _)
  · intro ht slot hslot
    rw [hslots] at hslot
    obtain ⟨s, hs, rfl⟩ := mem_map.mp hslot
    have hcount := h.truth ht s hs
    rw [hleases, heldFrom_append (h.granted _), hheld, hid]
    split
    · rename_i heq
      rw [if_pos (by simp [TokenSlot.addLease, heq])]
      exact congrArg (· + 1) hcount
    · rename_i hne
      rw [if_neg (by simpa using fun heq => hne heq.symm)]
      exact hcount

theorem grant {c : LeaseCall} {slot : TokenSlot}
    (hslot : slot ∈ p.slots) (token : Token) : Counted Truth since (p.grant c slot token) := by
  have hlt := h.lt_of_mem hslot
  unfold Pool.grant
  cases c.addressKey with
  | none => exact h.addLease hlt rfl rfl rfl rfl
  | some key =>
    dsimp only
    split
    · exact h.addLease hlt rfl rfl rfl rfl
    · have hlength : (p.charge slot key).slots.length = p.slots.length := length_map _
      rw [← hlength] at hlt
      exact (h.charge slot key).addLease hlt rfl rfl rfl rfl

end

theorem kept : Kept o (Counted Truth since) where
  frame h _ _ _ _ := h.of_same rfl rfl
  updateStates h := by
    apply h.map
    · intro s
      unfold TokenSlot.updateState
      split <;> rfl
    · intro s
      unfold TokenSlot.updateState
      split <;> rfl
  createSlot h := h.createSlot
  refreshSlot h := h.refreshSlot
  grant h _ _ hslot token := h.grant hslot.mem token

theorem expire (h : Counted Truth since p) (slotId : Nat) :
    Counted Truth since (p.expire slotId) := by
  apply h.updateSlot <;> exact fun _ => rfl

theorem invalidate (h : Counted Truth since p) (token : String) :
    Counted Truth since (p.invalidate token) := by
  unfold Pool.invalidate
  split
  · exact h
  · apply h.map
    · intro s
      split <;> rfl
    · intro s
      split <;> rfl

theorem settleRefresh (h : Counted Truth since p) (slotId : Nat) (result : MintResult) :
    Counted Truth since (p.settleRefresh o slotId result) := by
  have hupdated : ∀ f : TokenSlot → TokenSlot, (∀ s, (f s).id = s.id) →
      (∀ s, (f s).leases = s.leases) → Counted Truth since (p.updateSlot slotId f) :=
    fun f hid hleases => h.updateSlot hid hleases slotId
  have hfailed := fun message => hupdated (TokenSlot.failRefresh message) (fun _ => rfl) fun _ => rfl
  unfold Pool.settleRefresh
  cases result with
  | failed message => exact (hfailed message).of_same rfl rfl
  | minted token expiresAt =>
    dsimp only
    split
    · exact (hfailed _).of_same rfl rfl
    · have hheld := hupdated (TokenSlot.hold ⟨token, p.mints⟩ expiresAt) (fun _ => rfl) fun _ => rfl
      exact hheld.of_same rfl rfl

theorem resumeRefresh (h : Counted Truth since p) (r : Refresh) (shared : Option (Nat × Int))
    (result : MintResult) : Counted Truth since (p.resumeRefresh o r shared result) := by
  have henter : ∀ q : Pool, q.slots = p.slots → q.leases = p.leases →
      Counted Truth since (q.enterPermit o r.slotId) := by
    intro q hslots hleases
    unfold Pool.enterPermit
    split <;> exact h.of_same hslots hleases
  unfold Pool.resumeRefresh
  cases r.phase with
  | syncing =>
    have hsync : (p.syncMintBackoffFromFleet shared).slots = p.slots ∧
        (p.syncMintBackoffFromFleet shared).leases = p.leases := by cases shared <;> exact ⟨rfl, rfl⟩
    dsimp only
    split
    · exact h.of_same hsync.1 hsync.2
    · exact henter _ hsync.1 hsync.2
  | backingOff => exact henter p rfl rfl
  | waiting => exact h
  | woken => exact h.of_same rfl rfl
  | minting => exact h.of_same rfl rfl
  | settled result =>
    dsimp only [Pool.releasePermit]
    split <;> exact h.of_same rfl rfl
  | released result => exact h.settleRefresh r.slotId result

/-- A slot that is retired has no lease since, and the count of every other slot stays. -/
theorem retire (h : Counted Truth since p) {which : TokenSlot → Bool} {since' : Nat → Nat}
    (hretired : ∀ s ∈ p.slots, (which s && s.token.isSome) = true → since' s.id = p.leases.length)
    (hkept : ∀ s ∈ p.slots, (which s && s.token.isSome) = false → since' s.id = since s.id)
    (hgranted : ∀ slotId, since' slotId ≤ p.leases.length) :
    Counted Truth since' (p.retire which) where
  ids := ids_map h.ids fun s => by split <;> rfl
  leases l hl := by
    dsimp only [Pool.retire]
    rw [length_map]
    exact h.leases l hl
  granted := hgranted
  truth ht slot hslot := by
    obtain ⟨s, hs, rfl⟩ := mem_map.mp hslot
    split
    · rename_i hwhich
      have hsince : since' (TokenSlot.dropToken s).id = p.leases.length := hretired s hs hwhich
      dsimp only at hsince ⊢
      unfold heldFrom
      rw [hsince, Pool.retire, drop_length]
      rfl
    · rename_i hwhich
      rw [hkept s hs ((Bool.not_eq_true _).mp hwhich)]
      exact h.truth ht s hs

theorem release (h : Counted False since p) (i : Nat) : Counted False since (p.release i) := by
  unfold Pool.release
  split
  · exact h
  · split
    · exact h
    · constructor
      · exact ids_map h.ids (SlotsWf.updateAt_id (f := TokenSlot.dropLease) (fun _ => rfl) _)
      · intro l hl
        dsimp only [Pool.updateSlot] at hl ⊢
        rw [length_map]
        obtain ⟨j, hj⟩ := mem_iff_getElem?.mp hl
        rw [getElem?_modify] at hj
        obtain ⟨b, hb, rfl⟩ := Option.map_eq_some_iff.mp hj
        have hlt := h.leases b (mem_of_getElem? hb)
        split <;> exact hlt
      · intro slotId
        rw [length_modify]
        exact h.granted slotId
      · exact False.elim

theorem retires_eq (h : Counted Truth since p) {slot : TokenSlot} (hslot : slot ∈ p.slots)
    (piece : Piece) : piece.retires p slot.id = (piece.meant slot && slot.token.isSome) := by
  unfold Piece.retires
  rw [Bool.eq_iff_iff, any_eq_true]
  constructor
  · rintro ⟨b, hb, hboth⟩
    rw [Bool.and_eq_true, decide_eq_true_eq] at hboth
    obtain rfl := h.eq_of_id hb hslot hboth.1
    exact hboth.2
  · intro hmeant
    exact ⟨slot, hslot, by rw [hmeant, decide_eq_true rfl]; rfl⟩

/-- A piece keeps what the counts say, unless it releases a lease. -/
theorem run (h : Counted Truth since p) (piece : Piece)
    (hrelease : ∀ i, piece = .release i → ¬ Truth) :
    Counted Truth (fun slotId => if piece.retires p slotId then p.leases.length else since slotId)
      (piece.run o p) := by
  have hrun := kept.run (o := o) h piece
  have hretire : Counted Truth
      (fun slotId => if piece.retires p slotId then p.leases.length else since slotId)
      (p.retire piece.meant) := by
    apply h.retire
    · intro slot hslot hretired
      exact if_pos ((h.retires_eq hslot piece).trans hretired)
    · intro slot hslot hkept
      rw [h.retires_eq hslot, hkept]
      rfl
    · intro slotId
      split
      · exact le_rfl
      · exact h.granted slotId
  have hkeep : ∀ q, (∀ slot, piece.meant slot = false) → Counted Truth since q → Counted Truth
      (fun slotId => if piece.retires p slotId then p.leases.length else since slotId) q := by
    intro q hnone hq
    have hsince : ∀ slotId, piece.retires p slotId = false := by
      intro slotId
      simp [Piece.retires, hnone]
    simpa only [hsince, Bool.false_eq_true, if_false] using hq
  cases piece with
  | release i =>
    obtain rfl : Truth = False := eq_false (hrelease i rfl)
    exact hkeep _ (fun _ => rfl) (h.release i)
  | invalidate token => exact hkeep _ (fun _ => rfl) (h.invalidate token)
  | expire slotId => exact hkeep _ (fun _ => rfl) (h.expire slotId)
  | retireSlot slotId => exact hretire
  | retireGeneration => exact hretire
  | retireLane laneId laneCount =>
    dsimp only [Piece.run]
    unfold Pool.retireLane
    split
    · rename_i hcount
      exact hkeep _ (fun _ => by simp [Piece.meant, Nat.lt_one_iff.mp hcount]) h
    · rename_i hcount
      have hmeant : (fun slot => Piece.meant slot (.retireLane laneId laneCount)) =
          fun slot => slot.onLane ⟨laneId, laneCount⟩ := by
        have hpos : 0 < laneCount := Nat.not_lt.mp hcount
        funext slot
        simp [Piece.meant, hpos]
      rwa [hmeant] at hretire
  | resumeRefresh i shared result =>
    apply hkeep _ fun _ => rfl
    dsimp only [Piece.run]
    cases p.refreshes[i]? with
    | none => exact h
    | some r => exact h.resumeRefresh r shared result
  | resumeCall i aborted =>
    apply hkeep _ fun _ => rfl
    dsimp only [Piece.run]
    cases p.calls[i]? with
    | none => exact h
    | some call =>
      have herased : Counted Truth since { p with calls := p.calls.eraseIdx i } := h.of_same rfl rfl
      exact kept.resumeCall herased aborted fun _ _ _ slot _ => herased.charge slot _
  | _ => exact hkeep _ (fun _ => rfl) hrun

end Counted

namespace Observed

variable {s : Observed} {a : Action}

/-- A first release keeps the counts true exactly when it finds its lease among those of the slot's
count, or the count at zero. -/
theorem truthfulCounts_release (h : Counted False s.since s.pool) (ht : s.TruthfulCounts) (i : Nat) :
    (∀ slot ∈ (s.pool.release i).slots,
        slot.leases = heldFrom (s.since slot.id) slot.id (s.pool.release i).leases) ↔
      ∀ l ∈ s.pool.leases[i]?, l.released = false → s.since l.slotId ≤ i ∨ s.held l.slotId = 0 := by
  unfold Pool.release
  cases hl : s.pool.leases[i]? with
  | none => exact iff_of_true ht nofun
  | some l =>
    simp only [Option.mem_some_iff, forall_eq']
    split
    · rename_i hreleased
      exact iff_of_true ht fun hfalse => absurd hreleased (by simp [hfalse])
    · rename_i hheld
      rw [Bool.not_eq_true] at hheld
      have hcount : ∀ slot ∈ s.pool.slots, slot.leases = _ := fun slot hslot =>
        (ht slot hslot).trans (heldFrom_release hl hheld).symm
      have hlt := h.leases l (mem_of_getElem? hl)
      rw [← mem_range, ← h.ids] at hlt
      obtain ⟨own, hown, hid⟩ := mem_map.mp hlt
      constructor
      · intro htrue _
        have hdropped := htrue own.dropLease (mem_map.mpr ⟨own, hown, if_pos hid⟩)
        have hbefore := hcount own hown
        have hheldNow := ht own hown
        dsimp only [TokenSlot.dropLease] at hdropped
        rw [hid] at hdropped hbefore hheldNow
        by_cases hsince : s.since l.slotId ≤ i
        · exact .inl hsince
        · rw [if_neg fun hboth => hsince hboth.1] at hbefore
          right
          omega
      · intro hcond slot hslot
        obtain ⟨b, hb, rfl⟩ := mem_map.mp hslot
        have hbefore := hcount b hb
        have hheldNow := ht b hb
        split
        · rename_i heq
          dsimp only [TokenSlot.dropLease]
          rw [heq] at hbefore hheldNow ⊢
          rcases hcond hheld with hsince | hzero
          · rw [if_pos ⟨hsince, rfl⟩] at hbefore
            omega
          · omega
        · rename_i hne
          rw [if_neg fun hboth => hne hboth.2.symm] at hbefore
          exact hbefore

theorem counted_step {Truth : Prop} (h : Counted Truth s.since s.pool)
    (hrelease : ∀ i, a.piece = .release i → ¬ Truth) :
    Counted Truth (s.step o a).since (s.step o a).pool := by
  have hnow : Counted Truth s.since (s.pool.wait a.waitMs) := h.of_same rfl rfl
  exact hnow.run a.piece hrelease

/-- The counts stay true exactly through the steps that release a lease of their slot's count. -/
theorem truthfulCounts_step (h : Counted False s.since s.pool) (ht : s.TruthfulCounts) :
    (s.step o a).TruthfulCounts ↔ s.ReleasesCurrent a := by
  have hall : Counted True s.since s.pool := ⟨h.ids, h.leases, h.granted, fun _ => ht⟩
  unfold ReleasesCurrent
  cases hpiece : a.piece with
  | release i =>
    have hsince : (s.step o a).since = s.since := by
      funext slotId
      simp [step, hpiece, Piece.retires, Piece.meant]
    have hpool : (s.step o a).pool = (s.pool.wait a.waitMs).release i := by
      unfold step TokenPool.step
      rw [hpiece]
      rfl
    unfold TruthfulCounts held
    rw [hsince, hpool]
    exact truthfulCounts_release (s := ⟨s.pool.wait a.waitMs, s.since⟩) (h.of_same rfl rfl) ht i
  | _ =>
    have hkept := counted_step (o := o) (a := a) hall fun i hi => by simp [hpiece] at hi
    exact iff_of_true (hkept.truth trivial) trivial

end Observed

/-- The counts of the slots are those of the leases that are held in every state of a run exactly
when each first release is of a lease taken since its slot was last retired, or comes while no
lease taken since is held. -/
theorem truthfulCounts_iff (o : PoolSettings) (nowMs : Int) (as : List Action) :
    (∀ s ∈ trace (Observed.step o) (.start nowMs) as, s.TruthfulCounts) ↔
      Along (Observed.step o) Observed.ReleasesCurrent (.start nowMs) as := by
  have hstart : Counted False (Observed.start nowMs).since (Observed.start nowMs).pool :=
    ⟨rfl, nofun, fun _ => le_rfl, False.elim⟩
  apply forall_trace_iff (I := fun s => Counted False s.since s.pool)
  · exact fun s a h => Observed.counted_step h fun _ _ => id
  · exact fun s a h ht => Observed.truthfulCounts_step h ht
  · exact hstart
  · exact nofun

/-- A lease outlives the token that it was taken on. The slot is minted anew and leased again, and
the first lease's release takes the second one's count. -/
theorem not_truthfulCounts : ¬ ∀ s ∈ trace (Observed.step (narrowPool 1)) (.start 0)
      ({ piece := .ensureWarm } :: wholeRefresh ++ leaseFor "1 main st" ::
        { piece := .retireSlot 0 } :: { piece := .refreshSlot 0 true } :: wholeRefresh ++
        [leaseFor "2 main st", { piece := .release 0 }]), s.TruthfulCounts := by
  unfold Observed.TruthfulCounts
  decide +kernel

end HomefrontFiber.TokenPool
