import HomefrontFiber.Mileage.Trips

/-!
# What approval freezes

An edit refuses a locked trip and no transition leaves the locked statuses. The transition guard
lets an approved trip be approved again, though, and that prices it anew: the figures of a trip
stand exactly while every second approval finds the price that the first one wrote.
-/

namespace HomefrontFiber.Mileage

open Earnings List

def MileageTrip.figures (t : MileageTrip) : Int × Option Int × Option Int :=
  (t.milesHundredths, t.rateMilliCentsPerMile, t.reimbursementCents)

def MileageTrip.Locked (t : MileageTrip) : Prop := isMileageLocked t.status = true

/-- Every trip locked in the first book is in the second, locked, with the same figures. -/
def Frozen (before after : MileageBook) : Prop :=
  ∀ t ∈ before.trips, t.Locked →
    ∃ t' ∈ after.trips, t'.tenantId = t.tenantId ∧ t'.id = t.id ∧ t'.Locked ∧ t'.figures = t.figures

def mileageKey (tripId : Nat) : LedgerKey := ledgerKey .mileageTrip tripId .mileageReimbursement

def Earns (row : EarningsLedgerRow) (t : MileageTrip) : Prop :=
  some row.grossCents = t.reimbursementCents ∧ row.netCents = row.grossCents

def LedgerAgrees (book : MileageBook) : Prop :=
  ∀ t ∈ book.trips, t.Locked → ∀ row ∈ book.ledger,
    row.tenantId = t.tenantId → row.idempotencyKey = mileageKey t.id → Earns row t

/-- Along the run no locked trip changes its figures, and its earning has the same amount. -/
def PricedOnce (book : MileageBook) (as : List MileageAction) : Prop :=
  (book :: trace step book as).Pairwise Frozen ∧ ∀ after ∈ trace step book as, LedgerAgrees after

/-- The rate in force on the date of the trip makes the price that is already on it. -/
def SamePrice (book : MileageBook) (trip : MileageTrip) : Prop :=
  (priceOf book trip).1.map (·.rateMilliCentsPerMile) = trip.rateMilliCentsPerMile ∧
    some (priceOf book trip).2 = trip.reimbursementCents

instance (book : MileageBook) (trip : MileageTrip) : Decidable (SamePrice book trip) :=
  inferInstanceAs (Decidable (_ ∧ _))

/-- An approval of a trip that is approved already finds the price that the trip has. -/
def SecondApprovalKeeps (book : MileageBook) : MileageAction → Prop
  | .transitionTrip p =>
    p.target = .approved → ∀ trip ∈ getTrip book p.tenantId p.id,
      trip.status = .approved → SamePrice book trip
  | _ => True

instance (book : MileageBook) : ∀ a, Decidable (SecondApprovalKeeps book a)
  | .transitionTrip p =>
    match h : getTrip book p.tenantId p.id with
    | none => isTrue fun _ trip ht => by cases h.symm.trans ht
    | some trip =>
      decidable_of_iff (p.target = .approved → trip.status = .approved → SamePrice book trip) <| by
        simp [SecondApprovalKeeps, h]
  | .createTrip _ | .patchTrip .. | .endTrip _ | .addAdjustment _ | .softDeleteTrip ..
  | .addRate .. | .setReimbursementEnabled .. => isTrue trivial

variable {trip : MileageTrip}

section Step

variable {book after : MileageBook}

variable {tenantId : Nat} {p : TransitionInput} {a : MileageAction} {f : MileageTrip → MileageTrip}

theorem getTrip_some {id : Nat} (h : getTrip book tenantId id = some trip) :
    trip ∈ book.trips ∧ trip.tenantId = tenantId ∧ trip.id = id := by
  have hmem : trip ∈ book.trips := mem_of_find?_eq_some h
  have hfound := find?_some h
  simp only [decide_eq_true_eq] at hfound
  exact ⟨hmem, hfound.1, hfound.2.1⟩

structure KeepsKey (f : MileageTrip → MileageTrip) : Prop where
  tenantId : ∀ t, (f t).tenantId = t.tenantId
  id : ∀ t, (f t).id = t.id

theorem TransitionInput.keepsKey (p : TransitionInput) (price : Option MileageRate × Int) :
    KeepsKey (p.writes price) := by
  constructor <;> intro t <;> unfold TransitionInput.writes <;> split <;> rfl

def MileageAction.IsTransition : MileageAction → Prop
  | .transitionTrip _ => True
  | _ => False

/-- What a call that succeeds does to the trips and the ledger. -/
inductive Effect (book after : MileageBook) : MileageAction → Prop where
  | kept {a : MileageAction} (quiet : ¬a.IsTransition) (trips : after.trips = book.trips)
      (ledger : after.ledger = book.ledger) : Effect book after a
  | added (input : CreateTripInput)
      (trips : after.trips = book.trips ++ [input.toTrip (book.trips.length + 1)])
      (ledger : after.ledger = book.ledger) : Effect book after (.createTrip input)
  | edited {a : MileageAction} {tenantId id : Nat} {f : MileageTrip → MileageTrip}
      {trip : MileageTrip} (quiet : ¬a.IsTransition)
      (found : getTrip book tenantId id = some trip) (isOpen : ¬trip.Locked)
      (keeps : KeepsKey f) (trips : after.trips = (updateTrip book tenantId id f).trips)
      (ledger : after.ledger = book.ledger) : Effect book after a
  | moved (p : TransitionInput) {trip : MileageTrip}
      (found : getTrip book p.tenantId p.id = some trip)
      (can : canMileageTransition trip.status p.target = true)
      (trips : after.trips = (updateTrip book p.tenantId p.id (p.writes (priceOf book trip))).trips)
      (ledger : after.ledger = if p.target = .approved then
        recordMileage trip (earnedCents book p.tenantId (priceOf book trip)) book.ledger
      else book.ledger) : Effect book after (.transitionTrip p)

theorem createTrip_ok {input : CreateTripInput} (h : createTrip book input = .ok after) :
    Effect book after (.createTrip input) := by
  unfold createTrip at h
  split_ifs at h with hproblems hreplay hopen
  · cases h
    exact .kept not_false rfl rfl
  · cases h
    exact .added input rfl rfl

theorem patchTrip_ok {id : Nat} {patch : PatchTripInput}
    (h : patchTrip book tenantId id patch = .ok after) :
    Effect book after (.patchTrip tenantId id patch) := by
  unfold patchTrip at h
  cases hget : getTrip book tenantId id with
  | none => simp [hget] at h
  | some trip =>
    simp only [hget] at h
    split_ifs at h with hlocked
    cases h
    exact .edited (f := patch.apply) not_false hget hlocked ⟨fun _ => rfl, fun _ => rfl⟩ rfl rfl

theorem endTrip_ok {p : EndTripInput} (h : endTrip book p = .ok after) :
    Effect book after (.endTrip p) := by
  unfold endTrip at h
  cases hget : getTrip book p.tenantId p.id with
  | none => simp [hget] at h
  | some trip =>
    simp only [hget] at h
    split_ifs at h with hlocked hstarted hended
    cases h
    exact .edited (f := p.apply) not_false hget hlocked ⟨fun _ => rfl, fun _ => rfl⟩ rfl rfl

theorem softDeleteTrip_ok {id : Nat} {nowIso : String}
    (h : softDeleteTrip book tenantId id nowIso = .ok after) :
    Effect book after (.softDeleteTrip tenantId id nowIso) := by
  unfold softDeleteTrip at h
  cases hget : getTrip book tenantId id with
  | none => simp [hget] at h
  | some trip =>
    simp only [hget] at h
    split_ifs at h with hlocked
    cases h
    exact .edited (f := fun t => { t with deletedAt := some nowIso }) not_false hget hlocked
      ⟨fun _ => rfl, fun _ => rfl⟩ rfl rfl

theorem transitionTrip_ok (h : transitionTrip book p = .ok after) :
    Effect book after (.transitionTrip p) := by
  unfold transitionTrip at h
  cases hget : getTrip book p.tenantId p.id with
  | none => simp [hget] at h
  | some trip =>
    simp only [hget, Bool.not_eq_true'] at h
    split_ifs at h with hguard hmiles happroved
    all_goals
      cases h
      have hcan : canMileageTransition trip.status p.target = true := by simpa using hguard
    · exact .moved p hget hcan rfl (if_pos happroved).symm
    · exact .moved p hget hcan rfl (if_neg happroved).symm

theorem addAdjustment_ok {p : AdjustmentInput} (h : addAdjustment book p = .ok after) :
    Effect book after (.addAdjustment p) := by
  unfold addAdjustment at h
  cases hget : getTrip book p.tenantId p.tripId with
  | none => simp [hget] at h
  | some trip =>
    simp only [hget] at h
    split_ifs at h
    all_goals
      cases h
      exact .kept not_false rfl rfl

theorem call_ok (h : call book a = .ok after) : Effect book after a := by
  cases a with
  | createTrip input => exact createTrip_ok h
  | patchTrip tenantId id patch => exact patchTrip_ok h
  | endTrip p => exact endTrip_ok h
  | transitionTrip p => exact transitionTrip_ok h
  | addAdjustment p => exact addAdjustment_ok h
  | softDeleteTrip tenantId id nowIso => exact softDeleteTrip_ok h
  | addRate tenantId rate effectiveFrom =>
    cases h
    exact .kept not_false rfl rfl
  | setReimbursementEnabled tenantId on =>
    cases h
    exact .kept not_false rfl rfl

theorem step_cases (book : MileageBook) (a : MileageAction) :
    step book a = book ∨ Effect book (step book a) a := by
  unfold step
  cases h : call book a with
  | error e => exact Or.inl rfl
  | ok after => exact Or.inr (call_ok h)

theorem numbered_updateTrip (h : Numbered (·.id) book.trips) (tenantId id : Nat) (hf : KeepsKey f) :
    Numbered (·.id) (updateTrip book tenantId id f).trips := by
  apply h.map
  intro t _
  split
  · exact hf.id t
  · rfl

theorem Effect.numbered (h : Effect book after a)
    (hnum : Numbered (·.id) book.trips) : Numbered (·.id) after.trips := by
  cases h with
  | kept hquiet ht hl => exact ht ▸ hnum
  | added input ht hl => exact ht ▸ hnum.snoc rfl
  | edited hquiet hget hopen hf ht hl => exact ht ▸ numbered_updateTrip hnum _ _ hf
  | moved p hget hcan ht hl => exact ht ▸ numbered_updateTrip hnum _ _ (p.keepsKey _)

theorem numbered_step (a : MileageAction) (hnum : Numbered (·.id) book.trips) :
    Numbered (·.id) (step book a).trips := by
  rcases step_cases book a with h | h
  · rwa [h]
  · exact h.numbered hnum

theorem Frozen.refl (book : MileageBook) : Frozen book book :=
  fun t ht hlocked => ⟨t, ht, rfl, rfl, hlocked, rfl⟩

theorem Frozen.trans {b c d : MileageBook} (h : Frozen b c) (h' : Frozen c d) : Frozen b d := by
  intro t ht hlocked
  obtain ⟨t', ht', htenant, hid, hlocked', hfigures⟩ := h t ht hlocked
  obtain ⟨t'', ht'', htenant', hid', hlocked'', hfigures'⟩ := h' t' ht' hlocked'
  exact ⟨t'', ht'', htenant'.trans htenant, hid'.trans hid, hlocked'', hfigures'.trans hfigures⟩

theorem frozen_of_subset (h : ∀ t ∈ book.trips, t ∈ after.trips) : Frozen book after :=
  fun t ht hlocked => ⟨t, h t ht, rfl, rfl, hlocked, rfl⟩

theorem frozen_updateTrip {id : Nat} (hkey : KeepsKey f)
    (hf : ∀ t ∈ book.trips, t.tenantId = tenantId → t.id = id → t.Locked →
      (f t).Locked ∧ (f t).figures = t.figures)
    (htrips : after.trips = (updateTrip book tenantId id f).trips) : Frozen book after := by
  intro t ht hlocked
  have hmem := mem_map_of_mem
    (f := fun t => if t.tenantId = tenantId ∧ t.id = id then f t else t) ht
  rw [htrips]
  by_cases hsel : t.tenantId = tenantId ∧ t.id = id
  · rw [if_pos hsel] at hmem
    obtain ⟨hlocked', hfigures⟩ := hf t ht hsel.1 hsel.2 hlocked
    exact ⟨f t, hmem, hkey.tenantId t, hkey.id t, hlocked', hfigures⟩
  · rw [if_neg hsel] at hmem
    exact ⟨t, hmem, rfl, rfl, hlocked, rfl⟩

theorem target_of_locked {t : MileageTrip} (hlocked : t.Locked) {target : MileageStatus}
    (h : canMileageTransition t.status target = true) :
    target = .paid ∨ target = .approved ∧ t.status = .approved := by
  unfold MileageTrip.Locked isMileageLocked at hlocked
  cases hs : t.status <;> rw [hs] at hlocked h <;> cases target <;> simp_all [canMileageTransition,
    MileageStatus.next]

theorem frozen_of_edit (hnum : Numbered (·.id) book.trips) {id : Nat}
    (hget : getTrip book tenantId id = some trip) (hopen : ¬trip.Locked) (hf : KeepsKey f)
    (htrips : after.trips = (updateTrip book tenantId id f).trips) : Frozen book after := by
  obtain ⟨hmem, -, hid⟩ := getTrip_some hget
  apply frozen_updateTrip hf _ htrips
  intro t hmem' _ hid' hlocked
  have heq : t = trip := hnum.eq_of_key hmem' hmem (hid'.trans hid.symm)
  exact absurd (heq ▸ hlocked) hopen

theorem frozen_transition_iff (hnum : Numbered (·.id) book.trips)
    (hget : getTrip book p.tenantId p.id = some trip)
    (hcan : canMileageTransition trip.status p.target = true)
    (htrips : after.trips = (updateTrip book p.tenantId p.id (p.writes (priceOf book trip))).trips) :
    Frozen book after ↔ (p.target = .approved → trip.status = .approved → SamePrice book trip) := by
  obtain ⟨hmem, htenant, hid⟩ := getTrip_some hget
  constructor
  · intro hfrozen happroved hstatus
    have hlocked : trip.Locked := by simp [MileageTrip.Locked, isMileageLocked, hstatus]
    obtain ⟨t', ht', -, hid', -, hfigures⟩ := hfrozen trip hmem hlocked
    have hwritten : p.writes (priceOf book trip) trip ∈ after.trips := by
      rw [htrips]
      have himage := mem_map_of_mem (f := fun t =>
        if t.tenantId = p.tenantId ∧ t.id = p.id then p.writes (priceOf book trip) t else t) hmem
      rwa [if_pos ⟨htenant, hid⟩] at himage
    have hnum' : Numbered (·.id) after.trips :=
      htrips ▸ numbered_updateTrip hnum p.tenantId p.id (p.keepsKey _)
    have heq : t' = p.writes (priceOf book trip) trip :=
      hnum'.eq_of_key ht' hwritten (hid'.trans ((p.keepsKey _).id trip).symm)
    rw [heq] at hfigures
    simp only [MileageTrip.figures, TransitionInput.writes, happroved, Prod.mk.injEq] at hfigures
    exact hfigures.2
  · intro hsame
    refine frozen_updateTrip (p.keepsKey _) (fun t hmem' _ hid' hlocked => ?_) htrips
    have heq : t = trip := hnum.eq_of_key hmem' hmem (hid'.trans hid.symm)
    subst heq
    rcases target_of_locked hlocked hcan with hpaid | ⟨happroved, hstatus⟩
    · simp [TransitionInput.writes, hpaid, MileageTrip.Locked, isMileageLocked,
        MileageTrip.figures]
    · obtain ⟨hrate, hcents⟩ := hsame happroved hstatus
      simp only [TransitionInput.writes, happroved, MileageTrip.Locked, isMileageLocked,
        MileageTrip.figures, decide_true, Bool.true_or, hrate, hcents, and_self]

theorem secondApprovalKeeps_of_quiet (h : ¬a.IsTransition) : SecondApprovalKeeps book a := by
  cases a with
  | transitionTrip p => exact absurd trivial h
  | _ => trivial

theorem transitionTrip_again
    (hget : getTrip book p.tenantId p.id = some trip) (happroved : p.target = .approved)
    (hstatus : trip.status = .approved) : ∃ after, transitionTrip book p = .ok after := by
  have hguard : canMileageTransition trip.status p.target = true := by
    simp [canMileageTransition, hstatus, happroved]
  have hmiles : ¬(p.target = .submitted ∧ trip.milesHundredths ≤ 0) := by simp [happroved]
  unfold transitionTrip
  simp only [hget, hguard, Bool.not_true, Bool.false_eq_true, if_false, hmiles, if_pos happroved]
  exact ⟨_, rfl⟩

/-- A step freezes the locked trips exactly when a second approval finds the price of the first. -/
theorem frozen_step_iff (hnum : Numbered (·.id) book.trips) (a : MileageAction) :
    Frozen book (step book a) ↔ SecondApprovalKeeps book a := by
  unfold step
  cases hcall : call book a with
  | error e =>
    constructor
    · intro _
      cases a with
      | transitionTrip p =>
        intro happroved trip hget hstatus
        obtain ⟨after, hok⟩ := transitionTrip_again hget happroved hstatus
        rw [call, hok] at hcall
        cases hcall
      | _ => trivial
    · exact fun _ => Frozen.refl book
  | ok after =>
    cases call_ok hcall with
    | kept hquiet ht hl =>
      have hfrozen : Frozen book after := frozen_of_subset fun t hmem => ht ▸ hmem
      exact iff_of_true hfrozen (secondApprovalKeeps_of_quiet hquiet)
    | added input ht hl =>
      have hfrozen : Frozen book after :=
        frozen_of_subset fun t hmem => ht ▸ mem_append_left _ hmem
      exact iff_of_true hfrozen trivial
    | edited hquiet hget hopen hf ht hl =>
      have hfrozen : Frozen book after := frozen_of_edit hnum hget hopen hf ht
      exact iff_of_true hfrozen (secondApprovalKeeps_of_quiet hquiet)
    | @moved p trip hget hcan ht hl =>
      rw [frozen_transition_iff hnum hget hcan ht]
      simp [SecondApprovalKeeps, hget]

end Step

def Owned (book : MileageBook) : Prop :=
  ∀ row ∈ book.ledger, ∃ t ∈ book.trips, t.Locked ∧ row.tenantId = t.tenantId ∧
    row.idempotencyKey = mileageKey t.id ∧ Earns row t

structure Sound (book : MileageBook) : Prop where
  numbered : Numbered (·.id) book.trips
  owned : Owned book

section Ledger

variable {book after : MileageBook}

theorem sound_empty : Sound .empty :=
  ⟨Numbered.nil, fun _ hrow => absurd hrow not_mem_nil⟩

theorem Sound.ledgerAgrees (h : Sound book) : LedgerAgrees book := by
  intro t ht _ row hrow htenant hkey
  obtain ⟨owner, howner, -, -, hkey', hearns⟩ := h.owned row hrow
  have hid : t.id = owner.id := congrArg LedgerKey.sourceId (hkey.symm.trans hkey')
  rw [h.numbered.eq_of_key ht howner hid]
  exact hearns

theorem Frozen.owned (h : Frozen book after) (howned : Owned book) {row : EarningsLedgerRow}
    (hrow : row ∈ book.ledger) : ∃ t ∈ after.trips, t.Locked ∧ row.tenantId = t.tenantId ∧
      row.idempotencyKey = mileageKey t.id ∧ Earns row t := by
  obtain ⟨t, ht, hlocked, htenant, hkey, hgross, hnet⟩ := howned row hrow
  obtain ⟨t', ht', htenant', hid', hlocked', hfigures⟩ := h t ht hlocked
  have hcents : t'.reimbursementCents = t.reimbursementCents :=
    congrArg (fun figures => figures.2.2) hfigures
  refine ⟨t', ht', hlocked', htenant.trans htenant'.symm, hid' ▸ hkey, ?_, hnet⟩
  rw [hcents]
  exact hgross

theorem owned_recordMileage {written : MileageTrip} {cents : Int}
    (hnum : Numbered (·.id) after.trips)
    (hold : ∀ row ∈ book.ledger, ∃ t ∈ after.trips, t.Locked ∧ row.tenantId = t.tenantId ∧
      row.idempotencyKey = mileageKey t.id ∧ Earns row t)
    (hmem : written ∈ after.trips) (hlocked : written.Locked)
    (htenant : written.tenantId = trip.tenantId) (hid : written.id = trip.id)
    (hcents : cents ≠ 0 → written.reimbursementCents = some cents)
    (hledger : after.ledger = recordMileage trip cents book.ledger) : Owned after := by
  intro row hrow
  rw [hledger, recordMileage] at hrow
  split_ifs at hrow with hzero
  · exact hold row hrow
  · have hprice := hcents hzero
    rcases mem_upsert hrow with ⟨old, hmemOld, rfl⟩ | ⟨rfl, -⟩
    · obtain ⟨t, ht, htlocked, httenant, htkey, hearns⟩ := hold old hmemOld
      by_cases hhits : (mileageInput trip cents).Hits old ∧ old.status ≠ .paid
      · have hsame : t.id = written.id := by
          have hkey : mileageKey t.id = mileageKey trip.id := htkey.symm.trans hhits.1.2
          exact (congrArg LedgerKey.sourceId hkey).trans hid.symm
        have heq : t = written := hnum.eq_of_key ht hmem hsame
        subst heq
        rw [RecordInput.rewrite, if_pos hhits]
        exact ⟨t, ht, htlocked, httenant, htkey, hprice.symm, Int.add_zero cents⟩
      · rw [RecordInput.rewrite, if_neg hhits]
        exact ⟨t, ht, htlocked, httenant, htkey, hearns⟩
    · refine ⟨written, hmem, hlocked, htenant.symm, ?_, hprice.symm, Int.add_zero cents⟩
      rw [hid]
      rfl

theorem sound_step (a : MileageAction) (h : Sound book) (hkeeps : SecondApprovalKeeps book a) :
    Sound (step book a) := by
  have hfrozen : Frozen book (step book a) := (frozen_step_iff h.numbered a).mpr hkeeps
  have hnum : Numbered (·.id) (step book a).trips := numbered_step a h.numbered
  refine ⟨hnum, ?_⟩
  have hold := fun row (hrow : row ∈ book.ledger) => hfrozen.owned h.owned hrow
  rcases step_cases book a with hsame | heffect
  · rw [hsame]
    exact h.owned
  · cases heffect with
    | kept hquiet ht hl => exact fun row hrow => hold row (hl ▸ hrow)
    | added input ht hl => exact fun row hrow => hold row (hl ▸ hrow)
    | edited hquiet hget hopen hf ht hl => exact fun row hrow => hold row (hl ▸ hrow)
    | @moved p trip hget hcan ht hl =>
      by_cases happroved : p.target = .approved
      · rw [if_pos happroved] at hl
        obtain ⟨hmem, htenant, hid⟩ := getTrip_some hget
        have hwritten : p.writes (priceOf book trip) trip ∈ (step book (.transitionTrip p)).trips := by
          rw [ht]
          exact mem_map.mpr ⟨trip, hmem, if_pos ⟨htenant, hid⟩⟩
        apply owned_recordMileage hnum hold hwritten _ ((p.keepsKey _).tenantId trip)
          ((p.keepsKey _).id trip) _ hl
        · simp [TransitionInput.writes, happroved, MileageTrip.Locked, isMileageLocked]
        · intro hcents
          unfold earnedCents at hcents ⊢
          split_ifs at hcents ⊢
          · simp [TransitionInput.writes, happroved]
          · exact absurd rfl hcents
      · rw [if_neg happroved] at hl
        exact fun row hrow => hold row (hl ▸ hrow)

end Ledger

/-- The locked trips of a run keep their figures exactly when its second approvals keep them. -/
theorem frozen_trace_iff (as : List MileageAction) :
    (MileageBook.empty :: trace step .empty as).Pairwise Frozen ↔
      Along step SecondApprovalKeeps .empty as := by
  have hpairs : (MileageBook.empty :: trace step .empty as).Pairwise Frozen ↔
      Along step (fun s a => Frozen s (step s a)) .empty as :=
    pairwise_trace_iff (R := Frozen) (fun h h' => Frozen.trans h h') .empty as
  have hsteps : Along step (fun s a => Frozen s (step s a)) .empty as ↔
      Along step SecondApprovalKeeps .empty as :=
    along_congr (I := fun book => Numbered (·.id) book.trips)
      (fun s a hs => numbered_step a hs) (fun s a hs => frozen_step_iff hs a) Numbered.nil as
  exact hpairs.trans hsteps

/-- Approved trips keep their figures and their earnings agree, in every state of a run, exactly
when each second approval of the run finds the price of the first. -/
theorem pricedOnce_iff (as : List MileageAction) :
    PricedOnce .empty as ↔ Along step SecondApprovalKeeps .empty as := by
  constructor
  · intro h
    exact (frozen_trace_iff as).mp h.1
  · intro h
    have hsound := trace_along (fun s a hs hkeeps => sound_step a hs hkeeps) sound_empty h
    exact ⟨(frozen_trace_iff as).mpr h, fun after hafter => (hsound after hafter).ledgerAgrees⟩

def julyTrip : CreateTripInput where
  tenantId := 1
  repId := 7
  tripDate := "2026-07-10"
  startLocation := some "Office"
  endLocation := some "Elm St"
  milesHundredths := 10000
  purpose := some "Door knocking"
  notes := none
  source := .manual
  clientId := none
  startedAt := none
  status := .draft
  nowIso := "2026-07-11"
  todayIso := "2026-07-11"

def moveTrip (target : MileageStatus) : MileageAction :=
  .transitionTrip { tenantId := 1, id := 1, target, actorUserId := some 3, reason := none,
                    nowIso := "2026-07-12" }

def approvedTwice : List MileageAction :=
  [.setReimbursementEnabled 1 true, .addRate 1 65500 "2026-07-01", .createTrip julyTrip,
    moveTrip .submitted, moveTrip .approved, .addRate 1 70000 "2026-07-01", moveTrip .approved]

/-- The second approval prices the trip at the rate that replaced the first. -/
theorem not_pricedOnce_approvedTwice : ¬PricedOnce .empty approvedTwice := by
  intro h
  have hkeeps := (frozen_trace_iff approvedTwice).mp h.1
  revert hkeeps
  decide +kernel

end HomefrontFiber.Mileage
