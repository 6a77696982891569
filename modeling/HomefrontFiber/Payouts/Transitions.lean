import HomefrontFiber.Payouts.OneTransfer

/-!
# The payout ledger and its state machine

The store's mutators write a status without a look at the one before. The statuses follow
`canPayoutTransition`, and a transfer that was reversed is not shown as paid, exactly as long as no
attempt marks a row as processing that is paid or reversed, and none marks as paid a row that is
reversed or a transfer that was.
-/

namespace HomefrontFiber.Payouts

open List

variable {s s' : PayState}

/-- Every row that is there before and after changes its status as the table allows. -/
def StatusesFollow (s s' : PayState) : Prop :=
  ∀ r ∈ s.payouts, ∀ r' ∈ s'.payouts, r'.id = r.id → canPayoutTransition r.status r'.status = true

/-- No row is paid by a transfer whose reversal has been processed. -/
def ReversedStay (s : PayState) : Prop :=
  ∀ r ∈ s.payouts, r.status = .paid → ∀ t ∈ r.stripeTransferId, t ∉ s.reversals.map Prod.snd

def FollowsLedger (s : PayState) (a : Action) : Prop :=
  StatusesFollow s (step s a) ∧ ReversedStay (step s a)

instance (s : PayState) (a : Action) : Decidable (FollowsLedger s a) :=
  inferInstanceAs (Decidable ((∀ r ∈ s.payouts, ∀ r' ∈ (step s a).payouts, _) ∧
    ∀ r ∈ (step s a).payouts, _ → ∀ t ∈ r.stripeTransferId, _))

/-- The row that an attempt is about to mark is in a state that the mark may follow. -/
def MayMark (s : PayState) : Phase → Prop
  | .markProcessing rowId _ =>
    ∀ r ∈ s.payouts, r.id = rowId → r.status ≠ .paid ∧ r.status ≠ .reversed
  | .markPaid rowId transferId =>
    ∀ r ∈ s.payouts, r.id = rowId →
      r.status ≠ .reversed ∧ transferId ∉ s.reversals.map Prod.snd
  | _ => True

def MarksInOrder (s : PayState) : Action → Prop
  | .advance i _ => ∀ a ∈ s.attempts[i]?, MayMark s a.phase
  | _ => True

structure LedgerWf (s : PayState) : Prop where
  ids : (s.payouts.map (·.id)).Nodup
  fresh : ∀ r ∈ s.payouts, r.id < s.nextPayoutId
  carries : ∀ r ∈ s.payouts,
    r.stripeTransferId.isSome ↔ r.status = .paid ∨ r.status = .reversed
  reversed : ReversedStay s

theorem ledgerWf_empty : LedgerWf .empty where
  ids := nodup_nil
  fresh _ hr := absurd hr not_mem_nil
  carries _ hr := absurd hr not_mem_nil
  reversed _ hr := absurd hr not_mem_nil

theorem LedgerWf.rewrite (h : LedgerWf s) {f : PayoutRow → PayoutRow}
    {reversals : List (String × Nat)} (hid : ∀ r, (f r).id = r.id)
    (hstatus : ∀ r ∈ s.payouts, canPayoutTransition r.status (f r).status = true)
    (hcarries : ∀ r ∈ s.payouts,
      (f r).stripeTransferId.isSome ↔ (f r).status = .paid ∨ (f r).status = .reversed)
    (hpaid : ∀ r ∈ s.payouts, (f r).status = .paid →
      ∀ t ∈ (f r).stripeTransferId, t ∉ reversals.map Prod.snd) :
    LedgerWf { s with payouts := s.payouts.map f, reversals := reversals } ∧
      StatusesFollow s { s with payouts := s.payouts.map f, reversals := reversals } := by
  refine ⟨⟨?_, ?_, ?_, ?_⟩, ?_⟩
  · have hids : (s.payouts.map f).map (·.id) = s.payouts.map (·.id) := by
      rw [map_map]
      exact map_congr_left fun r _ => hid r
    exact hids ▸ h.ids
  · intro r hr
    obtain ⟨old, hold, rfl⟩ := mem_map.mp hr
    rw [hid]
    exact h.fresh old hold
  · intro r hr
    obtain ⟨old, hold, rfl⟩ := mem_map.mp hr
    exact hcarries old hold
  · intro r hr
    obtain ⟨old, hold, rfl⟩ := mem_map.mp hr
    exact hpaid old hold
  · intro r hr r' hr' heq
    obtain ⟨old, hold, rfl⟩ := mem_map.mp hr'
    rw [hid] at heq
    obtain rfl : old = r := inj_on_of_nodup_map h.ids hold hr heq
    exact hstatus old hold

theorem StatusesFollow.refl (h : LedgerWf s) : StatusesFollow s s := by
  intro r hr r' hr' heq
  obtain rfl : r' = r := inj_on_of_nodup_map h.ids hr' hr heq
  simp [canPayoutTransition]

theorem canPayoutTransition_forward {source target : PayoutStatus}
    (hpaid : source ≠ .paid) (hreversed : source ≠ .reversed)
    (htarget : target = .processing ∨ target = .paid ∨ target = .failed) :
    canPayoutTransition source target = true := by
  rcases htarget with rfl | rfl | rfl <;> cases source <;> first | rfl | contradiction

theorem LedgerWf.transferless (h : LedgerWf s) {r : PayoutRow} (hr : r ∈ s.payouts) :
    r.stripeTransferId = none ↔ r.status ≠ .paid ∧ r.status ≠ .reversed := by
  rw [← not_or, ← h.carries r hr, Option.not_isSome_iff_eq_none]

theorem LedgerWf.updatePayout (h : LedgerWf s) (id : Nat) {f : PayoutRow → PayoutRow}
    (hid : ∀ r, (f r).id = r.id)
    (hrow : ∀ r ∈ s.payouts, r.id = id →
      canPayoutTransition r.status (f r).status = true ∧
      ((f r).stripeTransferId.isSome ↔ (f r).status = .paid ∨ (f r).status = .reversed) ∧
      ((f r).status = .paid → ∀ t ∈ (f r).stripeTransferId, t ∉ s.reversals.map Prod.snd)) :
    LedgerWf (s.updatePayout id f) ∧ StatusesFollow s (s.updatePayout id f) := by
  apply @LedgerWf.rewrite s h (fun r => if r.id = id then f r else r) s.reversals
  · intro r
    split
    · exact hid r
    · rfl
  · intro r hr
    split
    · exact (hrow r hr ‹_›).1
    · simp [canPayoutTransition]
  · intro r hr
    split
    · exact (hrow r hr ‹_›).2.1
    · exact h.carries r hr
  · intro r hr
    split
    · exact (hrow r hr ‹_›).2.2
    · exact h.reversed r hr

theorem LedgerWf.markPayoutProcessing (h : LedgerWf s) {id : Nat}
    (hmay : ∀ r ∈ s.payouts, r.id = id → r.status ≠ .paid ∧ r.status ≠ .reversed) :
    LedgerWf (s.markPayoutProcessing id) ∧ StatusesFollow s (s.markPayoutProcessing id) := by
  apply h.updatePayout id
  · exact fun _ => rfl
  · intro r hr hrid
    obtain ⟨hpaid, hreversed⟩ := hmay r hr hrid
    have hnone := (h.transferless hr).mpr ⟨hpaid, hreversed⟩
    exact ⟨canPayoutTransition_forward hpaid hreversed (Or.inl rfl), by simp [hnone], nofun⟩

theorem LedgerWf.markPayoutPaid (h : LedgerWf s) {id transferId : Nat}
    (hmay : ∀ r ∈ s.payouts, r.id = id →
      r.status ≠ .reversed ∧ transferId ∉ s.reversals.map Prod.snd) :
    LedgerWf (s.markPayoutPaid id transferId) ∧
      StatusesFollow s (s.markPayoutPaid id transferId) := by
  apply h.updatePayout id
  · exact fun _ => rfl
  · intro r hr hrid
    obtain ⟨hreversed, hstands⟩ := hmay r hr hrid
    refine ⟨?_, by simp, ?_⟩
    · by_cases hpaid : r.status = .paid
      · rw [hpaid]
        rfl
      · exact canPayoutTransition_forward hpaid hreversed (Or.inr (Or.inl rfl))
    · rintro - t ⟨⟩
      exact hstands

/-- The guard on the transfer id keeps paid and reversed rows out of `failed`. -/
theorem LedgerWf.markPayoutFailed (h : LedgerWf s) (id : Nat) :
    LedgerWf (s.markPayoutFailed id) ∧ StatusesFollow s (s.markPayoutFailed id) := by
  apply h.updatePayout id
  · intro r
    split <;> rfl
  · intro r hr _
    by_cases hnone : r.stripeTransferId = none
    · obtain ⟨hpaid, hreversed⟩ := (h.transferless hr).mp hnone
      rw [if_pos hnone]
      exact ⟨canPayoutTransition_forward hpaid hreversed (Or.inr (Or.inr rfl)), by simp [hnone],
        nofun⟩
    · rw [if_neg hnone]
      exact ⟨by simp [canPayoutTransition], h.carries r hr, h.reversed r hr⟩

/-- A processed reversal takes every row of its transfer out of `paid`. -/
theorem LedgerWf.processConnectWebhook (h : LedgerWf s) (eventId : String) (transferId : Nat) :
    LedgerWf (processConnectWebhook s eventId transferId) ∧
      StatusesFollow s (processConnectWebhook s eventId transferId) := by
  unfold Payouts.processConnectWebhook
  split
  · exact ⟨h, StatusesFollow.refl h⟩
  · apply h.rewrite
    · intro r
      split <;> rfl
    · intro r hr
      split
      · rename_i hmatch
        have hcarries := (h.carries r hr).mp (by rw [hmatch.1]; rfl)
        rcases hcarries with hpaid | hreversed
        · rw [hpaid]
          rfl
        · exact absurd hreversed hmatch.2
      · simp [canPayoutTransition]
    · intro r hr
      split
      · rename_i hmatch
        simp [hmatch.1]
      · exact h.carries r hr
    · intro r hr hpaid t ht
      split at hpaid
      · cases hpaid
      · rename_i hother
        rw [if_neg hother] at ht
        rw [map_append, mem_append, not_or]
        refine ⟨h.reversed r hr hpaid t ht, ?_⟩
        rw [map_cons, map_nil, mem_singleton]
        rintro rfl
        exact hother ⟨ht, by rw [hpaid]; nofun⟩

theorem LedgerWf.createPendingPayout (h : LedgerWf s) (job : PayJob) :
    LedgerWf (s.createPendingPayout job).2 ∧
      StatusesFollow s (s.createPendingPayout job).2 := by
  unfold PayState.createPendingPayout
  split
  · exact ⟨h, StatusesFollow.refl h⟩
  · refine ⟨⟨?_, ?_, ?_, ?_⟩, ?_⟩
    · simp only [map_append, map_cons, map_nil]
      rw [← concat_eq_append]
      apply List.Nodup.concat _ h.ids
      intro hmem
      obtain ⟨r, hr, hid⟩ := mem_map.mp hmem
      have hlt := h.fresh r hr
      omega
    · intro r hr
      rcases mem_append.mp hr with hr | hr
      · exact Nat.lt_succ_of_lt (h.fresh r hr)
      · rw [mem_singleton.mp hr]
        exact Nat.lt_succ_self _
    · intro r hr
      rcases mem_append.mp hr with hr | hr
      · exact h.carries r hr
      · rw [mem_singleton.mp hr]
        simp
    · intro r hr
      rcases mem_append.mp hr with hr | hr
      · exact h.reversed r hr
      · rw [mem_singleton.mp hr]
        nofun
    · intro r hr r' hr' heq
      rcases mem_append.mp hr' with hr' | hr'
      · exact StatusesFollow.refl h r hr r' hr' heq
      · rw [mem_singleton.mp hr'] at heq
        have hlt := h.fresh r hr
        simp only at heq
        omega

theorem LedgerWf.resetPayoutForRetry (h : LedgerWf s) (id : Nat) :
    LedgerWf (s.resetPayoutForRetry id) ∧ StatusesFollow s (s.resetPayoutForRetry id) := by
  have hsub : (s.resetPayoutForRetry id).payouts.Sublist s.payouts := filter_sublist
  refine ⟨⟨?_, ?_, ?_, ?_⟩, ?_⟩
  · exact h.ids.sublist (hsub.map _)
  · exact fun r hr => h.fresh r (hsub.subset hr)
  · exact fun r hr => h.carries r (hsub.subset hr)
  · exact fun r hr => h.reversed r (hsub.subset hr)
  · exact fun r hr r' hr' heq => StatusesFollow.refl h r hr r' (hsub.subset hr') heq

theorem LedgerWf.postTransfer (h : LedgerWf s) (job : PayJob) (forgetsKey : Bool) :
    LedgerWf (s.postTransfer job forgetsKey).2 ∧
      StatusesFollow s (s.postTransfer job forgetsKey).2 := by
  have hfollows := StatusesFollow.refl h
  unfold PayState.postTransfer
  split
  · exact ⟨⟨h.ids, h.fresh, h.carries, h.reversed⟩, hfollows⟩
  · split
    · exact ⟨h, hfollows⟩
    · exact ⟨⟨h.ids, h.fresh, h.carries, h.reversed⟩, hfollows⟩

theorem LedgerWf.perform (h : LedgerWf s) (job : PayJob) (reply : Reply) {phase : Phase}
    (hmay : MayMark s phase) :
    LedgerWf (perform s job reply phase).2 ∧
      StatusesFollow s (perform s job reply phase).2 := by
  have hsame : LedgerWf s ∧ StatusesFollow s s := ⟨h, StatusesFollow.refl h⟩
  cases phase with
  | readLedger | ensureSchedule | lookup | done => exact hsame
  | reset rowId => exact h.resetPayoutForRetry rowId
  | markProcessing rowId checkedMs => exact h.markPayoutProcessing hmay
  | markFailed rowId => exact h.markPayoutFailed rowId
  | markPaid rowId transferId => exact h.markPayoutPaid hmay
  | reconcile rowId | lateLookup rowId =>
    simp only [Payouts.perform]
    split <;> exact hsame
  | createPending prior checkedMs =>
    have hcreated := h.createPendingPayout job
    simp only [Payouts.perform]
    split <;> exact hcreated
  | createTransfer rowId checkedMs =>
    simp only [Payouts.perform]
    split
    · exact h.postTransfer job reply.forgetsKey
    · exact hsame

theorem LedgerWf.step (h : LedgerWf s) {a : Action} (horder : MarksInOrder s a) :
    LedgerWf (step s a) ∧ FollowsLedger s a := by
  have hboth : LedgerWf (Payouts.step s a) ∧ StatusesFollow s (Payouts.step s a) := by
    cases a with
    | begin | wait =>
      exact ⟨⟨h.ids, h.fresh, h.carries, h.reversed⟩, StatusesFollow.refl h⟩
    | crash i => exact ⟨⟨h.ids, h.fresh, h.carries, h.reversed⟩, StatusesFollow.refl h⟩
    | transferReversed eventId transferId => exact h.processConnectWebhook eventId transferId
    | advance i reply =>
      cases ha : s.attempts[i]? with
      | none =>
        simp only [Payouts.step, ha]
        exact ⟨h, StatusesFollow.refl h⟩
      | some a =>
        rw [step_advance ha]
        obtain ⟨hwf, hfollows⟩ := h.perform a.job reply (horder a ha)
        exact ⟨⟨hwf.ids, hwf.fresh, hwf.carries, hwf.reversed⟩, hfollows⟩
  exact ⟨hboth.1, hboth.2, hboth.1.reversed⟩

/-- A mark out of order leaves the state machine, or shows a reversed transfer as paid. -/
theorem FollowsLedger.marksInOrder {a : Action} (h : FollowsLedger s a) : MarksInOrder s a := by
  obtain ⟨hfollows, hstay⟩ := h
  cases a with
  | begin | crash | wait | transferReversed => trivial
  | advance i reply =>
    intro a ha
    have hattempt : s.attempts[i]? = some a := ha
    have hpayouts : (step s (.advance i reply)).payouts =
        (perform s a.job reply a.phase).2.payouts := by
      rw [step_advance hattempt]
      rfl
    have hreversals : (step s (.advance i reply)).reversals = s.reversals := by
      rw [step_advance hattempt]
      exact (perform_frame a.job reply a.phase).2.2
    cases hphase : a.phase with
    | markProcessing rowId checkedMs =>
      rw [hphase] at hpayouts
      rintro r hr rfl
      have hmem : { r with status := .processing } ∈ (step s (.advance i reply)).payouts := by
        rw [hpayouts]
        exact mem_map.mpr ⟨r, hr, if_pos rfl⟩
      have hallowed := hfollows r hr _ hmem rfl
      constructor
      · intro hpaid
        rw [hpaid, canPayoutTransition_paid] at hallowed
        rcases hallowed with heq | heq <;> cases heq
      · intro hreversed
        rw [hreversed, canPayoutTransition_reversed] at hallowed
        cases hallowed
    | markPaid rowId transferId =>
      rw [hphase] at hpayouts
      rintro r hr rfl
      have hmem : { r with status := .paid, stripeTransferId := some transferId } ∈
          (step s (.advance i reply)).payouts := by
        rw [hpayouts]
        exact mem_map.mpr ⟨r, hr, if_pos rfl⟩
      constructor
      · intro hreversed
        have hallowed := hfollows r hr _ hmem rfl
        rw [hreversed, canPayoutTransition_reversed] at hallowed
        cases hallowed
      · have hstands := hstay _ hmem rfl transferId rfl
        rw [hreversals] at hstands
        exact hstands
    | _ => trivial

/-- A run follows the state machine and the money exactly when its marks come in order. -/
theorem followsLedger_run_iff (actions : List Action) :
    Along step FollowsLedger .empty actions ↔ Along step MarksInOrder .empty actions := by
  constructor
  · exact Along.mono fun _ _ h => h.marksInOrder
  · have hstep : ∀ s a, LedgerWf s → MarksInOrder s a → LedgerWf (step s a) :=
      fun _ _ hwf horder => (hwf.step horder).1
    have himp : ∀ s a, LedgerWf s → MarksInOrder s a → FollowsLedger s a :=
      fun _ _ hwf horder => (hwf.step horder).2
    exact Along.imp_of_invariant hstep himp ledgerWf_empty

/-- Both runs look for a transfer before either has posted one. The second marks the row that the
first has paid. -/
def overlappingRuns : List Action :=
  [.begin sampleJob, .begin sampleJob] ++
    List.replicate 3 (.advance 0 answeredCall) ++ List.replicate 3 (.advance 1 answeredCall) ++
    List.replicate 4 (.advance 0 answeredCall) ++ List.replicate 2 (.advance 1 answeredCall)

theorem not_followsLedger_overlappingRuns :
    ¬ ∀ actions : List Action, Along step FollowsLedger .empty actions := by
  intro h
  have hruns := h overlappingRuns
  revert hruns
  decide

end HomefrontFiber.Payouts
