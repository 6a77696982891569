import HomefrontFiber.Payouts.PayRun

/-!
# One transfer for a statement

A run that posts a transfer has looked for one first. When that lookup was answered and the post
follows within the life of the idempotency key, whatever transfer has been made meanwhile is younger
than the key, so the post is answered with it.
-/

namespace HomefrontFiber.Payouts

open List Option

variable {s : PayState}

/-- The check that a post relies on, when the attempt is about to post. -/
def Phase.postCheck : Phase → Option (Option Nat)
  | .createTransfer _ checkedMs => some checkedMs
  | _ => none

/-- The instant at which the attempt has seen that there is no transfer. -/
def Phase.checked : Phase → Option Nat
  | .createPending none checkedMs => checkedMs
  | .markProcessing _ checkedMs => checkedMs
  | .createTransfer _ checkedMs => checkedMs
  | _ => none

/-- A transfer is posted less than 24 hours after an answered lookup of the same attempt, or while
the statement has no transfer. -/
def CheckedPost (s : PayState) : Action → Prop
  | .advance i reply =>
    ∀ a ∈ s.attempts[i]?, ∀ checkedMs ∈ a.phase.postCheck, reply.delivered = true →
      (∃ c ∈ checkedMs, s.nowMs < c + keyWindowMs) ∨ s.findTransfer a.job.statementId = none
  | _ => True

instance (s : PayState) (a : Action) : Decidable (CheckedPost s a) :=
  match a with
  | .advance i reply =>
    inferInstanceAs (Decidable (∀ a ∈ s.attempts[i]?, ∀ checkedMs ∈ a.phase.postCheck,
      reply.delivered = true → (∃ c ∈ checkedMs, s.nowMs < c + keyWindowMs) ∨ _ = none))
  | .begin _ | .crash _ | .wait _ | .transferReversed _ _ => inferInstanceAs (Decidable True)

def PayState.groupTransfers (s : PayState) (statementId : Nat) : List Transfer :=
  s.transfers.filter (·.statementId = statementId)

def OneTransfer (s : PayState) : Prop := ∀ statementId, (s.groupTransfers statementId).length ≤ 1

/-- Every transfer of the attempt's group is as young as the attempt's check. -/
def YoungerThanCheck (s : PayState) (a : Attempt) : Prop :=
  ∀ c ∈ a.phase.checked, c ≤ s.nowMs ∧
    ∀ t ∈ s.groupTransfers a.job.statementId, c ≤ t.createdMs

structure PostWf (s : PayState) : Prop where
  one : OneTransfer s
  checked : ∀ (i : Nat) (a : Attempt), s.attempts[i]? = some a → YoungerThanCheck s a

theorem postWf_empty : PostWf .empty where
  one _ := Nat.zero_le 1
  checked i a h := by simp [PayState.empty] at h

theorem findTransfer_eq_none_iff {statementId : Nat} :
    s.findTransfer statementId = none ↔ s.groupTransfers statementId = [] :=
  getLast?_eq_none_iff

variable {phase : Phase} {reply : Reply} {i : Nat} {a : Attempt}

theorem perform_transfers (job : PayJob) (reply : Reply)
    (h : phase.postCheck = none ∨ reply.delivered = false) :
    (perform s job reply phase).2.transfers = s.transfers := by
  cases phase with
  | createTransfer rowId checkedMs =>
    rcases h with h | h
    · cases h
    · simp [perform, h]
  | readLedger | ensureSchedule | lookup | done => rfl
  | reset rowId | markProcessing rowId checkedMs | markFailed rowId | markPaid rowId transferId =>
    rfl
  | reconcile rowId | lateLookup rowId =>
    unfold perform
    dsimp only
    split <;> rfl
  | createPending prior checkedMs =>
    have hcreated : (s.createPendingPayout job).2.transfers = s.transfers := by
      unfold PayState.createPendingPayout
      split <;> rfl
    unfold perform
    dsimp only
    split <;> exact hcreated

theorem perform_frame (job : PayJob) (reply : Reply) (phase : Phase) :
    (perform s job reply phase).2.nowMs = s.nowMs ∧
      (perform s job reply phase).2.attempts = s.attempts ∧
      (perform s job reply phase).2.reversals = s.reversals := by
  have hcreated : (s.createPendingPayout job).2.nowMs = s.nowMs ∧
      (s.createPendingPayout job).2.attempts = s.attempts ∧
      (s.createPendingPayout job).2.reversals = s.reversals := by
    unfold PayState.createPendingPayout
    split <;> exact ⟨rfl, rfl, rfl⟩
  have hposted : (s.postTransfer job reply.forgetsKey).2.nowMs = s.nowMs ∧
      (s.postTransfer job reply.forgetsKey).2.attempts = s.attempts ∧
      (s.postTransfer job reply.forgetsKey).2.reversals = s.reversals := by
    unfold PayState.postTransfer
    dsimp only
    split
    · exact ⟨rfl, rfl, rfl⟩
    · split <;> exact ⟨rfl, rfl, rfl⟩
  cases phase with
  | createTransfer rowId checkedMs =>
    simp only [perform]
    split
    · exact hposted
    · exact ⟨rfl, rfl, rfl⟩
  | readLedger | ensureSchedule | lookup | done => exact ⟨rfl, rfl, rfl⟩
  | reset rowId | markProcessing rowId checkedMs | markFailed rowId | markPaid rowId transferId =>
    exact ⟨rfl, rfl, rfl⟩
  | reconcile rowId | lateLookup rowId =>
    unfold perform
    dsimp only
    split <;> exact ⟨rfl, rfl, rfl⟩
  | createPending prior checkedMs =>
    unfold perform
    dsimp only
    split <;> exact hcreated

/-- Where a check comes from: the answered lookup of now, or the check of the statement before. -/
theorem perform_checked {job : PayJob} {c : Nat}
    (h : (perform s job reply phase).1.checked = some c) :
    phase.checked = some c ∨ c = s.nowMs ∧ s.findTransfer job.statementId = none := by
  cases phase with
  | lookup =>
    unfold perform lookupResult at h
    cases hanswered : reply.answered
    · simp [hanswered, Phase.checked] at h
    · cases hfound : s.findTransfer job.statementId with
      | none =>
        simp only [hanswered, hfound, if_true, map_none, Phase.checked,
          Option.some.injEq] at h
        exact .inr ⟨h.symm, rfl⟩
      | some t => simp [hanswered, hfound, Phase.checked] at h
  | createPending prior checkedMs =>
    unfold perform at h
    cases prior with
    | none => exact .inl h
    | some transferId => simp [Phase.checked] at h
  | markProcessing rowId checkedMs => exact .inl h
  | readLedger =>
    exfalso
    unfold perform readLedger freshPhase at h
    revert h
    dsimp only
    split
    · split <;> simp [Phase.checked]
    · split
      · simp [Phase.checked]
      · split <;> simp [Phase.checked]
  | reset rowId =>
    exfalso
    unfold perform freshPhase at h
    revert h
    dsimp only
    split <;> simp [Phase.checked]
  | ensureSchedule =>
    exfalso
    unfold perform at h
    revert h
    dsimp only
    split <;> simp [Phase.checked]
  | createTransfer rowId checkedMs =>
    exfalso
    simp only [perform] at h
    revert h
    split
    · dsimp only
      split <;> simp [Phase.checked]
    · simp [Phase.checked]
  | reconcile rowId | lateLookup rowId =>
    exfalso
    unfold perform at h
    revert h
    dsimp only
    split <;> simp [Phase.checked]
  | markFailed rowId | markPaid rowId transferId | done => cases h

/-- A transfer is made by a delivered post, when the group has none or its key has expired. -/
theorem perform_posts (job : PayJob) (reply : Reply) (phase : Phase) :
    (perform s job reply phase).2.transfers = s.transfers ∨
      ∃ checkedMs ∈ phase.postCheck, reply.delivered = true ∧
        (∀ t ∈ s.findTransfer job.statementId, t.createdMs + keyWindowMs ≤ s.nowMs) ∧
        ∃ new : Transfer, new.statementId = job.statementId ∧ new.createdMs = s.nowMs ∧
          (perform s job reply phase).2.transfers = s.transfers ++ [new] := by
  cases hdelivered : reply.delivered with
  | false => exact .inl (perform_transfers job reply (.inr hdelivered))
  | true =>
    cases phase with
    | createTransfer rowId checkedMs =>
      have hphase : (perform s job reply (.createTransfer rowId checkedMs)).2 =
          (s.postTransfer job reply.forgetsKey).2 := by
        simp only [perform]
        rw [if_pos hdelivered]
      rw [hphase]
      unfold PayState.postTransfer
      dsimp only
      cases hfound : s.findTransfer job.statementId with
      | none =>
        refine .inr ⟨checkedMs, rfl, rfl, ?_, _, rfl, rfl, rfl⟩
        exact fun t ht => absurd ht (not_mem_none t)
      | some t =>
        dsimp only
        split
        · exact .inl rfl
        · rename_i hexpired
          refine .inr ⟨checkedMs, rfl, rfl, ?_, _, rfl, rfl, rfl⟩
          rintro t' ⟨⟩
          simp only [Bool.or_eq_true, decide_eq_true_eq, not_or, not_lt] at hexpired
          exact hexpired.1
    | _ => exact .inl (perform_transfers job reply (.inl rfl))

theorem groupTransfers_snoc {s' : PayState} {new : Transfer}
    (h : s'.transfers = s.transfers ++ [new]) (statementId : Nat) :
    s'.groupTransfers statementId =
      s.groupTransfers statementId ++ if new.statementId = statementId then [new] else [] := by
  unfold PayState.groupTransfers
  rw [h, filter_append]
  by_cases hst : new.statementId = statementId
  · rw [if_pos hst, filter_cons_of_pos (by simpa using hst), filter_nil]
  · rw [if_neg hst, filter_cons_of_neg (by simpa using hst), filter_nil]

theorem PostWf.post_first (h : PostWf s)
    (ha : s.attempts[i]? = some a) (hchecked : CheckedPost s (.advance i reply))
    {checkedMs : Option Nat} (hpost : checkedMs ∈ a.phase.postCheck)
    (hdelivered : reply.delivered = true)
    (hexpired : ∀ t ∈ s.findTransfer a.job.statementId, t.createdMs + keyWindowMs ≤ s.nowMs) :
    s.groupTransfers a.job.statementId = [] := by
  rcases hchecked a ha checkedMs hpost hdelivered with ⟨c, hc, hlive⟩ | hnone
  · by_contra hsome
    obtain ⟨t, ht⟩ := ne_none_iff_exists'.mp fun hn =>
      hsome (findTransfer_eq_none_iff.mp hn)
    have hphase : a.phase.checked = some c := by
      cases hp : a.phase with
      | createTransfer rowId checked =>
        rw [hp] at hpost
        obtain rfl : checked = checkedMs := some.inj hpost
        exact hc
      | _ => rw [hp] at hpost; cases hpost
    have hyoung := (h.checked i a ha c hphase).2 t (mem_of_getLast? ht)
    have hold := hexpired t ht
    omega
  · exact findTransfer_eq_none_iff.mp hnone

theorem getElem?_setPhase {j : Nat} (h : (s.setPhase i phase).attempts[j]? = some a) :
    ∃ b, s.attempts[j]? = some b ∧ a.job = b.job ∧
      (a = b ∨ i = j ∧ a.phase = phase) := by
  unfold PayState.setPhase at h
  dsimp only at h
  rw [getElem?_modify] at h
  obtain ⟨b, hb, rfl⟩ := map_eq_some_iff.mp h
  refine ⟨b, hb, ?_⟩
  split
  · exact ⟨rfl, .inr ⟨‹_›, rfl⟩⟩
  · exact ⟨rfl, .inl rfl⟩

theorem PostWf.advance (h : PostWf s)
    (hchecked : CheckedPost s (.advance i reply)) : PostWf (step s (.advance i reply)) := by
  cases ha : s.attempts[i]? with
  | none =>
    simp only [step, ha]
    exact h
  | some a =>
    rw [step_advance ha]
    obtain ⟨hnow, hattempts, -⟩ := perform_frame (s := s) a.job reply a.phase
    have hposts := perform_posts (s := s) a.job reply a.phase
    constructor
    · intro statementId
      change ((perform s a.job reply a.phase).2.groupTransfers statementId).length ≤ 1
      rcases hposts with hsame | ⟨checkedMs, hpost, hdelivered, hexpired, new, hst, -, hnew⟩
      · unfold PayState.groupTransfers
        rw [hsame]
        exact h.one statementId
      · rw [groupTransfers_snoc hnew]
        by_cases hgroup : new.statementId = statementId
        · have hfirst := h.post_first ha hchecked hpost hdelivered hexpired
          rw [← hst, hgroup] at hfirst
          rw [if_pos hgroup, hfirst]
          exact Nat.le_refl 1
        · rw [if_neg hgroup, append_nil]
          exact h.one statementId
    · intro j b hb c hc
      change c ≤ (perform s a.job reply a.phase).2.nowMs ∧
        ∀ t ∈ (perform s a.job reply a.phase).2.groupTransfers b.job.statementId, c ≤ t.createdMs
      obtain ⟨old, hold, hjob, hphase⟩ := getElem?_setPhase hb
      rw [hattempts] at hold
      -- the check is an earlier one of the attempt, or the lookup that was answered now
      have hseen : c ≤ s.nowMs ∧ ∀ t ∈ s.groupTransfers old.job.statementId, c ≤ t.createdMs := by
        rcases hphase with rfl | ⟨rfl, hphase⟩
        · exact h.checked j b hold c hc
        · obtain rfl : a = old := some.inj (ha.symm.trans hold)
          rw [hphase] at hc
          rcases perform_checked hc with hearlier | ⟨rfl, hnone⟩
          · exact h.checked i a ha c hearlier
          · rw [findTransfer_eq_none_iff.mp hnone]
            exact ⟨Nat.le_refl _, fun t ht => absurd ht not_mem_nil⟩
      rw [hnow, hjob]
      refine ⟨hseen.1, fun t ht => ?_⟩
      rcases hposts with hsame | ⟨-, -, -, -, new, -, hcreated, hnew⟩
      · unfold PayState.groupTransfers at ht
        rw [hsame] at ht
        exact hseen.2 t ht
      · rw [groupTransfers_snoc hnew] at ht
        rcases mem_append.mp ht with ht | ht
        · exact hseen.2 t ht
        · split at ht
          · rw [mem_singleton.mp ht, hcreated]
            exact hseen.1
          · cases ht

theorem PostWf.step (h : PostWf s) {a : Action} (hchecked : CheckedPost s a) :
    PostWf (step s a) := by
  cases a with
  | advance i reply => exact h.advance hchecked
  | begin job =>
    refine ⟨h.one, fun i a ha => ?_⟩
    change (s.attempts ++ [{ job, phase := .readLedger }])[i]? = some a at ha
    rcases mem_append.mp (mem_of_getElem? ha) with hmem | hmem
    · obtain ⟨j, hj⟩ := mem_iff_getElem?.mp hmem
      exact h.checked j a hj
    · rw [mem_singleton.mp hmem]
      intro c hc
      cases hc
  | crash i =>
    refine ⟨h.one, fun j a ha => ?_⟩
    obtain ⟨b, hb, hjob, rfl | ⟨-, hphase⟩⟩ := getElem?_setPhase ha
    · exact h.checked j a hb
    · intro c hc
      rw [hphase] at hc
      cases hc
  | wait ms =>
    refine ⟨h.one, fun i a ha c hc => ?_⟩
    obtain ⟨hle, hyoung⟩ := h.checked i a ha c hc
    exact ⟨hle.trans (Nat.le_add_right _ ms), hyoung⟩
  | transferReversed eventId transferId =>
    unfold Payouts.step processConnectWebhook
    dsimp only
    split
    · exact h
    · exact ⟨h.one, h.checked⟩

/-- Along runs of checked posts every statement has one transfer at most. -/
theorem oneTransfer_run {actions : List Action} (h : Along step CheckedPost .empty actions) :
    OneTransfer (run step .empty actions) := by
  have hstep : ∀ s a, PostWf s → CheckedPost s a → PostWf (step s a) :=
    fun _ _ hwf hchecked => hwf.step hchecked
  exact (run_invariant hstep postWf_empty h).one

def sampleJob : PayJob where
  repId := 3
  statementId := 7
  statementStatus := .finalized
  finalCommissionCents := 50000
  onboardingStatus := .enabled
  stripeAccountId := some "acct_3"

def answeredCall : Reply := ⟨true, true, true⟩

def failedCall : Reply := ⟨false, false, true⟩

/-- The response of the first run's transfer is lost with its process. -/
def lostResponse : List Action :=
  [.begin sampleJob, .advance 0 answeredCall, .advance 0 answeredCall, .advance 0 answeredCall,
    .advance 0 answeredCall, .advance 0 answeredCall, .advance 0 ⟨true, false, true⟩, .crash 0]

/-- The next run reconciles the row by its lookups, and posts. -/
def retry (firstLookup secondLookup : Reply) : List Action :=
  [.begin sampleJob, .advance 1 answeredCall, .advance 1 firstLookup, .advance 1 answeredCall,
    .advance 1 answeredCall, .advance 1 secondLookup, .advance 1 answeredCall,
    .advance 1 answeredCall, .advance 1 answeredCall, .advance 1 answeredCall]

theorem not_oneTransfer_failedLookups :
    ¬ ∀ actions : List Action, OneTransfer (run step .empty actions) := by
  intro h
  have hone := h (lostResponse ++ [.wait (25 * 60 * 60 * 1000)] ++ retry failedCall failedCall) 7
  revert hone
  decide

/-- A day later the transfer is adopted when the second lookup is answered. -/
theorem oneTransfer_run_adopted :
    OneTransfer (run step .empty
      (lostResponse ++ [.wait (25 * 60 * 60 * 1000)] ++ retry failedCall answeredCall)) :=
  oneTransfer_run (by decide)

end HomefrontFiber.Payouts
