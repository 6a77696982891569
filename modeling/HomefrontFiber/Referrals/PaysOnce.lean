import Mathlib.Data.List.Induction
import HomefrontFiber.Referrals.Approvable

/-!
# What the referral program pays

A run of the program from an empty store. The ledger holds at most one reward for a referral,
whose approval found it pending and qualified. The instant of a hire stays and a cancellation
leaves no pending referral below its bar exactly as long as nobody hires a hired referral again
and the referrals below the bar are among the newest that a cancellation lists.
-/

namespace HomefrontFiber.Referrals

open Earnings Option List

variable {w : World} {tenantId id : Nat}

def hiredAt (w : World) (tenantId id : Nat) : Option Int :=
  (getReferral w tenantId id).bind (·.hiredAt)

def HiredKept (w v : World) : Prop :=
  ∀ tenantId id, ∀ hired ∈ hiredAt w tenantId id, hiredAt v tenantId id = some hired

def rewardsOf (w : World) (tenantId id : Nat) : List EarningsLedgerRow :=
  w.ledger.filter fun row => row.tenantId = tenantId ∧ row.sourceType = .referral ∧
    row.sourceId = id

/-- An approval of the run found the referral pending its reward and qualified. -/
def ApprovedWhileQualified (w : World) (as : List Action) (tenantId id : Nat) : Prop :=
  ∃ before input after, as = before ++ .approveReward input :: after ∧
    input.tenantId = tenantId ∧ input.referralId = id ∧
    ∃ r, getReferral (run step w before) tenantId id = some r ∧ r.status = .rewardPending ∧
      (qualificationOf (run step w before).surroundings r input.nowMs).result.qualified = true

/-- The referral has a frozen configuration and as many sales as it requires. -/
def MeetsBar (s : Surroundings) (r : Referral) : Prop :=
  ∃ config, r.configSnapshot = some config ∧ config.requiredApprovedSales ≤ salesOf s r

def NoneShort (w : World) (tenantId : Nat) : Prop :=
  ∀ id, ∀ r ∈ getReferral w tenantId id, r.status = .rewardPending → MeetsBar w.surroundings r

def AfterCancellation (w : World) : Action → Prop
  | .saleCancelled tenantId nowMs => NoneShort (step w (.saleCancelled tenantId nowMs)) tenantId
  | _ => True

structure PaysOnce (s : Surroundings) (as : List Action) : Prop where
  hired_once : (World.empty s :: trace step (.empty s) as).Pairwise HiredKept
  one_reward : ∀ tenantId id, (rewardsOf (run step (.empty s) as) tenantId id).length ≤ 1
  earned : ∀ tenantId id, rewardsOf (run step (.empty s) as) tenantId id ≠ [] →
    ApprovedWhileQualified (.empty s) as tenantId id
  none_short : Along step AfterCancellation (.empty s) as

/-- A referral that is hired already is hired again at its instant or not at all. -/
def HiresOnce (w : World) : Action → Prop
  | .markHired input => ∀ r ∈ getReferral w input.tenantId input.referralId, r.status = .hired →
      userTaken w input.tenantId input.referralId input.referredUserId = false →
        ∀ hired ∈ r.hiredAt, hired = input.nowMs
  | _ => True

/-- A cancellation lists every pending referral that is below its bar. -/
def ShortListed (w : World) : Action → Prop
  | .saleCancelled tenantId _ => ∀ id, ∀ r ∈ getReferral w tenantId id,
      r.status = .rewardPending → ¬MeetsBar w.surroundings r →
        Listed (listReferrals w tenantId 200) id
  | _ => True

structure RowOk (r : Referral) : Prop where
  unhired : r.status = .clicked ∨ r.status = .applicationStarted ∨ r.status = .applied →
    r.hiredAt = none
  pending : r.status = .rewardPending → r.qualifiedAt.isSome ∧ r.configSnapshot.isSome

theorem RowOk.of_status {r : Referral} (hearly : r.status ≠ .clicked ∧
    r.status ≠ .applicationStarted ∧ r.status ≠ .applied) (hpending : r.status ≠ .rewardPending) :
    RowOk r := by
  refine ⟨fun h => ?_, fun h => absurd h hpending⟩
  tauto

section Row

variable {a : Action} {r r' : Referral}

theorem rechecked_cases (snapshot : Qualification) (nowMs : Int) (r : Referral) :
    (rechecked snapshot nowMs r).hiredAt = r.hiredAt ∧
      (((rechecked snapshot nowMs r).status = .rewardPending ∧
          (rechecked snapshot nowMs r).qualifiedAt.isSome ∧
          (rechecked snapshot nowMs r).configSnapshot.isSome) ∨
        (rechecked snapshot nowMs r).status = .inProgress ∨
        ((rechecked snapshot nowMs r).status = r.status ∧
          (rechecked snapshot nowMs r).qualifiedAt = r.qualifiedAt ∧
          (rechecked snapshot nowMs r).configSnapshot = r.configSnapshot)) := by
  unfold rechecked
  dsimp only
  split_ifs
  · exact ⟨rfl, .inl ⟨rfl, rfl, rfl⟩⟩
  · exact ⟨rfl, .inl ⟨rfl, rfl, rfl⟩⟩
  · exact ⟨rfl, .inr (.inl rfl)⟩
  · exact ⟨rfl, .inr (.inr ⟨rfl, rfl, rfl⟩)⟩

/-- A recheck after a cancellation takes the qualification of a pending row back or changes no
column that a judgement reads. -/
theorem cancelled_cases (s : Surroundings) (nowMs : Int) (r : Referral) :
    (cancelled s nowMs r).hiredAt = r.hiredAt ∧
      ((cancelled s nowMs r).status = .inProgress ∨
        ((cancelled s nowMs r).status = r.status ∧
          (cancelled s nowMs r).qualifiedAt = r.qualifiedAt ∧
          (cancelled s nowMs r).configSnapshot = r.configSnapshot)) := by
  unfold cancelled afterCancellation
  split_ifs
  · exact ⟨rfl, .inl rfl⟩
  · exact ⟨rfl, .inr ⟨rfl, rfl, rfl⟩⟩

theorem RowOk.congr (h : RowOk r) (hhired : r'.hiredAt = r.hiredAt)
    (hstatus : r'.status = r.status) (hqualified : r'.qualifiedAt = r.qualifiedAt)
    (hconfig : r'.configSnapshot = r.configSnapshot) : RowOk r' := by
  constructor
  · rw [hstatus, hhired]
    exact h.unhired
  · rw [hstatus, hqualified, hconfig]
    exact h.pending

theorem Change.rowOk (hchange : Change w a r r') (h : RowOk r) : RowOk r' := by
  cases hchange with
  | kept => exact h
  | hired input => exact RowOk.of_status (by simp [hiredRow]) (by simp [hiredRow])
  | activated _ _ nowMs => exact RowOk.of_status (by simp [activatedRow]) (by simp [activatedRow])
  | rechecked _ nowMs =>
    obtain ⟨hhired, hpending | hprogress | ⟨hstatus, hqualified, hconfig⟩⟩ :=
      rechecked_cases (qualificationOf w.surroundings r nowMs) nowMs r
    · refine ⟨fun hearly => ?_, fun _ => hpending.2⟩
      rw [hpending.1] at hearly
      simp at hearly
    · exact RowOk.of_status (by simp [hprogress]) (by simp [hprogress])
    · exact h.congr hhired hstatus hqualified hconfig
  | cancelled _ nowMs =>
    obtain ⟨hhired, hprogress | ⟨hstatus, hqualified, hconfig⟩⟩ :=
      cancelled_cases w.surroundings nowMs r
    · exact RowOk.of_status (by simp [hprogress]) (by simp [hprogress])
    · exact h.congr hhired hstatus hqualified hconfig
  | approved input => exact RowOk.of_status (by simp [approvedRow]) (by simp [approvedRow])
  | rejected => exact RowOk.of_status (by simp [rejectedRow]) (by simp [rejectedRow])
  | paid _ _ nowMs => exact RowOk.of_status (by simp [paidRow]) (by simp [paidRow])
  | rereferred input referrer => exact h.congr rfl rfl rfl rfl

theorem Change.approved_status (hchange : Change w a r r') (h : r'.status = .approved) :
    r.status = .approved ∨ ∃ input, a = .approveReward input ∧ r.tenantId = input.tenantId ∧
      r.id = input.referralId := by
  cases hchange with
  | kept => exact .inl h
  | approved input _ htarget _ _ => exact .inr ⟨input, rfl, htarget⟩
  | rechecked _ nowMs =>
    obtain ⟨-, hpending | hprogress | hsame⟩ :=
      rechecked_cases (qualificationOf w.surroundings r nowMs) nowMs r
    · cases hpending.1.symm.trans h
    · cases hprogress.symm.trans h
    · exact .inl (hsame.1.symm.trans h)
  | cancelled _ nowMs =>
    obtain ⟨-, hprogress | hsame⟩ := cancelled_cases w.surroundings nowMs r
    · cases hprogress.symm.trans h
    · exact .inl (hsame.1.symm.trans h)
  | rereferred input referrer => exact .inl h
  | hired | activated | rejected | paid => cases h

theorem Change.hiredAt (hchange : Change w a r r') :
    r'.hiredAt = r.hiredAt ∨ ∃ input, a = .markHired input ∧ r.tenantId = input.tenantId ∧
      r.id = input.referralId ∧ canReferralTransition r.status .hired = true ∧
      userTaken w input.tenantId input.referralId input.referredUserId = false ∧
      r'.hiredAt = some input.nowMs := by
  cases hchange with
  | hired input _ htarget hcan hfree =>
    exact .inr ⟨input, rfl, htarget.1, htarget.2, hcan, hfree, rfl⟩
  | rechecked _ nowMs => exact .inl (rechecked_cases _ nowMs r).1
  | cancelled _ nowMs => exact .inl (cancelled_cases _ nowMs r).1
  | kept | activated | approved | rejected | paid | rereferred => exact .inl rfl

end Row

theorem step_row_cases (hn : Numbered (·.id) w.referrals) (a : Action) {r' : Referral}
    (hfind : getReferral (step w a) tenantId id = some r') :
    (∃ r, getReferral w tenantId id = some r ∧ Change w a r r') ∨
      (getReferral w tenantId id = none ∧ r'.status = .applied ∧ r'.hiredAt = none) := by
  cases hbefore : getReferral w tenantId id with
  | none => exact .inr ⟨rfl, step_row_new hn a hbefore hfind⟩
  | some r =>
    obtain ⟨r'', hfind'', hchange⟩ := step_row hn a hbefore
    obtain rfl := some_inj.mp (hfind.symm.trans hfind'')
    exact .inl ⟨r, rfl, hchange⟩

theorem recheckQualification_ledger (w : World) (tenantId id : Nat) (nowMs : Int) :
    (recheckQualification w tenantId id nowMs).ledger = w.ledger := by
  unfold recheckQualification
  split
  · rfl
  · dsimp only
    split <;> rfl

theorem step_ledger (hn : Numbered (·.id) w.referrals) (a : Action) :
    (step w a).ledger = w.ledger ∨ ∃ input r, a = .approveReward input ∧
      getReferral w input.tenantId input.referralId = some r ∧
      canReferralTransition r.status .approved = true ∧
      (qualificationOf w.surroundings r input.nowMs).result.qualified = true ∧
      (step w a).ledger = upsert (rewardInput r input.nowMs) w.ledger := by
  cases hperform : perform w a with
  | error e =>
    left
    unfold step
    rw [hperform]
  | ok w' =>
    rw [step_ok hperform]
    cases a with
    | approveReward input =>
      obtain ⟨r, hfind, hcan, hqualified, -, -, hledger⟩ := approveReward_ok hperform
      exact .inr ⟨input, r, rfl, hfind, hcan, hqualified, hledger⟩
    | saleCancelled tenantId nowMs =>
      obtain ⟨w'', hok, -, hledger⟩ := saleCancelled_rewritten hn tenantId nowMs
      obtain rfl := Except.ok.inj (hperform.symm.trans hok)
      exact .inl hledger
    | recheckQualification tenantId id nowMs =>
      cases hperform
      exact .inl (recheckQualification_ledger w tenantId id nowMs)
    | saleApproved tenantId repId nowMs =>
      cases hperform
      left
      unfold saleApproved
      split
      · rfl
      · exact recheckQualification_ledger w tenantId _ nowMs
    | surroundings s =>
      cases hperform
      exact .inl rfl
    | _ =>
      left
      simp only [perform, attributeApplication, markHired, markActivated,
        recheckAfterCancellation, rejectReferral, changeReferrer, markPaid] at hperform
      repeat' split at hperform
      all_goals first
        | (cases hperform; rfl)
        | cases hperform

def HasReward (w : World) (tenantId id : Nat) : Prop :=
  ∃ row ∈ w.ledger, row.tenantId = tenantId ∧
    row.idempotencyKey = ledgerKey .referral id .referralBonus

structure WorldOk (w : World) : Prop where
  numbered : Numbered (·.id) w.referrals
  rows : ∀ tenantId id r, getReferral w tenantId id = some r → RowOk r
  rewarded : ∀ tenantId id r, getReferral w tenantId id = some r → r.status = .approved →
    HasReward w tenantId id
  keyed : ∀ row ∈ w.ledger, row.idempotencyKey = ledgerKey .referral row.sourceId .referralBonus
  unique : (w.ledger.map EarningsLedgerRow.key).Nodup

theorem worldOk_empty (s : Surroundings) : WorldOk (.empty s) where
  numbered := Numbered.nil
  rows := by
    intro _ _ _ hfind
    cases hfind
  rewarded := by
    intro _ _ _ hfind
    cases hfind
  keyed := fun _ hrow => absurd hrow not_mem_nil
  unique := nodup_nil

/-- A row of the ledger after a step was there before or is the reward of a pending referral. -/
theorem WorldOk.mem_ledger (h : WorldOk w) {a : Action} {row : EarningsLedgerRow}
    (hrow : row ∈ (step w a).ledger) :
    (∃ old ∈ w.ledger, row.tenantId = old.tenantId ∧ row.sourceId = old.sourceId ∧
        row.idempotencyKey = old.idempotencyKey) ∨
      (row.idempotencyKey = ledgerKey .referral row.sourceId .referralBonus ∧
        ∃ input r, a = .approveReward input ∧ input.tenantId = row.tenantId ∧
          input.referralId = row.sourceId ∧
          getReferral w input.tenantId input.referralId = some r ∧ r.status = .rewardPending ∧
          (qualificationOf w.surroundings r input.nowMs).result.qualified = true) := by
  rcases step_ledger h.numbered a with heq | ⟨input, r, rfl, hfind, hcan, hqualified, heq⟩
  · left
    exact ⟨row, heq ▸ hrow, rfl, rfl, rfl⟩
  · obtain ⟨-, htenant, hid⟩ := getReferral_mem hfind
    rw [heq] at hrow
    rcases mem_upsert hrow with ⟨old, hold, rfl⟩ | ⟨rfl, hfree⟩
    · left
      exact ⟨old, hold, RecordInput.rewrite_tenantId _ old, RecordInput.rewrite_sourceId _ old,
        RecordInput.rewrite_key _ old⟩
    · right
      refine ⟨rfl, input, r, rfl, htenant.symm, hid.symm, hfind, ?_, hqualified⟩
      have hsource : r.status = .approved ∨ r.status = .rewardPending := by
        cases hstatus : r.status <;> rw [hstatus] at hcan <;> revert hcan <;> decide
      rcases hsource with happroved | hpending
      · obtain ⟨old, hold, hkey⟩ := h.rewarded _ _ r hfind happroved
        have hhits : (rewardInput r input.nowMs).Hits old := by
          refine ⟨hkey.1.trans htenant.symm, hkey.2.trans ?_⟩
          rw [← hid]
          rfl
        exact absurd hhits (hfree old hold)
      · exact hpending

theorem HasReward.step (hn : Numbered (·.id) w.referrals) (h : HasReward w tenantId id)
    (a : Action) : HasReward (step w a) tenantId id := by
  obtain ⟨row, hrow, htenant, hkey⟩ := h
  rcases step_ledger hn a with heq | ⟨input, r, -, -, -, -, heq⟩
  · exact ⟨row, heq ▸ hrow, htenant, hkey⟩
  · obtain ⟨row', hrow', htenant', hkey'⟩ := upsert_keeps hrow
    exact ⟨row', heq ▸ hrow', htenant'.trans htenant, hkey'.trans hkey⟩

theorem WorldOk.rewarded_approveReward (h : WorldOk w) {input : ApprovalInput} {r r' : Referral}
    (hfind : getReferral w r.tenantId r.id = some r)
    (htarget : r.tenantId = input.tenantId ∧ r.id = input.referralId)
    (hfind' : getReferral (Referrals.step w (.approveReward input)) r.tenantId r.id = some r')
    (happroved : r'.status = .approved) :
    HasReward (Referrals.step w (.approveReward input)) r.tenantId r.id := by
  cases hperform : perform w (.approveReward input) with
  | error e =>
    have hstep : Referrals.step w (.approveReward input) = w := by
      unfold Referrals.step
      rw [hperform]
    rw [hstep] at hfind' ⊢
    exact h.rewarded r.tenantId r.id r' hfind' happroved
  | ok w' =>
    rw [step_ok hperform]
    obtain ⟨r'', hfind'', -, -, -, -, hledger⟩ := approveReward_ok hperform
    rw [← htarget.1, ← htarget.2, hfind] at hfind''
    obtain rfl := some_inj.mp hfind''
    obtain ⟨row, hrow, hhits⟩ := exists_upsert (rewardInput r input.nowMs) w.ledger
    exact ⟨row, hledger ▸ hrow, hhits⟩

theorem WorldOk.step (h : WorldOk w) (a : Action) : WorldOk (step w a) where
  numbered := numbered_step h.numbered a
  rows := by
    intro tenantId id r' hfind'
    rcases step_row_cases h.numbered a hfind' with ⟨r, hfind, hchange⟩ | ⟨-, hstatus, hhired⟩
    · exact hchange.rowOk (h.rows tenantId id r hfind)
    · refine ⟨fun _ => hhired, fun hpending => ?_⟩
      cases hstatus.symm.trans hpending
  rewarded := by
    intro tenantId id r' hfind' happroved'
    rcases step_row_cases h.numbered a hfind' with ⟨r, hfind, hchange⟩ | ⟨-, hstatus, -⟩
    · rcases hchange.approved_status happroved' with happroved | ⟨input, rfl, htarget⟩
      · exact (h.rewarded tenantId id r hfind happroved).step h.numbered a
      · obtain ⟨-, rfl, rfl⟩ := getReferral_mem hfind
        exact h.rewarded_approveReward hfind htarget hfind' happroved'
    · cases hstatus.symm.trans happroved'
  keyed := by
    intro row hrow
    rcases h.mem_ledger hrow with ⟨old, hold, -, hsource, hkey⟩ | ⟨hkey, -⟩
    · rw [hkey, hsource]
      exact h.keyed old hold
    · exact hkey
  unique := by
    rcases step_ledger h.numbered a with heq | ⟨input, r, -, -, -, -, heq⟩
    · exact heq ▸ h.unique
    · exact heq ▸ nodup_upsert h.unique

theorem worldOk_run (s : Surroundings) (as : List Action) : WorldOk (run step (.empty s) as) :=
  run_invariant_all (I := WorldOk) (fun _ a h => h.step a) as (worldOk_empty s)

/-- An approved referral has its reward on the ledger, under a key that no other row has. -/
theorem approved_rewarded (s : Surroundings) (as : List Action) :
    let w := run step (.empty s) as
    (w.ledger.map EarningsLedgerRow.key).Nodup ∧
      ∀ tenantId id, ∀ r ∈ getReferral w tenantId id, r.status = .approved →
        HasReward w tenantId id :=
  have h := worldOk_run s as
  ⟨h.unique, h.rewarded⟩

theorem WorldOk.one_reward (h : WorldOk w) (tenantId id : Nat) :
    (rewardsOf w tenantId id).length ≤ 1 := by
  have hkey : ∀ row ∈ rewardsOf w tenantId id,
      row.key = (tenantId, ledgerKey .referral id .referralBonus) := by
    intro row hrow
    obtain ⟨hmem, hcols⟩ := mem_filter.mp hrow
    obtain ⟨rfl, -, rfl⟩ := of_decide_eq_true hcols
    exact Prod.ext rfl (h.keyed row hmem)
  have hnodup : ((rewardsOf w tenantId id).map EarningsLedgerRow.key).Nodup :=
    h.unique.sublist (filter_sublist.map _)
  rw [map_eq_replicate_iff.mpr hkey, nodup_replicate] at hnodup
  exact hnodup

theorem approvedWhileQualified_of_mem (s : Surroundings) (as : List Action) :
    ∀ row ∈ (run step (.empty s) as).ledger,
      ApprovedWhileQualified (.empty s) as row.tenantId row.sourceId := by
  induction as using List.reverseRecOn with
  | nil => exact fun row hrow => absurd hrow not_mem_nil
  | append_singleton as a ih =>
    intro row hrow
    rw [run_append, run_cons, run_nil] at hrow
    rcases (worldOk_run s as).mem_ledger hrow with
      ⟨old, hold, htenant, hsource, -⟩ | ⟨-, input, r, rfl, htenant, hid, hfind, hnow⟩
    · obtain ⟨before, input, after, rfl, happroved⟩ := ih old hold
      rw [htenant, hsource]
      exact ⟨before, input, after ++ [a], by simp, happroved⟩
    · refine ⟨as, input, [], rfl, htenant, hid, r, ?_, hnow⟩
      rw [← htenant, ← hid]
      exact hfind

theorem hiredKept_trans {v u : World} (h : HiredKept w v) (h' : HiredKept v u) : HiredKept w u :=
  fun tenantId id hired hhired => h' tenantId id hired (h tenantId id hired hhired)

theorem getReferral_markHired {input : HireInput} {r : Referral}
    (hfind : getReferral w input.tenantId input.referralId = some r)
    (hcan : canReferralTransition r.status .hired = true)
    (hfree : userTaken w input.tenantId input.referralId input.referredUserId = false) :
    getReferral (step w (.markHired input)) input.tenantId input.referralId =
      some (hiredRow input r) := by
  have hok : perform w (.markHired input) = .ok ((w.setReferral input.tenantId input.referralId
      (hiredRow input)).recordEvent input.tenantId input.referralId .hired input.nowMs) := by
    unfold perform markHired transitioning
    dsimp only
    rw [hfind]
    dsimp only
    rw [if_pos hcan]
    rw [if_neg (by simp [hfree])]
  have hset := @getReferral_setReferral w input.tenantId input.referralId (hiredRow input)
    (fun _ => rfl) (fun _ => rfl)
  rw [step_ok hok, getReferral_recordEvent, hset, hfind, map_some, if_pos ⟨rfl, rfl⟩]

theorem WorldOk.hiredKept_iff (h : WorldOk w) (a : Action) :
    HiredKept w (Referrals.step w a) ↔ HiresOnce w a := by
  constructor
  · intro hkept
    cases a with
    | markHired input =>
      intro r hfind hstatus hfree hired hhired
      have hbefore : hiredAt w input.tenantId input.referralId = some hired := by
        unfold hiredAt
        rw [hfind]
        exact hhired
      have hcan : canReferralTransition r.status .hired = true := by
        rw [hstatus]
        decide
      have hafter := hkept input.tenantId input.referralId hired hbefore
      unfold hiredAt at hafter
      rw [getReferral_markHired hfind hcan hfree] at hafter
      exact (some_inj.mp hafter).symm
    | _ => trivial
  · intro honce tenantId id hired hhired
    obtain ⟨r, hfind, hr⟩ := bind_eq_some_iff.mp hhired
    obtain ⟨r', hfind', hchange⟩ := step_row h.numbered a hfind
    have hrow : r'.hiredAt = some hired := by
      rcases hchange.hiredAt with hsame | ⟨input, rfl, htenant, hid, hcan, hfree, hnow⟩
      · exact hsame.trans hr
      · obtain ⟨-, rfl, rfl⟩ := getReferral_mem hfind
        have hsource : r.status = .hired ∨ r.status = .applied := by
          cases hstatus : r.status <;> rw [hstatus] at hcan <;> revert hcan <;> decide
        rcases hsource with hstatus | hstatus
        · rw [htenant, hid] at hfind
          rw [hnow, honce r hfind hstatus hfree hired hr]
        · have hunhired := (h.rows _ _ r hfind).unhired (.inr (.inr hstatus))
          cases hunhired.symm.trans hr
    unfold hiredAt
    rw [hfind']
    exact hrow

theorem RowOk.cancelled_meetsBar {r : Referral} (h : RowOk r) {s : Surroundings} {nowMs : Int}
    (hpending : (cancelled s nowMs r).status = .rewardPending) :
    MeetsBar s (cancelled s nowMs r) := by
  unfold cancelled afterCancellation at hpending ⊢
  dsimp only at hpending ⊢
  split_ifs at hpending ⊢ with hdropped
  obtain ⟨hqualifiedAt, hconfig⟩ := h.pending hpending
  obtain ⟨config, hconfig⟩ := isSome_iff_exists.mp hconfig
  have hqualified : (qualificationOf s r nowMs).result.qualified = true := by
    by_contra hnot
    exact hdropped ⟨hnot, hqualifiedAt, hpending⟩
  have hfor : configFor s r = config := by
    unfold configFor
    rw [hconfig]
    rfl
  unfold qualificationOf at hqualified
  dsimp only at hqualified
  rw [Referrals.qualified_iff, hfor] at hqualified
  obtain ⟨-, -, -, -, hsales, -⟩ := hqualified
  refine ⟨config, hconfig, ?_⟩
  have hcount : (factsOf s r).approvedSalesCount = salesOf s r := rfl
  have hmet : config.requiredApprovedSales ≤ salesOf s r := by omega
  exact hmet

theorem WorldOk.afterCancellation_iff (h : WorldOk w) (a : Action) :
    AfterCancellation w a ↔ ShortListed w a := by
  cases a with
  | saleCancelled tenantId nowMs =>
    obtain ⟨w', hok, hwritten, -⟩ := saleCancelled_rewritten h.numbered tenantId nowMs
    have hstep : Referrals.step w (.saleCancelled tenantId nowMs) = w' :=
      step_ok (a := .saleCancelled tenantId nowMs) hok
    unfold AfterCancellation ShortListed NoneShort
    dsimp only
    rw [hstep, hwritten.surroundings]
    constructor
    · intro hnone id r hfind hpending hshort
      by_contra hunlisted
      have hsame := hwritten.others tenantId id (.inr hunlisted)
      exact hshort (hnone id r (hsame.trans hfind) hpending)
    · intro hlisted id r' hfind' hpending'
      by_cases hid : Listed (listReferrals w tenantId 200) id
      · obtain ⟨r, hfind, rfl⟩ := map_eq_some_iff.mp ((hwritten.rows id hid).symm.trans hfind')
        exact (h.rows tenantId id r hfind).cancelled_meetsBar hpending'
      · rw [mem_def, hwritten.others tenantId id (.inr hid)] at hfind'
        by_contra hshort
        exact hid (hlisted id r' hfind' hpending' hshort)
  | _ => exact Iff.rfl

/-- A run of the program pays once and only for a live bar exactly when no step hires a hired
referral at another instant and every cancellation lists the pending referrals below their bar. -/
theorem paysOnce_iff (s : Surroundings) (as : List Action) :
    PaysOnce s as ↔
      Along step (fun w a => HiresOnce w a ∧ ShortListed w a) (.empty s) as := by
  have hhired : (World.empty s :: trace step (.empty s) as).Pairwise HiredKept ↔
      Along step HiresOnce (.empty s) as := by
    rw [pairwise_trace_iff (R := HiredKept) hiredKept_trans]
    exact along_congr (I := WorldOk) (fun _ a h => h.step a) (fun _ a h => h.hiredKept_iff a)
      (worldOk_empty s) as
  have hshort : Along step AfterCancellation (.empty s) as ↔ Along step ShortListed (.empty s) as :=
    along_congr (I := WorldOk) (fun _ a h => h.step a) (fun _ a h => h.afterCancellation_iff a)
      (worldOk_empty s) as
  rw [along_and, ← hhired, ← hshort]
  constructor
  · exact fun h => ⟨h.hired_once, h.none_short⟩
  · intro h
    refine ⟨h.1, (worldOk_run s as).one_reward, fun tenantId id hne => ?_, h.2⟩
    obtain ⟨row, hrow⟩ := exists_mem_of_ne_nil _ hne
    obtain ⟨hmem, hcols⟩ := mem_filter.mp hrow
    obtain ⟨rfl, -, rfl⟩ := of_decide_eq_true hcols
    exact approvedWhileQualified_of_mem s as row hmem

def hiredTwice : List Action :=
  [.attributeApplication
      { tenantId := 1, linkCode := "ABCD2345", applicantEmail := "new@rep.test"
        nowMs := midnight 0 },
    .markHired
      { tenantId := 1, referralId := 1, referredRepId := 2, referredUserId := some 20
        nowMs := midnight 0 },
    .markHired
      { tenantId := 1, referralId := 1, referredRepId := 2, referredUserId := some 20
        nowMs := midnight 90 }]

/-- The second hire of a hired referral starts its qualification window over. -/
theorem not_paysOnce_hiredTwice : ¬PaysOnce sampleSurroundings hiredTwice := by
  intro h
  have hkept : HiredKept (run step (.empty sampleSurroundings) (hiredTwice.take 2))
      (run step (.empty sampleSurroundings) hiredTwice) := by
    have hpair := h.hired_once
    rw [pairwise_trace_iff (R := HiredKept) hiredKept_trans] at hpair
    exact hpair.2.2.1
  have hfirst : hiredAt (run step (.empty sampleSurroundings) (hiredTwice.take 2)) 1 1 =
      some (midnight 0) := by
    decide +kernel
  have hsecond : hiredAt (run step (.empty sampleSurroundings) hiredTwice) 1 1 =
      some (midnight 90) := by
    decide +kernel
  have hmoved := (hkept 1 1 _ hfirst).symm.trans hsecond
  revert hmoved
  decide

end HomefrontFiber.Referrals
