import HomefrontFiber.Referrals.Rows

/-!
# A referral that met the bar

A referral that qualified is judged again at every cancellation in its organization and at its
approval, each time against the clock. While its representative keeps the bar it stays qualified
and is approvable exactly as long as each of these judgements falls into the qualification window,
whatever the window was when it qualified.
-/

namespace HomefrontFiber.Referrals

open Earnings List Option

variable {tenantId id : Nat} {config : ReferralProgramConfig} {hired qualified : Int}

structure PendingRow (config : ReferralProgramConfig) (hired qualified : Int) (r : Referral) :
    Prop where
  status : r.status = .rewardPending
  qualifiedAt : r.qualifiedAt = some qualified
  configSnapshot : r.configSnapshot = some config
  hiredAt : r.hiredAt = some hired
  activatedAt : r.activatedAt.isSome = true

structure Pending (w : World) (tenantId id : Nat) (config : ReferralProgramConfig)
    (hired qualified : Int) : Prop where
  numbered : Numbered (·.id) w.referrals
  row : ∃ r, getReferral w tenantId id = some r ∧ PendingRow config hired qualified r

/-- The sales of the representative do not drop below the bar, and the representative stays active
and trained where the configuration asks for it. -/
def KeepsBar (tenantId id : Nat) (config : ReferralProgramConfig) (w : World) : Prop :=
  ∀ r ∈ getReferral w tenantId id,
    max 1 config.requiredApprovedSales ≤ salesOf w.surroundings r ∧
      (config.requireTrainingComplete = true →
        trainingComplete w.surroundings r.tenantId r.referredUserId = true) ∧
      (config.requireActiveStatus = true →
        repActive w.surroundings r.tenantId r.referredRepId = true)

def Undecided (tenantId id : Nat) : Action → Prop
  | .approveReward input => ¬(tenantId = input.tenantId ∧ id = input.referralId)
  | .rejectReferral tenantId' id' _ _ _ => ¬(tenantId = tenantId' ∧ id = id')
  | _ => True

def StillQualified (tenantId id : Nat) (qualified : Int) (w : World) : Prop :=
  ∃ r, getReferral w tenantId id = some r ∧ r.status = .rewardPending ∧
    r.qualifiedAt = some qualified

def Approves (w : World) (input : ApprovalInput) : Prop := ∃ w', approveReward w input = .ok w'

/-- A recheck of the referral after a cancellation falls into its qualification window. -/
def RecheckInWindow (tenantId id : Nat) (config : ReferralProgramConfig) (hired : Int) (w : World)
    (a : Action) : Prop :=
  ∀ nowMs ∈ recheckTime w tenantId id a, windowOpen config (some hired) nowMs = true

section Row

variable {w : World} {r : Referral}

section

variable (h : PendingRow config hired qualified r)
include h

theorem PendingRow.qualified_iff
    (hfind : getReferral w tenantId id = some r) (hbar : KeepsBar tenantId id config w)
    (nowMs : Int) : (qualificationOf w.surroundings r nowMs).result.qualified = true ↔
      windowOpen config (some hired) nowMs = true := by
  obtain ⟨hsales, htraining, hactive⟩ := hbar r hfind
  have hconfig : configFor w.surroundings r = config := by
    unfold configFor
    rw [h.configSnapshot]
    rfl
  unfold qualificationOf
  rw [Referrals.qualified_iff, hconfig]
  unfold factsOf
  dsimp only
  rw [h.hiredAt]
  constructor
  · exact fun hall => hall.2.2.2.2.2
  · intro hwindow
    refine ⟨rfl, h.activatedAt, htraining, hactive, ?_, hwindow⟩
    omega

theorem PendingRow.cancelled_open {s : Surroundings} {nowMs : Int}
    (hqualified : (qualificationOf s r nowMs).result.qualified = true) :
    PendingRow config hired qualified (cancelled s nowMs r) := by
  unfold cancelled afterCancellation
  rw [if_neg (by simp [hqualified])]
  exact ⟨h.status, h.qualifiedAt, h.configSnapshot, h.hiredAt, h.activatedAt⟩

theorem PendingRow.cancelled_closed {s : Surroundings} {nowMs : Int}
    (hqualified : ¬(qualificationOf s r nowMs).result.qualified = true) :
    (cancelled s nowMs r).status = .inProgress := by
  have hdropped : ¬(qualificationOf s r nowMs).result.qualified = true ∧
      (qualificationOf s r nowMs).referral.qualifiedAt.isSome = true ∧
      (qualificationOf s r nowMs).referral.status = .rewardPending :=
    ⟨hqualified, isSome_iff_exists.mpr ⟨qualified, h.qualifiedAt⟩, h.status⟩
  unfold cancelled afterCancellation
  rw [if_pos hdropped]

/-- An action that neither decides on the referral nor rechecks it after a cancellation leaves it
pending. -/
theorem PendingRow.change {a : Action} {r' : Referral}
    (hchange : Change w a r r') (hundecided : Undecided r.tenantId r.id a)
    (htime : recheckTime w r.tenantId r.id a = none) : PendingRow config hired qualified r' := by
  have hstatus := h.status
  cases hchange with
  | kept => exact h
  | hired input _ _ hcan _ =>
    rw [hstatus] at hcan
    exact absurd hcan (by decide)
  | activated tenantId' id' nowMs _ _ hcan =>
    rw [hstatus] at hcan
    exact absurd hcan (by decide)
  | rechecked _ nowMs =>
    have hactivated : (qualificationOf w.surroundings r nowMs).referral.status ≠ .activated := by
      intro heq
      cases hstatus.symm.trans heq
    have hqualified : (qualificationOf w.surroundings r nowMs).referral.qualifiedAt ≠ none := by
      intro heq
      cases h.qualifiedAt.symm.trans heq
    unfold rechecked
    rw [if_neg fun hall => hqualified hall.2.1, if_neg fun hall => hactivated hall.1]
    exact ⟨h.status, h.qualifiedAt, h.configSnapshot, h.hiredAt, h.activatedAt⟩
  | cancelled _ nowMs _ hsome =>
    rw [htime] at hsome
    cases hsome
  | approved input _ htarget _ _ => exact absurd htarget hundecided
  | rejected tenantId' id' _ _ _ _ _ htarget _ => exact absurd htarget hundecided
  | paid tenantId' id' nowMs _ _ hcan =>
    rw [hstatus] at hcan
    exact absurd hcan (by decide)
  | rereferred input referrer _ _ =>
    exact ⟨h.status, h.qualifiedAt, h.configSnapshot, h.hiredAt, h.activatedAt⟩

end

end Row

section Steps

variable {w : World} {a : Action}

section

variable (h : Pending w tenantId id config hired qualified)
include h

theorem Pending.step_open
    (hbar : KeepsBar tenantId id config w) (hundecided : Undecided tenantId id a)
    (hwindow : RecheckInWindow tenantId id config hired w a) :
    Pending (step w a) tenantId id config hired qualified := by
  obtain ⟨r, hfind, hrow⟩ := h.row
  refine ⟨numbered_step h.numbered a, ?_⟩
  cases htime : recheckTime w tenantId id a with
  | some nowMs =>
    have hqualified := (hrow.qualified_iff hfind hbar nowMs).mpr (hwindow nowMs htime)
    exact ⟨_, step_row_cancelled h.numbered hfind htime, hrow.cancelled_open hqualified⟩
  | none =>
    obtain ⟨-, rfl, rfl⟩ := getReferral_mem hfind
    obtain ⟨r', hfind', hchange⟩ := step_row h.numbered a hfind
    exact ⟨r', hfind', hrow.change hchange hundecided htime⟩

theorem Pending.step_closed (hbar : KeepsBar tenantId id config w)
    (hwindow : ¬RecheckInWindow tenantId id config hired w a) :
    ¬StillQualified tenantId id qualified (step w a) := by
  obtain ⟨r, hfind, hrow⟩ := h.row
  unfold RecheckInWindow at hwindow
  push Not at hwindow
  obtain ⟨nowMs, htime, hclosed⟩ := hwindow
  have hunqualified : ¬(qualificationOf w.surroundings r nowMs).result.qualified = true :=
    fun hqualified => hclosed ((hrow.qualified_iff hfind hbar nowMs).mp hqualified)
  rintro ⟨r', hfind', hstatus, -⟩
  rw [step_row_cancelled h.numbered hfind htime] at hfind'
  cases hfind'
  rw [hrow.cancelled_closed hunqualified] at hstatus
  cases hstatus

theorem Pending.stillQualified : StillQualified tenantId id qualified w := by
  obtain ⟨r, hfind, hrow⟩ := h.row
  exact ⟨r, hfind, hrow.status, hrow.qualifiedAt⟩

/-- Over a run, the referral stays qualified exactly when no recheck misses the window. -/
theorem Pending.run_iff {as : List Action}
    (hbar : ∀ v ∈ w :: trace step w as, KeepsBar tenantId id config v)
    (hundecided : ∀ a ∈ as, Undecided tenantId id a) :
    (∀ v ∈ trace step w as, StillQualified tenantId id qualified v) ↔
      Along step (RecheckInWindow tenantId id config hired) w as := by
  induction as generalizing w with
  | nil => simp [trace]
  | cons a as ih =>
    have hnow := hbar w mem_cons_self
    have hlater : ∀ v ∈ step w a :: trace step (step w a) as, KeepsBar tenantId id config v :=
      fun v hv => hbar v (mem_cons_of_mem w hv)
    have hrest : ∀ b ∈ as, Undecided tenantId id b :=
      fun b hb => hundecided b (mem_cons_of_mem a hb)
    rw [along_cons, trace, forall_mem_cons]
    by_cases hwindow : RecheckInWindow tenantId id config hired w a
    · have hnext := h.step_open hnow (hundecided a mem_cons_self) hwindow
      rw [ih hnext hlater hrest]
      exact and_congr_left fun _ => iff_of_true hnext.stillQualified hwindow
    · have hlost := h.step_closed hnow hwindow
      exact iff_of_false (fun hall => hlost hall.1) fun hall => hwindow hall.1

theorem Pending.run {as : List Action}
    (hbar : ∀ v ∈ w :: trace step w as, KeepsBar tenantId id config v)
    (hundecided : ∀ a ∈ as, Undecided tenantId id a)
    (hwindow : Along step (RecheckInWindow tenantId id config hired) w as) :
    Pending (HomefrontFiber.run step w as) tenantId id config hired qualified ∧
      KeepsBar tenantId id config (HomefrontFiber.run step w as) := by
  induction as generalizing w with
  | nil => exact ⟨h, hbar w mem_cons_self⟩
  | cons a as ih =>
    have hnext := h.step_open (hbar w mem_cons_self) (hundecided a mem_cons_self)
      hwindow.1
    exact ih hnext (fun v hv => hbar v (mem_cons_of_mem w hv))
      (fun b hb => hundecided b (mem_cons_of_mem a hb)) hwindow.2

/-- A pending referral that keeps the bar is approved exactly within its window, once its reward
is releasable. -/
theorem Pending.approves_iff (hbar : KeepsBar tenantId id config w) {input : ApprovalInput}
    (htenant : input.tenantId = tenantId) (hid : input.referralId = id)
    (hreleasable : (rewardReleasable (some qualified) config input.nowMs).releasable = true) :
    Approves w input ↔ windowOpen config (some hired) input.nowMs = true := by
  obtain ⟨r, hfind, hrow⟩ := h.row
  have hqualified := hrow.qualified_iff hfind hbar input.nowMs
  constructor
  · rintro ⟨w', hok⟩
    obtain ⟨r', hfind', -, hresult, -⟩ := approveReward_ok hok
    rw [htenant, hid, hfind] at hfind'
    cases hfind'
    exact hqualified.mp hresult
  · intro hwindow
    have hresult := hqualified.mpr hwindow
    have hconfig : configFor w.surroundings r = config := by
      unfold configFor
      rw [hrow.configSnapshot]
      rfl
    have hrelease : (qualificationOf w.surroundings r input.nowMs).releasable.releasable = true := by
      unfold qualificationOf
      rw [hrow.qualifiedAt, hconfig]
      exact hreleasable
    have hcan : canReferralTransition (qualificationOf w.surroundings r input.nowMs).referral.status
        .approved = true := by
      have hstatus : (qualificationOf w.surroundings r input.nowMs).referral.status =
        .rewardPending := hrow.status
      rw [hstatus]
      decide
    have hnative : originOf (rewardInput (qualificationOf w.surroundings r input.nowMs).referral
        input.nowMs).sourceType = .native := rfl
    unfold Approves approveReward qualificationFor recordNative
    rw [htenant, hid, hfind, map_some]
    dsimp only
    rw [if_neg (by simp [hcan]), if_neg (by simp [hresult]), if_neg (by simp [hrelease]),
      if_pos hnative]
    exact ⟨_, rfl⟩

end

end Steps

/-- A referral that met the bar and keeps it is never un-qualified and can be approved, once its
reward is releasable, exactly when every recheck after a cancellation and the approval itself fall
into its qualification window. -/
theorem staysApprovable_iff {w : World} (h : Pending w tenantId id config hired qualified)
    {as : List Action} (hbar : ∀ v ∈ w :: trace step w as, KeepsBar tenantId id config v)
    (hundecided : ∀ a ∈ as, Undecided tenantId id a) {input : ApprovalInput}
    (htenant : input.tenantId = tenantId) (hid : input.referralId = id)
    (hreleasable : (rewardReleasable (some qualified) config input.nowMs).releasable = true) :
    (∀ v ∈ trace step w as, StillQualified tenantId id qualified v) ∧
        Approves (run step w as) input ↔
      Along step (RecheckInWindow tenantId id config hired) w as ∧
        windowOpen config (some hired) input.nowMs = true := by
  rw [h.run_iff hbar hundecided]
  apply and_congr_right
  intro hwindow
  obtain ⟨hend, hbarEnd⟩ := h.run hbar hundecided hwindow
  exact hend.approves_iff hbarEnd htenant hid hreleasable

def sampleSale (id repId : Nat) (soldAt : Int) : Commission.Sale where
  id := id
  repId := repId
  externalId := toString id
  status := .qualified
  soldAt := Stamp.ofMs soldAt
  qualifiedAt := none
  installedAt := none
  activatedAt := none
  reversedAt := none
  disqualificationReason := none
  leadId := none
  qualificationBasis := none
  createdAt := Stamp.ofMs soldAt
  updatedAt := Stamp.ofMs soldAt

/-- Midnight of a day of 2026, counted from January 1. -/
def midnight (day : Int) : Int := 1767225600000 + day * msPerDay

/-- Representative 2 was referred by representative 1 and has sold what the default bar asks for. -/
def sampleSurroundings : Surroundings where
  config _ := defaultReferralConfig
  linkByCode _ := some
    { id := 1
      tenantId := 1
      referrerUserId := 10
      referrerRepId := 1
      createdAt := midnight 0 }
  member _ repId := some
    { active := true
      email := none
      userId := some (10 * repId) }
  hasAccount _ := false
  sales _ := [sampleSale 1 2 (midnight 20), sampleSale 2 2 (midnight 30),
    sampleSale 3 2 (midnight 40), sampleSale 4 2 (midnight 50), sampleSale 5 2 (midnight 60),
    sampleSale 6 2 (midnight 70)]
  requiredLessons _ := 1
  lessonsDone _ _ := 1

def sampleReferral (day : Int) : List Action :=
  [.attributeApplication
      { tenantId := 1, linkCode := "ABCD2345", applicantEmail := "new@rep.test"
        nowMs := midnight 0 },
    .markHired
      { tenantId := 1, referralId := 1, referredRepId := 2, referredUserId := some 20
        nowMs := midnight 0 },
    .markActivated 1 1 (midnight 5),
    .recheckQualification 1 1 (midnight day)]

/-- The referral met the bar on a day of its window of 180 days. -/
def metInTime (day : Int) : World := run step (.empty sampleSurroundings) (sampleReferral day)

def sampleApproval (day : Int) : ApprovalInput where
  tenantId := 1
  referralId := 1
  actorUserId := 5
  nowMs := midnight day

theorem pending_metInTime {day : Int} (hrow : ((getReferral (metInTime day) 1 1).map fun r =>
      (r.status, r.qualifiedAt, r.configSnapshot, r.hiredAt, r.activatedAt.isSome)) =
        some (.rewardPending, some (midnight day), some defaultReferralConfig,
          some (midnight 0), true)) :
    Pending (metInTime day) 1 1 defaultReferralConfig (midnight 0) (midnight day) := by
  obtain ⟨r, hfind, hfields⟩ := map_eq_some_iff.mp hrow
  simp only [Prod.mk.injEq] at hfields
  obtain ⟨hstatus, hqualified, hconfig, hhired, hactivated⟩ := hfields
  exact ⟨numbered_run Numbered.nil _, r, hfind, hstatus, hqualified, hconfig, hhired, hactivated⟩

instance (tenantId id : Nat) (config : ReferralProgramConfig) (w : World) :
    Decidable (KeepsBar tenantId id config w) :=
  inferInstanceAs (Decidable (∀ r ∈ getReferral w tenantId id, _ ∧ _ ∧ _))

instance (tenantId id : Nat) (config : ReferralProgramConfig) (hired : Int) (w : World)
    (a : Action) : Decidable (RecheckInWindow tenantId id config hired w a) :=
  inferInstanceAs (Decidable (∀ nowMs ∈ recheckTime w tenantId id a, _))

theorem staysApprovable_early : (∀ v ∈ trace step (metInTime 100) [.saleCancelled 1 (midnight 120)],
        StillQualified 1 1 (midnight 100) v) ∧
      Approves (run step (metInTime 100) [.saleCancelled 1 (midnight 120)]) (sampleApproval 131) :=
  (staysApprovable_iff (pending_metInTime (by decide +kernel)) (by decide +kernel)
    (fun a ha => by obtain rfl := mem_singleton.mp ha; trivial) rfl rfl
    (by decide +kernel)).mpr (by decide +kernel)

/-- Eleven days after the referral met the bar another representative's sale is cancelled, and no
approval succeeds any more although the bar is kept. -/
theorem not_staysApprovable_lateCancellation :
    Pending (metInTime 170) 1 1 defaultReferralConfig (midnight 0) (midnight 170) ∧
      windowOpen defaultReferralConfig (some (midnight 0)) (midnight 170) = true ∧
      (∀ v ∈ metInTime 170 :: trace step (metInTime 170) [.saleCancelled 1 (midnight 181)],
        KeepsBar 1 1 defaultReferralConfig v) ∧
      (rewardReleasable (some (midnight 170)) defaultReferralConfig
        (sampleApproval 200).nowMs).releasable = true ∧
      ¬((∀ v ∈ trace step (metInTime 170) [.saleCancelled 1 (midnight 181)],
          StillQualified 1 1 (midnight 170) v) ∧
        Approves (run step (metInTime 170) [.saleCancelled 1 (midnight 181)])
          (sampleApproval 200)) := by
  refine ⟨pending_metInTime (by decide +kernel), by decide +kernel, by decide +kernel,
    by decide +kernel, ?_⟩
  rintro ⟨hstill, -⟩
  obtain ⟨r, hfind, hstatus, -⟩ := hstill _ mem_cons_self
  have hlost : (getReferral (step (metInTime 170) (.saleCancelled 1 (midnight 181))) 1 1).map
      (·.status) = some .inProgress := by
    decide +kernel
  rw [hfind, map_some, hstatus] at hlost
  cases hlost

end HomefrontFiber.Referrals
