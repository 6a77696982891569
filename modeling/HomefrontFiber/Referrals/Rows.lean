import HomefrontFiber.Referrals.Store

/-!
# What an operation does to a referral

Every operation writes at most one referral at a time, by its tenant and id, and a cancelled sale
rechecks those of its list one after the other. `Change` collects what may happen to one row.
-/

namespace HomefrontFiber.Referrals

open Earnings List

variable {w : World} {tenantId id : Nat}

variable {r : Referral} {f : Referral → Referral} {w' w'' : World} {written : Nat → Prop}
  {a : Action}

theorem getReferral_mem (h : getReferral w tenantId id = some r) :
    r ∈ w.referrals ∧ r.tenantId = tenantId ∧ r.id = id := by
  have hkey := find?_some h
  simp only [Bool.decide_and, Bool.and_eq_true, decide_eq_true_eq] at hkey
  exact ⟨mem_of_find?_eq_some h, hkey⟩

theorem getReferral_setReferral {f : Referral → Referral} (htenant : ∀ r, (f r).tenantId = r.tenantId)
    (hid : ∀ r, (f r).id = r.id) (tenantId' id' : Nat) :
    getReferral (w.setReferral tenantId id f) tenantId' id' =
      (getReferral w tenantId' id').map fun r =>
        if tenantId' = tenantId ∧ id' = id then f r else r := by
  unfold getReferral World.setReferral
  rw [find?_map]
  have hsame : ∀ r ∈ w.referrals,
      ((fun r : Referral => decide (r.tenantId = tenantId' ∧ r.id = id')) ∘
        fun r => if r.tenantId = tenantId ∧ r.id = id then f r else r) r =
        decide (r.tenantId = tenantId' ∧ r.id = id') := by
    intro r _
    dsimp only [Function.comp]
    split
    · rw [htenant, hid]
    · rfl
  rw [find?_congr hsame]
  cases hfind : w.referrals.find? fun r => decide (r.tenantId = tenantId' ∧ r.id = id') with
  | none => rfl
  | some r =>
    obtain ⟨-, rfl, rfl⟩ := getReferral_mem hfind
    rfl

@[simp] theorem getReferral_recordEvent (tenantId' id' : Nat) (eventType : ReferralEventType)
    (nowMs : Int) : getReferral (w.recordEvent tenantId' id' eventType nowMs) tenantId id =
      getReferral w tenantId id := rfl

theorem numbered_setReferral (hn : Numbered (·.id) w.referrals)
    (hid : ∀ r, (f r).id = r.id) : Numbered (·.id) (w.setReferral tenantId id f).referrals := by
  apply hn.map
  intro r _
  split
  · exact hid r
  · rfl

def cancelled (s : Surroundings) (nowMs : Int) (r : Referral) : Referral :=
  afterCancellation (qualificationOf s r nowMs) nowMs r

/-- A world in which rows of a tenant were written and nothing else but events and earnings. -/
structure Rewritten (w w' : World) (tenantId : Nat) (written : Nat → Prop)
    (f : Referral → Referral) : Prop where
  surroundings : w'.surroundings = w.surroundings
  numbered : Numbered (·.id) w.referrals → Numbered (·.id) w'.referrals
  others : ∀ tenantId' id', tenantId' ≠ tenantId ∨ ¬written id' →
    getReferral w' tenantId' id' = getReferral w tenantId' id'
  rows : ∀ id', written id' → getReferral w' tenantId id' = (getReferral w tenantId id').map f

theorem rewritten_setReferral {g : Referral → Referral}
    (htenant : ∀ r, (g r).tenantId = r.tenantId) (hid : ∀ r, (g r).id = r.id)
    (hfg : ∀ r, getReferral w tenantId id = some r → g r = f r) :
    Rewritten w (w.setReferral tenantId id g) tenantId (· = id) f where
  surroundings := rfl
  numbered := fun hn => numbered_setReferral hn hid
  others := by
    intro tenantId' id' hother
    have hne : ¬(tenantId' = tenantId ∧ id' = id) := by tauto
    rw [getReferral_setReferral htenant hid]
    simp only [if_neg hne, Option.map_id']
  rows := by
    rintro id' rfl
    rw [getReferral_setReferral htenant hid]
    cases hfind : getReferral w tenantId id' with
    | none => rfl
    | some r => simp [hfg r hfind]

theorem rewritten_none (w : World) (tenantId : Nat) : Rewritten w w tenantId (fun _ => False) f :=
  ⟨rfl, id, fun _ _ _ => rfl, fun _ h => h.elim⟩

theorem Rewritten.congr
    (h : Rewritten w w' tenantId written f) (hsurroundings : w''.surroundings = w'.surroundings)
    (hreferrals : w''.referrals = w'.referrals) : Rewritten w w'' tenantId written f := by
  have hget : ∀ tenantId' id', getReferral w'' tenantId' id' = getReferral w' tenantId' id' := by
    intro tenantId' id'
    unfold getReferral
    rw [hreferrals]
  refine ⟨hsurroundings.trans h.surroundings, ?_, ?_, ?_⟩
  · exact fun hn => hreferrals ▸ h.numbered hn
  · exact fun tenantId' id' hother => (hget tenantId' id').trans (h.others tenantId' id' hother)
  · exact fun id' hid => (hget tenantId id').trans (h.rows id' hid)

theorem Rewritten.of_iff {written' : Nat → Prop}
    (h : Rewritten w w' tenantId written f) (hiff : ∀ id', written id' ↔ written' id') :
    Rewritten w w' tenantId written' f := by
  have heq : written = written' := funext fun id' => propext (hiff id')
  exact heq ▸ h

theorem Rewritten.trans {first second : Nat → Prop}
    (h : Rewritten w w' tenantId first f) (h' : Rewritten w' w'' tenantId second f)
    (hdisjoint : ∀ id', first id' → ¬second id') :
    Rewritten w w'' tenantId (fun id' => first id' ∨ second id') f := by
  refine ⟨h'.surroundings.trans h.surroundings, fun hn => h'.numbered (h.numbered hn), ?_, ?_⟩
  · intro tenantId' id' hother
    rw [h'.others tenantId' id' (by tauto), h.others tenantId' id' (by tauto)]
  · rintro id' (hfirst | hsecond)
    · rw [h'.others tenantId id' (Or.inr (hdisjoint id' hfirst)), h.rows id' hfirst]
    · have hnot : ¬first id' := fun hfirst => hdisjoint id' hfirst hsecond
      rw [h'.rows id' hsecond, h.others tenantId id' (Or.inr hnot)]

theorem recheckAfterCancellation_rewritten (hfind : getReferral w tenantId id = some r)
    (nowMs : Int) : ∃ w', recheckAfterCancellation w tenantId id nowMs = .ok w' ∧
      Rewritten w w' tenantId (· = id) (cancelled w.surroundings nowMs) ∧ w'.ledger = w.ledger := by
  have hwritten : Rewritten w (w.setReferral tenantId id
      (afterCancellation (qualificationOf w.surroundings r nowMs) nowMs)) tenantId (· = id)
      (cancelled w.surroundings nowMs) := by
    apply rewritten_setReferral
    · intro r'
      unfold afterCancellation
      split_ifs <;> rfl
    · intro r'
      unfold afterCancellation
      split_ifs <;> rfl
    · intro r' hr'
      obtain rfl := Option.some_inj.mp (hfind.symm.trans hr')
      rfl
  unfold recheckAfterCancellation qualificationFor
  rw [hfind, Option.map_some]
  dsimp only
  split_ifs
  · exact ⟨_, rfl, hwritten.congr rfl rfl, rfl⟩
  · exact ⟨_, rfl, hwritten.congr rfl rfl, rfl⟩
  · exact ⟨_, rfl, hwritten, rfl⟩

def Listed (l : List Referral) (id : Nat) : Prop := ∃ q ∈ l, q.id = id ∧ q.referredRepId ≠ none

instance (l : List Referral) (id : Nat) : Decidable (Listed l id) :=
  inferInstanceAs (Decidable (∃ q ∈ l, q.id = id ∧ q.referredRepId ≠ none))

theorem foldlM_recheckListed_rewritten (l : List Referral) (hnodup : (l.map (·.id)).Nodup)
    (hexists : ∀ q ∈ l, (getReferral w tenantId q.id).isSome = true) (nowMs : Int) :
    ∃ w', l.foldlM (recheckListed tenantId nowMs) w = .ok w' ∧
      Rewritten w w' tenantId (Listed l) (cancelled w.surroundings nowMs) ∧
      w'.ledger = w.ledger := by
  induction l generalizing w with
  | nil =>
    refine ⟨w, rfl, (rewritten_none w tenantId).of_iff fun id' => ?_, rfl⟩
    simp [Listed]
  | cons q l ih =>
    obtain ⟨hq, hnodup⟩ := nodup_cons.mp hnodup
    rw [foldlM_cons]
    by_cases hrep : q.referredRepId = none
    · obtain ⟨w', hfold, hwritten, hledger⟩ :=
        ih hnodup fun p hp => hexists p (mem_cons_of_mem q hp)
      refine ⟨w', ?_, hwritten.of_iff fun id' => ?_, hledger⟩
      · simp only [recheckListed, if_pos hrep]
        exact hfold
      · simp [Listed, hrep]
    · obtain ⟨r, hr⟩ := Option.isSome_iff_exists.mp (hexists q mem_cons_self)
      obtain ⟨w₁, hstep, hfirst, hledger₁⟩ := recheckAfterCancellation_rewritten hr nowMs
      have hnext : ∀ p ∈ l, (getReferral w₁ tenantId p.id).isSome = true := by
        intro p hp
        by_cases hid : p.id = q.id
        · rw [hfirst.rows p.id hid, Option.isSome_map]
          exact hexists p (mem_cons_of_mem q hp)
        · rw [hfirst.others tenantId p.id (Or.inr hid)]
          exact hexists p (mem_cons_of_mem q hp)
      obtain ⟨w', hfold, hrest, hledger⟩ := ih hnodup hnext
      rw [hfirst.surroundings] at hrest
      have hdisjoint : ∀ id', id' = q.id → ¬Listed l id' := by
        rintro id' rfl ⟨p, hp, hpid, -⟩
        exact hq (mem_map.mpr ⟨p, hp, hpid⟩)
      refine ⟨w', ?_, (hfirst.trans hrest hdisjoint).of_iff fun id' => ?_,
        hledger.trans hledger₁⟩
      · simp only [recheckListed, if_neg hrep, hstep]
        exact hfold
      · simp [Listed, hrep, eq_comm]

theorem saleCancelled_rewritten (hn : Numbered (·.id) w.referrals) (tenantId : Nat) (nowMs : Int) :
    ∃ w', saleCancelled w tenantId nowMs = .ok w' ∧
      Rewritten w w' tenantId (Listed (listReferrals w tenantId 200))
        (cancelled w.surroundings nowMs) ∧ w'.ledger = w.ledger := by
  have hperm := mergeSort_perm (w.referrals.filter fun r => decide (r.tenantId = tenantId)) newer
  have hnodup : ((listReferrals w tenantId 200).map (·.id)).Nodup := by
    have hfilter : ((w.referrals.filter fun r => decide (r.tenantId = tenantId)).map
        (·.id)).Nodup := hn.nodup.sublist (filter_sublist.map _)
    have hsorted := (hperm.map (·.id)).nodup_iff.mpr hfilter
    exact hsorted.sublist ((take_sublist _ _).map _)
  have hexists : ∀ q ∈ listReferrals w tenantId 200,
      (getReferral w tenantId q.id).isSome = true := by
    intro q hq
    have hmem := mem_filter.mp (hperm.mem_iff.mp (mem_of_mem_take hq))
    unfold getReferral
    rw [find?_isSome]
    exact ⟨q, hmem.1, by simpa using hmem.2⟩
  exact foldlM_recheckListed_rewritten _ hnodup hexists nowMs

/-- The instant at which an action rechecks a referral after a cancellation, if it does. -/
def recheckTime (w : World) (tenantId id : Nat) : Action → Option Int
  | .recheckAfterCancellation tenantId' id' nowMs =>
    if tenantId' = tenantId ∧ id' = id then some nowMs else none
  | .saleCancelled tenantId' nowMs =>
    if tenantId' = tenantId ∧ Listed (listReferrals w tenantId 200) id then some nowMs else none
  | _ => none

inductive Change (w : World) : Action → Referral → Referral → Prop where
  | kept (a : Action) (r : Referral) : Change w a r r
  | hired (input : HireInput) (r : Referral)
      (htarget : r.tenantId = input.tenantId ∧ r.id = input.referralId)
      (hcan : canReferralTransition r.status .hired = true)
      (hfree : userTaken w input.tenantId input.referralId input.referredUserId = false) :
      Change w (.markHired input) r (hiredRow input r)
  | activated (tenantId id : Nat) (nowMs : Int) (r : Referral)
      (htarget : r.tenantId = tenantId ∧ r.id = id)
      (hcan : canReferralTransition r.status .activated = true) :
      Change w (.markActivated tenantId id nowMs) r (activatedRow nowMs r)
  | rechecked (a : Action) (nowMs : Int) (r : Referral) :
      Change w a r (rechecked (qualificationOf w.surroundings r nowMs) nowMs r)
  | cancelled (a : Action) (nowMs : Int) (r : Referral)
      (htime : recheckTime w r.tenantId r.id a = some nowMs) :
      Change w a r (cancelled w.surroundings nowMs r)
  | approved (input : ApprovalInput) (r : Referral)
      (htarget : r.tenantId = input.tenantId ∧ r.id = input.referralId)
      (hcan : canReferralTransition r.status .approved = true)
      (hqualified : (qualificationOf w.surroundings r input.nowMs).result.qualified = true) :
      Change w (.approveReward input) r (approvedRow input r)
  | rejected (tenantId id actorUserId : Nat) (reason text : String) (nowMs : Int) (r : Referral)
      (htarget : r.tenantId = tenantId ∧ r.id = id)
      (hcan : canReferralTransition r.status .rejected = true) :
      Change w (.rejectReferral tenantId id actorUserId reason nowMs) r
        (rejectedRow actorUserId text nowMs r)
  | paid (tenantId id : Nat) (nowMs : Int) (r : Referral)
      (htarget : r.tenantId = tenantId ∧ r.id = id)
      (hcan : canReferralTransition r.status .paid = true) :
      Change w (.markPaid tenantId id nowMs) r (paidRow nowMs r)
  | rereferred (input : ReferrerInput) (referrer : ReferralMember) (r : Referral)
      (htarget : r.tenantId = input.tenantId ∧ r.id = input.referralId) :
      Change w (.changeReferrer input) r (rereferredRow input referrer r)

inductive Effect (w : World) (a : Action) : World → Prop where
  | refused : Effect w a w
  | written (w' : World) (tenantId : Nat) (written : Nat → Prop) (f : Referral → Referral)
      (hwritten : Rewritten w w' tenantId written f)
      (hchange : ∀ id r, written id → getReferral w tenantId id = some r → Change w a r (f r)) :
      Effect w a w'
  | applied (w' : World) (row : Referral) (hreferrals : w'.referrals = w.referrals ++ [row])
      (hid : row.id = w.referrals.length + 1) (hstatus : row.status = .applied)
      (hhired : row.hiredAt = none) : Effect w a w'
  | elsewhere (w' : World) (hreferrals : w'.referrals = w.referrals) : Effect w a w'

theorem transitioning_ok {target : ReferralStatus}
    (h : transitioning w tenantId id target = .ok r) :
    getReferral w tenantId id = some r ∧ canReferralTransition r.status target = true := by
  unfold transitioning at h
  cases hfind : getReferral w tenantId id with
  | none =>
    rw [hfind] at h
    cases h
  | some r' =>
    rw [hfind] at h
    dsimp only at h
    split_ifs at h with hcan
    cases h
    exact ⟨rfl, hcan⟩

theorem effect_setReferral (f : Referral → Referral)
    (hfind : getReferral w tenantId id = some r) (htenant : ∀ r, (f r).tenantId = r.tenantId)
    (hid : ∀ r, (f r).id = r.id) (hsurroundings : w'.surroundings = w.surroundings)
    (hreferrals : w'.referrals = (w.setReferral tenantId id f).referrals)
    (hchange : Change w a r (f r)) : Effect w a w' := by
  have hwritten : Rewritten w (w.setReferral tenantId id f) tenantId (· = id) f :=
    rewritten_setReferral htenant hid fun _ _ => rfl
  apply Effect.written w' tenantId (· = id) f (hwritten.congr hsurroundings hreferrals)
  rintro id' r' rfl hr'
  obtain rfl := Option.some_inj.mp (hfind.symm.trans hr')
  exact hchange

theorem recheckQualification_rewritten (hfind : getReferral w tenantId id = some r)
    (nowMs : Int) : Rewritten w (recheckQualification w tenantId id nowMs) tenantId (· = id)
      (rechecked (qualificationOf w.surroundings r nowMs) nowMs) := by
  have hwritten : Rewritten w (w.setReferral tenantId id
      (rechecked (qualificationOf w.surroundings r nowMs) nowMs)) tenantId (· = id)
      (rechecked (qualificationOf w.surroundings r nowMs) nowMs) := by
    apply rewritten_setReferral
    · intro r'
      unfold rechecked
      dsimp only
      split_ifs <;> rfl
    · intro r'
      unfold rechecked
      dsimp only
      split_ifs <;> rfl
    · exact fun _ _ => rfl
  unfold recheckQualification qualificationFor
  rw [hfind, Option.map_some]
  dsimp only
  split_ifs
  · exact hwritten.congr rfl rfl
  · exact hwritten

theorem effect_recheckQualification (a : Action) (w : World) (tenantId id : Nat) (nowMs : Int) :
    Effect w a (recheckQualification w tenantId id nowMs) := by
  cases hfind : getReferral w tenantId id with
  | none =>
    unfold recheckQualification qualificationFor
    rw [hfind]
    exact Effect.refused
  | some r =>
    apply Effect.written _ tenantId _ _ (recheckQualification_rewritten hfind nowMs)
    rintro id' r' rfl hr'
    obtain rfl := Option.some_inj.mp (hfind.symm.trans hr')
    exact Change.rechecked a nowMs r

theorem step_ok (h : perform w a = .ok w') : step w a = w' := by
  unfold step
  rw [h]

theorem effect_of_perform (h : ∀ w', perform w a = .ok w' → Effect w a w') :
    Effect w a (step w a) := by
  unfold step
  cases hperform : perform w a with
  | error e => exact Effect.refused
  | ok w' => exact h w' hperform

theorem effect_attributeApplication (w : World) (input : ApplicationInput) :
    Effect w (.attributeApplication input) (step w (.attributeApplication input)) := by
  apply effect_of_perform
  intro w' hok
  unfold perform attributeApplication at hok
  dsimp only at hok
  repeat' split at hok
  all_goals first
    | (cases hok; exact Effect.refused)
    | (cases hok; exact Effect.applied _ _ rfl rfl rfl rfl)
    | cases hok

theorem effect_markHired (w : World) (input : HireInput) :
    Effect w (.markHired input) (step w (.markHired input)) := by
  apply effect_of_perform
  intro w' hok
  unfold perform markHired at hok
  dsimp only at hok
  split at hok
  · cases hok
  · rename_i r htransition
    obtain ⟨hfind, hcan⟩ := transitioning_ok htransition
    split_ifs at hok with htaken
    cases hok
    exact effect_setReferral (hiredRow input) hfind (fun _ => rfl) (fun _ => rfl) rfl rfl
      (Change.hired input r (getReferral_mem hfind).2 hcan (by simpa using htaken))

theorem effect_markActivated (w : World) (tenantId id : Nat) (nowMs : Int) :
    Effect w (.markActivated tenantId id nowMs) (step w (.markActivated tenantId id nowMs)) := by
  apply effect_of_perform
  intro w' hok
  unfold perform markActivated at hok
  dsimp only at hok
  split at hok
  · cases hok
  · rename_i r htransition
    obtain ⟨hfind, hcan⟩ := transitioning_ok htransition
    cases hok
    exact effect_setReferral (activatedRow nowMs) hfind (fun _ => rfl) (fun _ => rfl) rfl rfl
      (Change.activated tenantId id nowMs r (getReferral_mem hfind).2 hcan)

theorem effect_markPaid (w : World) (tenantId id : Nat) (nowMs : Int) :
    Effect w (.markPaid tenantId id nowMs) (step w (.markPaid tenantId id nowMs)) := by
  apply effect_of_perform
  intro w' hok
  unfold perform markPaid at hok
  dsimp only at hok
  split at hok
  · cases hok
  · rename_i r htransition
    obtain ⟨hfind, hcan⟩ := transitioning_ok htransition
    cases hok
    exact effect_setReferral (paidRow nowMs) hfind (fun _ => rfl) (fun _ => rfl) rfl rfl
      (Change.paid tenantId id nowMs r (getReferral_mem hfind).2 hcan)

theorem approveReward_ok {input : ApprovalInput} (hok : approveReward w input = .ok w') : ∃ r,
      getReferral w input.tenantId input.referralId = some r ∧
      canReferralTransition r.status .approved = true ∧
      (qualificationOf w.surroundings r input.nowMs).result.qualified = true ∧
      w'.surroundings = w.surroundings ∧
      w'.referrals =
        (w.setReferral input.tenantId input.referralId (approvedRow input)).referrals ∧
      w'.ledger = upsert (rewardInput r input.nowMs) w.ledger := by
  unfold approveReward qualificationFor at hok
  cases hfind : getReferral w input.tenantId input.referralId with
  | none =>
    rw [hfind] at hok
    cases hok
  | some r =>
    rw [hfind, Option.map_some] at hok
    dsimp only at hok
    have hnative : originOf (rewardInput (qualificationOf w.surroundings r input.nowMs).referral
        input.nowMs).sourceType = .native := rfl
    unfold recordNative at hok
    rw [if_pos hnative] at hok
    split_ifs at hok with hcan hqualified hwindow
    cases hok
    exact ⟨r, rfl, by simpa [qualificationOf] using hcan, by simpa using hqualified, rfl, rfl, rfl⟩

theorem effect_approveReward (w : World) (input : ApprovalInput) :
    Effect w (.approveReward input) (step w (.approveReward input)) := by
  apply effect_of_perform
  intro w' hok
  obtain ⟨r, hfind, hcan, hqualified, hsurroundings, hreferrals, -⟩ := approveReward_ok hok
  exact effect_setReferral (approvedRow input) hfind (fun _ => rfl) (fun _ => rfl) hsurroundings hreferrals
    (Change.approved input r (getReferral_mem hfind).2 hcan hqualified)

theorem effect_rejectReferral (w : World) (tenantId id actorUserId : Nat) (reason : String)
    (nowMs : Int) : Effect w (.rejectReferral tenantId id actorUserId reason nowMs)
      (step w (.rejectReferral tenantId id actorUserId reason nowMs)) := by
  apply effect_of_perform
  intro w' hok
  unfold perform rejectReferral at hok
  dsimp only at hok
  split at hok
  · cases hok
  · rename_i r hfind
    split_ifs at hok with hreason hcan
    cases hok
    exact effect_setReferral (rejectedRow actorUserId _ nowMs) hfind (fun _ => rfl) (fun _ => rfl) rfl rfl
      (Change.rejected tenantId id actorUserId reason _ nowMs r (getReferral_mem hfind).2
        (by simpa using hcan))

theorem effect_changeReferrer (w : World) (input : ReferrerInput) :
    Effect w (.changeReferrer input) (step w (.changeReferrer input)) := by
  apply effect_of_perform
  intro w' hok
  unfold perform changeReferrer at hok
  dsimp only at hok
  split at hok
  · cases hok
  · rename_i r hfind
    split at hok
    · cases hok
    · split at hok
      · cases hok
      · rename_i referrer _
        split_ifs at hok
        cases hok
        exact effect_setReferral (rereferredRow input referrer) hfind (fun _ => rfl) (fun _ => rfl) rfl rfl
          (Change.rereferred input referrer r (getReferral_mem hfind).2)

theorem effect_recheckAfterCancellation (w : World) (tenantId id : Nat) (nowMs : Int) :
    Effect w (.recheckAfterCancellation tenantId id nowMs)
      (step w (.recheckAfterCancellation tenantId id nowMs)) := by
  cases hfind : getReferral w tenantId id with
  | none =>
    apply effect_of_perform
    intro w' hok
    unfold perform recheckAfterCancellation qualificationFor at hok
    dsimp only at hok
    rw [hfind] at hok
    cases hok
  | some r =>
    obtain ⟨w', hok, hwritten, -⟩ := recheckAfterCancellation_rewritten hfind nowMs
    rw [step_ok (a := .recheckAfterCancellation tenantId id nowMs) hok]
    apply Effect.written w' tenantId _ _ hwritten
    rintro id' r' rfl hr'
    obtain ⟨-, rfl, rfl⟩ := getReferral_mem hr'
    exact Change.cancelled _ nowMs r' (if_pos ⟨rfl, rfl⟩)

theorem effect_saleCancelled (hn : Numbered (·.id) w.referrals) (tenantId : Nat) (nowMs : Int) :
    Effect w (.saleCancelled tenantId nowMs) (step w (.saleCancelled tenantId nowMs)) := by
  obtain ⟨w', hok, hwritten, -⟩ := saleCancelled_rewritten hn tenantId nowMs
  rw [step_ok (a := .saleCancelled tenantId nowMs) hok]
  apply Effect.written w' tenantId _ _ hwritten
  intro id' r' hlisted hr'
  obtain ⟨-, rfl, rfl⟩ := getReferral_mem hr'
  exact Change.cancelled _ nowMs r' (if_pos ⟨rfl, hlisted⟩)

theorem step_effect (hn : Numbered (·.id) w.referrals) (a : Action) : Effect w a (step w a) := by
  cases a with
  | attributeApplication input => exact effect_attributeApplication w input
  | markHired input => exact effect_markHired w input
  | markActivated tenantId id nowMs => exact effect_markActivated w tenantId id nowMs
  | recheckQualification tenantId id nowMs =>
    exact effect_recheckQualification _ w tenantId id nowMs
  | recheckAfterCancellation tenantId id nowMs =>
    exact effect_recheckAfterCancellation w tenantId id nowMs
  | approveReward input => exact effect_approveReward w input
  | rejectReferral tenantId id actorUserId reason nowMs =>
    exact effect_rejectReferral w tenantId id actorUserId reason nowMs
  | changeReferrer input => exact effect_changeReferrer w input
  | markPaid tenantId id nowMs => exact effect_markPaid w tenantId id nowMs
  | saleApproved tenantId repId nowMs =>
    apply effect_of_perform
    intro w' hok
    cases hok
    unfold saleApproved
    split
    · exact Effect.refused
    · exact effect_recheckQualification _ w tenantId _ nowMs
  | saleCancelled tenantId nowMs => exact effect_saleCancelled hn tenantId nowMs
  | surroundings s => exact Effect.elsewhere _ rfl

section

variable (hn : Numbered (·.id) w.referrals)
include hn

theorem numbered_step (a : Action) : Numbered (·.id) (step w a).referrals := by
  have heffect := step_effect hn a
  generalize step w a = w' at heffect ⊢
  cases heffect with
  | refused => exact hn
  | written _ tenantId written f hwritten _ => exact hwritten.numbered hn
  | applied _ row hreferrals hid _ _ =>
    rw [hreferrals]
    exact hn.snoc hid
  | elsewhere _ hreferrals =>
    rw [hreferrals]
    exact hn

theorem numbered_run (as : List Action) : Numbered (·.id) (run step w as).referrals :=
  run_invariant_all (I := fun w : World => Numbered (·.id) w.referrals)
    (fun _ a hn => numbered_step hn a) as hn

theorem step_row (a : Action) (hfind : getReferral w tenantId id = some r) :
    ∃ r', getReferral (step w a) tenantId id = some r' ∧ Change w a r r' := by
  have heffect := step_effect hn a
  generalize step w a = w' at heffect ⊢
  cases heffect with
  | refused => exact ⟨r, hfind, Change.kept a r⟩
  | written _ tenantId' written f hwritten hchange =>
    by_cases hrow : tenantId = tenantId' ∧ written id
    · obtain ⟨rfl, hid⟩ := hrow
      refine ⟨f r, ?_, hchange id r hid hfind⟩
      rw [hwritten.rows id hid, hfind]
      rfl
    · refine ⟨r, ?_, Change.kept a r⟩
      rw [hwritten.others tenantId id (by tauto)]
      exact hfind
  | applied _ row hreferrals _ _ _ =>
    refine ⟨r, ?_, Change.kept a r⟩
    unfold getReferral at hfind ⊢
    rw [hreferrals, find?_append, hfind]
    rfl
  | elsewhere _ hreferrals =>
    refine ⟨r, ?_, Change.kept a r⟩
    unfold getReferral at hfind ⊢
    rw [hreferrals]
    exact hfind

theorem step_row_new (a : Action) {r' : Referral} (hmissing : getReferral w tenantId id = none)
    (hfind : getReferral (step w a) tenantId id = some r') :
    r'.status = .applied ∧ r'.hiredAt = none := by
  have heffect := step_effect hn a
  generalize step w a = w' at heffect hfind
  cases heffect with
  | refused =>
    rw [hmissing] at hfind
    cases hfind
  | written _ tenantId' written f hwritten hchange =>
    by_cases hrow : tenantId = tenantId' ∧ written id
    · obtain ⟨rfl, hid⟩ := hrow
      rw [hwritten.rows id hid, hmissing] at hfind
      cases hfind
    · rw [hwritten.others tenantId id (by tauto), hmissing] at hfind
      cases hfind
  | applied _ row hreferrals _ hstatus hhired =>
    unfold getReferral at hfind hmissing
    rw [hreferrals, find?_append, hmissing, Option.none_or] at hfind
    have hmem := mem_singleton.mp (mem_of_find?_eq_some hfind)
    rw [hmem]
    exact ⟨hstatus, hhired⟩
  | elsewhere _ hreferrals =>
    unfold getReferral at hfind hmissing
    rw [hreferrals, hmissing] at hfind
    cases hfind

theorem step_row_cancelled {nowMs : Int} (hfind : getReferral w tenantId id = some r)
    (htime : recheckTime w tenantId id a = some nowMs) :
    getReferral (step w a) tenantId id = some (cancelled w.surroundings nowMs r) := by
  cases a with
  | recheckAfterCancellation tenantId' id' nowMs' =>
    unfold recheckTime at htime
    dsimp only at htime
    split_ifs at htime with hrow
    obtain ⟨rfl, rfl⟩ := hrow
    cases htime
    obtain ⟨w', hok, hwritten, -⟩ := recheckAfterCancellation_rewritten hfind nowMs
    rw [step_ok (a := .recheckAfterCancellation tenantId' id' nowMs) hok, hwritten.rows id' rfl,
      hfind]
    rfl
  | saleCancelled tenantId' nowMs' =>
    unfold recheckTime at htime
    dsimp only at htime
    split_ifs at htime with hrow
    obtain ⟨rfl, hlisted⟩ := hrow
    cases htime
    obtain ⟨w', hok, hwritten, -⟩ := saleCancelled_rewritten hn tenantId' nowMs
    rw [step_ok (a := .saleCancelled tenantId' nowMs) hok, hwritten.rows id hlisted, hfind]
    rfl
  | _ => cases htime

end

end HomefrontFiber.Referrals
