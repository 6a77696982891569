import HomefrontFiber.Recovery.Engine

/-!
# What one evaluation does to the cases

The store under its constraints, and one evaluation of an order: it touches the cases of that order
only, and whether it writes anything depends on the active case of the order and on nothing else
in the store.
-/

namespace HomefrontFiber.Recovery

open VendorOrders List

/-- What the keys and the partial unique index of the tables ensure. -/
structure RecoveryDb.Sound (db : RecoveryDb) : Prop where
  orders_ascend : db.orders.Pairwise (·.id < ·.id)
  orders_pos : ∀ o ∈ db.orders, 0 < o.id
  cases_nodup : (db.cases.map (·.id)).Nodup
  cases_below : ∀ c ∈ db.cases, c.id < db.nextCaseId
  one_active : ∀ c ∈ db.cases, ∀ c' ∈ db.cases, ∀ tenantId orderId : Nat,
    c.activeFor tenantId orderId → c'.activeFor tenantId orderId → c.id = c'.id

variable {db : RecoveryDb} {tenantId orderId : Nat}

def CasePatch.Settles (patch : CasePatch) : Prop := ∀ st ∈ patch.status, st.active = false

variable {patch : CasePatch} {c : RecoveryCase}

theorem CasePatch.Settles.active (h : patch.Settles)
    {clock : Int} (hactive : (c.patched patch clock).status.active = true) :
    c.status.active = true := by
  cases hst : patch.status with
  | none => simpa [RecoveryCase.patched, hst] using hactive
  | some st => simp [RecoveryCase.patched, hst, h st hst] at hactive

theorem RecoveryCase.activeFor_iff : c.activeFor tenantId orderId = true ↔
    c.tenantId = tenantId ∧ c.vendorOrderId = orderId ∧ c.status.active = true := by
  simp [RecoveryCase.activeFor, and_assoc]

namespace RecoveryDb

theorem Sound.case_unique (h : db.Sound) {c' : RecoveryCase} (hc : c ∈ db.cases)
    (hc' : c' ∈ db.cases) (hid : c.id = c'.id) : c = c' :=
  inj_on_of_nodup_map h.cases_nodup hc hc' hid

theorem Sound.order_unique (h : db.Sound) {o o' : VendorOrder} (ho : o ∈ db.orders)
    (ho' : o' ∈ db.orders) (hid : o.id = o'.id) : o = o' := by
  have hnd : (db.orders.map (·.id)).Nodup := by
    rw [List.Nodup, pairwise_map]
    exact h.orders_ascend.imp fun hlt => Nat.ne_of_lt hlt
  exact inj_on_of_nodup_map hnd ho ho' hid

theorem Sound.findActiveCase_iff (h : db.Sound) : db.findActiveCase tenantId orderId = some c ↔
      c ∈ db.cases ∧ c.activeFor tenantId orderId = true := by
  unfold findActiveCase
  constructor
  · intro hlast
    have hmem := mem_of_getLast? hlast
    exact mem_filter.mp hmem
  · rintro ⟨hc, hactive⟩
    have hmem : c ∈ db.cases.filter (·.activeFor tenantId orderId) :=
      mem_filter.mpr ⟨hc, hactive⟩
    cases hlast : (db.cases.filter (·.activeFor tenantId orderId)).getLast? with
    | none =>
      rw [getLast?_eq_none_iff.mp hlast] at hmem
      cases hmem
    | some c' =>
      obtain ⟨hc', hactive'⟩ := mem_filter.mp (mem_of_getLast? hlast)
      have hid := h.one_active c hc c' hc' _ _ hactive hactive'
      rw [h.case_unique hc hc' hid]

theorem findActiveCase_none_iff : db.findActiveCase tenantId orderId = none ↔
    ∀ c ∈ db.cases, c.activeFor tenantId orderId = false := by
  unfold findActiveCase
  rw [getLast?_eq_none_iff, filter_eq_nil_iff]
  simp only [Bool.not_eq_true]

theorem Sound.findActiveCase_congr {db' : RecoveryDb} (h : db.Sound) (h' : db'.Sound)
    (hsame : ∀ c, c.activeFor tenantId orderId = true → (c ∈ db'.cases ↔ c ∈ db.cases)) :
    db'.findActiveCase tenantId orderId = db.findActiveCase tenantId orderId := by
  apply Option.ext
  intro c
  rw [h.findActiveCase_iff, h'.findActiveCase_iff]
  constructor
  · exact fun ⟨hc, hactive⟩ => ⟨(hsame c hactive).mp hc, hactive⟩
  · exact fun ⟨hc, hactive⟩ => ⟨(hsame c hactive).mpr hc, hactive⟩

theorem mem_updateCase {id : Nat} {clock : Int} : c ∈ (db.updateCase id patch clock).cases ↔
      (c ∈ db.cases ∧ c.id ≠ id) ∨ ∃ c' ∈ db.cases, c'.id = id ∧ c'.patched patch clock = c := by
  unfold updateCase
  rw [mem_map]
  constructor
  · rintro ⟨c', hc', rfl⟩
    by_cases hid : c'.id = id
    · rw [if_pos hid]
      exact .inr ⟨c', hc', hid, rfl⟩
    · rw [if_neg hid]
      exact .inl ⟨hc', hid⟩
  · rintro (⟨hc, hid⟩ | ⟨c', hc', hid, rfl⟩)
    · exact ⟨c, hc, if_neg hid⟩
    · exact ⟨c', hc', if_pos hid⟩

theorem Sound.updateCase (h : db.Sound) (hpatch : patch.Settles) (id : Nat)
    (clock : Int) : (db.updateCase id patch clock).Sound where
  orders_ascend := h.orders_ascend
  orders_pos := h.orders_pos
  cases_nodup := by
    apply nodup_key_map h.cases_nodup
    intro c
    split <;> rfl
  cases_below := by
    intro c hc
    rcases mem_updateCase.mp hc with ⟨hc, -⟩ | ⟨c', hc', -, rfl⟩
    · exact h.cases_below c hc
    · exact h.cases_below c' hc'
  one_active := by
    -- Every row comes from a row with its id that was active for whatever the new row is.
    have horigin : ∀ c ∈ (db.updateCase id patch clock).cases, ∃ c₀ ∈ db.cases, c₀.id = c.id ∧
        ∀ t o : Nat, c.activeFor t o → c₀.activeFor t o := by
      intro c hc
      rcases mem_updateCase.mp hc with ⟨hc, -⟩ | ⟨c', hc', -, rfl⟩
      · exact ⟨c, hc, rfl, fun _ _ hactive => hactive⟩
      · refine ⟨c', hc', rfl, fun t o hactive => ?_⟩
        obtain ⟨ht, ho, hst⟩ := RecoveryCase.activeFor_iff.mp hactive
        exact RecoveryCase.activeFor_iff.mpr ⟨ht, ho, hpatch.active hst⟩
    intro c hc c' hc' t o hactive hactive'
    obtain ⟨c₀, hc₀, hid, horig⟩ := horigin c hc
    obtain ⟨c₀', hc₀', hid', horig'⟩ := horigin c' hc'
    rw [← hid, ← hid']
    exact h.one_active c₀ hc₀ c₀' hc₀' t o (horig t o hactive) (horig' t o hactive')

theorem Sound.findActiveCase_updateCase_other (h : db.Sound)
    (hpatch : patch.Settles) (hc : c ∈ db.cases) {clock : Int}
    (hother : c.vendorOrderId ≠ orderId) :
    (db.updateCase c.id patch clock).findActiveCase tenantId orderId =
      db.findActiveCase tenantId orderId := by
  apply h.findActiveCase_congr (h.updateCase hpatch c.id clock)
  intro c' hactive
  rw [mem_updateCase]
  obtain ⟨-, horder, -⟩ := RecoveryCase.activeFor_iff.mp hactive
  constructor
  · rintro (⟨hc', -⟩ | ⟨c₀, hc₀, hid, rfl⟩)
    · exact hc'
    · have heq := h.case_unique hc₀ hc hid
      rw [heq] at horder
      exact absurd horder hother
  · intro hc'
    refine .inl ⟨hc', fun hid => ?_⟩
    rw [h.case_unique hc' hc hid] at horder
    exact hother horder

/-- The active case of an order, once patched, is what is found if it is still active. -/
theorem Sound.findActiveCase_updateCase (h : db.Sound) (hpatch : patch.Settles) {clock : Int}
    (hc : db.findActiveCase tenantId orderId = some c) :
    (db.updateCase c.id patch clock).findActiveCase tenantId orderId =
      if (c.patched patch clock).status.active then some (c.patched patch clock) else none := by
  obtain ⟨hmem, hactive⟩ := h.findActiveCase_iff.mp hc
  obtain ⟨htenant, horder, -⟩ := RecoveryCase.activeFor_iff.mp hactive
  have hpatched : c.patched patch clock ∈ (db.updateCase c.id patch clock).cases :=
    mem_updateCase.mpr (.inr ⟨c, hmem, rfl, rfl⟩)
  split
  · rename_i hst
    apply (h.updateCase hpatch c.id clock).findActiveCase_iff.mpr
    exact ⟨hpatched, RecoveryCase.activeFor_iff.mpr ⟨htenant, horder, hst⟩⟩
  · rename_i hst
    apply findActiveCase_none_iff.mpr
    intro c' hc'
    apply Bool.eq_false_iff.mpr
    intro hactive'
    rcases mem_updateCase.mp hc' with ⟨hc₀, hne⟩ | ⟨c₀, hc₀, hid, rfl⟩
    · exact hne (h.one_active c' hc₀ c hmem _ _ hactive' hactive)
    · rw [h.case_unique hc₀ hmem hid] at hactive'
      exact hst (RecoveryCase.activeFor_iff.mp hactive').2.2

theorem Sound.withEvents (h : db.Sound) (events : List RecoveryCaseEvent) :
    { db with caseEvents := events }.Sound :=
  ⟨h.orders_ascend, h.orders_pos, h.cases_nodup, h.cases_below, h.one_active⟩

theorem openCase_of_none (input : NewCase) (clock : Int)
    (hnone : db.findActiveCase input.tenantId input.vendorOrderId = none) :
    db.openCase input clock = ({ db with
      cases := db.cases ++ [input.row db.nextCaseId clock]
      nextCaseId := db.nextCaseId + 1 }, some db.nextCaseId) := by
  unfold openCase
  apply if_neg
  rw [any_eq_true]
  rintro ⟨c, hc, hactive⟩
  rw [findActiveCase_none_iff.mp hnone c hc] at hactive
  cases hactive

theorem Sound.insert (h : db.Sound) {input : NewCase} (clock : Int)
    (hnone : db.findActiveCase input.tenantId input.vendorOrderId = none) :
    { db with
      cases := db.cases ++ [input.row db.nextCaseId clock]
      nextCaseId := db.nextCaseId + 1 }.Sound where
  orders_ascend := h.orders_ascend
  orders_pos := h.orders_pos
  cases_nodup := by
    rw [map_append, map_singleton, nodup_append]
    refine ⟨h.cases_nodup, nodup_singleton _, ?_⟩
    intro id hid id' hid'
    obtain ⟨c, hc, rfl⟩ := mem_map.mp hid
    rw [mem_singleton.mp hid']
    exact Nat.ne_of_lt (h.cases_below c hc)
  cases_below := by
    intro c hc
    rcases mem_append.mp hc with hc | hc
    · exact Nat.lt_succ_of_lt (h.cases_below c hc)
    · rw [mem_singleton.mp hc]
      exact Nat.lt_succ_self _
  one_active := by
    have hnew : ∀ c ∈ db.cases, ∀ t o : Nat, c.activeFor t o →
        ¬(input.row db.nextCaseId clock).activeFor t o := by
      intro c hc t o hactive hrow
      obtain ⟨rfl, rfl, -⟩ := RecoveryCase.activeFor_iff.mp hrow
      have hfalse := findActiveCase_none_iff.mp hnone c hc
      exact absurd hactive (by simpa [NewCase.row] using hfalse)
    intro c hc c' hc' t o hactive hactive'
    rcases mem_append.mp hc with hc | hc <;> rcases mem_append.mp hc' with hc' | hc'
    · exact h.one_active c hc c' hc' t o hactive hactive'
    · rw [mem_singleton.mp hc'] at hactive'
      exact absurd hactive' (hnew c hc t o hactive)
    · rw [mem_singleton.mp hc] at hactive
      exact absurd hactive (hnew c' hc' t o hactive')
    · rw [mem_singleton.mp hc, mem_singleton.mp hc']

theorem Sound.findActiveCase_insert (h : db.Sound) {input : NewCase} (clock : Int)
    (hnone : db.findActiveCase input.tenantId input.vendorOrderId = none) :
    { db with
      cases := db.cases ++ [input.row db.nextCaseId clock]
      nextCaseId := db.nextCaseId + 1 }.findActiveCase input.tenantId input.vendorOrderId =
      some (input.row db.nextCaseId clock) := by
  apply (h.insert clock hnone).findActiveCase_iff.mpr
  constructor
  · exact mem_append_right _ (mem_singleton_self _)
  · exact RecoveryCase.activeFor_iff.mpr ⟨rfl, rfl, rfl⟩

theorem Sound.findActiveCase_insert_other (h : db.Sound) {input : NewCase} (clock : Int)
    (hnone : db.findActiveCase input.tenantId input.vendorOrderId = none)
    (hother : input.vendorOrderId ≠ orderId) :
    { db with
      cases := db.cases ++ [input.row db.nextCaseId clock]
      nextCaseId := db.nextCaseId + 1 }.findActiveCase tenantId orderId =
      db.findActiveCase tenantId orderId := by
  apply h.findActiveCase_congr (h.insert clock hnone)
  intro c hactive
  obtain ⟨-, horder, -⟩ := RecoveryCase.activeFor_iff.mp hactive
  rw [mem_append, mem_singleton]
  constructor
  · rintro (hc | rfl)
    · exact hc
    · exact absurd horder hother
  · exact .inl

end RecoveryDb

def rescorePatch (existing : RecoveryCase) (order : VendorOrder) (decision : RecoveryDecision)
    (policy : RecoveryPolicy) (now : Int) : CasePatch where
  priority := some (rescored existing order decision policy now)
  daysStalled := some (refreshedDays existing decision)
  recoveryReason := refreshedReason existing decision

theorem rescorePatch_settles (existing : RecoveryCase) (order : VendorOrder)
    (decision : RecoveryDecision) (policy : RecoveryPolicy) (now : Int) :
    (rescorePatch existing order decision policy now).Settles := by
  intro st hst
  cases hst

/-- The order neither installed nor lost, and a re-score that changes no column of its case. -/
structure Steady (existing : RecoveryCase) (order : VendorOrder) (decision : RecoveryDecision)
    (policy : RecoveryPolicy) (now : Int) : Prop where
  not_installed : order.normalizedStatus ≠ .installed
  not_closed : closesCase order decision = false
  priority : rescored existing order decision policy now = existing.priority
  days : refreshedDays existing decision = existing.daysStalled
  reason : refreshedReason existing decision = none

variable {existing : RecoveryCase} {order : VendorOrder} {decision : RecoveryDecision}
  {policy : RecoveryPolicy} {now clock : Int}

theorem refreshExistingCase_cases (db : RecoveryDb) (tenantId : Nat) (existing : RecoveryCase)
    (order : VendorOrder) (decision : RecoveryDecision) (policy : RecoveryPolicy)
    (now clock : Int) :
    (∃ patch events, (∃ st ∈ patch.status, st.active = false) ∧
      (order.normalizedStatus = .installed ∨ closesCase order decision = true) ∧
      refreshExistingCase db tenantId existing order decision policy now clock =
        ({ db.updateCase existing.id patch clock with caseEvents := events }, .escalated)) ∨
    (Steady existing order decision policy now ∧
      refreshExistingCase db tenantId existing order decision policy now clock =
        (db, .unchanged)) ∨
    (order.normalizedStatus ≠ .installed ∧ closesCase order decision = false ∧
      ¬Steady existing order decision policy now ∧
      ∃ events, refreshExistingCase db tenantId existing order decision policy now clock =
        ({ db.updateCase existing.id (rescorePatch existing order decision policy now) clock with
          caseEvents := events }, .escalated)) := by
  by_cases hinstalled : order.normalizedStatus = .installed
  · left
    have hyes : isInstalledOrderStatus order.normalizedStatus = true := by
      simpa [isInstalledOrderStatus] using hinstalled
    have hrefresh : refreshExistingCase db tenantId existing order decision policy now clock =
        ((db.updateCase existing.id (installedPatch order now) clock).appendCaseEvent
          (engineEvent tenantId existing.id .resolved "The order installed."), .escalated) :=
      if_pos hyes
    exact ⟨installedPatch order now, _, ⟨.resolved, rfl, rfl⟩, .inl hinstalled, hrefresh⟩
  have hnot : ¬isInstalledOrderStatus order.normalizedStatus = true := by
    simpa [isInstalledOrderStatus] using hinstalled
  cases hcloses : closesCase order decision with
  | true =>
    left
    have hrefresh : refreshExistingCase db tenantId existing order decision policy now clock =
        ((db.updateCase existing.id (lostPatch order now) clock).appendCaseEvent
          (engineEvent tenantId existing.id .closed
            ("Closed because the provider marked the order " ++ order.normalizedStatus.text ++
              ".")), .escalated) := by
      unfold refreshExistingCase
      rw [if_neg hnot, if_pos hcloses]
    exact ⟨lostPatch order now, _, ⟨.notRecoverable, rfl, rfl⟩, .inr rfl, hrefresh⟩
  | false =>
    right
    have hopen : ¬closesCase order decision = true := by
      rw [hcloses]
      exact Bool.false_ne_true
    by_cases hsteady : rescored existing order decision policy now = existing.priority ∧
        refreshedDays existing decision = existing.daysStalled ∧
        refreshedReason existing decision = none
    · left
      obtain ⟨hpriority, hdays, hreason⟩ := hsteady
      refine ⟨⟨hinstalled, hcloses, hpriority, hdays, hreason⟩, ?_⟩
      unfold refreshExistingCase
      dsimp only
      rw [if_neg hnot, if_neg hopen, if_pos ⟨hpriority, hdays, hreason⟩]
    · right
      refine ⟨hinstalled, rfl, fun h => hsteady ⟨h.priority, h.days, h.reason⟩, ?_⟩
      unfold refreshExistingCase
      dsimp only
      rw [if_neg hnot, if_neg hopen, if_neg hsteady]
      unfold rescorePatch
      cases refreshedReason existing decision with
      | none =>
        dsimp only
        split
        · exact ⟨_, rfl⟩
        · exact ⟨_, rfl⟩
      | some reason =>
        dsimp only
        split
        · exact ⟨_, rfl⟩
        · exact ⟨_, rfl⟩

theorem steady_rescored (hinstalled : order.normalizedStatus ≠ .installed)
    (hcloses : closesCase order decision = false) :
    Steady (existing.patched (rescorePatch existing order decision policy now) clock) order
      decision policy now where
  not_installed := hinstalled
  not_closed := hcloses
  priority := by
    cases decision with
    | open_ reason priority daysStalled =>
      show escalatePriority (raise (escalatePriority (raise existing.priority priority) _ _ _)
        priority) _ _ _ = escalatePriority (raise existing.priority priority) _ _ _
      rw [raise_escalatePriority]
      exact escalatePriority_idem _ _ _ _
    | refuse ineligible =>
      show escalatePriority (raise (escalatePriority (raise existing.priority existing.priority)
        _ _ _) (escalatePriority (raise existing.priority existing.priority) _ _ _)) _ _ _ =
        escalatePriority (raise existing.priority existing.priority) _ _ _
      rw [raise_self (escalatePriority _ _ _ _)]
      exact escalatePriority_idem _ _ _ _
  days := by cases decision <;> rfl
  reason := by
    cases decision with
    | open_ reason priority daysStalled =>
      by_cases hreason : reason = existing.recoveryReason
      · simp [refreshedReason, rescorePatch, RecoveryCase.patched, hreason]
      · simp [refreshedReason, rescorePatch, RecoveryCase.patched, hreason]
    | refuse ineligible => rfl

/-- What an evaluation of an order can do to a store, by the active case of the order. -/
inductive Evaluation (f : Surroundings) (tenantId : Nat) (policy : RecoveryPolicy) (now : Int)
    (wall : Nat → Int) (db : RecoveryDb) (order : VendorOrder) :
    RecoveryDb × OrderOutcome → Prop
  | closed {existing : RecoveryCase} {patch : CasePatch} {st : RecoveryCaseStatus}
      (events : List RecoveryCaseEvent)
      (hfound : db.findActiveCase tenantId order.id = some existing)
      (hstatus : patch.status = some st) (hclosed : st.active = false)
      (hwhy : order.normalizedStatus = .installed ∨
        closesCase order (decisionOn f tenantId order policy now) = true) :
      Evaluation f tenantId policy now wall db order
        ({ db.updateCase existing.id patch (wall order.id) with caseEvents := events }, .escalated)
  | steady {existing : RecoveryCase}
      (hfound : db.findActiveCase tenantId order.id = some existing)
      (hsteady : Steady existing order (decisionOn f tenantId order policy now) policy now) :
      Evaluation f tenantId policy now wall db order (db, .unchanged)
  | rescored {existing : RecoveryCase} (events : List RecoveryCaseEvent)
      (hfound : db.findActiveCase tenantId order.id = some existing)
      (hinstalled : order.normalizedStatus ≠ .installed)
      (hcloses : closesCase order (decisionOn f tenantId order policy now) = false)
      (hsteady : ¬Steady existing order (decisionOn f tenantId order policy now) policy now) :
      Evaluation f tenantId policy now wall db order
        ({ db.updateCase existing.id (rescorePatch existing order
            (decisionOn f tenantId order policy now) policy now) (wall order.id) with
          caseEvents := events }, .escalated)
  | refused {ineligible : RecoveryIneligibleReason}
      (hnone : db.findActiveCase tenantId order.id = none)
      (hdecision : decisionOn f tenantId order policy now = .refuse ineligible) :
      Evaluation f tenantId policy now wall db order (db, .unchanged)
  | opened {reason : RecoveryReason} {priority : RecoveryPriority} {daysStalled : Int}
      (events : List RecoveryCaseEvent)
      (hnone : db.findActiveCase tenantId order.id = none)
      (hdecision : decisionOn f tenantId order policy now = .open_ reason priority daysStalled) :
      Evaluation f tenantId policy now wall db order
        ({ db with
          cases := db.cases ++ [(newCase f tenantId order reason priority daysStalled now).row
            db.nextCaseId (wall order.id)]
          nextCaseId := db.nextCaseId + 1
          caseEvents := events }, .opened)

theorem evaluateOneOrder_spec (f : Surroundings) (tenantId : Nat) (policy : RecoveryPolicy)
    (now : Int) (wall : Nat → Int) (db : RecoveryDb) (order : VendorOrder) :
    Evaluation f tenantId policy now wall db order
      (evaluateOneOrder f tenantId policy now wall db order) := by
  unfold evaluateOneOrder
  dsimp only
  cases hfound : db.findActiveCase tenantId order.id with
  | some existing =>
    dsimp only
    rcases refreshExistingCase_cases db tenantId existing order
        (decisionOn f tenantId order policy now) policy now (wall order.id) with
      ⟨patch, events, ⟨st, hstatus, hclosed⟩, hwhy, hrefresh⟩ | ⟨hsteady, hrefresh⟩ |
      ⟨hinstalled, hcloses, hsteady, events, hrefresh⟩
    · rw [hrefresh]
      exact .closed events hfound hstatus hclosed hwhy
    · rw [hrefresh]
      exact .steady hfound hsteady
    · rw [hrefresh]
      exact .rescored events hfound hinstalled hcloses hsteady
  | none =>
    dsimp only
    cases hdecision : decisionOn f tenantId order policy now with
    | refuse ineligible => exact .refused hfound hdecision
    | open_ reason priority daysStalled =>
      dsimp only
      rw [RecoveryDb.openCase_of_none _ _ hfound]
      dsimp only
      split
      · exact .opened _ hfound hdecision
      · exact .opened _ hfound hdecision

namespace Evaluation

variable {f : Surroundings} {wall : Nat → Int} {r : RecoveryDb × OrderOutcome}

theorem settles_of_closed {st : RecoveryCaseStatus}
    (hstatus : patch.status = some st) (hclosed : st.active = false) : patch.Settles := by
  intro st' hst'
  rw [hstatus] at hst'
  exact Option.some.inj hst' ▸ hclosed

section

variable (h : Evaluation f tenantId policy now wall db order r)
include h

theorem orders : r.1.orders = db.orders := by
  cases h <;> rfl

theorem sound (hdb : db.Sound) : r.1.Sound := by
  cases h with
  | closed events hfound hstatus hclosed =>
    exact (hdb.updateCase (settles_of_closed hstatus hclosed) _ _).withEvents events
  | steady => exact hdb
  | rescored events hfound =>
    exact (hdb.updateCase (rescorePatch_settles _ _ _ _ _) _ _).withEvents events
  | refused => exact hdb
  | @opened reason priority daysStalled events hnone =>
    have hinput : db.findActiveCase
        (newCase f tenantId order reason priority daysStalled now).tenantId
        (newCase f tenantId order reason priority daysStalled now).vendorOrderId = none := hnone
    exact (hdb.insert (wall order.id) hinput).withEvents events

theorem apart (hdb : db.Sound) (hother : order.id ≠ orderId) :
    r.1.findActiveCase tenantId orderId = db.findActiveCase tenantId orderId := by
  have hcase : ∀ {existing : RecoveryCase}, db.findActiveCase tenantId order.id = some existing →
      existing ∈ db.cases ∧ existing.vendorOrderId ≠ orderId := by
    intro existing hfound
    obtain ⟨hmem, hactive⟩ := hdb.findActiveCase_iff.mp hfound
    exact ⟨hmem, (RecoveryCase.activeFor_iff.mp hactive).2.1 ▸ hother⟩
  cases h with
  | closed events hfound hstatus hclosed =>
    obtain ⟨hmem, hne⟩ := hcase hfound
    exact hdb.findActiveCase_updateCase_other (settles_of_closed hstatus hclosed) hmem hne
  | steady => rfl
  | rescored events hfound =>
    obtain ⟨hmem, hne⟩ := hcase hfound
    exact hdb.findActiveCase_updateCase_other (rescorePatch_settles _ _ _ _ _) hmem hne
  | refused => rfl
  | @opened reason priority daysStalled events hnone =>
    have hinput : db.findActiveCase
        (newCase f tenantId order reason priority daysStalled now).tenantId
        (newCase f tenantId order reason priority daysStalled now).vendorOrderId = none := hnone
    exact hdb.findActiveCase_insert_other (wall order.id) hinput hother

theorem eq_of_unchanged (hunchanged : r.2 = .unchanged) : r.1 = db := by
  cases h with
  | closed => cases hunchanged
  | steady => rfl
  | rescored => cases hunchanged
  | refused => rfl
  | opened => cases hunchanged

end

end Evaluation

end HomefrontFiber.Recovery
