import HomefrontFiber.Foundation.LocalFold
import HomefrontFiber.Recovery.Cases

/-!
# Running the recovery pass twice

A second pass at the same instant should change nothing. The second visit to an order finds the
case that the first one left, and it re-scores an opened case by how long it is open and by how
soon the install is; the decision that opened the case looked at neither. So the passes are
idempotent exactly when no case is opened below the priority that its first re-score gives it.
-/

namespace HomefrontFiber.Recovery

open VendorOrders List

/-- A pass over a sound store, and a second pass at the same instant; the clock of the server has
moved on in between. -/
structure Rerun where
  surroundings : Surroundings
  tenantId : Nat
  now : Int
  db : RecoveryDb
  wall : Nat → Int
  wallAgain : Nat → Int
  sound : db.Sound

namespace Rerun

variable (p : Rerun)

def policy : RecoveryPolicy := p.surroundings.policy p.tenantId

def decision (order : VendorOrder) : RecoveryDecision :=
  decisionOn p.surroundings p.tenantId order p.policy p.now

def first : RecoveryDb × EvaluationSummary :=
  evaluateTenantRecovery p.surroundings p.tenantId p.now p.wall p.db

def second : RecoveryDb × EvaluationSummary :=
  evaluateTenantRecovery p.surroundings p.tenantId p.now p.wallAgain p.first.1

/-- The second pass opens, escalates and resolves nothing and writes nothing. -/
structure Idempotent : Prop where
  opened : p.second.2.opened = 0
  escalated : p.second.2.escalated = 0
  autoResolved : p.second.2.autoResolved = 0
  db_kept : p.second.1 = p.first.1

/-- A case just opened is high already, or nothing about it raises a case to high: its install is
not within two days and it is not open for as long as the policy waits. -/
def OpensHigh (order : VendorOrder) : Prop :=
  p.db.findActiveCase p.tenantId order.id = none →
    ∀ reason priority daysStalled, p.decision order = .open_ reason priority daysStalled →
      priority.rank ≤ 1 ∨ (scheduledHours order p.now).all (48 < ·) ∧
        ((max 0 ((p.now - p.wall order.id) / 86400000) : Int) : Rat) <
          p.policy.escalateAfterDaysOpen

variable {p}

variable {db : RecoveryDb} {row : RecoveryCase × VendorOrder} {c : RecoveryCase}
  {order o : VendorOrder}

theorem closeInstalled_sound (h : db.Sound) (tenantId : Nat) (now : Int)
    (wall : Nat → Int) (row : RecoveryCase × VendorOrder) :
    (closeInstalled tenantId now wall db row).Sound := by
  have hsettles : (installedPatch row.2 now).Settles := by
    intro st hst
    cases hst
    rfl
  exact (h.updateCase hsettles _ _).withEvents _

theorem mem_closeInstalled {tenantId : Nat} {now : Int} {wall : Nat → Int}
    (hactive : c.status.active = true) :
    c ∈ (closeInstalled tenantId now wall db row).cases ↔ c ∈ db.cases ∧ row.1.id ≠ c.id := by
  show c ∈ (db.updateCase row.1.id (installedPatch row.2 now) (wall row.2.id)).cases ↔ _
  rw [RecoveryDb.mem_updateCase]
  constructor
  · rintro (⟨hc, hid⟩ | ⟨c', -, -, rfl⟩)
    · exact ⟨hc, hid.symm⟩
    · cases hactive
  · rintro ⟨hc, hid⟩
    exact .inl ⟨hc, hid.symm⟩

theorem foldl_closeInstalled (h : db.Sound) (tenantId : Nat) (now : Int)
    (wall : Nat → Int) (rows : List (RecoveryCase × VendorOrder)) :
    (rows.foldl (closeInstalled tenantId now wall) db).Sound ∧
      (rows.foldl (closeInstalled tenantId now wall) db).orders = db.orders ∧
      ∀ c : RecoveryCase, c.status.active = true →
        (c ∈ (rows.foldl (closeInstalled tenantId now wall) db).cases ↔
          c ∈ db.cases ∧ ∀ row ∈ rows, row.1.id ≠ c.id) := by
  induction rows generalizing db with
  | nil => exact ⟨h, rfl, fun c _ => by simp⟩
  | cons row rows ih =>
    obtain ⟨hsound, horders, hcases⟩ := ih (closeInstalled_sound h tenantId now wall row)
    refine ⟨hsound, horders, fun c hactive => ?_⟩
    rw [foldl_cons, hcases c hactive, mem_closeInstalled hactive, forall_mem_cons,
      and_assoc]

/-- A case is closed as installed exactly when it is active and its order is installed. -/
theorem mem_installedRows {tenantId : Nat} (hrow : row ∈ db.installedRows tenantId) :
    row.1 ∈ db.cases ∧ row.1.activeFor tenantId row.1.vendorOrderId = true ∧
      ∃ o ∈ db.orders, o.id = row.1.vendorOrderId ∧ o.tenantId = tenantId ∧
        o.normalizedStatus = .installed := by
  obtain ⟨c, hc, hrow⟩ := mem_filterMap.mp hrow
  split at hrow
  · rename_i hactive
    obtain ⟨o, hfind, rfl⟩ := Option.map_eq_some_iff.mp hrow
    have ho := find?_some hfind
    simp only [Bool.and_eq_true, decide_eq_true_eq] at ho
    exact ⟨hc, RecoveryCase.activeFor_iff.mpr ⟨hactive.1, rfl, hactive.2⟩, o,
      mem_of_find?_eq_some hfind, ho.1.1, ho.1.2, ho.2⟩
  · cases hrow

theorem exists_installedRows {tenantId : Nat}
    (hc : c ∈ db.cases) (hactive : c.activeFor tenantId order.id = true)
    (ho : order ∈ db.orders) (htenant : order.tenantId = tenantId)
    (hinstalled : order.normalizedStatus = .installed) :
    ∃ row ∈ db.installedRows tenantId, row.1 = c := by
  obtain ⟨hctenant, horder, hst⟩ := RecoveryCase.activeFor_iff.mp hactive
  cases hfind : db.orders.find? fun o => decide (o.id = c.vendorOrderId) &&
      decide (o.tenantId = tenantId) && decide (o.normalizedStatus = .installed) with
  | none =>
    have hnone := find?_eq_none.mp hfind order ho
    simp [horder, htenant, hinstalled] at hnone
  | some o =>
    refine ⟨(c, o), mem_filterMap.mpr ⟨c, hc, ?_⟩, rfl⟩
    rw [if_pos ⟨hctenant, hst⟩, hfind]
    rfl

section Scan

variable {f : Surroundings} {tenantId : Nat} {policy : RecoveryPolicy} {now : Int}
  {wall wallAgain : Nat → Int}

theorem foldl_visit_fst (l : List VendorOrder) (s : RecoveryDb × EvaluationSummary) :
    (l.foldl (visit f tenantId policy now wall) s).1 =
      l.foldl (fun db o => (evaluateOneOrder f tenantId policy now wall db o).1) s.1 := by
  induction l generalizing s with
  | nil => rfl
  | cons o l ih => exact ih _

theorem localSteps_evaluate (orders : List VendorOrder) :
    LocalSteps VendorOrder.id (fun db => RecoveryDb.Sound db ∧ db.orders = orders)
      (fun db id => db.findActiveCase tenantId id)
      fun db o => (evaluateOneOrder f tenantId policy now wall db o).1 where
  keeps := by
    intro db o ⟨hsound, horders⟩
    have hspec := evaluateOneOrder_spec f tenantId policy now wall db o
    exact ⟨hspec.sound hsound, hspec.orders.trans horders⟩
  apart := by
    intro db o id ⟨hsound, _⟩ hother
    exact (evaluateOneOrder_spec f tenantId policy now wall db o).apart hsound hother

theorem EvaluationSummary.le_count (s : EvaluationSummary) (o : OrderOutcome) :
    s.opened ≤ (s.count o).opened ∧ s.escalated ≤ (s.count o).escalated := by
  cases o with
  | opened => exact ⟨Nat.le_succ _, le_refl _⟩
  | escalated => exact ⟨le_refl _, Nat.le_succ _⟩
  | unchanged => exact ⟨le_refl _, le_refl _⟩

theorem le_foldl_visit (l : List VendorOrder) (s : RecoveryDb × EvaluationSummary) :
    s.2.opened ≤ (l.foldl (visit f tenantId policy now wall) s).2.opened ∧
      s.2.escalated ≤ (l.foldl (visit f tenantId policy now wall) s).2.escalated := by
  induction l generalizing s with
  | nil => exact ⟨le_refl _, le_refl _⟩
  | cons o l ih =>
    obtain ⟨hopened, hescalated⟩ := ih (visit f tenantId policy now wall s o)
    obtain ⟨hopened', hescalated'⟩ := EvaluationSummary.le_count s.2
      (evaluateOneOrder f tenantId policy now wall s.1 o).2
    exact ⟨hopened'.trans hopened, hescalated'.trans hescalated⟩

variable {l : List VendorOrder} {s : RecoveryDb × EvaluationSummary}

theorem foldl_visit_of_unchanged
    (h : ∀ o ∈ l, (evaluateOneOrder f tenantId policy now wall s.1 o).2 = .unchanged) :
    (l.foldl (visit f tenantId policy now wall) s).1 = s.1 ∧
      (l.foldl (visit f tenantId policy now wall) s).2.opened = s.2.opened ∧
      (l.foldl (visit f tenantId policy now wall) s).2.escalated = s.2.escalated ∧
      (l.foldl (visit f tenantId policy now wall) s).2.autoResolved = s.2.autoResolved := by
  induction l generalizing s with
  | nil => exact ⟨rfl, rfl, rfl, rfl⟩
  | cons o l ih =>
    have hhead := h o mem_cons_self
    have hdb := (evaluateOneOrder_spec f tenantId policy now wall s.1 o).eq_of_unchanged hhead
    have hvisit : visit f tenantId policy now wall s o = (s.1, s.2.count .unchanged) := by
      unfold visit
      dsimp only
      rw [hdb, hhead]
    rw [foldl_cons, hvisit]
    exact ih fun o' ho' => h o' (mem_cons_of_mem o ho')

theorem unchanged_of_foldl_visit
    (hopened : (l.foldl (visit f tenantId policy now wall) s).2.opened = s.2.opened)
    (hescalated : (l.foldl (visit f tenantId policy now wall) s).2.escalated = s.2.escalated) :
    ∀ o ∈ l, (evaluateOneOrder f tenantId policy now wall s.1 o).2 = .unchanged := by
  induction l generalizing s with
  | nil => exact fun o ho => nomatch ho
  | cons o l ih =>
    have hmono : ∀ s' : RecoveryDb × EvaluationSummary,
        s'.2.opened ≤ (l.foldl (visit f tenantId policy now wall) s').2.opened ∧
        s'.2.escalated ≤ (l.foldl (visit f tenantId policy now wall) s').2.escalated :=
      le_foldl_visit l
    obtain ⟨hle, hle'⟩ := hmono (visit f tenantId policy now wall s o)
    rw [foldl_cons] at hopened hescalated
    rw [hopened] at hle
    rw [hescalated] at hle'
    have hhead : (evaluateOneOrder f tenantId policy now wall s.1 o).2 = .unchanged := by
      cases houtcome : (evaluateOneOrder f tenantId policy now wall s.1 o).2 with
      | opened =>
        simp only [visit, houtcome, EvaluationSummary.count] at hle
        omega
      | escalated =>
        simp only [visit, houtcome, EvaluationSummary.count] at hle'
        omega
      | unchanged => rfl
    have hdb := (evaluateOneOrder_spec f tenantId policy now wall s.1 o).eq_of_unchanged hhead
    have hvisit : visit f tenantId policy now wall s o = (s.1, s.2.count .unchanged) := by
      unfold visit
      dsimp only
      rw [hdb, hhead]
    rw [hvisit] at hopened hescalated
    intro o' ho'
    rcases mem_cons.mp ho' with rfl | ho'
    · exact hhead
    · exact ih hopened hescalated o' ho'

theorem unchanged_iff (db : RecoveryDb) (order : VendorOrder) :
    (evaluateOneOrder f tenantId policy now wall db order).2 = .unchanged ↔
      match db.findActiveCase tenantId order.id with
      | some existing => Steady existing order (decisionOn f tenantId order policy now) policy now
      | none => ∃ ineligible, decisionOn f tenantId order policy now = .refuse ineligible := by
  have hspec := evaluateOneOrder_spec f tenantId policy now wall db order
  generalize evaluateOneOrder f tenantId policy now wall db order = r at hspec
  cases hspec with
  | closed events hfound _ _ hwhy =>
    rw [hfound]
    refine iff_of_false (fun h => nomatch h) fun hsteady => ?_
    rcases hwhy with hinstalled | hcloses
    · exact hsteady.not_installed hinstalled
    · rw [hsteady.not_closed] at hcloses
      cases hcloses
  | steady hfound hsteady =>
    rw [hfound]
    exact iff_of_true rfl hsteady
  | rescored events hfound _ _ hsteady =>
    rw [hfound]
    exact iff_of_false (fun h => nomatch h) hsteady
  | refused hnone hdecision =>
    rw [hnone]
    exact iff_of_true rfl ⟨_, hdecision⟩
  | opened events hnone hdecision =>
    rw [hnone]
    refine iff_of_false (fun h => nomatch h) ?_
    rintro ⟨ineligible, hrefuse⟩
    rw [hdecision] at hrefuse
    cases hrefuse

/-- A new case is steady when it was opened high, or nothing yet raises a case to high. -/
theorem steady_row_iff (hinstalled : order.normalizedStatus ≠ .installed)
    (reason : RecoveryReason) (priority : RecoveryPriority) (daysStalled : Int) (id : Nat)
    (clock : Int) :
    Steady ((newCase f tenantId order reason priority daysStalled now).row id clock) order
        (.open_ reason priority daysStalled) policy now ↔
      priority.rank ≤ 1 ∨ (scheduledHours order now).all (48 < ·) ∧
        ((max 0 ((now - clock) / 86400000) : Int) : Rat) < policy.escalateAfterDaysOpen := by
  rw [← escalatePriority_eq_self_iff]
  have hrescored : rescored ((newCase f tenantId order reason priority daysStalled now).row id
      clock) order (.open_ reason priority daysStalled) policy now =
      escalatePriority priority (max 0 ((now - clock) / 86400000)) (scheduledHours order now)
        policy := by
    show escalatePriority (raise priority priority) _ _ _ = _
    rw [raise_self]
    rfl
  constructor
  · intro h
    exact hrescored.symm.trans h.priority
  · intro h
    exact ⟨hinstalled, rfl, hrescored.trans h, rfl, if_pos rfl⟩

/-- The visit to an order after an earlier visit to it changes nothing, unless the earlier one
opened a case below what its first re-score makes of it. -/
theorem unchanged_again_iff {db' : RecoveryDb} (hdb : db.Sound)
    (hinstalled : order.normalizedStatus ≠ .installed)
    (hfind : db'.findActiveCase tenantId order.id =
      (evaluateOneOrder f tenantId policy now wall db order).1.findActiveCase tenantId order.id) :
    (evaluateOneOrder f tenantId policy now wallAgain db' order).2 = .unchanged ↔
      (db.findActiveCase tenantId order.id = none → ∀ reason priority daysStalled,
        decisionOn f tenantId order policy now = .open_ reason priority daysStalled →
          priority.rank ≤ 1 ∨ (scheduledHours order now).all (48 < ·) ∧
            ((max 0 ((now - wall order.id) / 86400000) : Int) : Rat) <
              policy.escalateAfterDaysOpen) := by
  rw [unchanged_iff, hfind]
  have hspec := evaluateOneOrder_spec f tenantId policy now wall db order
  generalize evaluateOneOrder f tenantId policy now wall db order = r at hspec
  cases hspec with
  | @closed existing patch st events hfound hstatus hclosed hwhy =>
    -- A closed case is not found again, and the decision that closed it opens no other one.
    have hsettles := Evaluation.settles_of_closed hstatus hclosed
    have hpatched : (existing.patched patch (wall order.id)).status = st := by
      show patch.status.getD existing.status = st
      rw [hstatus]
      rfl
    have hgone : (db.updateCase existing.id patch (wall order.id)).findActiveCase tenantId
        order.id = none := by
      rw [hdb.findActiveCase_updateCase hsettles hfound, hpatched, if_neg]
      rw [hclosed]
      exact Bool.false_ne_true
    have hcloses := hwhy.resolve_left hinstalled
    have hrefuse : ∃ ineligible, decisionOn f tenantId order policy now = .refuse ineligible := by
      cases hdecision : decisionOn f tenantId order policy now with
      | open_ => rw [hdecision] at hcloses; cases hcloses
      | refuse ineligible => exact ⟨ineligible, rfl⟩
    refine iff_of_true ?_ fun hnone => ?_
    · show match (db.updateCase existing.id patch (wall order.id)).findActiveCase tenantId
        order.id with | some _ => _ | none => _
      rw [hgone]
      exact hrefuse
    · rw [hfound] at hnone
      cases hnone
  | steady hfound hsteady =>
    rw [hfound]
    exact iff_of_true hsteady fun hnone => nomatch hnone
  | @rescored existing events hfound hinstalled hcloses =>
    let patch := rescorePatch existing order (decisionOn f tenantId order policy now) policy now
    have hactive : (existing.patched patch (wall order.id)).status.active = true :=
      (RecoveryCase.activeFor_iff.mp (hdb.findActiveCase_iff.mp hfound).2).2.2
    have hagain : (db.updateCase existing.id patch (wall order.id)).findActiveCase tenantId
        order.id = some (existing.patched patch (wall order.id)) := by
      rw [hdb.findActiveCase_updateCase (rescorePatch_settles _ _ _ _ _) hfound, if_pos hactive]
    refine iff_of_true ?_ fun hnone => ?_
    · show match (db.updateCase existing.id patch (wall order.id)).findActiveCase tenantId
        order.id with | some _ => _ | none => _
      rw [hagain]
      exact steady_rescored hinstalled hcloses
    · rw [hfound] at hnone
      cases hnone
  | refused hnone hdecision =>
    rw [hnone]
    refine iff_of_true ⟨_, hdecision⟩ fun _ reason priority daysStalled hopen => ?_
    rw [hdecision] at hopen
    cases hopen
  | @opened reason priority daysStalled events hnone hdecision =>
    have hinput : db.findActiveCase
        (newCase f tenantId order reason priority daysStalled now).tenantId
        (newCase f tenantId order reason priority daysStalled now).vendorOrderId = none := hnone
    have hfound : RecoveryDb.findActiveCase { db with
          cases := db.cases ++ [(newCase f tenantId order reason priority daysStalled now).row
            db.nextCaseId (wall order.id)]
          nextCaseId := db.nextCaseId + 1
          caseEvents := events } tenantId order.id =
        some ((newCase f tenantId order reason priority daysStalled now).row db.nextCaseId
          (wall order.id)) := hdb.findActiveCase_insert (wall order.id) hinput
    rw [hfound, hdecision]
    dsimp only
    rw [steady_row_iff hinstalled]
    constructor
    · intro h _ reason' priority' daysStalled' hopen
      cases hopen
      exact h
    · intro h
      exact h hnone reason priority daysStalled rfl

end Scan

theorem evaluateTenantRecovery_eq (h : db.Sound) (f : Surroundings)
    (tenantId : Nat) (now : Int) (wall : Nat → Int) :
    evaluateTenantRecovery f tenantId now wall db =
      (db.scanned tenantId).foldl (visit f tenantId (f.policy tenantId) now wall)
        ((closeCasesForInstalledOrders tenantId now wall db).1,
          { autoResolved := (closeCasesForInstalledOrders tenantId now wall db).2 }) := by
  have hall : above VendorOrder.id (db.scanned tenantId) 0 = db.scanned tenantId := by
    apply filter_eq_self.mpr
    intro o ho
    simpa using h.orders_pos o (mem_of_mem_filter ho)
  have hfuel : (above VendorOrder.id (db.scanned tenantId) 0).length < db.orders.length + 1 := by
    rw [hall]
    exact Nat.lt_succ_of_le (length_filter_le _ _)
  unfold evaluateTenantRecovery
  have hsorted : (db.scanned tenantId).Pairwise (·.id < ·.id) := h.orders_ascend.filter _
  rw [foldPages_eq hsorted (by decide) _ hfuel, hall]

variable (p)

/-- The store between the closing of the installed orders and the scan. -/
def closed : RecoveryDb := (closeCasesForInstalledOrders p.tenantId p.now p.wall p.db).1

theorem closed_sound : p.closed.Sound ∧ p.closed.orders = p.db.orders := by
  obtain ⟨hsound, horders, -⟩ := foldl_closeInstalled p.sound p.tenantId p.now p.wall
    (p.db.installedRows p.tenantId)
  exact ⟨hsound, horders⟩

theorem closed_cases (hactive : c.status.active = true) :
    c ∈ p.closed.cases ↔
      c ∈ p.db.cases ∧ ∀ row ∈ p.db.installedRows p.tenantId, row.1.id ≠ c.id :=
  (foldl_closeInstalled p.sound p.tenantId p.now p.wall _).2.2 c hactive

variable {p}

theorem mem_scanned {tenantId : Nat}
    (ho : o ∈ db.scanned tenantId) : o ∈ db.orders ∧ o.normalizedStatus ≠ .installed := by
  obtain ⟨hmem, hscan⟩ := mem_filter.mp ho
  simp only [Bool.and_eq_true, decide_eq_true_eq] at hscan
  exact ⟨hmem, hscan.1.2⟩

theorem closed_findActiveCase (ho : o ∈ p.db.scanned p.tenantId) :
    p.closed.findActiveCase p.tenantId o.id = p.db.findActiveCase p.tenantId o.id := by
  obtain ⟨hmem, hinstalled⟩ := mem_scanned ho
  apply p.sound.findActiveCase_congr p.closed_sound.1
  intro c hactive
  obtain ⟨-, horder, hst⟩ := RecoveryCase.activeFor_iff.mp hactive
  rw [p.closed_cases hst]
  constructor
  · exact And.left
  · intro hc
    refine ⟨hc, fun row hrow hid => ?_⟩
    obtain ⟨hcase, -, o', ho', hid', -, hinstalled'⟩ := mem_installedRows hrow
    rw [p.sound.case_unique hcase hc hid, horder] at hid'
    exact hinstalled (p.sound.order_unique ho' hmem hid' ▸ hinstalled')

theorem closed_installed (ho : o ∈ p.db.orders) (htenant : o.tenantId = p.tenantId)
    (hinstalled : o.normalizedStatus = .installed) :
    p.closed.findActiveCase p.tenantId o.id = none := by
  apply RecoveryDb.findActiveCase_none_iff.mpr
  intro c hc
  apply Bool.eq_false_iff.mpr
  intro hactive
  obtain ⟨hc', hrows⟩ := (p.closed_cases (RecoveryCase.activeFor_iff.mp hactive).2.2).mp hc
  obtain ⟨row, hrow, hcase⟩ := exists_installedRows hc' hactive ho htenant hinstalled
  exact hrows row hrow (congrArg RecoveryCase.id hcase)

def step (p : Rerun) (db : RecoveryDb) (o : VendorOrder) : RecoveryDb :=
  (evaluateOneOrder p.surroundings p.tenantId p.policy p.now p.wall db o).1

theorem first_fst : p.first.1 = (p.db.scanned p.tenantId).foldl p.step p.closed := by
  unfold first
  rw [evaluateTenantRecovery_eq p.sound, foldl_visit_fst]
  rfl

theorem localSteps : LocalSteps VendorOrder.id
    (fun db => RecoveryDb.Sound db ∧ db.orders = p.db.orders)
    (fun db id => db.findActiveCase p.tenantId id) p.step :=
  localSteps_evaluate p.db.orders

theorem first_sound : p.first.1.Sound ∧ p.first.1.orders = p.db.orders := by
  rw [first_fst]
  exact localSteps.foldl_keeps p.closed_sound _

theorem first_scanned : p.first.1.scanned p.tenantId = p.db.scanned p.tenantId := by
  unfold RecoveryDb.scanned
  rw [first_sound.2]

theorem first_installedRows : p.first.1.installedRows p.tenantId = [] := by
  apply eq_nil_iff_forall_not_mem.mpr
  intro row hrow
  obtain ⟨hc, hactive, o, ho, hid, htenant, hinstalled⟩ := mem_installedRows hrow
  rw [first_sound.2] at ho
  have hapart : ∀ o' ∈ p.db.scanned p.tenantId, o'.id ≠ o.id := by
    intro o' ho' hsame
    obtain ⟨hmem, hnot⟩ := mem_scanned ho'
    exact hnot (p.sound.order_unique hmem ho hsame ▸ hinstalled)
  have hnone : p.first.1.findActiveCase p.tenantId o.id = none := by
    rw [first_fst]
    exact (localSteps.foldl_apart p.closed_sound hapart).trans
      (closed_installed ho htenant hinstalled)
  have hfalse := RecoveryDb.findActiveCase_none_iff.mp hnone row.1 hc
  rw [hid] at hfalse
  rw [hactive] at hfalse
  cases hfalse

theorem second_eq : p.second = (p.db.scanned p.tenantId).foldl
    (visit p.surroundings p.tenantId p.policy p.now p.wallAgain) (p.first.1, {}) := by
  have hclosing : closeCasesForInstalledOrders p.tenantId p.now p.wallAgain p.first.1 =
      (p.first.1, 0) := by
    unfold closeCasesForInstalledOrders
    rw [first_installedRows]
    rfl
  unfold second
  rw [evaluateTenantRecovery_eq first_sound.1, hclosing, first_scanned]
  rfl

theorem idempotent_iff_unchanged : p.Idempotent ↔ ∀ o ∈ p.db.scanned p.tenantId,
    (evaluateOneOrder p.surroundings p.tenantId p.policy p.now p.wallAgain p.first.1 o).2 =
      .unchanged := by
  constructor
  · intro h
    have hopened := h.opened
    have hescalated := h.escalated
    rw [second_eq] at hopened hescalated
    exact unchanged_of_foldl_visit (s := (p.first.1, {})) hopened hescalated
  · intro h
    obtain ⟨hdb, hopened, hescalated, hresolved⟩ :=
      foldl_visit_of_unchanged (s := (p.first.1, {})) h
    rw [← second_eq] at hdb hopened hescalated hresolved
    exact ⟨hopened, hescalated, hresolved, hdb⟩

/-- The passes are idempotent exactly when every case that the first one opens is opened high, or
with nothing about it that raises a case to high. -/
theorem idempotent_iff (p : Rerun) :
    p.Idempotent ↔ ∀ o ∈ p.db.scanned p.tenantId, p.OpensHigh o := by
  rw [idempotent_iff_unchanged]
  apply forall₂_congr
  intro o ho
  obtain ⟨hmem, hinstalled⟩ := mem_scanned ho
  have hnodup : ((p.db.scanned p.tenantId).map VendorOrder.id).Nodup := by
    rw [List.Nodup, pairwise_map]
    exact (p.sound.orders_ascend.filter _).imp fun hlt => Nat.ne_of_lt hlt
  obtain ⟨db, ⟨hsound, -⟩, hbefore, hafter⟩ := localSteps.foldl_at p.closed_sound hnodup ho
  rw [← first_fst] at hafter
  rw [unchanged_again_iff hsound hinstalled hafter, hbefore, closed_findActiveCase ho]
  rfl

def heldOrder : VendorOrder where
  id := 1
  tenantId := 1
  externalOrderId := some "A-1"
  externalTransactionId := none
  customerAccountNumber := none
  externalOrderKey := some "A1"
  externalTransactionKey := none
  accountKey := none
  saleId := some 7
  leadId := some 9
  repId := some 3
  details := { installScheduledAt := some 86400000 }
  normalizedStatus := .onHold
  sourceStatus := some "On Hold"
  failureReason := none
  requiredCustomerAction := none
  matchStatus := .matched
  matchConfidenceScore := some 95
  lastVendorUpdatedAt := some 0
  lastSyncedAt := 0
  currentSourceImportId := 1
  currentRowHash := "aa"
  updatedAt := 0

def heldTomorrow : Rerun where
  surroundings := {
    policy := fun _ => defaultRecoveryPolicy
    fraudFlagged := fun _ _ => false
    doNotKnock := fun _ => false
    commissionPaidForOrder := fun _ _ => false
    optedOutEverywhere := fun _ _ => false
    teamMember := fun _ => none
    userOfMember := fun _ => none }
  tenantId := 1
  now := 0
  db := { orders := [heldOrder], cases := [], caseEvents := [], nextCaseId := 1 }
  wall := fun _ => 0
  wallAgain := fun _ => 0
  sound := {
    orders_ascend := pairwise_singleton _ _
    orders_pos := by simp [heldOrder]
    cases_nodup := nodup_nil
    cases_below := by simp
    one_active := by simp }

/-- The second pass raises the case that the first one opened. -/
theorem not_idempotent_heldTomorrow : ¬heldTomorrow.Idempotent := by
  intro h
  have hescalated : heldTomorrow.second.2.escalated = 1 := by decide +kernel
  rw [h.escalated] at hescalated
  cases hescalated

end Rerun

end HomefrontFiber.Recovery
