import Mathlib.Data.List.Pairwise
import HomefrontFiber.Commission.Steps

/-!
# The paying week under the install hold

A sale whose linked commission is pending pays, once released, in the week of its
`payable_after`; at any other time it pays in the week of its basis timestamp. Approving a
released commission, or switching the policy, changes from one to the other, so the paying week of
a sale stays put exactly when no run counts it both ways in different weeks.
-/

namespace HomefrontFiber.Commission

open List

/-- Only pending rows are held, until the install is confirmed and its hold has passed. -/
def isCommissionHeld (c : LegacyCommission) (policy : PayPolicy) (now : Stamp) : Bool :=
  policy.requireInstallConfirm && c.status = .pending &&
    match c.installConfirmedAt, c.payableAfter with
    | some _, some after => now.ms < after.ms
    | _, _ => true

def legalTransitions : LegacyStatus → List LegacyStatus
  | .pending => [.pending, .approved, .disputed]
  | .approved => [.approved, .paid, .disputed]
  | .disputed => [.disputed, .pending, .approved]
  | .paid => [.paid]
  | .superseded => []

def updateCommission (id : Nat) (f : LegacyCommission → LegacyCommission) (db : Db) : Db :=
  { db with commissions := db.commissions.map fun c => if c.id = id then f c else c }

def confirmInstall (now : Stamp) (holdDays : Int) (c : LegacyCommission) : LegacyCommission :=
  if (c.status = .pending ∨ c.status = .approved) ∧ c.installConfirmedAt = none then
    { c with
      installConfirmedAt := some now
      payableAfter := some (payableAfterFor now.ms holdDays) }
  else c

def patchCommission (now : Stamp) (policy : PayPolicy) (status : LegacyStatus)
    (c : LegacyCommission) : LegacyCommission :=
  if (status = .approved ∨ status = .paid) ∧ isCommissionHeld c policy now then c
  else if status ∈ legalTransitions c.status then { c with status := status }
  else c

def upsertTenantPayPolicy (current : PayPolicy) (requireInstallConfirm : Option Bool)
    (holdDays : Option Int) : PayPolicy where
  requireInstallConfirm := requireInstallConfirm.getD current.requireInstallConfirm
  holdDays := (holdDays.map clampHoldDays).getD current.holdDays

inductive HoldAction
  | confirmInstall (commissionId : Nat)
  | patchCommission (commissionId : Nat) (status : LegacyStatus)
  | putPayPolicy (requireInstallConfirm : Option Bool) (holdDays : Option Int)
  | wait

structure HoldEvent where
  now : Int
  action : HoldAction

structure HoldState where
  db : Db
  now : Stamp

def holdStep (s : HoldState) (e : HoldEvent) : HoldState where
  now := Stamp.ofMs e.now
  db := match e.action with
    | .confirmInstall id =>
      updateCommission id (confirmInstall (Stamp.ofMs e.now) s.db.org.payPolicy.holdDays) s.db
    | .patchCommission id status =>
      updateCommission id (patchCommission (Stamp.ofMs e.now) s.db.org.payPolicy status) s.db
    | .putPayPolicy requireInstallConfirm holdDays =>
      { s.db with
        org := { s.db.org with
          payPolicy := upsertTenantPayPolicy s.db.org.payPolicy requireInstallConfirm holdDays } }
    | .wait => s.db

def linkedCommission (db : Db) (sale : Sale) : Option LegacyCommission :=
  latestCommission db.commissions sale.leadId sale.repId

def Ungated (sale : Sale) (s : HoldState) : Prop :=
  s.db.org.payPolicy.requireInstallConfirm = true →
    ∀ c ∈ linkedCommission s.db sale, c.status ≠ .pending

instance (sale : Sale) (s : HoldState) : Decidable (Ungated sale s) :=
  inferInstanceAs (Decidable (_ → ∀ c ∈ linkedCommission s.db sale, _))

def ReleasedAt (sale : Sale) (s : HoldState) (after : Stamp) : Prop :=
  s.db.org.payPolicy.requireInstallConfirm = true ∧
    ∃ c ∈ linkedCommission s.db sale, c.status = .pending ∧ c.payableAfter = some after ∧
      after.text ≤ s.now.text

/-- Weeks that count the sale at `p` and at `q` are the same. -/
def CountedInOneWeek (cfg : WorkweekConfig) (basis : QualificationBasis) (sale : Sale)
    (p q : HoldState) : Prop :=
  ∀ s t, (weekBoundsFor s cfg).InIsoYears → (weekBoundsFor t cfg).InIsoYears →
    CountsForPay p.db p.now basis sale.repId (weekBoundsFor s cfg) sale →
    CountsForPay q.db q.now basis sale.repId (weekBoundsFor t cfg) sale →
    weekBoundsFor s cfg = weekBoundsFor t cfg

instance (cfg : WorkweekConfig) (basis : QualificationBasis) (sale : Sale) :
    Std.Symm (CountedInOneWeek cfg basis sale) where
  symm _ _ h s t hs ht hps hqt := (h t s ht hs hqt hps).symm

/-- No two weeks count the sale, one at an earlier and one at a later instant. -/
def PayWeekFixed (cfg : WorkweekConfig) (basis : QualificationBasis) (sale : Sale)
    (instants : List HoldState) : Prop :=
  instants.Pairwise (CountedInOneWeek cfg basis sale)

def SameWeek (cfg : WorkweekConfig) (ts ts' : Stamp) : Prop :=
  ∀ s t, (weekBoundsFor s cfg).InIsoYears → (weekBoundsFor t cfg).InIsoYears →
    (weekBoundsFor s cfg).Holds ts.text → (weekBoundsFor t cfg).Holds ts'.text →
    weekBoundsFor s cfg = weekBoundsFor t cfg

variable {sale : Sale} {basis : QualificationBasis} {cfg : WorkweekConfig} {ts : Stamp}

variable {s : HoldState} {x : Stamp} {f : LegacyCommission → LegacyCommission}

theorem effectiveTs_eq_some_iff (hts : sale.basisTsExpr basis = some ts) :
    effectiveTs s.db.org.payPolicy s.db.commissions basis s.now sale = some x ↔
      Ungated sale s ∧ x = ts ∨ ReleasedAt sale s x := by
  have hcomm : x = ts ↔ ts = x := eq_comm
  unfold effectiveTs Ungated ReleasedAt linkedCommission
  rw [hts]
  cases s.db.org.payPolicy.requireInstallConfirm with
  | false => simp [hcomm]
  | true =>
    cases latestCommission s.db.commissions sale.leadId sale.repId with
    | none => simp [hcomm]
    | some c =>
      by_cases hp : c.status = .pending
      · cases ha : c.payableAfter <;> simp [hp, ha, Option.filter_eq_some_iff]
      · simp [hp, hcomm]

theorem latestCommission_map
    (hlead : ∀ c, (f c).leadId = c.leadId) (hrep : ∀ c, (f c).repId = c.repId)
    (hst : ∀ c, (f c).status = .superseded ↔ c.status = .superseded)
    (commissions : List LegacyCommission) (lead : Option Nat) (repId : Nat) :
    latestCommission (commissions.map f) lead repId =
      (latestCommission commissions lead repId).map f := by
  unfold latestCommission
  cases lead with
  | none => rfl
  | some lead =>
    simp only [Option.bind_some]
    rw [filter_map, getLast?_map]
    congr 2
    refine filter_congr fun c _ => ?_
    simp only [Function.comp_apply, hlead, hrep, ne_eq, hst]

/-- What an update of a commission leaves alone: its link, and its stamps once it is confirmed. -/
structure KeepsCommission (f : LegacyCommission → LegacyCommission) : Prop where
  leadId : ∀ c, (f c).leadId = c.leadId
  repId : ∀ c, (f c).repId = c.repId
  superseded : ∀ c, (f c).status = .superseded ↔ c.status = .superseded
  confirmed : ∀ c, c.installConfirmedAt.isSome →
    (f c).installConfirmedAt = c.installConfirmedAt ∧ (f c).payableAfter = c.payableAfter
  unconfirmed : ∀ c, (c.payableAfter.isSome → c.installConfirmedAt.isSome) →
    (f c).payableAfter.isSome → (f c).installConfirmedAt.isSome

theorem keepsCommission_confirmInstall (now : Stamp) (holdDays : Int) :
    KeepsCommission (confirmInstall now holdDays) where
  leadId c := by unfold confirmInstall; split <;> rfl
  repId c := by unfold confirmInstall; split <;> rfl
  superseded c := by unfold confirmInstall; split <;> rfl
  confirmed c h := by
    unfold confirmInstall
    rw [if_neg fun hc => by simp [hc.2] at h]
    exact ⟨rfl, rfl⟩
  unconfirmed c h := by
    unfold confirmInstall
    split
    · simp
    · exact h

theorem legalTransitions_superseded {status status' : LegacyStatus}
    (h : status' ∈ legalTransitions status) : status' ≠ .superseded ∧ status ≠ .superseded := by
  cases status <;> cases status' <;> simp [legalTransitions] at h ⊢

theorem keepsCommission_patchCommission (now : Stamp) (policy : PayPolicy)
    (status : LegacyStatus) : KeepsCommission (patchCommission now policy status) where
  leadId c := by unfold patchCommission; split; rfl; split <;> rfl
  repId c := by unfold patchCommission; split; rfl; split <;> rfl
  superseded c := by
    unfold patchCommission
    split
    · rfl
    · split
      · obtain ⟨h', h⟩ := legalTransitions_superseded ‹_›
        exact ⟨fun hs => absurd hs h', fun hs => absurd hs h⟩
      · rfl
  confirmed c _ := by unfold patchCommission; split; exact ⟨rfl, rfl⟩; split <;> exact ⟨rfl, rfl⟩
  unconfirmed c h := by unfold patchCommission; split; exact h; split <;> exact h

theorem KeepsCommission.ite (h : KeepsCommission f)
    (id : Nat) : KeepsCommission fun c => if c.id = id then f c else c where
  leadId c := by split; exact h.leadId c; rfl
  repId c := by split; exact h.repId c; rfl
  superseded c := by split; exact h.superseded c; rfl
  confirmed c hc := by split; exact h.confirmed c hc; exact ⟨rfl, rfl⟩
  unconfirmed c hc := by split; exact h.unconfirmed c hc; exact hc

theorem holdStep_commissions (s : HoldState) (e : HoldEvent) :
    ∃ f, KeepsCommission f ∧ (holdStep s e).db.commissions = s.db.commissions.map f := by
  unfold holdStep
  cases e.action with
  | confirmInstall id => exact ⟨_, (keepsCommission_confirmInstall _ _).ite id, rfl⟩
  | patchCommission id status => exact ⟨_, (keepsCommission_patchCommission _ _ status).ite id, rfl⟩
  | putPayPolicy | wait =>
    exact ⟨id, ⟨fun _ => rfl, fun _ => rfl, fun _ => Iff.rfl, fun _ _ => ⟨rfl, rfl⟩, fun _ h => h⟩,
      (map_id _).symm⟩

def StampedTogether (db : Db) : Prop :=
  ∀ c ∈ db.commissions, c.payableAfter.isSome → c.installConfirmedAt.isSome

theorem stampedTogether_holdStep (h : StampedTogether s.db) (e : HoldEvent) :
    StampedTogether (holdStep s e).db := by
  obtain ⟨f, hf, he⟩ := holdStep_commissions s e
  intro c hc
  rw [he] at hc
  obtain ⟨c', hc', rfl⟩ := mem_map.mp hc
  exact hf.unconfirmed c' (h c' hc')

def HoldEndKept (sale : Sale) (s s' : HoldState) : Prop :=
  ∀ c ∈ linkedCommission s.db sale, ∀ after, c.payableAfter = some after →
    ∃ c' ∈ linkedCommission s'.db sale, c'.payableAfter = some after

theorem HoldEndKept.trans {t u : HoldState} (h : HoldEndKept sale s t)
    (h' : HoldEndKept sale t u) : HoldEndKept sale s u := by
  intro c hc after hafter
  obtain ⟨c', hc', hafter'⟩ := h c hc after hafter
  exact h' c' hc' after hafter'

theorem mem_of_linkedCommission {db : Db} {c : LegacyCommission}
    (h : linkedCommission db sale = some c) : c ∈ db.commissions := by
  unfold linkedCommission latestCommission at h
  cases hl : sale.leadId with
  | none => simp [hl] at h
  | some lead =>
    rw [hl, Option.bind_some] at h
    exact (mem_filter.mp (mem_of_getLast? h)).1

theorem holdEndKept_holdStep (h : StampedTogether s.db) (e : HoldEvent) :
    HoldEndKept sale s (holdStep s e) := by
  obtain ⟨f, hf, he⟩ := holdStep_commissions s e
  intro c hc after hafter
  refine ⟨f c, ?_, ?_⟩
  · unfold linkedCommission
    rw [he, latestCommission_map hf.leadId hf.repId hf.superseded]
    exact Option.mem_map_of_mem f hc
  · rw [(hf.confirmed c (h c (mem_of_linkedCommission hc) (by simp [hafter]))).2, hafter]

theorem countsForPay_iff {W : WeekBounds} (hqualified : sale.status = .qualified)
    (hts : sale.basisTsExpr basis = some ts) :
    CountsForPay s.db s.now basis sale.repId W sale ↔
      (Ungated sale s ∧ W.Holds ts.text) ∨ ∃ after, ReleasedAt sale s after ∧ W.Holds after.text := by
  constructor
  · rintro ⟨_, _, x, hx, hW⟩
    rcases (effectiveTs_eq_some_iff hts).mp hx with ⟨hu, rfl⟩ | hr
    · exact Or.inl ⟨hu, hW⟩
    · exact Or.inr ⟨x, hr, hW⟩
  · rintro (⟨hu, hW⟩ | ⟨after, hr, hW⟩)
    · exact ⟨rfl, hqualified, ts, (effectiveTs_eq_some_iff hts).mpr (Or.inl ⟨hu, rfl⟩), hW⟩
    · exact ⟨rfl, hqualified, after, (effectiveTs_eq_some_iff hts).mpr (Or.inr hr), hW⟩

theorem ReleasedAt.not_ungated {after : Stamp} (h : ReleasedAt sale s after) :
    ¬ Ungated sale s := by
  obtain ⟨hpolicy, c, hc, hst, _⟩ := h
  exact fun hu => hu hpolicy c hc hst

theorem HoldEndKept.released_unique {p q : HoldState} {y : Stamp} (h : HoldEndKept sale p q)
    (hp : ReleasedAt sale p x) (hq : ReleasedAt sale q y) : x = y := by
  obtain ⟨_, c, hc, _, hx, _⟩ := hp
  obtain ⟨_, c', hc', _, hy, _⟩ := hq
  obtain ⟨c'', hc'', hx'⟩ := h c hc x hx
  rw [Option.mem_def.mp hc', Option.mem_def, Option.some.injEq] at hc''
  rw [← hc'', hy, Option.some.injEq] at hx'
  exact hx'.symm

theorem holdEndKept_trace (sale : Sale) (events : List HoldEvent)
    (h : StampedTogether s.db) : (trace holdStep s events).Pairwise (HoldEndKept sale) := by
  refine trace_pairwise (I := fun s => StampedTogether s.db) ?_ ?_ ?_ events h
  · exact fun s e h => stampedTogether_holdStep h e
  · exact fun s e h => holdEndKept_holdStep h e
  · exact fun h h' => h.trans h'

/-- The paying week of a QUALIFIED sale never moves exactly when the sale is not paid both by its
basis and by the end of its hold, in different weeks. -/
theorem payWeekFixed_iff (cfg : WorkweekConfig) {s : HoldState} (events : List HoldEvent)
    (hqualified : sale.status = .qualified) (hts : sale.basisTsExpr basis = some ts)
    (hstamped : StampedTogether s.db) :
    PayWeekFixed cfg basis sale (trace holdStep s events) ↔
      ∀ p ∈ trace holdStep s events, ∀ q ∈ trace holdStep s events, ∀ after,
        Ungated sale p → ReleasedAt sale q after → SameWeek cfg ts after := by
  constructor
  · intro hfixed p hp q hq after hu hr s t hs ht hsW htW
    have hne : p ≠ q := by
      rintro rfl
      exact hr.not_ungated hu
    exact hfixed.forall hp hq hne s t hs ht
      ((countsForPay_iff hqualified hts).mpr (Or.inl ⟨hu, hsW⟩))
      ((countsForPay_iff hqualified hts).mpr (Or.inr ⟨after, hr, htW⟩))
  · intro hcond
    have hkept := holdEndKept_trace sale events hstamped
    refine hkept.imp_of_mem fun {p q} hp hq hpq s t hs ht hps hqt => ?_
    rcases (countsForPay_iff hqualified hts).mp hps with ⟨hu, hsW⟩ | ⟨x, hr, hsW⟩ <;>
      rcases (countsForPay_iff hqualified hts).mp hqt with ⟨hu', htW⟩ | ⟨y, hr', htW⟩
    · exact weekBoundsFor_disjoint hs hsW htW
    · exact hcond p hp q hq y hu hr' s t hs ht hsW htW
    · exact (hcond q hq p hp x hu' hr t s ht hs htW hsW).symm
    · obtain rfl := hpq.released_unique hr hr'
      exact weekBoundsFor_disjoint hs hsW htW

/-- A sold door of rep 1 whose commission waits for its install, under a hold of seven days. -/
def heldSale : Sale where
  id := 1
  repId := 1
  externalId := fieldSaleExternalId 7
  status := .qualified
  soldAt := Stamp.ofMs sampleNow
  qualifiedAt := some (Stamp.ofMs sampleNow)
  installedAt := none
  activatedAt := none
  reversedAt := none
  disqualificationReason := none
  leadId := some 7
  qualificationBasis := some .qualifiedAt
  createdAt := Stamp.ofMs sampleNow
  updatedAt := Stamp.ofMs sampleNow

def heldState : HoldState where
  now := Stamp.ofMs sampleNow
  db :=
    { Db.empty { sampleOrg with payPolicy := { requireInstallConfirm := true, holdDays := 7 } } with
      sales := [heldSale]
      commissions :=
        [{ id := 1
           repId := 1
           leadId := some 7
           knockId := some 1
           amountCents := 5000
           status := .pending
           installConfirmedAt := none
           payableAfter := none }] }

def released : List HoldEvent :=
  [⟨sampleNow, .confirmInstall 1⟩, ⟨sampleNow + 8 * msPerDay, .wait⟩]

theorem payWeekFixed_released :
    PayWeekFixed sampleOrg.config.toWorkweekConfig .qualifiedAt heldSale
      (trace holdStep heldState released) := by
  refine (payWeekFixed_iff _ released rfl rfl ?_).mpr ?_
  · intro c hc
    simp only [heldState, mem_singleton] at hc
    simp [hc]
  · have hgated : ∀ p ∈ trace holdStep heldState released, ¬ Ungated heldSale p := by
      decide +kernel
    exact fun p hp _ _ _ hu => absurd hu (hgated p hp)

def approvedAfterRelease : List HoldEvent :=
  released ++ [⟨sampleNow + 8 * msPerDay, .patchCommission 1 .approved⟩]

theorem not_payWeekFixed_approvedAfterRelease :
    ¬ PayWeekFixed sampleOrg.config.toWorkweekConfig .qualifiedAt heldSale
      (trace holdStep heldState approvedAfterRelease) := by
  intro h
  have hlater := (pairwise_cons.mp (pairwise_cons.mp h).2).1 _ mem_cons_self
  exact absurd (hlater (sampleNow + 7 * msPerDay) sampleNow (by decide +kernel) (by decide +kernel)
    (by decide +kernel) (by decide +kernel)) (by decide +kernel)

end HomefrontFiber.Commission
