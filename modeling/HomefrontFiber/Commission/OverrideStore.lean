import HomefrontFiber.Commission.Hold

/-!
# Override rules

How the upline chain of a seller is read off the reports-to tree and which uplines earn on a
sale: the first team lead and the first manager with a positive rate. A chain visits nobody
twice, so no sale awards one person twice.
-/

namespace HomefrontFiber.Commission

open List

def OverrideRates.slotRateCents (rates : OverrideRates) : SlotRole → Int
  | .teamLead => rates.teamLeadCents
  | .manager => rates.managerCents

/-- The rates of one seller: their own where set, those of the organisation where not. -/
def resolveSellerRates (org : OverrideRates) (seller : Option Member) : OverrideRates where
  basis := org.basis
  teamLeadCents := (seller.bind (·.overrideTeamLeadCents)).getD org.teamLeadCents
  managerCents := (seller.bind (·.overrideManagerCents)).getD org.managerCents

/-- The upward walk from `cursor`. `visited` holds the seller and everyone passed so far; `none`
is a corrupt chain, cyclic or longer than the hop budget. -/
def walkChain (members : List Member) :
    (budget level : Nat) → (visited : List Nat) → (cursor : Option Nat) →
      Option (List UplineChainNode)
  | 0, _, _, _ => none
  | _ + 1, _, _, none => some []
  | budget + 1, level, visited, some id =>
    if id ∈ visited then none
    else
      match members.find? (·.id = id) with
      | none => some []
      | some m =>
        (walkChain members budget (level + 1) (id :: visited) m.reportsToId).map
          ({ repId := m.id, role := m.role, level := level, active := m.active } :: ·)

def maxHops : Nat := 100

def resolveOverrideChain (sellerRepId : Nat) (members : List Member) :
    Option (List UplineChainNode) :=
  walkChain members maxHops 1 [sellerRepId]
    ((members.find? (·.id = sellerRepId)).bind (·.reportsToId))

structure OverrideAward where
  repId : Nat
  role : SlotRole
  level : Nat
  amountCents : Int

def MemberRole.slot : MemberRole → Option SlotRole
  | .teamLead => some .teamLead
  | .manager => some .manager
  | _ => none

/-- The verdict on one node of the chain, given the slots already filled. -/
def nodeVerdict (rates : OverrideRates) (filled : List SlotRole) (node : UplineChainNode) :
    Except SkipReason OverrideAward :=
  match node.role.slot with
  | none => .error .notASlotRole
  | some slot =>
    if slot ∈ filled then .error .slotFilled
    else if rates.slotRateCents slot ≤ 0 then .error .zeroRate
    else .ok { repId := node.repId, role := slot, level := node.level,
               amountCents := rates.slotRateCents slot }

/-- The awards and the frozen chain, with the slots in `filled` already taken. -/
def flatOverridesFrom (rates : OverrideRates) (filled : List SlotRole) :
    List UplineChainNode → List OverrideAward × List ChainSnapshotNode
  | [] => ([], [])
  | node :: chain =>
    match nodeVerdict rates filled node with
    | .error reason =>
      let r := flatOverridesFrom rates filled chain
      (r.1, { node with awardedCents := 0, skipReason := some reason } :: r.2)
    | .ok award =>
      let r := flatOverridesFrom rates (award.role :: filled) chain
      (award :: r.1, { node with awardedCents := award.amountCents, skipReason := none } :: r.2)

def computeFlatOverrides (chain : List UplineChainNode) (rates : OverrideRates) :
    List OverrideAward × List ChainSnapshotNode :=
  flatOverridesFrom rates [] chain

variable {members : List Member} {chain : List UplineChainNode}

/-- A walk visits nobody twice, and nobody who was visited before it. -/
theorem walkChain_fresh {budget level : Nat} {visited : List Nat} {cursor : Option Nat}
    (h : walkChain members budget level visited cursor = some chain) :
    (chain.map (·.repId)).Nodup ∧ ∀ n ∈ chain, n.repId ∉ visited := by
  induction budget generalizing level visited cursor chain with
  | zero => simp [walkChain] at h
  | succ budget ih =>
    cases cursor with
    | none =>
      simp only [walkChain, Option.some.injEq] at h
      simp [← h]
    | some id =>
      unfold walkChain at h
      split at h
      · simp at h
      · rename_i hid
        split at h
        · simp only [Option.some.injEq] at h
          simp [← h]
        · rename_i m hm
          have hmid : m.id = id := by simpa using find?_some hm
          obtain ⟨rest, hrest, rfl⟩ := Option.map_eq_some_iff.mp h
          obtain ⟨hnodup, hnew⟩ := ih hrest
          rw [map_cons, nodup_cons]
          refine ⟨⟨fun hmem => ?_, hnodup⟩, fun n hn => ?_⟩
          · obtain ⟨n, hn, he⟩ := mem_map.mp hmem
            exact hnew n hn (by rw [he, hmid]; exact mem_cons_self)
          · rcases mem_cons.mp hn with rfl | hn
            · exact hmid ▸ hid
            · exact fun hv => hnew n hn (mem_cons_of_mem _ hv)

theorem nodeVerdict_ok {rates : OverrideRates} {filled : List SlotRole} {node : UplineChainNode}
    {award : OverrideAward} (h : nodeVerdict rates filled node = .ok award) :
    award.repId = node.repId ∧ award.role ∉ filled ∧ 0 < award.amountCents := by
  unfold nodeVerdict at h
  split at h
  · simp at h
  · split at h
    · simp at h
    · split at h
      · simp at h
      · rename_i hf hr
        simp only [Except.ok.injEq] at h
        subst h
        exact ⟨rfl, hf, Int.not_le.mp hr⟩

theorem flatOverridesFrom_sublist (rates : OverrideRates) (filled : List SlotRole)
    (chain : List UplineChainNode) :
    ((flatOverridesFrom rates filled chain).1.map (·.repId)).Sublist (chain.map (·.repId)) := by
  induction chain generalizing filled with
  | nil => exact List.Sublist.refl _
  | cons node chain ih =>
    unfold flatOverridesFrom
    split
    · exact (ih filled).cons _
    · rename_i award hok
      rw [map_cons, map_cons, (nodeVerdict_ok hok).1]
      exact (ih _).cons_cons _

theorem flatOverridesFrom_roles (rates : OverrideRates) (filled : List SlotRole)
    (chain : List UplineChainNode) :
    ((flatOverridesFrom rates filled chain).1.map (·.role)).Nodup ∧
      ∀ a ∈ (flatOverridesFrom rates filled chain).1, a.role ∉ filled := by
  induction chain generalizing filled with
  | nil => simp [flatOverridesFrom]
  | cons node chain ih =>
    unfold flatOverridesFrom
    split
    · exact ih filled
    · rename_i award hok
      obtain ⟨hnd, hfree⟩ := ih (award.role :: filled)
      refine ⟨?_, ?_⟩
      · rw [map_cons, nodup_cons]
        refine ⟨fun hmem => ?_, hnd⟩
        obtain ⟨a, ha, he⟩ := mem_map.mp hmem
        exact hfree a ha (he ▸ mem_cons_self)
      · intro a ha
        rcases mem_cons.mp ha with rfl | ha
        · exact (nodeVerdict_ok hok).2.1
        · exact fun hf => hfree a ha (mem_cons_of_mem _ hf)

theorem computeFlatOverrides_nodup {sellerRepId : Nat}
    (h : resolveOverrideChain sellerRepId members = some chain) (rates : OverrideRates) :
    ((computeFlatOverrides chain rates).1.map (·.repId)).Nodup ∧
      ((computeFlatOverrides chain rates).1.map (·.role)).Nodup :=
  ⟨(walkChain_fresh h).1.sublist (flatOverridesFrom_sublist rates [] chain),
    (flatOverridesFrom_roles rates [] chain).1⟩

end HomefrontFiber.Commission

/-!
## The override ledger

The rows of one sale and one beneficiary form a pair: they alternate between an EARN and the
CLAWBACK that closes it. `syncOverridesForSale` reconciles the pairs of a sale with its status; the
other functions move rows between lifecycle statuses.
-/

namespace HomefrontFiber.Commission

def pairRows (rows : List OverrideRow) (saleId beneficiary : Nat) : List OverrideRow :=
  rows.filter fun r => r.saleId = saleId ∧ r.beneficiaryRepId = beneficiary

/-- The beneficiaries with rows for a sale, in ascending order. -/
def pairBeneficiaries (rows : List OverrideRow) (saleId : Nat) : List Nat :=
  ((rows.filter (·.saleId = saleId)).map (·.beneficiaryRepId)).dedup.insertionSort (· ≤ ·)

def updateRow (rows : List OverrideRow) (id : Nat) (f : OverrideRow → OverrideRow) :
    List OverrideRow :=
  rows.map fun r => if r.id = id then f r else r

structure OverrideConfig where
  enabled : Bool
  rates : OverrideRates

def loadOverrideRates (db : Db) : OverrideConfig where
  enabled := db.org.config.overridesEnabled
  rates :=
    { basis := db.org.config.overrideBasis
      teamLeadCents := max 0 db.org.config.overrideTeamLeadCents
      managerCents := max 0 db.org.config.overrideManagerCents }

def saleRates (db : Db) (sale : Sale) : OverrideRates :=
  resolveSellerRates (loadOverrideRates db).rates (db.memberById sale.repId)

/-- The awards of a QUALIFIED sale: none while overrides are switched off or the chain is
corrupt. -/
def saleAwards (db : Db) (sale : Sale) : List OverrideAward × List ChainSnapshotNode :=
  if (loadOverrideRates db).enabled then
    match resolveOverrideChain sale.repId db.org.members with
    | none => ([], [])
    | some chain => computeFlatOverrides chain (saleRates db sale)
  else ([], [])

/-- The EARN row of an award: an exception when the upline's week is locked, held inside the
install hold, payable otherwise. -/
def earnRow (db : Db) (now : Stamp) (sale : Sale) (week : Stamp)
    (snapshot : List ChainSnapshotNode) (award : OverrideAward) (pairLength : Nat) : OverrideRow :=
  let hold := installHoldFor db now sale
  let uplineLocked := db.weekLocked award.repId week
  { id := db.overrides.length + 1
    saleId := sale.id
    downlineRepId := sale.repId
    beneficiaryRepId := award.repId
    beneficiaryRole := award.role
    level := award.level
    entryType := .earn
    pairSeq := pairLength
    basis := (saleRates db sale).basis
    amountCents := award.amountCents
    rateSnapshot := saleRates db sale
    chainSnapshot := snapshot
    earnedWeekStartUtc := week
    status := if uplineLocked then .exception else if hold.1 then .held else .payable
    holdPayableAfter := if hold.1 then hold.2 else none
    settledStatementId := none
    resolvedAdjustmentId := none
    reason := if uplineLocked then some .lockedWeekEarn else none
    updatedAt := now }

/-- Opens the pair of an award unless the pair was open when the sync began. -/
def openPair (now : Stamp) (sale : Sale) (week : Stamp) (snapshot : List ChainSnapshotNode)
    (existing : List OverrideRow) (db : Db) (award : OverrideAward) : Db :=
  let pair := pairRows existing sale.id award.repId
  if pair.length % 2 = 1 then db
  else
    { db with
      overrides := db.overrides ++ [earnRow db now sale week snapshot award pair.length] }

/-- The status and reason of the CLAWBACK of an earn with the given status. -/
def clawVerdict : OverrideLedgerStatus → OverrideLedgerStatus × Option OverrideReason
  | .settled => (.exception, some .overrideReversedAfterFinalize)
  | .payable => (.payable, none)
  | .held => (.resolved, some .reversedWhileHeld)
  | _ => (.resolved, some .reversedBeforeResolution)

/-- The EARN of a mooted pair lands RESOLVED, like its CLAWBACK. -/
def mootRow (now : Stamp) (earn r : OverrideRow) : OverrideRow :=
  if r.id = earn.id ∧ earn.status ≠ .settled ∧ earn.status ≠ .payable then
    { r with
      status := .resolved
      reason := r.reason.or (clawVerdict earn.status).2
      updatedAt := now }
  else r

def clawRow (now : Stamp) (earn : OverrideRow) (pairLength id : Nat) : OverrideRow :=
  { earn with
    id := id
    entryType := .clawback
    pairSeq := pairLength
    amountCents := -earn.amountCents
    status := (clawVerdict earn.status).1
    holdPayableAfter := none
    settledStatementId := none
    resolvedAdjustmentId := none
    reason := (clawVerdict earn.status).2
    updatedAt := now }

/-- Closes the pair of one beneficiary if it was open when the sync began. -/
def closePair (now : Stamp) (saleId : Nat) (existing : List OverrideRow) (db : Db)
    (beneficiary : Nat) : Db :=
  let pair := pairRows existing saleId beneficiary
  if pair.length % 2 = 0 then db
  else
    match pair.getLast? with
    | none => db
    | some earn =>
      if earn.entryType ≠ .earn then db
      else
        { db with
          overrides := db.overrides.map (mootRow now earn) ++
            [clawRow now earn pair.length (db.overrides.length + 1)] }

/-- Reconciles the ledger with the current status of one sale. `weekStartUtc` is the pay week of
the sale. -/
def syncOverridesForSale (saleId : Nat) (weekStartUtc now : Stamp) (db : Db) : Db :=
  match db.saleById saleId with
  | none => db
  | some sale =>
    if sale.status = .qualified then
      let awards := saleAwards db sale
      awards.1.foldl (openPair now sale weekStartUtc awards.2 db.overrides) db
    else
      (pairBeneficiaries db.overrides saleId).foldl (closePair now saleId db.overrides) db

/-- Every beneficiary with rows for a sale, with the week of its latest row. -/
def beneficiariesForSale (db : Db) (saleId : Nat) : List (Nat × Stamp) :=
  (pairBeneficiaries db.overrides saleId).filterMap fun b =>
    (pairRows db.overrides saleId b).getLast?.map fun r => (b, r.earnedWeekStartUtc)

def HoldDue (now : Stamp) (r : OverrideRow) : Prop :=
  r.status = .held ∧ ∃ after ∈ r.holdPayableAfter, after.text ≤ now.text

instance (now : Stamp) (r : OverrideRow) : Decidable (HoldDue now r) :=
  inferInstanceAs (Decidable (_ ∧ ∃ after ∈ r.holdPayableAfter, _))

/-- The released row, in the week that contains the end of its hold. -/
def releaseRow (db : Db) (now : Stamp) (r : OverrideRow) : OverrideRow :=
  match r.holdPayableAfter with
  | none => r
  | some after =>
    let releaseWeek := weekStartFor after.ms db.org.config.toWorkweekConfig
    let uplineLocked := db.weekLocked r.beneficiaryRepId releaseWeek
    { r with
      status := if uplineLocked then .exception else .payable
      earnedWeekStartUtc := releaseWeek
      reason := if uplineLocked then r.reason.or (some .lockedWeekRelease) else r.reason
      updatedAt := now }

def promoteReleasedHolds (now : Stamp) (db : Db) : Db :=
  { db with
    overrides := db.overrides.map fun r => if HoldDue now r then releaseRow db now r else r }

def PayableIn (beneficiary : Nat) (week : Stamp) (r : OverrideRow) : Prop :=
  r.beneficiaryRepId = beneficiary ∧ r.earnedWeekStartUtc = week ∧ r.status = .payable

instance (beneficiary : Nat) (week : Stamp) (r : OverrideRow) :
    Decidable (PayableIn beneficiary week r) := inferInstanceAs (Decidable (_ ∧ _ ∧ _))

structure OverrideBlock where
  payCents : Int
  itemCount : Nat

/-- The sum of the PAYABLE rows of a week as the table stands. -/
def payableBlock (rows : List OverrideRow) (repId : Nat) (week : Stamp) : OverrideBlock :=
  let payable := rows.filter fun r => PayableIn repId week r
  { payCents := (payable.map (·.amountCents)).sum, itemCount := payable.length }

/-- The block folded into a statement. The released holds are promoted first. -/
def overrideBlockForWeek (repId : Nat) (week now : Stamp) : CommissionService OverrideBlock := do
  Service.write (promoteReleasedHolds now)
  Service.read fun db => payableBlock db.overrides repId week

def markWeekSettled (repId : Nat) (week : Stamp) (statementId : Nat) (now : Stamp) (db : Db) :
    Db :=
  { db with
    overrides := db.overrides.map fun r =>
      if PayableIn repId week r then
        { r with status := .settled, settledStatementId := some statementId, updatedAt := now }
      else r }

def SettledBy (statementId : Nat) (r : OverrideRow) : Prop :=
  r.status = .settled ∧ r.settledStatementId = some statementId

instance (statementId : Nat) (r : OverrideRow) : Decidable (SettledBy statementId r) :=
  inferInstanceAs (Decidable (_ ∧ _))

def markStatementReopened (statementId : Nat) (now : Stamp) (db : Db) : Db :=
  { db with
    overrides := db.overrides.map fun r =>
      if SettledBy statementId r then
        { r with status := .payable, settledStatementId := none, updatedAt := now }
      else r }

/-- Closes an exception that a manager's adjustment corrected, once. -/
def resolveException (overrideId adjustmentId : Nat) (now : Stamp) : CommissionService Unit := do
  let isOpen ← Service.read fun db =>
    db.overrides.any fun r => r.id = overrideId ∧ r.status = .exception
  if isOpen then
    Service.write fun db =>
      { db with
        overrides := updateRow db.overrides overrideId fun r =>
          { r with
            status := .resolved
            resolvedAdjustmentId := some adjustmentId
            updatedAt := now } }
  else
    Service.throw
      { code := .exceptionNotOpen
        message := "Override exception not found or already resolved."
        httpStatus := 409 }

end HomefrontFiber.Commission
