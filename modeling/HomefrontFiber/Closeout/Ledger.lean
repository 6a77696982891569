import HomefrontFiber.Commission.InstallHold
import HomefrontFiber.Reserve.Ledger
import HomefrontFiber.Commission.WellFormed

/-!
# Closing a pay week

FINALIZE locks a statement: it is recomputed, the sales behind it and its override rows are frozen
beside it, and the week's reserve is held. The columns of a statement that only the lock writes are
kept apart from the ones that a recomputation writes.
-/

namespace HomefrontFiber.Closeout

open Commission Reserve

/-- What the list of sales shows of a sale's other columns and of its door. -/
structure SaleDetails where
  houseAmountCents : Option Int
  address : Option String
  city : Option String
deriving DecidableEq

structure WeekSale where
  id : Nat
  externalId : String
  status : SaleStatus
  soldAt : Stamp
  qualifiedAt : Option Stamp
  reversedAt : Option Stamp
  leadId : Option Nat
  details : SaleDetails
  installHold : Bool
  payableAfter : Option Stamp
deriving DecidableEq

structure LockColumns where
  contributingSales : Option (List WeekSale)
  contributingOverrides : Option (List OverrideRow)
  finalizedAt : Option Stamp
  finalizedBy : Option Nat
  paidAt : Option Stamp
  paidBy : Option Nat
deriving DecidableEq

/-- `lock` and `weekLabel` are columns of a statement, by its id. -/
structure CloseoutDb where
  commission : Db
  book : ReserveBook
  lock : Nat → LockColumns
  weekLabel : Nat → Option String
  details : Nat → SaleDetails

inductive CloseoutError
  | commission (e : CommissionError)
  | reserve (e : ReserveError)

abbrev CloseoutService (α : Type) := Service CloseoutDb CloseoutError α

def onCommission {α : Type} (m : CommissionService α) : CloseoutService α :=
  Service.zoom CloseoutDb.commission (fun s db => { s with commission := db }) .commission m

def onReserve {α : Type} (m : ReserveService α) : CloseoutService α :=
  Service.zoom CloseoutDb.book (fun s book => { s with book := book }) .reserve m

/-- The sales of a rep's week, latest first. A sale without its basis timestamp is placed by
`sold_at`. -/
def salesOfWeek (db : Db) (repId : Nat) (bounds : WeekBounds) : List Sale :=
  let basis := fallbackBasisForRepWeek db repId bounds
  (db.sales.filter fun s => s.repId = repId ∧ bounds.Holds (s.basisTsForSale basis).text).insertionSort
    fun a b => (b.basisTsForSale basis).text ≤ (a.basisTsForSale basis).text

def weekSale (s : CloseoutDb) (now : Stamp) (sale : Sale) : WeekSale :=
  let linked := latestCommission s.commission.commissions sale.leadId sale.repId
  let installHold := linked.any fun c => isCommissionHeld c s.commission.org.payPolicy now
  { id := sale.id
    externalId := sale.externalId
    status := sale.status
    soldAt := sale.soldAt
    qualifiedAt := sale.qualifiedAt
    reversedAt := sale.reversedAt
    leadId := sale.leadId
    details := s.details sale.id
    installHold := installHold
    payableAfter := if installHold then linked.bind (·.payableAfter) else none }

def listWeekSalesForRep (s : CloseoutDb) (repId : Nat) (weekReference : Int) (now : Stamp) :
    List WeekSale :=
  (salesOfWeek s.commission repId (s.commission.weekOf weekReference)).map (weekSale s now)

def qualifiedDoors (s : CloseoutDb) (stmt : Statement) (now : Stamp) : List WeekSale :=
  (listWeekSalesForRep s stmt.repId stmt.weekStartUtc.ms now).filter (·.status = .qualified)

/-- The rows that a statement has settled, null when there are none. -/
def settledRows (db : Db) (statementId : Nat) : Option (List OverrideRow) :=
  let rows := db.overrides.filter (·.settledStatementId = some statementId)
  if rows = [] then none else some rows

def setLock (id : Nat) (f : LockColumns → LockColumns) (s : CloseoutDb) : CloseoutDb :=
  { s with lock := Function.update s.lock id (f (s.lock id)) }

/-- The `UPDATE` of FINALIZE. -/
def writeLock (stmt : Statement) (actorId : Option Nat) (doors : List WeekSale) (now : Stamp)
    (s : CloseoutDb) : CloseoutDb :=
  setLock stmt.id
    (fun c => { c with
      finalizedAt := some now
      finalizedBy := actorId
      contributingSales := some doors
      contributingOverrides := settledRows s.commission stmt.id })
    { s with commission := setStatementStatus stmt.id .finalized now s.commission }

def finalizeStatement (stmt : Statement) (actorId : Option Nat) (now : Stamp) :
    CloseoutService Unit :=
  if stmt.status = .paid then
    Service.throw (.commission (statementPaid "Paid statements cannot be re-finalized."))
  else do
    onCommission (recomputeBeforeFreeze stmt now)
    let doors ← Service.read fun s => qualifiedDoors s stmt now
    onCommission (Service.write (markWeekSettled stmt.repId stmt.weekStartUtc stmt.id now))
    Service.write (writeLock stmt actorId doors now)

def reopenStatement (stmt : Statement) (now : Stamp) : CloseoutService Unit := do
  onCommission (Commission.reopenStatement stmt now)
  Service.write (setLock stmt.id fun c =>
    { c with finalizedAt := none, finalizedBy := none, contributingOverrides := none })

def markStatementPaid (stmt : Statement) (actorId : Option Nat) (now : Stamp) :
    CloseoutService Unit := do
  onCommission (Commission.markStatementPaid stmt now)
  Service.write (setLock stmt.id fun c => { c with paidAt := some now, paidBy := actorId })

def findStatement (statementId : Nat) (s : CloseoutDb) : Except CloseoutError Statement :=
  match s.commission.statementById statementId with
  | none => .error (.commission statementNotFound)
  | some stmt => .ok stmt

def holdOf (s : CloseoutDb) (stmt : Statement) : HoldInput where
  repId := stmt.repId
  statementId := some stmt.id
  weekStartUtc := stmt.weekStartUtc.text
  weekLabel := s.weekLabel stmt.id
  earnedCents := stmt.finalCommissionCents

/-- The reserve of the week is held when it settles, never when it is reopened. -/
def holdReserve (action : StatementAction) (after : Statement) : CloseoutService Unit :=
  if action = .reopen then pure ()
  else do
    let input ← Service.read fun s => holdOf s after
    let _ ← onReserve (recordWeeklyHold input)
    pure ()

def transitionStatement (actorId : Option Nat) (statementId : Nat) (action : StatementAction)
    (now : Stamp) : CloseoutService Statement := do
  let stmt ← Service.check (findStatement statementId)
  match action with
  | .finalize => finalizeStatement stmt actorId now
  | .reopen => reopenStatement stmt now
  | .markPaid => markStatementPaid stmt actorId now
  let after ← Service.check (findStatement statementId)
  holdReserve action after
  pure after

end HomefrontFiber.Closeout

/-!
## What a transition writes

FINALIZE first recomputes a statement that is not locked yet, then writes its lock. An error of the
recomputation ends it before anything is locked. The reserve comes last and has tables of its own.
-/

namespace HomefrontFiber.Closeout

open Commission Reserve
open Service (bind_error bind_ok bind_pure_store check_apply zoom_error zoom_ok zoom_store)

/-- The store after the writes of a lock, before the reserve is held. -/
def relocked (stmt : Statement) (actorId : Option Nat) (now : Stamp) (s : CloseoutDb) :
    CloseoutDb :=
  writeLock stmt actorId (qualifiedDoors s stmt now) now
    { s with commission := markWeekSettled stmt.repId stmt.weekStartUtc stmt.id now s.commission }

variable {s : CloseoutDb} {stmt : Statement} {actorId : Option Nat} {now : Stamp}

theorem relocked_lock : (relocked stmt actorId now s).lock stmt.id =
    { s.lock stmt.id with
      finalizedAt := some now
      finalizedBy := actorId
      contributingSales := some (qualifiedDoors s stmt now)
      contributingOverrides := settledRows
        (markWeekSettled stmt.repId stmt.weekStartUtc stmt.id now s.commission) stmt.id } :=
  Function.update_self _ _ _

theorem statementById_setStatementStatus (db : Db) (now : Stamp) (id : Nat)
    (status : StatementStatus) :
    (setStatementStatus id status now db).statementById id =
      (db.statementById id).map fun t => { t with status := status, updatedAt := now } := by
  have hmap : (setStatementStatus id status now db).statementById id =
      (db.statementById id).map fun t =>
        if t.id = id then { t with status := status, updatedAt := now } else t :=
    find?_key_map (fun t => by split <;> rfl) id
  rw [hmap]
  cases hf : db.statementById id with
  | none => rfl
  | some t =>
    obtain ⟨_, hid⟩ := mem_of_statementById hf
    rw [Option.map_some, Option.map_some, if_pos hid]

theorem relocked_statementById :
    (relocked stmt actorId now s).commission.statementById stmt.id =
      (s.commission.statementById stmt.id).map fun t =>
        { t with status := .finalized, updatedAt := now } :=
  statementById_setStatementStatus _ now stmt.id .finalized

theorem holdReserve_store (action : StatementAction) (after : Statement) (s : CloseoutDb) :
    ∃ book, (holdReserve action after s).2 = { s with book := book } := by
  unfold holdReserve
  split
  · exact ⟨s.book, rfl⟩
  · refine ⟨(recordWeeklyHold (holdOf s after) s.book).2, ?_⟩
    change ((onReserve (recordWeeklyHold (holdOf s after)) >>= fun _ => pure ()) s).2 = _
    rw [bind_pure_store, onReserve, zoom_store]

theorem onCommission_ok {α : Type} {m : CommissionService α} {a : α} {db : Db}
    (h : m s.commission = (.ok a, db)) : onCommission m s = (.ok a, { s with commission := db }) :=
  zoom_ok h

theorem onCommission_error {α : Type} {m : CommissionService α} {e : CommissionError} {db : Db}
    (h : m s.commission = (.error e, db)) :
    onCommission m s = (.error (.commission e), { s with commission := db }) :=
  zoom_error h

theorem findStatement_ok (hfound : s.commission.statementById stmt.id = some stmt) :
    Service.check (findStatement stmt.id) s = (.ok stmt, s) := by
  simp only [check_apply, findStatement, hfound]

theorem finalizeStatement_cases (s : CloseoutDb) (actorId : Option Nat) (now : Stamp)
    (hst : stmt.status ≠ .paid) :
    (∃ db, recomputeBeforeFreeze stmt now s.commission = (.ok (), db) ∧
      finalizeStatement stmt actorId now s =
        (.ok (), relocked stmt actorId now { s with commission := db })) ∨
    (∃ e db, recomputeBeforeFreeze stmt now s.commission = (.error e, db) ∧
      finalizeStatement stmt actorId now s =
        (.error (.commission e), { s with commission := db })) := by
  unfold finalizeStatement
  rw [if_neg hst]
  cases hre : recomputeBeforeFreeze stmt now s.commission with
  | mk result db =>
    cases result with
    | ok _ =>
      refine Or.inl ⟨db, rfl, ?_⟩
      rw [bind_ok (onCommission_ok hre)]
      rfl
    | error e =>
      refine Or.inr ⟨e, db, rfl, ?_⟩
      rw [bind_error (onCommission_error hre)]

theorem markStatementPaid_cases (s : CloseoutDb) (stmt : Statement) (actorId : Option Nat)
    (now : Stamp) :
    (stmt.status = .finalized ∧ markStatementPaid stmt actorId now s =
      (.ok (), setLock stmt.id (fun c => { c with paidAt := some now, paidBy := actorId })
        { s with commission := setStatementStatus stmt.id .paid now s.commission })) ∨
    (stmt.status ≠ .finalized ∧ markStatementPaid stmt actorId now s =
      (.error (.commission (statementPaid "Only FINALIZED statements can be marked PAID.")), s)) := by
  by_cases hfin : stmt.status = .finalized
  · have hpay : Commission.markStatementPaid stmt now s.commission =
        (.ok (), setStatementStatus stmt.id .paid now s.commission) := by
      unfold Commission.markStatementPaid
      rw [if_neg (not_not.mpr hfin)]
      rfl
    refine Or.inl ⟨hfin, ?_⟩
    unfold markStatementPaid
    rw [bind_ok (onCommission_ok hpay)]
    rfl
  · have hthrow : Commission.markStatementPaid stmt now s.commission =
        (.error (statementPaid "Only FINALIZED statements can be marked PAID."), s.commission) := by
      unfold Commission.markStatementPaid
      rw [if_pos hfin]
      rfl
    refine Or.inr ⟨hfin, ?_⟩
    unfold markStatementPaid
    rw [bind_error (onCommission_error hthrow)]

theorem transitionStatement_finalize_cases (actorId : Option Nat) (now : Stamp)
    (hfound : s.commission.statementById stmt.id = some stmt) (hst : stmt.status ≠ .paid) :
    (∃ db book, recomputeBeforeFreeze stmt now s.commission = (.ok (), db) ∧
      (transitionStatement actorId stmt.id .finalize now s).2 =
        { relocked stmt actorId now { s with commission := db } with book := book }) ∨
    (∃ e db, recomputeBeforeFreeze stmt now s.commission = (.error e, db) ∧
      transitionStatement actorId stmt.id .finalize now s =
        (.error (.commission e), { s with commission := db })) := by
  unfold transitionStatement
  rw [bind_ok (findStatement_ok hfound)]
  dsimp only
  rcases finalizeStatement_cases s actorId now hst with
    ⟨db, hre, hfin⟩ | ⟨e, db, hre, hfin⟩
  · refine Or.inl ?_
    rw [bind_ok hfin]
    cases hafter : findStatement stmt.id (relocked stmt actorId now { s with commission := db }) with
    | error e =>
      have hcheck : Service.check (findStatement stmt.id) (relocked stmt actorId now { s with commission := db }) =
          (.error e, relocked stmt actorId now { s with commission := db }) := by
        rw [check_apply, hafter]
      rw [bind_error hcheck]
      exact ⟨db, s.book, hre, rfl⟩
    | ok after =>
      have hcheck : Service.check (findStatement stmt.id) (relocked stmt actorId now { s with commission := db }) =
          (.ok after, relocked stmt actorId now { s with commission := db }) := by
        rw [check_apply, hafter]
      rw [bind_ok hcheck, bind_pure_store]
      obtain ⟨book, hbook⟩ := holdReserve_store .finalize after
        (relocked stmt actorId now { s with commission := db })
      exact ⟨db, book, hre, hbook⟩
  · refine Or.inr ⟨e, db, hre, ?_⟩
    rw [bind_error hfin]

end HomefrontFiber.Closeout

/-!
## Locking a statement again

FINALIZE on a FINALIZED statement skips the recomputation and repeats everything else: it stamps
the lock anew, lists the sales of the week as they are now and settles whatever is payable by now.
The row stays as it was only if none of this finds anything new.
-/

namespace HomefrontFiber.Closeout

open Commission Reserve Option

/-- The statement's row and the override ledger are as they were. -/
def RowUnchanged (statementId : Nat) (s s' : CloseoutDb) : Prop :=
  s'.commission.statementById statementId = s.commission.statementById statementId ∧
    s'.lock statementId = s.lock statementId ∧
    s'.commission.overrides = s.commission.overrides

/-- A second lock finds nothing new: the same clock and actor, the same doors, the same settled
rows, and nothing payable in the week. -/
structure NothingNew (stmt : Statement) (actorId : Option Nat) (now : Stamp) (s : CloseoutDb) :
    Prop where
  clock : stmt.updatedAt = now ∧ (s.lock stmt.id).finalizedAt = some now
  actor : (s.lock stmt.id).finalizedBy = actorId
  doors : (s.lock stmt.id).contributingSales = some (qualifiedDoors s stmt now)
  settled : (s.lock stmt.id).contributingOverrides = settledRows s.commission stmt.id
  payable : ∀ r ∈ s.commission.overrides, ¬ PayableIn stmt.repId stmt.weekStartUtc r

section Effects

variable {s : CloseoutDb} {stmt : Statement} {actorId : Option Nat} {now : Stamp}

theorem transitionStatement_finalized (actorId : Option Nat) (now : Stamp)
    (hfound : s.commission.statementById stmt.id = some stmt)
    (hst : stmt.status = .finalized) :
    ∃ book, (transitionStatement actorId stmt.id .finalize now s).2 =
      { relocked stmt actorId now s with book := book } := by
  have hre : recomputeBeforeFreeze stmt now s.commission = (.ok (), s.commission) := by
    unfold recomputeBeforeFreeze
    rw [if_pos hst]
    rfl
  have hne : stmt.status ≠ .paid := by simp [hst]
  rcases transitionStatement_finalize_cases actorId now hfound hne with
    ⟨db, book, hre', hstore⟩ | ⟨e, db, hre', _⟩
  · cases hre.symm.trans hre'
    exact ⟨book, hstore⟩
  · cases hre.symm.trans hre'

theorem markWeekSettled_overrides_eq_iff (db : Db) (repId : Nat) (week : Stamp) (id : Nat) :
    (markWeekSettled repId week id now db).overrides = db.overrides ↔
      ∀ r ∈ db.overrides, ¬ PayableIn repId week r := by
  constructor
  · intro heq r hr hpayable
    have hsame := List.map_inj_left.mp (heq.trans (List.map_id _).symm) r hr
    rw [if_pos hpayable] at hsame
    have hstatus : OverrideLedgerStatus.settled = r.status := congrArg OverrideRow.status hsame
    exact absurd (hstatus.trans hpayable.2.2) (by decide)
  · intro hnone
    refine (List.map_congr_left fun r hr => ?_).trans (List.map_id _)
    exact if_neg (hnone r hr)

end Effects

/-- A repeated FINALIZE leaves the statement and the override ledger alone exactly when it finds
nothing new. -/
theorem relock_rowUnchanged_iff {s : CloseoutDb} {stmt : Statement}
    (hfound : s.commission.statementById stmt.id = some stmt) (hst : stmt.status = .finalized)
    (actorId : Option Nat) (now : Stamp) :
    RowUnchanged stmt.id s (transitionStatement actorId stmt.id .finalize now s).2 ↔
      NothingNew stmt actorId now s := by
  obtain ⟨book, hstore⟩ := transitionStatement_finalized actorId now hfound hst
  have hrows : (relocked stmt actorId now s).commission.overrides =
      (markWeekSettled stmt.repId stmt.weekStartUtc stmt.id now s.commission).overrides := rfl
  rw [hstore, RowUnchanged]
  dsimp only
  rw [relocked_statementById, relocked_lock, hrows, hfound, map_some, markWeekSettled_overrides_eq_iff]
  constructor
  · rintro ⟨hrow', hlock', hnone⟩
    have hsettled : settledRows (markWeekSettled stmt.repId stmt.weekStartUtc stmt.id now
        s.commission) stmt.id = settledRows s.commission stmt.id := by
      unfold settledRows
      rw [(markWeekSettled_overrides_eq_iff _ _ _ _).mpr hnone]
    refine ⟨⟨?_, ?_⟩, ?_, ?_, ?_, hnone⟩
    · exact (congrArg Statement.updatedAt (some.inj hrow')).symm
    · exact (congrArg LockColumns.finalizedAt hlock').symm
    · exact (congrArg LockColumns.finalizedBy hlock').symm
    · exact (congrArg LockColumns.contributingSales hlock').symm
    · exact (congrArg LockColumns.contributingOverrides hlock').symm.trans hsettled
  · intro h
    have hsettled : settledRows (markWeekSettled stmt.repId stmt.weekStartUtc stmt.id now
        s.commission) stmt.id = settledRows s.commission stmt.id := by
      unfold settledRows
      rw [(markWeekSettled_overrides_eq_iff _ _ _ _).mpr h.payable]
    refine ⟨?_, ?_, h.payable⟩
    · rw [← h.clock.1, ← hst]
    · rw [hsettled, ← h.settled, ← h.doors, ← h.actor, ← h.clock.2]

instance (statementId : Nat) (s s' : CloseoutDb) : Decidable (RowUnchanged statementId s s') :=
  inferInstanceAs (Decidable (_ ∧ _ ∧ _))

section Sample

/-- Rep 1 is on a plan of $50 a sale. -/
def flatPlanOrg : Org :=
  { sampleOrg with
    plans := [{ id := 1, type := .flat, tierMode := "RETROACTIVE_WEEKLY" }]
    versions :=
      [{ id := 1, commissionPlanId := 1, versionNumber := 1, flatRateCents := some 5000,
         qualificationBasis := .qualifiedAt, tiers := [] }]
    assignments :=
      [{ id := 1, repId := 1, commissionPlanVersionId := 1,
         effectiveFrom := ['2', '0', '2', '6', '-', '0', '1', '-', '0', '1'], effectiveTo := none }] }

def CloseoutDb.of (db : Db) : CloseoutDb where
  commission := db
  book :=
    { orgReservePercent := 10
      orgReserveCapCents := none
      reps := db.org.members.map fun m => { id := m.id, reservePercent := none, reserveCapCents := none }
      entries := [] }
  lock _ := ⟨none, none, none, none, none, none⟩
  weekLabel _ := none
  details _ := ⟨none, none, none⟩

/-- Rep 1 has sold A-1 and the statement of the week is locked by user 9. -/
def lockedWeek : CloseoutDb :=
  (transitionStatement (some 9) 1 .finalize (Stamp.ofMs sampleNow)
    (.of (run step (Db.empty flatPlanOrg) [⟨sampleNow, .upsertSale (sampleSale "A-1")⟩]))).2

def reversedAfterLock : CloseoutDb :=
  { lockedWeek with
    commission := step lockedWeek.commission
      ⟨sampleNow + 3600000, .transitionSale "A-1" .reverse none⟩ }

theorem not_rowUnchanged_reversedAfterLock :
    ¬ RowUnchanged 1 reversedAfterLock
      (transitionStatement (some 9) 1 .finalize (Stamp.ofMs (sampleNow + 7200000))
        reversedAfterLock).2 := by
  decide +kernel

theorem lockedWeek_isSome : (lockedWeek.commission.statementById 1).isSome := by decide +kernel

def lockedStatement : Statement := (lockedWeek.commission.statementById 1).get lockedWeek_isSome

/-- The lock is repeated at once by the same user. -/
theorem relock_rowUnchanged_atOnce :
    RowUnchanged 1 lockedWeek
      (transitionStatement (some 9) 1 .finalize (Stamp.ofMs sampleNow) lockedWeek).2 := by
  have hid : lockedStatement.id = 1 := by decide +kernel
  have hfound : lockedWeek.commission.statementById lockedStatement.id = some lockedStatement := by
    rw [hid]
    exact (some_get lockedWeek_isSome).symm
  have hunchanged := (relock_rowUnchanged_iff hfound (by decide +kernel) (some 9)
    (Stamp.ofMs sampleNow)).mpr
    ⟨by decide +kernel, by decide +kernel, by decide +kernel, by decide +kernel, by decide +kernel⟩
  rw [hid] at hunchanged
  exact hunchanged

end Sample

end HomefrontFiber.Closeout
