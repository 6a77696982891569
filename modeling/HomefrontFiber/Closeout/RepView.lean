import HomefrontFiber.Closeout.FrozenDoors

/-!
# Closing a week for every rep

Three passes report on the reps in scope: the statements of the reps with qualified sales are
recomputed, then those of the beneficiaries of overrides, and last every statement of the week is
locked in a transaction of its own. Whatever a rep's work throws is caught and reported.
-/

namespace HomefrontFiber.Closeout

open Commission Reserve

/-- What a `catch` finds: an error of the commission service or any other. -/
inductive Thrown
  | commission (e : CommissionError)
  | other (message : String)

def errorLabel : ErrorCode → String
  | .invalidCommissionPlan => "INVALID_COMMISSION_PLAN"
  | .invalidTierConfiguration => "INVALID_TIER_CONFIGURATION"
  | .unsupportedTierMode => "UNSUPPORTED_TIER_MODE"
  | .noEffectivePlanAssignment => "NO_EFFECTIVE_PLAN_ASSIGNMENT"
  | .statementLocked => "STATEMENT_LOCKED"
  | .crossTenantAccess => "CROSS_TENANT_ACCESS"
  | .invalidAdjustment => "INVALID_ADJUSTMENT"
  | .openClockSession => "OPEN_CLOCK_SESSION"
  | .saleCreditLocked => "SALE_CREDIT_LOCKED"
  | .exceptionNotOpen => "EXCEPTION_NOT_OPEN"

def Thrown.code : Thrown → String
  | .commission e => errorLabel e.code
  | .other _ => "UNEXPECTED_ERROR"

def Thrown.message : Thrown → String
  | .commission e => e.message
  | .other message => message

/-- The error is one of the commission service with this code. -/
def Thrown.HasCode (e : Thrown) (code : ErrorCode) : Prop :=
  ∃ error, e = .commission error ∧ error.code = code

instance (e : Thrown) (code : ErrorCode) : Decidable (e.HasCode code) :=
  match e with
  | .commission error => decidable_of_iff (error.code = code)
      ⟨fun h => ⟨error, rfl, h⟩, fun ⟨_, he, h⟩ => Thrown.commission.inj he ▸ h⟩
  | .other _ => isFalse fun ⟨_, he, _⟩ => Thrown.noConfusion he

/-- An error of the reserve ledger is not of the commission service's class. -/
def CloseoutError.thrown : CloseoutError → Thrown
  | .commission e => .commission e
  | .reserve e => .other e.message

/-- A fault of a recomputation: before it looks at the statement, after it has released some of
the due holds, or after its price is stored. -/
inductive RecomputeFault
  | early (e : Thrown)
  | releasing (rows : Nat) (e : Thrown)
  | late (e : Thrown)

/-- The faults of each rep's work in each pass. Where a fault strikes inside the lock's transaction
makes no difference. -/
structure Faults where
  ensure : Nat → Option RecomputeFault
  ensureOverride : Nat → Option RecomputeFault
  hourly : Nat → Option Thrown
  lock : Nat → Option Thrown

inductive BatchAction
  | finalize | markPaid
deriving DecidableEq

inductive BatchOutcome
  | ok | skipped | blocked | failed
deriving DecidableEq

structure BatchRepOutcome where
  repId : Nat
  statementId : Option Nat
  result : String
  finalCommissionCents : Option Int
  outcome : BatchOutcome
  code : Option String
  retryable : Option Bool

structure BatchSummary where
  ok : Nat
  skipped : Nat
  blocked : Nat
  failed : Nat

structure BatchReport where
  bounds : WeekBounds
  results : List BatchRepOutcome
  summary : BatchSummary

structure BatchState where
  store : CloseoutDb
  results : List BatchRepOutcome
  blocked : List Nat

abbrev BatchService (α : Type) := Service CloseoutDb Thrown α

def commissionWork {α : Type} (m : CommissionService α) : BatchService α :=
  Service.zoom CloseoutDb.commission (fun s db => { s with commission := db }) .commission m

def closeoutWork {α : Type} (m : CloseoutService α) : BatchService α :=
  Service.zoom id (fun _ s => s) CloseoutError.thrown m

def failOn (fault : Option Thrown) : BatchService Unit :=
  Service.check fun _ => match fault with
    | none => .ok ()
    | some e => .error e

/-- The store after the first `rows` due holds have been released. -/
def releaseHolds (rows : Nat) (now : Stamp) (db : Db) : Db :=
  let due := ((db.overrides.filter fun r => HoldDue now r).take rows).map (·.id)
  { db with
    overrides := db.overrides.map fun r =>
      if HoldDue now r ∧ r.id ∈ due then releaseRow db now r else r }

/-- A recomputation under a fault. A locked statement is refused before any hold is released. -/
def recompute (fault : Option RecomputeFault) (repId : Nat) (weekReference : Int) (now : Stamp) :
    BatchService StatementDTO := fun s =>
  let plain := commissionWork (calculateOrRecalculateStatement repId weekReference now) s
  match fault with
  | none => plain
  | some (.early e) => (.error e, s)
  | some (.releasing rows e) =>
    if s.commission.weekLocked repId (s.commission.weekOf weekReference).weekStartUtc then plain
    else (.error e, { s with commission := releaseHolds rows now s.commission })
  | some (.late e) =>
    match plain with
    | (.ok _, s') => (.error e, s')
    | (.error e', s') => (.error e', s')

def InScope (repIds : Option (List Nat)) (repId : Nat) : Prop := ∀ ids ∈ repIds, repId ∈ ids

instance (repIds : Option (List Nat)) (repId : Nat) : Decidable (InScope repIds repId) :=
  inferInstanceAs (Decidable (∀ ids ∈ repIds, _))

/-- A QUALIFIED sale with any of its four timestamps in the week. -/
def CandidateIn (bounds : WeekBounds) (sale : Sale) : Prop :=
  sale.status = .qualified ∧ (bounds.Holds sale.soldAt.text ∨
    (∃ ts ∈ sale.qualifiedAt, bounds.Holds ts.text) ∨
    (∃ ts ∈ sale.installedAt, bounds.Holds ts.text) ∨
    ∃ ts ∈ sale.activatedAt, bounds.Holds ts.text)

instance (bounds : WeekBounds) (sale : Sale) : Decidable (CandidateIn bounds sale) :=
  inferInstanceAs (Decidable (_ ∧ (_ ∨ (∃ ts ∈ sale.qualifiedAt, _) ∨
    (∃ ts ∈ sale.installedAt, _) ∨ ∃ ts ∈ sale.activatedAt, _)))

/-- The reps with QUALIFIED sales in the week by their own basis, and the number of these. -/
def salesByRep (db : Db) (bounds : WeekBounds) : List (Nat × Nat) :=
  let candidates := ((db.sales.filter fun sale => CandidateIn bounds sale).map (·.repId)).dedup
  (candidates.map fun repId =>
    (repId, (db.sales.filter fun sale => Listed db repId bounds sale).length)).filter (0 < ·.2)

def overrideBeneficiaries (rows : List OverrideRow) (week : Stamp) : List Nat :=
  ((rows.filter fun r => r.earnedWeekStartUtc = week ∧ (r.status = .payable ∨ r.status = .held)).map
    (·.beneficiaryRepId)).dedup

def weekStatements (db : Db) (week : Stamp) : List Statement :=
  db.statements.filter (·.weekStartUtc = week)

def failedOutcome (repId : Nat) (statementId : Option Nat) (e : Thrown) : BatchRepOutcome where
  repId := repId
  statementId := statementId
  result := s!"FAILED ({e.code}: {e.message})"
  finalCommissionCents := none
  outcome := .failed
  code := some e.code
  retryable := some true

def noPlanOutcome (repId count : Nat) : BatchRepOutcome where
  repId := repId
  statementId := none
  result := s!"BLOCKED ({count} qualified sale(s), no plan assigned)"
  finalCommissionCents := none
  outcome := .blocked
  code := some (errorLabel .noEffectivePlanAssignment)
  retryable := some true

def openSessionOutcome (stmt : Statement) : BatchRepOutcome where
  repId := stmt.repId
  statementId := some stmt.id
  result := "BLOCKED (OPEN_CLOCK_SESSION: close the open clock session before finalizing hourly pay)"
  finalCommissionCents := none
  outcome := .blocked
  code := some (errorLabel .openClockSession)
  retryable := some true

def skippedOutcome (stmt : Statement) (result code : String) (retryable : Bool) :
    BatchRepOutcome where
  repId := stmt.repId
  statementId := some stmt.id
  result := result
  finalCommissionCents := none
  outcome := .skipped
  code := some code
  retryable := some retryable

def closedOutcome (repId : Nat) (after : Statement) (result : String) : BatchRepOutcome where
  repId := repId
  statementId := some after.id
  result := result
  finalCommissionCents := some after.finalCommissionCents
  outcome := .ok
  code := none
  retryable := none

namespace BatchState

def report (b : BatchState) (o : BatchRepOutcome) : BatchState :=
  { b with results := b.results ++ [o] }

/-- The rep is reported and the lock loop will pass over them. -/
def block (b : BatchState) (o : BatchRepOutcome) : BatchState :=
  { b with results := b.results ++ [o], blocked := o.repId :: b.blocked }

end BatchState

/-- One rep of an ensure pass. `noPlan` is what the pass reports of a rep without a plan. -/
def ensureStatement (fault : Option RecomputeFault) (noPlan : Option BatchRepOutcome) (repId : Nat)
    (bounds : WeekBounds) (now : Stamp) (b : BatchState) : BatchState :=
  match recompute fault repId bounds.weekStartUtc.ms now b.store with
  | (.ok _, s) => { b with store := s }
  | (.error e, s) =>
    let b' := { b with store := s }
    if e.HasCode .noEffectivePlanAssignment then (noPlan.map b'.block).getD b'
    else if e.HasCode .statementLocked then b'
    else b'.block (failedOutcome repId none e)

/-- The first pass: a rep with sales but no plan is reported. -/
def ensureSalesStatement (faults : Faults) (bounds : WeekBounds) (now : Stamp) (b : BatchState)
    (rep : Nat × Nat) : BatchState :=
  ensureStatement (faults.ensure rep.1) (some (noPlanOutcome rep.1 rep.2)) rep.1 bounds now b

/-- The second pass: a beneficiary without a plan is passed over. -/
def ensureOverrideStatement (faults : Faults) (bounds : WeekBounds) (now : Stamp) (b : BatchState)
    (repId : Nat) : BatchState :=
  ensureStatement (faults.ensureOverride repId) none repId bounds now b

/-- The transaction that locks a rep's week: recompute, then FINALIZE what was recomputed. -/
def lockWeek (fault : Option Thrown) (actorId : Option Nat) (bounds : WeekBounds) (now : Stamp)
    (repId : Nat) : BatchService Statement := do
  failOn fault
  let fresh ← commissionWork
    (calculateOrRecalculateStatement repId bounds.weekStartUtc.ms now)
  match fresh.statement with
  | none => Service.throw (.other "Cannot read properties of undefined (reading 'id')")
  | some stmt => closeoutWork (transitionStatement actorId stmt.id .finalize now)

def payStatement (fault : Option Thrown) (actorId : Option Nat) (statementId : Nat) (now : Stamp) :
    BatchService Statement := do
  failOn fault
  closeoutWork (transitionStatement actorId statementId .markPaid now)

def repWork (faults : Faults) (actorId : Option Nat) (action : BatchAction) (bounds : WeekBounds)
    (now : Stamp) (stmt : Statement) : BatchService BatchRepOutcome :=
  match action with
  | .finalize =>
    if stmt.status.locked then
      pure (skippedOutcome stmt s!"already {stmt.status.label}" s!"ALREADY_{stmt.status.label}" false)
    else do
      failOn (faults.hourly stmt.repId)
      let hourly ← Service.read fun s =>
        s.commission.org.hourly stmt.repId bounds.weekStartUtc bounds.nextWeekStartUtc
      if hourly.rateCents ≠ none ∧ 0 < hourly.openSessionCount then
        pure (openSessionOutcome stmt)
      else do
        let locked ← Service.transaction
          (lockWeek (faults.lock stmt.repId) actorId bounds now stmt.repId)
        pure (closedOutcome stmt.repId locked "FINALIZED")
  | .markPaid =>
    if stmt.status = .paid then pure (skippedOutcome stmt "already PAID" "ALREADY_PAID" false)
    else if stmt.status ≠ .finalized then
      pure (skippedOutcome stmt s!"skipped ({stmt.status.label} - finalize first)" "NOT_FINALIZED"
        true)
    else do
      let paid ← Service.transaction
        (payStatement (faults.lock stmt.repId) actorId stmt.id now)
      pure (closedOutcome stmt.repId paid "PAID")

/-- A rep that an ensure pass has blocked is not attempted again. -/
def closeStatement (faults : Faults) (actorId : Option Nat) (action : BatchAction)
    (bounds : WeekBounds) (now : Stamp) (b : BatchState) (stmt : Statement) : BatchState :=
  if stmt.repId ∈ b.blocked then b
  else
    match repWork faults actorId action bounds now stmt b.store with
    | (.ok o, s) => { b with store := s }.report o
    | (.error e, s) => { b with store := s }.report (failedOutcome stmt.repId (some stmt.id) e)

def ensureSales (faults : Faults) (repIds : Option (List Nat)) (bounds : WeekBounds) (now : Stamp)
    (b : BatchState) : BatchState :=
  ((salesByRep b.store.commission bounds).filter fun rep => InScope repIds rep.1).foldl
    (ensureSalesStatement faults bounds now) b

def ensureOverrides (faults : Faults) (repIds : Option (List Nat)) (bounds : WeekBounds)
    (now : Stamp) (b : BatchState) : BatchState :=
  ((overrideBeneficiaries b.store.commission.overrides bounds.weekStartUtc).filter fun repId =>
    InScope repIds repId).foldl (ensureOverrideStatement faults bounds now) b

def lockLoop (faults : Faults) (actorId : Option Nat) (action : BatchAction)
    (repIds : Option (List Nat)) (bounds : WeekBounds) (now : Stamp) (b : BatchState) : BatchState :=
  ((weekStatements b.store.commission bounds.weekStartUtc).filter fun stmt =>
    InScope repIds stmt.repId).foldl (closeStatement faults actorId action bounds now) b

def summarize (results : List BatchRepOutcome) : BatchSummary where
  ok := (results.filter (·.outcome = .ok)).length
  skipped := (results.filter (·.outcome = .skipped)).length
  blocked := (results.filter (·.outcome = .blocked)).length
  failed := (results.filter (·.outcome = .failed)).length

def ensurePasses (faults : Faults) (action : BatchAction) (repIds : Option (List Nat))
    (bounds : WeekBounds) (now : Stamp) (s : CloseoutDb) : BatchState :=
  match action with
  | .finalize =>
    ensureOverrides faults repIds bounds now (ensureSales faults repIds bounds now ⟨s, [], []⟩)
  | .markPaid => ⟨s, [], []⟩

def batchTransitionWeek (faults : Faults) (actorId : Option Nat) (weekReference : Int)
    (action : BatchAction) (repIds : Option (List Nat)) (now : Stamp) (s : CloseoutDb) :
    BatchReport × CloseoutDb :=
  let bounds := s.commission.weekOf weekReference
  let closed := lockLoop faults actorId action repIds bounds now
    (ensurePasses faults action repIds bounds now s)
  ({ bounds := bounds, results := closed.results, summary := summarize closed.results },
    closed.store)

end HomefrontFiber.Closeout

/-!
## What the work on other reps leaves to a rep

Recomputations release holds and write prices, and a lock settles the rows of its own rep. To any
other rep this shows as released holds only: the locked statements and the settled rows stay, and
whether a recomputation of the rep can be priced does not change.
-/

namespace HomefrontFiber.Closeout

open Commission Reserve List

def RowReleased (now : Stamp) (db : Db) (r r' : OverrideRow) : Prop :=
  r' = r ∨ HoldDue now r ∧ r' = releaseRow db now r

/-- The commission tables as rep `repId` sees them, before and after. Only if `touched` may the rep
have statements of weeks that had none. -/
structure SameForRep (touched : Prop) (now : Stamp) (repId : Nat) (db db' : Db) : Prop where
  org : db'.org = db.org
  sales : db'.sales = db.sales
  commissions : db'.commissions = db.commissions
  locked : ∀ t : Statement, t.repId = repId → t.status.locked = true →
    (t ∈ db'.statements ↔ t ∈ db.statements)
  kept : ∀ id week, HasStatement id (repId, week) db → HasStatement id (repId, week) db'
  ends : ∀ t ∈ db'.statements, t.repId = repId →
    (∃ t₀ ∈ db.statements, t₀.key = t.key ∧ t₀.nextWeekStartUtc = t.nextWeekStartUtc) ∨
      touched ∧ (∀ t₀ ∈ db.statements, t₀.key ≠ t.key) ∧
        ∃ ms, (db.weekOf ms).weekStartUtc = t.weekStartUtc ∧
          (db.weekOf ms).nextWeekStartUtc = t.nextWeekStartUtc
  rows : ∃ f, db'.overrides = db.overrides.map f ∧ ∀ r : OverrideRow,
    (f r).beneficiaryRepId = r.beneficiaryRepId ∧
      (r.beneficiaryRepId = repId → RowReleased now db r (f r))

section Relation

variable {touched : Prop} {now : Stamp} {repId : Nat} {db db' db'' : Db}

theorem SameForRep.refl (now : Stamp) (repId : Nat) (db : Db) : SameForRep touched now repId db db where
  org := rfl
  sales := rfl
  commissions := rfl
  locked _ _ _ := Iff.rfl
  kept _ _ h := h
  ends t ht _ := .inl ⟨t, ht, rfl, rfl⟩
  rows := ⟨id, (map_id _).symm, fun _ => ⟨rfl, fun _ => .inl rfl⟩⟩

theorem SameForRep.weaken (h : SameForRep touched now repId db db') {touched' : Prop}
    (htouched : touched → touched') : SameForRep touched' now repId db db' :=
  { h with
    ends := fun t ht hr => (h.ends t ht hr).imp_right fun ⟨hown, hms⟩ => ⟨htouched hown, hms⟩ }

theorem sameForRep_release {p : OverrideRow → Prop} [DecidablePred p]
    (hp : ∀ r, p r → HoldDue now r) (repId : Nat) (db : Db) :
    SameForRep touched now repId db
      { db with overrides := db.overrides.map fun r => if p r then releaseRow db now r else r } where
  org := rfl
  sales := rfl
  commissions := rfl
  locked _ _ _ := Iff.rfl
  kept _ _ h := h
  ends t ht _ := .inl ⟨t, ht, rfl, rfl⟩
  rows := by
    refine ⟨_, rfl, fun r => ⟨?_, fun _ => ?_⟩⟩
    · split
      · unfold releaseRow
        split <;> rfl
      · rfl
    · unfold RowReleased
      split
      · exact .inr ⟨hp r ‹_›, rfl⟩
      · exact .inl rfl

theorem SameForRep.weekOf (h : SameForRep touched now repId db db') (ms : Int) :
    db'.weekOf ms = db.weekOf ms := by rw [Db.weekOf, Db.weekOf, h.org]

theorem SameForRep.lockedAs_iff (h : SameForRep touched now repId db db') (id : Nat) (week : Stamp) :
    LockedAs db' id (repId, week) ↔ LockedAs db id (repId, week) := by
  unfold LockedAs
  constructor
  · rintro ⟨t, ht, hid, hkey, hl⟩
    have hrep : t.repId = repId := congrArg Prod.fst hkey
    exact ⟨t, (h.locked t hrep hl).mp ht, hid, hkey, hl⟩
  · rintro ⟨t, ht, hid, hkey, hl⟩
    have hrep : t.repId = repId := congrArg Prod.fst hkey
    exact ⟨t, (h.locked t hrep hl).mpr ht, hid, hkey, hl⟩

theorem SameForRep.weekLocked (h : SameForRep touched now repId db db') (hwf : Wf db) (hwf' : Wf db')
    (week : Stamp) : db'.weekLocked repId week = db.weekLocked repId week := by
  rw [Bool.eq_iff_iff, weekLocked_iff hwf', weekLocked_iff hwf]
  exact exists_congr fun id => h.lockedAs_iff id week

theorem SameForRep.releaseRow (h : SameForRep touched now repId db db') (hwf : Wf db) (hwf' : Wf db')
    {r : OverrideRow} (hr : r.beneficiaryRepId = repId) :
    releaseRow db' now r = releaseRow db now r := by
  unfold Commission.releaseRow
  cases r.holdPayableAfter with
  | none => rfl
  | some after =>
    dsimp only
    rw [h.org, hr, h.weekLocked hwf hwf']

theorem not_holdDue_releaseRow (db : Db) {r : OverrideRow} (h : HoldDue now r) :
    ¬ HoldDue now (releaseRow db now r) := by
  intro hdue
  rcases (releaseRow_status db h).1 with hst | hst <;>
    exact absurd (hst.symm.trans hdue.1) (by decide)

theorem SameForRep.trans (h : SameForRep touched now repId db db') (h' : SameForRep touched now repId db' db'')
    (hwf : Wf db) (hwf' : Wf db') : SameForRep touched now repId db db'' where
  org := h'.org.trans h.org
  sales := h'.sales.trans h.sales
  commissions := h'.commissions.trans h.commissions
  locked t hr hl := (h'.locked t hr hl).trans (h.locked t hr hl)
  kept id week hs := h'.kept id week (h.kept id week hs)
  ends := by
    intro t ht hr
    rcases h'.ends t ht hr with ⟨t₁, ht₁, hkey₁, hnext₁⟩ | ⟨htouched, hnew, ms, hms⟩
    · have hr₁ : t₁.repId = repId := (congrArg Prod.fst hkey₁).trans hr
      have hweek : t₁.weekStartUtc = t.weekStartUtc := congrArg Prod.snd hkey₁
      rcases h.ends t₁ ht₁ hr₁ with ⟨t₀, ht₀, hkey₀, hnext₀⟩ | ⟨htouched, hnew, ms, hms⟩
      · exact .inl ⟨t₀, ht₀, hkey₀.trans hkey₁, hnext₀.trans hnext₁⟩
      · exact .inr ⟨htouched, fun t₀ ht₀ hkey => hnew t₀ ht₀ (hkey.trans hkey₁.symm), ms,
          hms.1.trans hweek, hms.2.trans hnext₁⟩
    · rw [h.weekOf] at hms
      refine .inr ⟨htouched, fun t₀ ht₀ hkey => ?_, ms, hms⟩
      have hkey' : t₀.key = (repId, t.weekStartUtc) := hkey.trans (by rw [Statement.key, hr])
      obtain ⟨t₁, ht₁, _, hkey₁⟩ := h.kept t₀.id t.weekStartUtc ⟨t₀, ht₀, rfl, hkey'⟩
      exact hnew t₁ ht₁ (hkey₁.trans (hkey'.symm.trans hkey))
  rows := by
    obtain ⟨f, hf, hrow⟩ := h.rows
    obtain ⟨g, hg, hrow'⟩ := h'.rows
    refine ⟨g ∘ f, by rw [hg, hf, map_map], fun r => ⟨?_, fun hr => ?_⟩⟩
    · exact (hrow' (f r)).1.trans (hrow r).1
    · have hfr : (f r).beneficiaryRepId = repId := (hrow r).1.trans hr
      rcases (hrow r).2 hr with hsame | ⟨hdue, hrel⟩
      · rcases (hrow' (f r)).2 hfr with hsame' | ⟨hdue', hrel'⟩
        · exact .inl (hsame'.trans hsame)
        · rw [hsame] at hdue' hrel'
          rw [h.releaseRow hwf hwf' hr] at hrel'
          exact .inr ⟨hdue', by rw [Function.comp_apply, hsame, hrel']⟩
      · rcases (hrow' (f r)).2 hfr with hsame' | ⟨hdue', _⟩
        · exact .inr ⟨hdue, hsame'.trans hrel⟩
        · rw [hrel] at hdue'
          exact absurd hdue' (not_holdDue_releaseRow db hdue)

theorem SameForRep.payableBlock (h : SameForRep touched now repId db db') (hwf : Wf db) (hwf' : Wf db')
    (week : Stamp) :
    payableBlock (promoteReleasedHolds now db').overrides repId week =
      payableBlock (promoteReleasedHolds now db).overrides repId week := by
  obtain ⟨f, hf, hrow⟩ := h.rows
  have hbeneficiary : ∀ (db : Db) r,
      (if HoldDue now r then Commission.releaseRow db now r else r).beneficiaryRepId =
        r.beneficiaryRepId := fun db r => (sameEntry_release db now r).beneficiary
  have hsame : ∀ r : OverrideRow, r.beneficiaryRepId = repId →
      (if HoldDue now (f r) then Commission.releaseRow db' now (f r) else f r) =
        if HoldDue now r then Commission.releaseRow db now r else r := by
    intro r hr
    rcases (hrow r).2 hr with hfr | ⟨hdue, hfr⟩
    · rw [hfr, h.releaseRow hwf hwf' hr]
    · rw [hfr, if_neg (not_holdDue_releaseRow db hdue), if_pos hdue]
  have hlist : ∀ rows : List OverrideRow,
      ((rows.map f).map fun r => if HoldDue now r then Commission.releaseRow db' now r else r).filter
          (fun r => PayableIn repId week r) =
        (rows.map fun r => if HoldDue now r then Commission.releaseRow db now r else r).filter
          fun r => PayableIn repId week r := by
    intro rows
    induction rows with
    | nil => rfl
    | cons r rows ih =>
      simp only [map_cons]
      by_cases hr : r.beneficiaryRepId = repId
      · rw [hsame r hr]
        simp only [filter_cons]
        rw [ih]
      · rw [filter_cons_of_neg, filter_cons_of_neg, ih]
        · simp only [decide_eq_true_eq]
          exact fun hp => hr ((hbeneficiary db r).symm.trans hp.1)
        · simp only [decide_eq_true_eq]
          exact fun hp => hr ((hrow r).1.symm.trans ((hbeneficiary db' (f r)).symm.trans hp.1))
  unfold Commission.payableBlock promoteReleasedHolds
  rw [hf, hlist]

end Relation

section Writes

variable {touched : Prop} {now : Stamp} {db : Db}

theorem sameForRep_promote (now : Stamp) (repId : Nat) (db : Db) :
    SameForRep touched now repId db (promoteReleasedHolds now db) :=
  sameForRep_release (fun _ h => h) repId db

theorem sameForRep_releaseHolds (rows : Nat) (now : Stamp) (repId : Nat) (db : Db) :
    SameForRep touched now repId db (releaseHolds rows now db) :=
  sameForRep_release (fun _ h => h.1) repId db

theorem wf_releaseHolds (h : Wf db) (rows : Nat) (now : Stamp) : Wf (releaseHolds rows now db) :=
  h.release fun _ hp => hp.1

theorem sameForRep_updateStatement (hwf : Wf db) {e : Statement} (he : e ∈ db.statements)
    {f : Statement → Statement} (hid : ∀ s, (f s).id = s.id) (hkey : ∀ s, (f s).key = s.key)
    (hnext : ∀ s, (f s).nextWeekStartUtc = s.nextWeekStartUtc) (repId : Nat)
    (hopen : e.repId = repId → e.status.locked = false ∧ (f e).status.locked = false) :
    SameForRep touched now repId db (db.updateStatement e.id f) where
  org := rfl
  sales := rfl
  commissions := rfl
  kept id week h := hasStatement_updateStatement hid hkey h
  ends := by
    intro t ht _
    obtain ⟨t₀, ht₀, rfl⟩ := mem_map.mp ht
    refine .inl ⟨t₀, ht₀, ?_⟩
    split
    · exact ⟨(hkey t₀).symm, (hnext t₀).symm⟩
    · exact ⟨rfl, rfl⟩
  rows := ⟨id, (map_id _).symm, fun _ => ⟨rfl, fun _ => .inl rfl⟩⟩
  locked := by
    intro t hr hl
    have hother : t ∈ db.statements → t.id ≠ e.id := by
      intro ht hte
      obtain rfl := hwf.statementIds.eq_of_key ht he hte
      simp [(hopen hr).1] at hl
    constructor
    · intro ht
      obtain ⟨t₀, ht₀, rfl⟩ := mem_map.mp ht
      by_cases hte : t₀.id = e.id
      · obtain rfl := hwf.statementIds.eq_of_key ht₀ he hte
        rw [if_pos rfl] at hr hl
        have hrep : t₀.repId = repId := (congrArg Prod.fst (hkey t₀)).symm.trans hr
        simp [(hopen hrep).2] at hl
      · rw [if_neg hte]
        exact ht₀
    · intro ht
      exact mem_map.mpr ⟨t, ht, if_neg (hother ht)⟩

theorem sameForRep_storePricing (hwf : Wf db) {c : Nat} {ms : Int}
    (hopen : db.weekLocked c (db.weekOf ms).weekStartUtc = false) (p : StatementPricing)
    (repId : Nat) :
    SameForRep (c = repId) now repId db (storePricing c (db.weekOf ms)
      (db.statementFor c (db.weekOf ms).weekStartUtc) p now db) := by
  unfold storePricing
  cases he : db.statementFor c (db.weekOf ms).weekStartUtc with
  | some e =>
    obtain ⟨hmem, _, _⟩ := mem_of_statementFor he
    have hst : e.status.locked = false := by
      rw [Db.weekLocked, he] at hopen
      exact hopen
    dsimp only
    split
    · exact SameForRep.refl now repId db
    · exact sameForRep_updateStatement (f := (·.repriced p now)) hwf hmem (fun _ => rfl)
        (fun _ => rfl) (fun _ => rfl) repId fun _ => ⟨hst, hst⟩
  | none =>
    dsimp only
    exact
      { org := rfl
        sales := rfl
        commissions := rfl
        rows := ⟨id, (map_id _).symm, fun _ => ⟨rfl, fun _ => .inl rfl⟩⟩
        kept := by
          rintro id week ⟨s, hs, h⟩
          exact ⟨s, mem_append_left _ hs, h⟩
        ends := by
          intro t ht hr
          rcases mem_append.mp ht with ht | ht
          · exact .inl ⟨t, ht, rfl, rfl⟩
          · obtain rfl := mem_singleton.mp ht
            exact .inr ⟨hr, fun t₀ ht₀ => ne_of_statementFor_none he ht₀, ms, rfl, rfl⟩
        locked := by
          intro t _ hl
          constructor
          · intro ht
            rcases mem_append.mp ht with ht | ht
            · exact ht
            · obtain rfl := mem_singleton.mp ht
              simp [newStatement, StatementStatus.locked] at hl
          · exact fun ht => mem_append_left _ ht }

theorem sameForRep_repriced (hwf : Wf db) {c : Nat} {ms : Int}
    (hopen : db.weekLocked c (db.weekOf ms).weekStartUtc = false) (p : StatementPricing)
    (repId : Nat) : SameForRep (c = repId) now repId db (repriced now c ms p db) :=
  (sameForRep_promote now repId db).trans
    (sameForRep_storePricing (wf_promoteReleasedHolds hwf) hopen p repId) hwf
    (wf_promoteReleasedHolds hwf)

theorem sameForRep_calculate (hwf : Wf db) (c : Nat) (ms : Int) (now : Stamp) (repId : Nat) :
    SameForRep (c = repId) now repId db (calculateOrRecalculateStatement c ms now db).2 := by
  rcases calculateOrRecalculateStatement_cases c ms now db with
    ⟨_, _, hc⟩ | ⟨_, _, _, hc⟩ | ⟨hopen, p, _, _, hc⟩
  · rw [hc]
    exact SameForRep.refl now repId db
  · rw [hc]
    exact sameForRep_promote now repId db
  · rw [hc]
    exact sameForRep_repriced hwf hopen p repId

theorem sameForRep_markWeekSettled {c repId : Nat} (hne : c ≠ repId) (week : Stamp) (id : Nat)
    (db : Db) : SameForRep touched now repId db (markWeekSettled c week id now db) where
  org := rfl
  sales := rfl
  commissions := rfl
  locked _ _ _ := Iff.rfl
  kept _ _ h := h
  ends t ht _ := .inl ⟨t, ht, rfl, rfl⟩
  rows := by
    refine ⟨_, rfl, fun r => ⟨?_, fun hr => .inl ?_⟩⟩
    · split <;> rfl
    · exact if_neg fun hp => hne (hp.1.symm.trans hr)

theorem sameForRep_setStatementStatus (hwf : Wf db) {e : Statement} (he : e ∈ db.statements)
    {repId : Nat} (hne : e.repId ≠ repId) (status : StatementStatus) :
    SameForRep touched now repId db (setStatementStatus e.id status now db) :=
  sameForRep_updateStatement (f := fun s => { s with status := status, updatedAt := now }) hwf he
    (fun _ => rfl) (fun _ => rfl) (fun _ => rfl) repId fun h => absurd h hne

end Writes

section Pricing

variable {touched : Prop} {now : Stamp} {repId : Nat} {db db' : Db}

theorem computeStatement_map_unit (plan : CommissionPlan) (version : PlanVersion)
    (count approved approved' : Int) :
    (computeStatement plan version count approved).map (fun _ => ()) =
      (computeStatement plan version count approved').map fun _ => () := by
  unfold computeStatement
  split
  · rfl
  · split
    · rfl
    · dsimp only
      split <;> rfl

theorem map_unit_map {α β : Type} (x : Except CommissionError α) (f : α → β) :
    (x.map f).map (fun _ => ()) = x.map fun _ => () := by cases x <;> rfl

/-- A price is refused for what the configuration, the sales and the override block say. -/
theorem pricePlan_map_unit (horg : db'.org = db.org) (hsales : db'.sales = db.sales)
    (hcomm : db'.commissions = db.commissions) (bounds : WeekBounds) (hourly : WeekHourlyPay)
    (override : OverrideBlock) (approved approved' : Int) :
    (pricePlan db' now repId bounds hourly override approved').map (fun _ => ()) =
      (pricePlan db now repId bounds hourly override approved).map fun _ => () := by
  have hcount : ∀ basis, countQualifiedSales db' now basis repId bounds =
      countQualifiedSales db now basis repId bounds := by
    intro basis
    have hcounts : ∀ s ∈ db.sales, decide (CountsForPay db' now basis repId bounds s) =
        decide (CountsForPay db now basis repId bounds s) := by
      intro s _
      rw [decide_eq_decide, CountsForPay, CountsForPay, horg, hcomm]
    rw [countQualifiedSales, countQualifiedSales, hsales, filter_congr hcounts]
  unfold pricePlan
  simp only [Db.assignmentForWeek, Db.versionById, Db.planById, horg, hcount]
  split
  · split <;> rfl
  · split
    · rfl
    · split
      · rfl
      · rw [map_unit_map, map_unit_map]
        exact computeStatement_map_unit _ _ _ _ _

theorem SameForRep.repricing (h : SameForRep touched now repId db db') (hwf : Wf db) (hwf' : Wf db')
    (ms : Int) :
    (repricing now repId ms db').map (fun _ => ()) =
      (repricing now repId ms db).map fun _ => () := by
  unfold Commission.repricing priceStatement
  rw [map_unit_map, map_unit_map, h.weekOf, h.payableBlock hwf hwf']
  have horg : (promoteReleasedHolds now db').org = (promoteReleasedHolds now db).org := h.org
  rw [horg]
  exact pricePlan_map_unit horg h.sales h.commissions _ _ _ _ _

theorem exists_ok_iff {α : Type} {x y : Except CommissionError α}
    (h : x.map (fun _ => ()) = y.map fun _ => ()) : (∃ a, x = .ok a) ↔ ∃ a, y = .ok a := by
  cases x <;> cases y <;> simp_all [Except.map]

theorem SameForRep.exists_price_iff (h : SameForRep touched now repId db db') (hwf : Wf db)
    (hwf' : Wf db') (ms : Int) :
    (∃ p, Commission.repricing now repId ms db' = .ok p) ↔
      ∃ p, Commission.repricing now repId ms db = .ok p :=
  exists_ok_iff (h.repricing hwf hwf' ms)

end Pricing

end HomefrontFiber.Closeout
