import Mathlib.Tactic.Linarith
import Mathlib.Algebra.Order.Ring.Int
import Mathlib.Algebra.Order.Group.Unbundled.Int
import Mathlib.Data.List.Sort
import HomefrontFiber.Foundation.Runs
import HomefrontFiber.Foundation.Service
import HomefrontFiber.Workweek

/-!
# The chargeback reserve split

A part of an earned commission is withheld as a reserve and the rest is paid. The reserve is the
rounded percentage, trimmed to the room that is left under a cap, and the net is the exact
remainder. Amounts are whole cents.
-/

namespace HomefrontFiber.Reserve

structure Holdback where
  reservePercent : Int
  reserveCents : Int
  netPayableCents : Int
  earnedCents : Int
  reserveCapCents : Option Int
  balanceBeforeCents : Int
  balanceAfterCents : Int
  capRemainingCents : Option Int
  atCap : Bool

/-- The ceiling when neither the rep nor the organisation sets one: $2,500. -/
def defaultReserveCapCents : Int := 250000

/-- A cap of zero or less means uncapped. -/
def normalizeReserveCap (capCents : Option Int) : Option Int := capCents.filter fun c => 0 < c

def clampPercent (percent : Int) : Int := min 100 (max 0 percent)

/-- `percent` per cent of an amount, rounded to the nearest cent, halves up. -/
def roundedShare (earnedCents percent : Int) : Int := (2 * (earnedCents * percent) + 100) / 200

def uncappedReserve (earnedCents percent : Int) : Int :=
  if earnedCents ≤ 0 ∨ percent = 0 then 0 else roundedShare earnedCents percent

def computeHoldback (earnedCents reservePercent : Int)
    (reserveCapCents currentBalanceCents : Option Int) : Holdback :=
  let percent := clampPercent reservePercent
  let cap := normalizeReserveCap reserveCapCents
  let balanceBefore := max 0 (currentBalanceCents.getD 0)
  let capRemaining := cap.map fun c => max 0 (c - balanceBefore)
  let uncapped := uncappedReserve earnedCents percent
  let reserve := (capRemaining.map (min uncapped)).getD uncapped
  let balanceAfter := balanceBefore + reserve
  { reservePercent := percent
    reserveCents := reserve
    netPayableCents := earnedCents - reserve
    earnedCents := earnedCents
    reserveCapCents := cap
    balanceBeforeCents := balanceBefore
    balanceAfterCents := balanceAfter
    capRemainingCents := capRemaining
    atCap := cap.any fun c => c ≤ balanceAfter }

theorem clampPercent_bounds (percent : Int) :
    0 ≤ clampPercent percent ∧ clampPercent percent ≤ 100 := by
  unfold clampPercent
  omega

theorem roundedShare_nonneg {earned percent : Int} (he : 0 ≤ earned) (hp : 0 ≤ percent) :
    0 ≤ roundedShare earned percent := by
  have hmul : 0 ≤ earned * percent := Int.mul_nonneg he hp
  unfold roundedShare
  omega

theorem roundedShare_le {earned percent : Int} (he : 0 ≤ earned) (hp : percent ≤ 100) :
    roundedShare earned percent ≤ earned := by
  have hmul : earned * percent ≤ earned * 100 := Int.mul_le_mul_of_nonneg_left hp he
  unfold roundedShare
  omega

theorem uncappedReserve_bounds (earned percent : Int) (hp : 0 ≤ percent ∧ percent ≤ 100) :
    0 ≤ uncappedReserve earned percent ∧ uncappedReserve earned percent ≤ max 0 earned := by
  unfold uncappedReserve
  split
  · omega
  · rename_i hpos
    have he : 0 ≤ earned := by omega
    have hlow := roundedShare_nonneg he hp.1
    have hhigh := roundedShare_le he hp.2
    omega

section Split

variable (earned percent : Int) (cap balance : Option Int)

theorem reserveCents_eq :
    (computeHoldback earned percent cap balance).reserveCents =
      match normalizeReserveCap cap with
      | none => uncappedReserve earned (clampPercent percent)
      | some c => min (uncappedReserve earned (clampPercent percent))
          (max 0 (c - max 0 (balance.getD 0))) := by
  unfold computeHoldback
  cases normalizeReserveCap cap <;> rfl

theorem computeHoldback_split :
    (computeHoldback earned percent cap balance).reserveCents +
        (computeHoldback earned percent cap balance).netPayableCents = earned ∧
      0 ≤ (computeHoldback earned percent cap balance).reserveCents ∧
      (computeHoldback earned percent cap balance).reserveCents ≤ max 0 earned := by
  have hbounds := uncappedReserve_bounds earned _ (clampPercent_bounds percent)
  have hnet : (computeHoldback earned percent cap balance).netPayableCents =
      earned - (computeHoldback earned percent cap balance).reserveCents := rfl
  have hreserve := reserveCents_eq earned percent cap balance
  cases hcap : normalizeReserveCap cap with
  | none =>
    rw [hcap] at hreserve
    dsimp only at hreserve
    omega
  | some c =>
    rw [hcap] at hreserve
    dsimp only at hreserve
    have hroom : 0 ≤ max 0 (c - max 0 (balance.getD 0)) := le_max_left _ _
    rw [min_def] at hreserve
    split at hreserve <;> omega

theorem computeHoldback_le_cap {c current : Int} (hcap : normalizeReserveCap cap = some c)
    (hcurrent : 0 ≤ current)
    (hpos : 0 < (computeHoldback earned percent cap (some current)).reserveCents) :
    current + (computeHoldback earned percent cap (some current)).reserveCents ≤ c := by
  have hreserve := reserveCents_eq earned percent cap (some current)
  rw [hcap] at hreserve
  simp only [Option.getD_some] at hreserve
  omega

end Split

end HomefrontFiber.Reserve

/-!
## The reserve ledger

One organisation's `reserve_entries`, an append-only table of holds, drawdowns and releases. A
rep's balance is the sum of their entries. Weekly holds are appended when a week settles, once a
week and rep, against the balance and the policy of that moment; an administrator draws down or
releases what is there.
-/

namespace HomefrontFiber.Reserve

inductive ReserveEntryKind
  | hold | drawdown | release
deriving DecidableEq

/-- A row of `reserve_entries`. Only a hold belongs to a week. -/
structure ReserveEntry where
  id : Nat
  repId : Nat
  kind : ReserveEntryKind
  amountCents : Int
  statementId : Option Nat
  weekStartUtc : Option Text
  weekLabel : Option String
  reason : Text

/-- The reserve columns of a row of `team_members`. Null inherits. -/
structure RepReserve where
  id : Nat
  reservePercent : Option Int
  reserveCapCents : Option Int

/-- The reserve defaults of the organisation, its reps and the ledger. -/
structure ReserveBook where
  orgReservePercent : Int
  orgReserveCapCents : Option Int
  reps : List RepReserve
  entries : List ReserveEntry

inductive ReserveErrorCode
  | repNotFound | invalidConfig | invalidAmount | reasonRequired | insufficientBalance

structure ReserveError where
  code : ReserveErrorCode
  message : String
  httpStatus : Nat := 400

abbrev ReserveService (α : Type) := Service ReserveBook ReserveError α

def maxReserveCents : Int := 100000000

inductive PolicySource
  | rep | org | default

structure RepReserveConfig where
  reservePercent : Int
  reserveCapCents : Option Int
  repReservePercent : Option Int
  repReserveCapCents : Option Int
  orgReservePercent : Int
  orgReserveCapCents : Option Int
  percentSource : PolicySource
  capSource : PolicySource

def repNotFound : ReserveError where
  code := .repNotFound
  message := "Rep not found."
  httpStatus := 404

def requireRep (repId : Nat) (book : ReserveBook) : Except ReserveError RepReserve :=
  match book.reps.find? (·.id = repId) with
  | none => .error repNotFound
  | some rep => .ok rep

/-- The policy in force for one rep: their own, else that of the organisation, else the default
cap. -/
def reserveConfig (book : ReserveBook) (rep : RepReserve) : RepReserveConfig where
  reservePercent := (rep.reservePercent.map clampPercent).getD (clampPercent book.orgReservePercent)
  reserveCapCents := normalizeReserveCap
    (some ((rep.reserveCapCents.or book.orgReserveCapCents).getD defaultReserveCapCents))
  repReservePercent := rep.reservePercent.map clampPercent
  repReserveCapCents := rep.reserveCapCents
  orgReservePercent := clampPercent book.orgReservePercent
  orgReserveCapCents := book.orgReserveCapCents
  percentSource := if rep.reservePercent.isSome then .rep else .org
  capSource := if rep.reserveCapCents.isSome then .rep
    else if book.orgReserveCapCents.isSome then .org else .default

def resolveRepReserveConfig (repId : Nat) (book : ReserveBook) :
    Except ReserveError RepReserveConfig :=
  (requireRep repId book).map (reserveConfig book)

def getReserveBalanceCents (book : ReserveBook) (repId : Nat) : Int :=
  ((book.entries.filter (·.repId = repId)).map (·.amountCents)).sum

/-- The hold of a rep's week, at most one by its unique index. -/
def holdFor (book : ReserveBook) (repId : Nat) (weekStartUtc : Text) : Option ReserveEntry :=
  book.entries.find? fun e =>
    e.kind = .hold ∧ e.repId = repId ∧ e.weekStartUtc = some weekStartUtc

def append (book : ReserveBook) (entry : ReserveEntry) : ReserveBook :=
  { book with entries := book.entries ++ [entry] }

structure HoldInput where
  repId : Nat
  statementId : Option Nat
  weekStartUtc : Text
  weekLabel : Option String
  earnedCents : Int

structure HoldResult where
  inserted : Bool
  holdback : Holdback
  balanceCents : Int

/-- The split of a week that is not held yet, against the live balance. -/
def weekHoldback (book : ReserveBook) (cfg : RepReserveConfig) (input : HoldInput) : Holdback :=
  computeHoldback input.earnedCents cfg.reservePercent cfg.reserveCapCents
    (some (getReserveBalanceCents book input.repId))

def holdEntry (book : ReserveBook) (input : HoldInput) (holdback : Holdback) : ReserveEntry where
  id := book.entries.length + 1
  repId := input.repId
  kind := .hold
  amountCents := holdback.reserveCents
  statementId := input.statementId
  weekStartUtc := some input.weekStartUtc
  weekLabel := input.weekLabel
  reason := (s!"Weekly chargeback reserve - {holdback.reservePercent}% of " ++
    s!"{holdback.earnedCents} cents earned").toList

/-- Appends the hold of a week, once: a week that is held already reports what was recorded. -/
def recordWeeklyHold (input : HoldInput) : ReserveService HoldResult := do
  let cfg ← Service.check (resolveRepReserveConfig input.repId)
  let book ← Service.read id
  let balanceCents := getReserveBalanceCents book input.repId
  match holdFor book input.repId input.weekStartUtc with
  | some existing =>
    pure
      { inserted := false
        holdback := computeHoldback input.earnedCents cfg.reservePercent cfg.reserveCapCents
          (some (balanceCents - existing.amountCents))
        balanceCents }
  | none =>
    let holdback := weekHoldback book cfg input
    if holdback.reserveCents ≤ 0 then pure { inserted := false, holdback, balanceCents }
    else do
      Service.write fun book => append book (holdEntry book input holdback)
      let after ← Service.read fun book => getReserveBalanceCents book input.repId
      pure { inserted := true, holdback, balanceCents := after }

structure SettledStatement where
  id : Nat
  weekStartUtc : Text
  weekLabel : Option String
  finalCommissionCents : Int

def settledHold (repId : Nat) (s : SettledStatement) : HoldInput where
  repId := repId
  statementId := some s.id
  weekStartUtc := s.weekStartUtc
  weekLabel := s.weekLabel
  earnedCents := s.finalCommissionCents

/-- Holds every settled week of a rep that has no hold yet, oldest first. -/
def ensureHoldsForSettledStatements (repId : Nat) (settled : List SettledStatement) :
    ReserveService Unit := do
  let cfg ← Service.check (resolveRepReserveConfig repId)
  if cfg.reservePercent ≤ 0 then pure ()
  else do
    let missing ← Service.read fun book =>
      (settled.filter fun s => (holdFor book repId s.weekStartUtc).isNone).insertionSort
        fun a b => a.weekStartUtc ≤ b.weekStartUtc
    Service.forEach (fun s => do let _ ← recordWeeklyHold (settledHold repId s)) missing

def validateMovement (amountCents : Int) (reason : Text) : Except ReserveError (Int × Text) :=
  if amountCents ≤ 0 then
    .error { code := .invalidAmount
             message := "Amount must be a whole number of cents above zero." }
  else if maxReserveCents < amountCents then
    .error { code := .invalidAmount
             message := "Amount is implausibly large - check the number." }
  else if trim reason = [] then
    .error { code := .reasonRequired, message := "A reason is required." }
  else .ok (amountCents, (trim reason).take 500)

def insufficientBalance (message : String) : ReserveError where
  code := .insufficientBalance
  message := message

def overdraft : ReserveEntryKind → ReserveError
  | .drawdown => insufficientBalance ("That chargeback is larger than the rep's reserve balance. " ++
      "The reserve can never go negative - reduce the amount or use a commission adjustment for " ++
      "the remainder.")
  | _ => insufficientBalance ("That release is larger than the rep's reserve balance. " ++
      "The reserve can never go negative.")

def movementEntry (book : ReserveBook) (repId : Nat) (kind : ReserveEntryKind) (amountCents : Int)
    (reason : Text) : ReserveEntry where
  id := book.entries.length + 1
  repId := repId
  kind := kind
  amountCents := -amountCents
  statementId := none
  weekStartUtc := none
  weekLabel := none
  reason := reason

/-- The checks of a negative movement, in the order in which the code makes them. -/
def movementVerdict (repId : Nat) (kind : ReserveEntryKind) (amountCents : Int) (reason : Text)
    (book : ReserveBook) : Except ReserveError (Int × Text) :=
  match requireRep repId book, validateMovement amountCents reason with
  | .error e, _ => .error e
  | .ok _, .error e => .error e
  | .ok _, .ok movement =>
    if getReserveBalanceCents book repId < movement.1 then .error (overdraft kind)
    else .ok movement

def appendNegativeEntry (repId : Nat) (kind : ReserveEntryKind) (amountCents : Int)
    (reason : Text) : ReserveService Unit := do
  let movement ← Service.check (movementVerdict repId kind amountCents reason)
  Service.write fun book => append book (movementEntry book repId kind movement.1 movement.2)

def applyDrawdown (repId : Nat) (amountCents : Int) (reason : Text) : ReserveService Unit :=
  appendNegativeEntry repId .drawdown amountCents reason

/-- Returns reserve to the rep. Without an amount the full balance is released. -/
def releaseReserve (repId : Nat) (amountCents : Option Int) (reason : Text) :
    ReserveService Unit := do
  let _ ← Service.check (requireRep repId)
  let balance ← Service.read fun book => getReserveBalanceCents book repId
  if amountCents = none ∧ balance ≤ 0 then
    Service.throw (insufficientBalance "There is no reserve balance to release.")
  else appendNegativeEntry repId .release (amountCents.getD balance) reason

/-- An edit of a rep's overrides. An absent field is left alone, a null one clears the override. -/
structure ReservePatch where
  reservePercent : Option (Option Int)
  reserveCapCents : Option (Option Int)

def invalidConfig (message : String) : ReserveError where
  code := .invalidConfig
  message := message

def patchVerdict (patch : ReservePatch) : Except ReserveError Unit :=
  if patch.reservePercent.any fun p => p.any fun p => p < 0 || 100 < p then
    .error (invalidConfig "Reserve percent must be a whole number from 0 to 100.")
  else if patch.reserveCapCents.any fun c => c.any fun c => c < 0 || maxReserveCents < c then
    .error (invalidConfig
      "Reserve cap must be a whole number of cents from 0 to $1,000,000.")
  else .ok ()

def RepReserve.patched (rep : RepReserve) (patch : ReservePatch) : RepReserve :=
  { rep with
    reservePercent := patch.reservePercent.getD rep.reservePercent
    reserveCapCents := patch.reserveCapCents.getD rep.reserveCapCents }

def setRepReserveConfig (repId : Nat) (patch : ReservePatch) : ReserveService Unit := do
  let _ ← Service.check (resolveRepReserveConfig repId)
  Service.check fun _ => patchVerdict patch
  Service.write fun book =>
    { book with reps := book.reps.map fun r => if r.id = repId then r.patched patch else r }

/-- One call of the reserve service, or an edit of what it only reads: the defaults of the
organisation and the roster. -/
inductive ReserveAction
  | recordWeeklyHold (input : HoldInput)
  | ensureHoldsForSettledStatements (repId : Nat) (settled : List SettledStatement)
  | applyDrawdown (repId : Nat) (amountCents : Int) (reason : Text)
  | releaseReserve (repId : Nat) (amountCents : Option Int) (reason : Text)
  | setRepReserveConfig (repId : Nat) (patch : ReservePatch)
  | editOrganization (reservePercent : Int) (reserveCapCents : Option Int)
  | editRoster (reps : List RepReserve)

def perform : ReserveAction → ReserveService Unit
  | .recordWeeklyHold input => do let _ ← recordWeeklyHold input
  | .ensureHoldsForSettledStatements repId settled => ensureHoldsForSettledStatements repId settled
  | .applyDrawdown repId amountCents reason => applyDrawdown repId amountCents reason
  | .releaseReserve repId amountCents reason => releaseReserve repId amountCents reason
  | .setRepReserveConfig repId patch => setRepReserveConfig repId patch
  | .editOrganization percent cap => Service.write fun book =>
    { book with orgReservePercent := percent, orgReserveCapCents := cap }
  | .editRoster reps => Service.write fun book => { book with reps := reps }

def step (book : ReserveBook) (a : ReserveAction) : ReserveBook := (perform a book).2

end HomefrontFiber.Reserve
