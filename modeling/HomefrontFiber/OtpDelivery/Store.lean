import HomefrontFiber.Foundation.Runs
import HomefrontFiber.ComingLedger.Answer
import HomefrontFiber.Foundation.IsoText
import Mathlib.Data.List.Count
import Mathlib.Data.List.Sort

/-!
# One-time codes and their delivery

A code and the mail that carries it are written together. Workers claim the rows of the outbox
under a lease, check that the code is still the one to send, call the provider and settle the row.
Each action is one transaction or one step of a worker between two suspensions. Instants are in
milliseconds; a fresh lease token is the next number.
-/

namespace HomefrontFiber.OtpDelivery

open ComingLedger (trim)

def OTP_DELIVERY_ATTEMPTS : Nat := 5
def OTP_DELIVERY_LEASE_MS : Int := 60000

/-- `toLowerCase` and `lower`, on ASCII letters. -/
def lower (t : Text) : Text := t.map Char.toLower

structure User where
  id : Int
  email : Text
  active : Bool := true
  tenantId : Option Int := none

structure OtpCode where
  id : Nat
  email : Text
  code : Nat
  used : Bool := false
  failedAttempts : Nat := 0
  expiresAt : Int

structure FrozenDelivery where
  id : Nat
  userId : Int
  tenantId : Option Int
  otpId : Nat
  mailTo : Text
  deriving DecidableEq

inductive DeliveryStatus where
  | pending | processing | accepted | failed | expired | superseded | discarded
  deriving DecidableEq

def DeliveryStatus.unfinished (s : DeliveryStatus) : Bool := s = .pending || s = .processing

structure DeliveryRow where
  id : Nat
  tenantId : Option Int
  userId : Int
  otpId : Nat
  payload : Option FrozenDelivery
  status : DeliveryStatus := .pending
  attempts : Nat := 0
  expiresAt : Int
  nextAttemptAt : Int
  leaseToken : Option Nat := none
  leaseUntil : Option Int := none
  completedAt : Option Int := none
  deriving DecidableEq

structure OtpDb where
  codes : List OtpCode := []
  rows : List DeliveryRow := []
  users : List User := []
  nextOtpId : Nat := 1
  nextToken : Nat := 0

def finish (status : DeliveryStatus) (now : Int) (r : DeliveryRow) : DeliveryRow :=
  { r with
    status, payload := none, completedAt := some now, leaseToken := none, leaseUntil := none }

def burn (c : OtpCode) : OtpCode := { c with used := true }

def liveLease (r : DeliveryRow) (now : Int) : Bool := r.leaseUntil.any (now < ·)

def leaseOver (r : DeliveryRow) (now : Int) : Bool := r.leaseUntil.any (· ≤ now)

/-- `issueDurableOtp` for an owner as the caller read it. A mail to another address, an id that is
taken or an owner without a safe id leaves everything as it was. -/
def issueDurableOtp (db : OtpDb) (owner : User) (id code : Nat) (mailTo : Text) (now : Int) :
    OtpDb :=
  let email := lower (trim owner.email)
  if owner.id ≤ 0 || lower (trim mailTo) ≠ email || db.rows.any (·.id = id) then db
  else
    let expires := now + 600000
    { db with
      codes := (db.codes.map fun c => if c.email = email && !c.used then burn c else c) ++
        [{ id := db.nextOtpId, email, code, expiresAt := expires }]
      rows := (db.rows.map fun r =>
          if r.userId = owner.id && r.status.unfinished then finish .superseded now r else r) ++
        [{ id, tenantId := owner.tenantId, userId := owner.id, otpId := db.nextOtpId
           payload := some ⟨id, owner.id, owner.tenantId, db.nextOtpId, mailTo⟩
           expiresAt := expires, nextAttemptAt := now }]
      nextOtpId := db.nextOtpId + 1 }

def liveCode (db : OtpDb) (email : Text) (now : Int) : Option OtpCode :=
  (db.codes.filter fun c => c.email = email && !c.used && now < c.expiresAt).getLast?

/-- `verifyOtp`, for its writes. -/
def verifyOtp (db : OtpDb) (email : Text) (code : Nat) (now : Int) : OtpDb :=
  let em := lower email
  match (liveCode db em now).filter (·.code = code) with
  | some otp => { db with codes := db.codes.map fun c => if c.id = otp.id then burn c else c }
  | none =>
    let missed := db.codes.map fun c =>
      if c.email = em && !c.used && now < c.expiresAt then
        { c with failedAttempts := c.failedAttempts + 1 }
      else c
    { db with codes := missed.map fun c =>
        if c.email = em && !c.used && 5 ≤ c.failedAttempts then burn c else c }

def editUser (db : OtpDb) (user : User) : OtpDb :=
  { db with users := db.users.map fun u => if u.id = user.id then user else u }

/-- What a change of an account's authority does: its bound codes are burnt and its deliveries are
discarded. -/
def revoke (db : OtpDb) (userId : Int) (bound : List Nat) (now : Int) : OtpDb :=
  { db with
    codes := db.codes.map fun c => if c.id ∈ bound then burn c else c
    rows := db.rows.map fun r =>
      if r.userId = userId && r.status.unfinished then finish .discarded now r else r }

/-- When a row may be claimed, if it may at `now`. -/
def claimDue (now : Int) (r : DeliveryRow) : Option Int :=
  if r.expiresAt ≤ now || OTP_DELIVERY_ATTEMPTS ≤ r.attempts then none
  else match r.status with
    | .pending => if r.nextAttemptAt ≤ now then some r.nextAttemptAt else none
    | .processing => r.leaseUntil.filter (· ≤ now)
    | _ => none

/-- The candidate of a claim: `ORDER BY due, id LIMIT 1`. -/
def candidate (db : OtpDb) (now : Int) : Option DeliveryRow :=
  ((db.rows.filterMap fun r => (claimDue now r).map fun due => (due, r)).insertionSort
    fun a b => a.1 < b.1 ∨ a.1 = b.1 ∧ a.2.id ≤ b.2.id).head?.map (·.2)

def claimRow (token : Nat) (now : Int) (r : DeliveryRow) : DeliveryRow :=
  { r with
    status := .processing
    leaseToken := some token
    leaseUntil := some (now + OTP_DELIVERY_LEASE_MS)
    attempts := r.attempts + 1 }

def claimOtpDelivery (db : OtpDb) (now : Int) : OtpDb × Option DeliveryRow :=
  match candidate db now with
  | none => (db, none)
  | some r =>
    let job := claimRow db.nextToken now r
    ({ db with
        rows := db.rows.map fun row => if row.id = r.id then claimRow db.nextToken now row else row
        nextToken := db.nextToken + 1 }, some job)

inductive Eligibility where
  | mail (mail : FrozenDelivery)
  | none
  | mismatch

def joins (db : OtpDb) (job : DeliveryRow) (mail : FrozenDelivery) (now : Int) : Bool :=
  db.rows.any fun d => d.id = job.id && d.status = .processing && d.leaseToken = job.leaseToken &&
    liveLease d now && db.codes.any fun o => o.id = d.otpId && !o.used && now < o.expiresAt &&
      o.email = lower (trim mail.mailTo) && db.users.any fun u => u.id = d.userId &&
        lower u.email = o.email && u.active && u.tenantId = d.tenantId

def eligibleOtpMail (db : OtpDb) (job : DeliveryRow) (now : Int) : Eligibility :=
  match job.payload with
  | none => .none
  | some envelope =>
    if job.expiresAt ≤ now || OTP_DELIVERY_ATTEMPTS < job.attempts then .none
    else if envelope.id ≠ job.id || envelope.userId ≠ job.userId ||
        envelope.tenantId ≠ job.tenantId || envelope.otpId ≠ job.otpId then .mismatch
    else if joins db job envelope now then .mail envelope
    else .none

def retryDelay (attempts : Nat) : Int := min 120000 (5000 * 2 ^ min (attempts - 1) 5)

def settles (job : DeliveryRow) (now : Int) (r : DeliveryRow) : Bool :=
  r.id = job.id && r.status = .processing && r.leaseToken.isSome &&
    r.leaseToken = job.leaseToken && liveLease r now

def settleRow (job : DeliveryRow) (result : DeliveryStatus) (now : Int) (r : DeliveryRow) :
    DeliveryRow :=
  { r with
    status := result
    nextAttemptAt := now + retryDelay job.attempts
    completedAt := if result = .pending then none else some now
    payload := if result = .pending then r.payload else none
    leaseToken := none
    leaseUntil := none }

def settleOtpDelivery (db : OtpDb) (job : DeliveryRow) (result : DeliveryStatus) (now : Int) :
    OtpDb :=
  { db with
    rows := db.rows.map fun r => if settles job now r then settleRow job result now r else r }

def retirable (now : Int) (r : DeliveryRow) : Bool :=
  (r.status = .pending || r.status = .processing && leaseOver r now) &&
    (r.expiresAt ≤ now || OTP_DELIVERY_ATTEMPTS ≤ r.attempts)

def retireRow (now : Int) (r : DeliveryRow) : DeliveryRow :=
  finish (if r.expiresAt ≤ now then .expired else .failed) now r

/-- One statement retires at most 500 rows. -/
def retireExpiredOtpDeliveries (db : OtpDb) (now : Int) : OtpDb :=
  let ids := ((db.rows.filter (retirable now)).take 500).map (·.id)
  { db with rows := db.rows.map fun r => if r.id ∈ ids then retireRow now r else r }

inductive Reply where
  | receipt
  | error (retryable : Bool)

def replyResult (job : DeliveryRow) (reply : Reply) (now : Int) : DeliveryStatus :=
  match reply with
  | .receipt => .accepted
  | .error retryable =>
    if job.expiresAt ≤ now then .expired
    else if !retryable || OTP_DELIVERY_ATTEMPTS ≤ job.attempts then .failed
    else .pending

inductive Phase where
  | idle
  | claimed (job : DeliveryRow)
  | sending (job : DeliveryRow)
  | settling (job : DeliveryRow) (result : DeliveryStatus)

def Phase.job : Phase → Option DeliveryRow
  | .idle => none
  | .claimed job | .sending job | .settling job _ => some job

structure World where
  db : OtpDb := {}
  phase : Nat → Phase := fun _ => .idle
  /-- The rows that were claimed, one entry a claim. -/
  claims : List Nat := []

inductive Action where
  | issue (owner : User) (id code : Nat) (mailTo : Text) (now : Int)
  | verify (email : Text) (code : Nat) (now : Int)
  | editUser (user : User)
  | revoke (userId : Int) (bound : List Nat) (now : Int)
  | retire (now : Int)
  | claim (worker : Nat) (now : Int)
  | check (worker : Nat) (now later : Int)
  | reply (worker : Nat) (reply : Reply) (now : Int)
  | settle (worker : Nat) (now : Int)
  | crash (worker : Nat)

def setPhase (s : World) (worker : Nat) (phase : Phase) : World :=
  { s with phase := fun w => if w = worker then phase else s.phase w }

/-- The phase of a worker after its check at `now`. The clock is read again for the result. -/
def checked (db : OtpDb) (job : DeliveryRow) (now later : Int) : Phase :=
  match eligibleOtpMail db job now with
  | .mail _ => .sending job
  | .none => .settling job (if job.expiresAt ≤ later then .expired else .superseded)
  | .mismatch => .settling job (replyResult job (.error true) later)

def step (s : World) : Action → World
  | .issue owner id code mailTo now => { s with db := issueDurableOtp s.db owner id code mailTo now }
  | .verify email code now => { s with db := verifyOtp s.db email code now }
  | .editUser user => { s with db := editUser s.db user }
  | .revoke userId bound now => { s with db := revoke s.db userId bound now }
  | .retire now => { s with db := retireExpiredOtpDeliveries s.db now }
  | .claim worker now =>
    match s.phase worker, claimOtpDelivery s.db now with
    | .idle, (db, some job) =>
      { setPhase s worker (.claimed job) with db, claims := s.claims ++ [job.id] }
    | _, _ => s
  | .check worker now later =>
    match s.phase worker with
    | .claimed job => setPhase s worker (checked s.db job now later)
    | _ => s
  | .reply worker reply now =>
    match s.phase worker with
    | .sending job => setPhase s worker (.settling job (replyResult job reply now))
    | _ => s
  | .settle worker now =>
    match s.phase worker with
    | .settling job result =>
      { setPhase s worker .idle with db := settleOtpDelivery s.db job result now }
    | _ => s
  | .crash worker => setPhase s worker .idle

end HomefrontFiber.OtpDelivery
