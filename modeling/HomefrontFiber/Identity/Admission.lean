import HomefrontFiber.Identity.Store

/-!
# Account edits, continuations and admissions

Every operation is one transaction of the writer. A thrown conflict rolls it back, and the state is
what it was. The triggers of the schema are part of the operation that fires them.
-/

namespace HomefrontFiber.Identity

def lower (t : Text) : Text := t.map Char.toLower

def normalizeEmail (t : Text) : Text := lower (trim t)

structure AccountEdit where
  tenantId : Option Nat
  email : Text
  role : Text
  teamMemberId : Option Nat
  active : Bool
  isSuperAdmin : Bool
  passwordHash : Option Text

def AccountEdit.apply (e : AccountEdit) (u : User) : User :=
  { u with
    tenantId := e.tenantId
    email := e.email
    role := e.role
    teamMemberId := e.teamMemberId
    active := e.active
    isSuperAdmin := e.isSuperAdmin
    passwordHash := e.passwordHash }

/-- `identity_local_security_changed` watches every column but the password. -/
def AccountEdit.changes (e : AccountEdit) (u : User) : Bool :=
  e.email ≠ u.email || e.active ≠ u.active || e.role ≠ u.role || e.teamMemberId ≠ u.teamMemberId ||
    e.tenantId ≠ u.tenantId || e.isSuperAdmin ≠ u.isSuperAdmin

/-- An `UPDATE` of a row of `users`. -/
def editAccount (w : World) (userId : Nat) (e : AccountEdit) : Except IdentityConflict World :=
  match findUser w userId with
  | none => .ok w
  | some u =>
    if u.managed.isSome && (e.tenantId ≠ u.tenantId || e.isSuperAdmin ||
        normalizeEmail e.email ∈ w.reservedEmails) then .error .cannotRetarget
    else if e.tenantId ≠ u.tenantId && u.mfaEnabled then .error .cannotRetarget
    else if e.changes u then .ok ((w.editUser userId e.apply).advanceEpoch userId)
    else .ok (w.editUser userId e.apply)

def World.editManaged (w : World) (userId : Nat) (f : Managed → Managed) : World :=
  w.editUser userId fun u => { u with managed := u.managed.map f }

def transitionDirectoryAccount (w : World) (tenantId userId expectedGeneration : Nat)
    (active deleted : Bool) : Except IdentityConflict World :=
  match findUser w userId with
  | none => .error .identityNotFound
  | some u =>
    match u.managed with
    | none => .error .identityNotFound
    | some m =>
      if u.tenantId ≠ some tenantId ∨ m.tenantId ≠ tenantId then .error .identityNotFound
      else if m.generation ≠ expectedGeneration then .error .staleIdentity
      else if deleted && active then .error .invalidDirectoryState
      else if m.directoryActive = active ∧ m.directoryDeleted = deleted then .ok w
      else
        .ok ((w.editManaged userId fun m =>
          { m with
            directoryActive := active
            directoryDeleted := deleted
            generation := m.generation + 1
            approval := .pending
            approvedGeneration := none
            approvedBy := none }).advanceEpoch userId)

def adminRoles : List Text :=
  [['a', 'd', 'm', 'i', 'n'], ['s', 'u', 'p', 'e', 'r', '_', 'a', 'd', 'm', 'i', 'n']]

def requireIdentityAdmin (w : World) (sessionId tenantId : Nat) : Except IdentityConflict User :=
  match w.sessions.find? (·.id = sessionId) with
  | none => .error .adminAuthorityRequired
  | some s =>
    match findUser w s.userId with
    | none => .error .adminAuthorityRequired
    | some u =>
      if tenantId = 0 || (sessionAdmission w (some (accountOf w u)) s w.now).isSome ||
          (!u.isSuperAdmin && (u.tenantId ≠ some tenantId || u.role ∉ adminRoles)) then
        .error .adminAuthorityRequired
      else .ok u

def reviewManagedAccount (w : World) (adminSessionId tenantId userId expectedGeneration : Nat)
    (approve : Bool) : Except IdentityConflict World :=
  match requireIdentityAdmin w adminSessionId tenantId with
  | .error e => .error e
  | .ok actor =>
    match findUser w userId with
    | none => .error .identityNotFound
    | some u =>
      match u.managed with
      | none => .error .identityNotFound
      | some m =>
        let decision := if approve then ApprovalState.approved else .rejected
        if u.tenantId ≠ some tenantId then .error .identityNotFound
        else if m.generation ≠ expectedGeneration then .error .staleIdentity
        else if !m.directoryActive || m.directoryDeleted then .error .directoryInactive
        else if actor.id = userId then .error .selfApprovalForbidden
        else if m.approval = decision then .ok w
        else
          .ok ((w.editManaged userId fun m =>
            { m with
              approval := decision
              approvedGeneration := if approve then some expectedGeneration else none
              approvedBy := some actor.id }).advanceEpoch userId)

/-- A row of `identity_policies` within the checks of its columns. -/
def setPolicy (w : World) (row : PolicyRow) : Except IdentityConflict World :=
  if row.sessionLimit.all (fun n => 1 ≤ n && n ≤ 50) &&
      row.idleTimeoutMs.all (fun ms => 300000 ≤ ms && ms ≤ 2592000000) &&
      row.absoluteTimeoutMs.all (fun ms => 3600000 ≤ ms && ms ≤ 31536000000) &&
      row.idleTimeoutMs.all (fun idle => row.absoluteTimeoutMs.all (idle ≤ ·)) then
    .ok { w with policies := row :: w.policies.filter (·.tenantId ≠ row.tenantId) }
  else .error .invalidPolicy

def setTenantClosed (w : World) (tenantId : Nat) (closed : Bool) : World :=
  { w with
    closedTenants :=
      if closed then tenantId :: w.closedTenants else w.closedTenants.filter (· ≠ tenantId) }

def continuationMs : Int := 600000

def maxPendingPerUser : Nat := 5

def readCurrentContinuation (w : World) (token browser : Nat) : Option (Continuation × User) := do
  let proof ← w.continuations.find? fun c => c.token = token && c.browser = browser
  let u ← findUser w proof.userId
  if w.now < proof.createdAt ∨ proof.expiresAt ≤ w.now ∨ 10 ≤ proof.attempts then none
  else if u.tenantId ≠ proof.tenantId ∨ u.authEpoch ≠ proof.authEpoch ∨
      (accountAdmission (some (accountOf w u)) proof.primaryMethod).isSome = true then none
  else some (proof, u)

structure VerifiedIdentity where
  userId : Nat
  tenantId : Option Nat
  authEpoch : Nat
  method : PrimaryMethod
  browser : Nat
  deviceLabel : Text

def validLabel (label : Text) : Bool :=
  trim label ≠ [] && (trim label).length ≤ 120 &&
    (trim label).all fun c => 32 ≤ c.toNat && c.toNat ≠ 127

inductive Continued where
  | token (token : Nat) (expiresAt : Int)
  | refused (code : IdentityDenialCode)
  | failed

/-- The continuations that a restarted login of this browser leaves. -/
def pendingAfterRestart (w : World) (userId browser : Nat) : List Continuation :=
  w.continuations.filter fun c =>
    !(c.userId = userId && (c.expiresAt ≤ w.now || c.browser = browser))

def newContinuation (w : World) (input : VerifiedIdentity) : Continuation where
  token := w.fresh
  browser := input.browser
  userId := input.userId
  tenantId := input.tenantId
  authEpoch := input.authEpoch
  primaryMethod := input.method
  createdAt := w.now
  expiresAt := w.now + continuationMs

def continueVerifiedIdentity (w : World) (input : VerifiedIdentity) : World × Continued :=
  match findUser w input.userId with
  | none => (w, .refused .accountInactive)
  | some u =>
    match accountAdmission (some (accountOf w u)) input.method with
    | some code => (w, .refused code)
    | none =>
      if u.tenantId ≠ input.tenantId ∨ u.authEpoch ≠ input.authEpoch then
        (w, .refused .reauthRequired)
      else if !validLabel input.deviceLabel then (w, .failed)
      else
        let left := pendingAfterRestart w input.userId input.browser
        if maxPendingPerUser ≤ left.countP (·.userId = input.userId) then
          ({ w with continuations := left }, .refused .pendingLoginLimit)
        else
          ({ w with continuations := left ++ [newContinuation w input], fresh := w.fresh + 1 },
            .token w.fresh (w.now + continuationMs))

inductive AdmissionResult where
  | authenticated (session : Session)
  | denied (code : IdentityDenialCode)
  | mfaRequired (enroll : Bool)
  | sessionLimit

def usable (w : World) (u : User) (s : Session) : Bool :=
  (sessionAdmission w (some (accountOf w u)) s w.now).isNone

def openSessions (w : World) (u : User) : List Session :=
  w.sessions.filter fun s => s.userId = u.id && w.now < s.expiresAt

def atSessionCapacity (w : World) (u : User) : Bool :=
  match (policyOf w u).sessionLimit with
  | none => false
  | some limit =>
    if 500 < (openSessions w u).length then true
    else
      let count := (openSessions w u).countP (usable w u)
      0 < count && limit ≤ count

def replay (w : World) (token browser : Nat) : Option Session := do
  let r ← w.receipts.find? fun r =>
    r.token = token && r.browser = browser && r.completedAt ≤ w.now && w.now < r.expiresAt
  let s ← w.sessions.find? fun s => s.id = r.sessionId && s.userId = r.userId
  let u ← findUser w r.userId
  if u.tenantId = r.tenantId ∧ usable w u s = true then some s else none

def newSession (w : World) (u : User) (proof : Continuation) : Session where
  id := w.fresh
  userId := u.id
  createdAt := w.now
  expiresAt := w.now + min (policyOf w u).idleTimeoutMs (policyOf w u).absoluteTimeoutMs
  assurance := some
    { userId := u.id
      tenantId := u.tenantId
      authEpoch := u.authEpoch
      primaryMethod := proof.primaryMethod
      mfaMethod := proof.mfaMethod
      mfaVerifiedAt := proof.mfaVerifiedAt
      factorRevision := proof.factorRevision
      authenticatedAt := proof.createdAt
      lastActivityAt := w.now }

def prunedReceipts (w : World) : List Receipt :=
  let expired := ((w.receipts.filter (·.expiresAt ≤ w.now)).mergeSort fun a b =>
    a.expiresAt ≤ b.expiresAt).take 100
  w.receipts.filter fun r => !expired.any (·.token = r.token)

def completeAdmission (w : World) (u : User) (proof : Continuation) : World :=
  { w with
    continuations := w.continuations.filter fun c =>
      !(c.token = proof.token && c.browser = proof.browser)
    sessions := w.sessions ++ [newSession w u proof]
    receipts := prunedReceipts w ++
      [⟨proof.token, proof.browser, u.id, u.tenantId, w.fresh, w.now,
        min (w.now + 120000) proof.expiresAt⟩]
    fresh := w.fresh + 1
    log := w.log ++ [⟨proof.token, proof.browser, w.fresh⟩] }

def admitIdentityContinuation (w : World) (token browser : Nat) : World × AdmissionResult :=
  match w.continuations.find? fun c => c.token = token && c.browser = browser with
  | none =>
    match replay w token browser with
    | some s => (w, .authenticated s)
    | none => (w, .denied .reauthRequired)
  | some proof =>
    if w.now < proof.createdAt ∨ proof.expiresAt ≤ w.now ∨ 10 ≤ proof.attempts then
      (w, .denied .reauthRequired)
    else
      match findUser w proof.userId with
      | none => (w, .denied .accountInactive)
      | some u =>
        match accountAdmission (some (accountOf w u)) proof.primaryMethod with
        | some code => (w, .denied code)
        | none =>
          if u.tenantId ≠ proof.tenantId ∨ u.authEpoch ≠ proof.authEpoch then
            (w, .denied .reauthRequired)
          else
            match sessionAdmission w (some (accountOf w u)) (newSession w u proof) w.now with
            | some .mfaRequired => (w, .mfaRequired !u.mfaEnabled)
            | some code => (w, .denied code)
            | none =>
              if atSessionCapacity w u then (w, .sessionLimit)
              else (completeAdmission w u proof, .authenticated (newSession w u proof))

/-- What the verification of a factor writes when it succeeds. -/
def proveFactor (w : World) (token browser : Nat) (method : HomefrontFactor) : World :=
  match readCurrentContinuation w token browser with
  | none => w
  | some (_, u) =>
    w.editContinuation token fun c =>
      { c with
        mfaMethod := some method
        mfaVerifiedAt := some w.now
        factorRevision := some u.factorRevision }

def rebound (proof : Continuation) (u : User) (method : HomefrontFactor) (now : Int) :
    Continuation :=
  { proof with
    authEpoch := u.authEpoch
    attempts := 0
    mfaMethod := some method
    mfaVerifiedAt := some now
    factorRevision := some u.factorRevision }

def User.withFactor (u : User) : User :=
  { u with mfaEnabled := true, factorRevision := u.factorRevision + 1 }

/-- A change of the factors revokes every session and login, and binds this login anew. -/
def advanceMfaAuthority (w : World) (proof : Continuation) (method : HomefrontFactor) : World :=
  let next := (w.editUser proof.userId User.withFactor).advanceEpoch proof.userId
  { next with
    continuations := next.continuations ++
      ((findUser next proof.userId).map fun u => rebound proof u method w.now).toList }

end HomefrontFiber.Identity
