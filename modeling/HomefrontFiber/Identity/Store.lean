import HomefrontFiber.Foundation.Table
import HomefrontFiber.Workweek

/-!
# The identity tables

A row of `User` joins the tables that have one row for a user: the account, its authority epoch, its
factor state and its anchor in a directory. A session holds its assurance. Tokens and ids come from
one counter, so no two of them collide. The log is a ghost. Instants are in milliseconds.
-/

namespace HomefrontFiber.Identity

inductive PrimaryMethod where
  | email | saml | oidc
  deriving DecidableEq

inductive HomefrontFactor where
  | totp | webauthn | recovery | sms

inductive IdentityDenialCode where
  | accountInactive | organizationInactive | approvalRequired | directoryInactive | ssoRequired
  | mfaRequired | sessionExpired | reauthRequired | sessionLimit | pendingLoginLimit

inductive IdentityConflict where
  | reauthRequired | identityNotFound | staleIdentity | invalidDirectoryState
  | directoryInactive | selfApprovalForbidden
  | adminAuthorityRequired | cannotRetarget | invalidPolicy

inductive ApprovalState where
  | pending | approved | rejected
  deriving DecidableEq

structure Managed where
  tenantId : Nat
  approval : ApprovalState := .pending
  generation : Nat := 1
  approvedGeneration : Option Nat := none
  directoryActive : Bool := true
  directoryDeleted : Bool := false
  approvedBy : Option Nat := none

structure User where
  id : Nat
  tenantId : Option Nat
  email : Text
  role : Text
  teamMemberId : Option Nat := none
  active : Bool := true
  isSuperAdmin : Bool := false
  passwordHash : Option Text := none
  authEpoch : Nat := 0
  mfaEnabled : Bool := false
  factorRevision : Nat := 0
  managed : Option Managed := none

structure PolicyRow where
  tenantId : Nat
  requireMfa : Bool := false
  requireSso : Bool := false
  sessionLimit : Option Nat := none
  idleTimeoutMs : Option Int := none
  absoluteTimeoutMs : Option Int := none

structure SessionAssurance where
  userId : Nat
  tenantId : Option Nat
  authEpoch : Nat
  primaryMethod : PrimaryMethod
  mfaMethod : Option HomefrontFactor
  mfaVerifiedAt : Option Int
  factorRevision : Option Nat
  authenticatedAt : Int
  lastActivityAt : Int

structure Session where
  id : Nat
  userId : Nat
  createdAt : Int
  expiresAt : Int
  assurance : Option SessionAssurance

structure Continuation where
  token : Nat
  browser : Nat
  userId : Nat
  tenantId : Option Nat
  authEpoch : Nat
  primaryMethod : PrimaryMethod
  createdAt : Int
  expiresAt : Int
  attempts : Nat := 0
  mfaMethod : Option HomefrontFactor := none
  mfaVerifiedAt : Option Int := none
  factorRevision : Option Nat := none

structure Receipt where
  token : Nat
  browser : Nat
  userId : Nat
  tenantId : Option Nat
  sessionId : Nat
  completedAt : Int
  expiresAt : Int

/-- A session that a continuation was exchanged for. -/
structure Admitted where
  token : Nat
  browser : Nat
  sessionId : Nat

structure World where
  sessionTtlMs : Int
  sessionAbsoluteMaxMs : Int
  reservedEmails : List Text := []
  now : Int
  users : List User
  closedTenants : List Nat := []
  policies : List PolicyRow := []
  sessions : List Session := []
  continuations : List Continuation := []
  receipts : List Receipt := []
  fresh : Nat := 0
  log : List Admitted := []

structure IdentityPolicy where
  requireMfa : Bool
  requireSso : Bool
  sessionLimit : Option Nat
  idleTimeoutMs : Int
  absoluteTimeoutMs : Int

structure IdentityAccount where
  user : User
  organizationClosed : Bool
  policy : IdentityPolicy

def findUser (w : World) (userId : Nat) : Option User := w.users.find? (·.id = userId)

def policyOf (w : World) (u : User) : IdentityPolicy :=
  let row := u.tenantId.bind fun t => w.policies.find? (·.tenantId = t)
  let absolute := if u.isSuperAdmin then w.sessionAbsoluteMaxMs
    else (row.bind (·.absoluteTimeoutMs)).getD w.sessionAbsoluteMaxMs
  let idle := if u.isSuperAdmin then w.sessionTtlMs
    else (row.bind (·.idleTimeoutMs)).getD w.sessionTtlMs
  { requireMfa := !u.isSuperAdmin && row.any (·.requireMfa)
    requireSso := !u.isSuperAdmin && row.any (·.requireSso)
    sessionLimit := if u.isSuperAdmin then none else row.bind (·.sessionLimit)
    idleTimeoutMs := min idle absolute
    absoluteTimeoutMs := absolute }

def accountOf (w : World) (u : User) : IdentityAccount :=
  ⟨u, u.tenantId.any (· ∈ w.closedTenants), policyOf w u⟩

def accountAdmission (account : Option IdentityAccount) (method : PrimaryMethod) :
    Option IdentityDenialCode :=
  match account with
  | none => some .accountInactive
  | some a =>
    if !a.user.active then some .accountInactive
    else if !a.user.isSuperAdmin && a.organizationClosed then some .organizationInactive
    else if a.user.managed.any fun m =>
        some m.tenantId ≠ a.user.tenantId || !m.directoryActive || m.directoryDeleted then
      some .directoryInactive
    else if a.user.managed.any fun m =>
        m.approval ≠ .approved || m.approvedGeneration ≠ some m.generation then
      some .approvalRequired
    else if a.policy.requireSso && method = .email then some .ssoRequired
    else none

def provedBy : HomefrontFactor → Bool
  | .totp | .webauthn | .recovery => true
  | .sms => false

def sessionWithin (a : IdentityAccount) (sessionTtlMs : Int) (s : Session) (now : Int) : Bool :=
  let activity := match s.assurance with
    | some x => x.lastActivityAt
    | none => max s.createdAt (s.expiresAt - sessionTtlMs)
  s.createdAt ≤ now && activity ≤ now && s.createdAt ≤ activity && now < s.expiresAt &&
    now < s.createdAt + a.policy.absoluteTimeoutMs && now < activity + a.policy.idleTimeoutMs

def sessionProved (a : IdentityAccount) (s : Session) : Bool :=
  s.assurance.any fun x =>
    x.mfaMethod.any provedBy &&
      x.mfaVerifiedAt.any (fun at_ => at_ ≤ s.createdAt && x.authenticatedAt ≤ at_) &&
      x.factorRevision = some a.user.factorRevision && a.user.mfaEnabled

def sessionAdmission (w : World) (account : Option IdentityAccount) (s : Session) (now : Int) :
    Option IdentityDenialCode :=
  match accountAdmission account ((s.assurance.map (·.primaryMethod)).getD .email), account with
  | some code, _ => some code
  | none, none => some .accountInactive
  | none, some a =>
    if (s.assurance.any fun x => x.userId ≠ a.user.id || x.tenantId ≠ a.user.tenantId) ||
        (s.assurance.map (·.authEpoch)).getD 0 ≠ a.user.authEpoch then
      some .reauthRequired
    else if !sessionWithin a w.sessionTtlMs s now then some .sessionExpired
    else if s.assurance.any fun x =>
        s.createdAt < x.authenticatedAt || x.authenticatedAt < s.createdAt - 600000 then
      some .reauthRequired
    else if (a.policy.requireMfa || a.user.mfaEnabled) && !sessionProved a s then
      some .mfaRequired
    else none

def World.editUser (w : World) (userId : Nat) (f : User → User) : World :=
  { w with users := w.users.map fun u => if u.id = userId then f u else u }

def World.editContinuation (w : World) (token : Nat) (f : Continuation → Continuation) : World :=
  { w with continuations := w.continuations.map fun c => if c.token = token then f c else c }

def User.nextEpoch (u : User) : User := { u with authEpoch := u.authEpoch + 1 }

/-- `identity_epoch_revokes` with its cascades, behind an advance of the epoch. -/
def World.advanceEpoch (w : World) (userId : Nat) : World :=
  { w.editUser userId User.nextEpoch with
    sessions := w.sessions.filter (·.userId ≠ userId)
    receipts := w.receipts.filter fun r =>
      (w.sessions.filter (·.userId ≠ userId)).any (·.id = r.sessionId)
    continuations := w.continuations.filter (·.userId ≠ userId) }

end HomefrontFiber.Identity
