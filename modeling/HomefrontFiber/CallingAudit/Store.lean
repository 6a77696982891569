import HomefrontFiber.Foundation.HashChain
import HomefrontFiber.Foundation.IsoText
import HomefrontFiber.Foundation.Runs

/-!
# The calling audit trail

An event carries the digest of the event before it and its own. The head of a tenant is the last
event; a head that is missing is read off the stored events. The verification looks at the links
and at the heads. The digest is a parameter, event ids and instants are those the caller brings.
-/

namespace HomefrontFiber.CallingAudit

/-- What a caller of `appendCallingAudit` records. -/
structure AuditInput where
  tenantId : Int
  correlationId : Text
  eventType : Text
  entityType : Text
  entityId : Option Text := none
  actorUserId : Option Int := none
  metadata : Text := "\x7b\x7d".toList
  deriving DecidableEq

structure AuditBody (η : Type) where
  id : Nat
  input : AuditInput
  previous : Option η
  createdAt : Int
  deriving DecidableEq

structure AuditEvent (η : Type) extends AuditBody η where
  eventSha : η
  deriving DecidableEq

structure AuditHead (η : Type) where
  eventId : Nat
  eventSha : η
  deriving DecidableEq

/-- The events in the order in which they were stored, and the head of each tenant. -/
structure AuditDb (η : Type) where
  events : List (AuditEvent η) := []
  heads : Int → Option (AuditHead η) := fun _ => none

variable {η : Type}

def AuditEvent.tenantId (e : AuditEvent η) : Int := e.input.tenantId

def AuditEvent.head (e : AuditEvent η) : AuditHead η := ⟨e.id, e.eventSha⟩

def AuditDb.rows (db : AuditDb η) (tenantId : Int) : List (AuditEvent η) :=
  db.events.filter (·.tenantId = tenantId)

/-- `ORDER BY created_at DESC, id DESC LIMIT 1`. -/
def newest : List (AuditEvent η) → Option (AuditEvent η)
  | [] => none
  | e :: rest =>
    match newest rest with
    | none => some e
    | some b =>
      if e.createdAt < b.createdAt ∨ e.createdAt = b.createdAt ∧ e.id < b.id then some b
      else some e

theorem newest_mem {rows : List (AuditEvent η)} {e : AuditEvent η} (h : newest rows = some e) :
    e ∈ rows := by
  induction rows with
  | nil => cases h
  | cons a rest ih =>
    unfold newest at h
    split at h
    · cases h
      exact List.mem_cons_self
    · rename_i b hb
      split at h
      · cases h
        exact List.mem_cons_of_mem a (ih hb)
      · cases h
        exact List.mem_cons_self

theorem newest_eq_none {rows : List (AuditEvent η)} (h : newest rows = none) : rows = [] := by
  cases rows with
  | nil => rfl
  | cons a rest =>
    unfold newest at h
    split at h
    · cases h
    · split at h <;> cases h

def previousOf (db : AuditDb η) (tenantId : Int) : Option η :=
  match db.heads tenantId with
  | some head => some head.eventSha
  | none => (newest (db.rows tenantId)).map (·.eventSha)

def nextEvent (digest : AuditBody η → η) (db : AuditDb η) (input : AuditInput) (id : Nat)
    (createdAt : Int) : AuditEvent η :=
  let body : AuditBody η := ⟨id, input, previousOf db input.tenantId, createdAt⟩
  ⟨body, digest body⟩

variable [DecidableEq η]

def taken (db : AuditDb η) (event : AuditEvent η) : Bool :=
  db.events.any fun e => e.id = event.id || e.eventSha = event.eventSha

/-- `appendCallingAudit`. An id or a digest that is taken rolls the transaction back. -/
def appendCallingAudit (digest : AuditBody η → η) (db : AuditDb η) (input : AuditInput)
    (id : Nat) (createdAt : Int) : AuditDb η :=
  let event := nextEvent digest db input id createdAt
  if taken db event then db
  else
    { events := db.events ++ [event]
      heads := fun t => if t = input.tenantId then some event.head else db.heads t }

def headMatches (db : AuditDb η) (tenantId : Int) : Bool :=
  match HashChain.tips (·.eventSha) (·.previous) (db.rows tenantId) with
  | [tip] => db.heads tenantId = some tip.head
  | _ => false

/-- The counts of a tenant are those of one chain that ends at its head. -/
def intact (db : AuditDb η) (tenantId : Int) : Bool :=
  let rows := db.rows tenantId
  (HashChain.roots (·.previous) rows).length = 1 &&
    (HashChain.orphans (·.eventSha) (·.previous) rows).length = 0 &&
    (HashChain.branches (·.previous) rows).length = 0 &&
    (HashChain.tips (·.eventSha) (·.previous) rows).length = 1 && headMatches db tenantId

def invalidTenants (db : AuditDb η) : List Int :=
  (db.events.map (·.tenantId)).dedup.filter fun t => !intact db t

/-- A call, which may be rolled back with the transaction around it, or an upgrade that adds the
table of heads. -/
inductive AuditAction where
  | append (input : AuditInput) (id : Nat) (createdAt : Int) (committed : Bool)
  | upgrade

def step (digest : AuditBody η → η) (db : AuditDb η) : AuditAction → AuditDb η
  | .append input id createdAt committed =>
    if committed then appendCallingAudit digest db input id createdAt else db
  | .upgrade => { db with heads := fun _ => none }

inductive Tampering (η : Type) where
  | delete (ids : List Nat)
  | insert (event : AuditEvent η)
  | change (id : Nat) (event : AuditEvent η)

def tamper (db : AuditDb η) : Tampering η → AuditDb η
  | .delete ids => { db with events := db.events.filter fun e => e.id ∉ ids }
  | .insert event => { db with events := db.events ++ [event] }
  | .change id event =>
    { db with events := db.events.map fun e => if e.id = id then event else e }

def Tampering.Hits (db : AuditDb η) (tenantId : Int) : Tampering η → Prop
  | .delete ids => ∃ e ∈ db.rows tenantId, e.id ∈ ids
  | .insert event => event.tenantId = tenantId
  | .change id event => ∃ e ∈ db.rows tenantId, e.id = id ∧ event ≠ e

def Unique (db : AuditDb η) : Prop :=
  (db.events.map (·.id)).Nodup ∧ (db.events.map (·.eventSha)).Nodup

instance (db : AuditDb η) (t : Int) : ∀ T : Tampering η, Decidable (T.Hits db t)
  | .delete _ => inferInstanceAs (Decidable (∃ e ∈ _, _))
  | .insert _ => inferInstanceAs (Decidable (_ = _))
  | .change _ _ => inferInstanceAs (Decidable (∃ e ∈ _, _))

instance (db : AuditDb η) : Decidable (Unique db) := inferInstanceAs (Decidable (_ ∧ _))

end HomefrontFiber.CallingAudit
