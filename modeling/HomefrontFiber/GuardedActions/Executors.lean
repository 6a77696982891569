import Mathlib.Data.List.Dedup
import HomefrontFiber.Foundation.IsoText
import HomefrontFiber.GuardedActions.Engine

/-!
# The executors that move doors

`lead.reassign` and `lead.bulk_assign` of `guardedActionExecutors.ts` over the leads and the roster.
The inverse is read before the write. The fingerprint is a digest of the id, the rep and the
assignment instant of every target; who assigned and from where are not in it.
-/

namespace HomefrontFiber.GuardedActions

structure Assignment where
  repId : Option Int
  source : Option String
  assignedBy : Option String
  assignedAt : Option String

structure Lead where
  tenantId : Int
  address : String
  city : String
  assignment : Assignment
  updatedAt : String

structure TeamMember where
  tenantId : Int
  name : String
  active : Bool

structure LeadWorld where
  leads : Int → Option Lead
  members : Int → Option TeamMember

def nowIso (now : Int) : String := String.ofList (toISOString now)

/-- The fields of a submitted payload, as `Number` reads them; `none` is null or empty. -/
structure RawPayload where
  leadId : Option JsNumber
  leadIds : List (Option JsNumber)
  toRepId : Option JsNumber

def intOrNull : Option JsNumber → Option Int
  | some (.finite q) => if q.den = 1 ∧ 0 < q.num ∧ q.num < 2 ^ 53 then some q.num else none
  | _ => none

def requireInt (value : Option JsNumber) (field : String) : Except Failure Int :=
  match intOrNull value with
  | some n => .ok n
  | none => .error (.refused ⟨400, field ++ " is required.", "bad_payload"⟩)

def maxBulkLeads : Nat := 5000

structure ReassignPayload where
  leadId : Int
  toRepId : Option Int

structure ReassignInverse where
  leadId : Int
  assignment : Assignment

structure BulkPayload where
  leadIds : List Int
  toRepId : Option Int

structure BulkInverse where
  entries : List ReassignInverse

namespace LeadWorld

variable (world : LeadWorld)

/-- `SELECT ... FROM leads WHERE id = ? AND tenant_id = ?`. -/
def lead (tenantId id : Int) : Option Lead := (world.leads id).filter (·.tenantId = tenantId)

def member (tenantId id : Int) : Option TeamMember :=
  (world.members id).filter (·.tenantId = tenantId)

def selection (tenantId : Int) (ids : List Int) : List (Int × Lead) :=
  (ids.dedup.mergeSort fun a b => decide (a ≤ b)).filterMap fun id =>
    (world.lead tenantId id).map fun l => (id, l)

/-- `UPDATE leads SET ... WHERE tenant_id = ? AND id IN (...)`. -/
def assign (tenantId : Int) (ids : List Int) (assignment : Assignment) (updatedAt : String) :
    LeadWorld :=
  { world with
    leads := fun id => (world.leads id).map fun l =>
      if id ∈ ids ∧ l.tenantId = tenantId then { l with assignment, updatedAt } else l }

def assertAssignableRep (tenantId : Int) : Option Int → Except Failure Unit
  | none => .ok ()
  | some repId =>
    match world.member tenantId repId with
    | none => .error (.refused ⟨400, "That rep is not on this organization's roster.", "unknown_rep"⟩)
    | some m =>
      if m.active then .ok ()
      else .error (.refused ⟨400, "That rep is no longer active.", "inactive_rep"⟩)

def repName (tenantId : Int) : Option Int → String
  | none => "nobody"
  | some repId =>
    match world.member tenantId repId with
    | some m => m.name
    | none => "rep " ++ toString repId

end LeadWorld

def notInOrganization : Failure :=
  .refused ⟨404, "That door is not in this organization.", "not_found"⟩

def fingerprintEntry (id : Int) (lead : Option Lead) : String :=
  toString id ++ ":" ++ ((lead.bind (·.assignment.repId)).map toString).getD "null" ++ ":" ++
    (lead.bind (·.assignment.assignedAt)).getD "null"

def manual (actor : ActorContext) (toRepId : Option Int) (now : Int) : Assignment where
  repId := toRepId
  source := some "manual"
  assignedBy := actor.name
  assignedAt := some (nowIso now)

section

variable (sha : String → String)

def leadReassign : GuardedActionExecutor LeadWorld RawPayload ReassignPayload ReassignInverse where
  parse raw _ := (requireInt raw.leadId "leadId").map fun leadId =>
    { leadId, toRepId := intOrNull raw.toRepId }
  magnitude _ := 1
  label payload actor world :=
    let door := match world.lead actor.tenantId payload.leadId with
      | some l => l.address ++ ", " ++ l.city
      | none => "door " ++ toString payload.leadId
    some (door ++ " to " ++ world.repName actor.tenantId payload.toRepId)
  preflight payload actor world :=
    match world.lead actor.tenantId payload.leadId with
    | none => .error notInOrganization
    | some _ => world.assertAssignableRep actor.tenantId payload.toRepId
  execute payload actor now world :=
    match world.lead actor.tenantId payload.leadId with
    | none => (.error notInOrganization, world)
    | some before =>
      (.ok {
        summary := "Moved from " ++ world.repName actor.tenantId before.assignment.repId ++ " to " ++
          world.repName actor.tenantId payload.toRepId ++ "."
        inverse := some { leadId := payload.leadId, assignment := before.assignment } },
        world.assign actor.tenantId [payload.leadId] (manual actor payload.toRepId now) (nowIso now))
  fingerprint payload actor world :=
    some (sha (fingerprintEntry payload.leadId (world.lead actor.tenantId payload.leadId)))
  reverse inverse actor now world :=
    (.ok ("Returned to " ++ world.repName actor.tenantId inverse.assignment.repId ++ "."),
      world.assign actor.tenantId [inverse.leadId] inverse.assignment (nowIso now))

def leadBulkAssign : GuardedActionExecutor LeadWorld RawPayload BulkPayload BulkInverse where
  parse raw _ :=
    let leadIds := ((raw.leadIds.filterMap intOrNull).dedup).mergeSort fun a b => decide (a ≤ b)
    if leadIds = [] then .error (.refused ⟨400, "Pick at least one door.", "bad_payload"⟩)
    else if maxBulkLeads < leadIds.length then
      .error (.refused
        ⟨400, "That is more than " ++ toString maxBulkLeads ++ " doors in one action.", "too_many"⟩)
    else .ok { leadIds, toRepId := intOrNull raw.toRepId }
  magnitude payload := payload.leadIds.length
  label payload actor world :=
    some (toString payload.leadIds.length ++ " doors to " ++
      world.repName actor.tenantId payload.toRepId)
  preflight payload actor world :=
    match world.assertAssignableRep actor.tenantId payload.toRepId with
    | .error failure => .error failure
    | .ok () =>
      let found := (world.selection actor.tenantId payload.leadIds).length
      if found ≠ payload.leadIds.length then
        .error (.refused ⟨409, toString (payload.leadIds.length - found) ++ " of these doors are " ++
          "no longer in this organization, so nothing was assigned.", "stale_selection"⟩)
      else .ok ()
  execute payload actor now world :=
    let before := world.selection actor.tenantId payload.leadIds
    let froms := (before.map (·.2.assignment.repId)).dedup
    (.ok {
      summary := "Moved " ++ toString before.length ++ " doors from " ++ toString froms.length ++
        " previous " ++ (if froms.length = 1 then "assignee" else "assignees") ++ " to " ++
        world.repName actor.tenantId payload.toRepId ++ "."
      inverse := some { entries := before.map fun r =>
        { leadId := r.1, assignment := r.2.assignment } } },
      world.assign actor.tenantId payload.leadIds (manual actor payload.toRepId now) (nowIso now))
  fingerprint payload actor world :=
    some (sha (String.intercalate "|" ((world.selection actor.tenantId payload.leadIds).map
      fun r => fingerprintEntry r.1 (some r.2))))
  reverse inverse actor now world :=
    (.ok ("Returned " ++ toString inverse.entries.length ++ " doors to their previous assignees."),
      inverse.entries.foldl (fun w entry =>
        w.assign actor.tenantId [entry.leadId] entry.assignment (nowIso now)) world)

inductive StoredPayload where
  | reassign (payload : ReassignPayload)
  | bulk (payload : BulkPayload)

inductive StoredInverse where
  | reassign (inverse : ReassignInverse)
  | bulk (inverse : BulkInverse)

structure Stored (P P' : Type) where
  write : P → P'
  read : P' → Option P
  read_write : ∀ p, read (write p) = some p

def unreadable : Failure := .other "unreadable"

/-- An executor over the stored forms of its payload and its inverse. -/
def GuardedActionExecutor.stored {W R P P' I I' : Type} (x : GuardedActionExecutor W R P I)
    (payloads : Stored P P') (inverses : Stored I I') : GuardedActionExecutor W R P' I' where
  parse raw actor := (x.parse raw actor).map payloads.write
  magnitude payload := ((payloads.read payload).map x.magnitude).getD 1
  label payload actor world := (payloads.read payload).bind fun p => x.label p actor world
  preflight payload actor world :=
    match payloads.read payload with
    | none => .error unreadable
    | some p => x.preflight p actor world
  execute payload actor now world :=
    match payloads.read payload with
    | none => (.error unreadable, world)
    | some p =>
      ((x.execute p actor now world).1.map fun result =>
        { summary := result.summary, inverse := result.inverse.map inverses.write },
        (x.execute p actor now world).2)
  fingerprint payload actor world :=
    (payloads.read payload).bind fun p => x.fingerprint p actor world
  reverse inverse actor now world :=
    match inverses.read inverse with
    | none => (.error unreadable, world)
    | some i => x.reverse i actor now world

def reassignPayloads : Stored ReassignPayload StoredPayload where
  write := .reassign
  read
    | .reassign p => some p
    | .bulk _ => none
  read_write _ := rfl

def reassignInverses : Stored ReassignInverse StoredInverse where
  write := .reassign
  read
    | .reassign i => some i
    | .bulk _ => none
  read_write _ := rfl

def bulkPayloads : Stored BulkPayload StoredPayload where
  write := .bulk
  read
    | .bulk p => some p
    | .reassign _ => none
  read_write _ := rfl

def bulkInverses : Stored BulkInverse StoredInverse where
  write := .bulk
  read
    | .bulk i => some i
    | .reassign _ => none
  read_write _ := rfl

def leadEngine (can : Option String → Capability → Bool) :
    Engine LeadWorld RawPayload StoredPayload StoredInverse where
  can := can
  executors
    | .leadReassign => some ((leadReassign sha).stored reassignPayloads reassignInverses)
    | .leadBulkAssign => some ((leadBulkAssign sha).stored bulkPayloads bulkInverses)
    | .recoveryCaseAssign | .contactSuppressionLift => none

end

end HomefrontFiber.GuardedActions
