import HomefrontFiber.Foundation.Runs

/-!
# The crews of areas

An area has a crew and its doors have reps. A handler reads the row of an area and checks the
request, and its transaction comes later: other processes may commit between. The transaction
writes a crew that it computed from the row read, and checks the cap of the reps again. Only the
areas and the doors of one organisation are modelled.
-/

namespace HomefrontFiber.AreaCrew

inductive TerritoryStatus where
  | draft | active | shared | completed | reclaimed | archived | unassigned
  deriving DecidableEq

/-- `assigneeIds` is missing in a row from before the column. -/
structure Area where
  id : Nat
  status : TerritoryStatus
  repId : Int
  assigneeIds : Option (List Int)
  deriving DecidableEq

structure Door where
  id : Nat
  assignedTerritoryId : Option Nat
  assignedRepId : Option Int
  deriving DecidableEq

structure Member where
  id : Int
  active : Bool
  deriving DecidableEq

inductive ReclaimMode where
  | keepLeads | returnToPool | reassign
  deriving DecidableEq

/-- `inside` are the doors in the ring of the area that were found unassigned. -/
inductive Request where
  | assign (areaId : Nat) (repId : Int) (inside : List Nat)
  | complete (areaId : Nat)
  | share (areaId : Nat) (repIds : List Int)
  | unassign (areaId : Nat) (repId : Int) (releaseLeads : Bool)
  | reclaim (areaId : Nat) (mode : ReclaimMode) (newRepId : Option Int)
  deriving DecidableEq

def Request.areaId : Request → Nat
  | .assign areaId _ _ | .complete areaId | .share areaId _ | .unassign areaId _ _
  | .reclaim areaId _ _ => areaId

/-- A request that passed its checks, with the row that they read. -/
structure Pending where
  request : Request
  snapshot : Area
  deriving DecidableEq

structure World where
  roster : List Member
  areas : List Area
  doors : List Door
  pending : List Pending := []
  deriving DecidableEq

def maxActiveAreasPerRep : Nat := 5
def maxAreaAssignees : Nat := 12

/-- `safeJson(assigneeIds) ?? [repId]`. -/
def holders (t : Area) : List Int := t.assigneeIds.getD [t.repId]

def territoryHeldByAny (t : Area) (repIds : List Int) : Bool :=
  if repIds = [] then false
  else
    match t.assigneeIds with
    | some assignees => assignees.any (· ∈ repIds)
    | none => t.repId ∈ repIds

def counts (status : TerritoryStatus) : Bool := status = .active || status = .shared

def getTerritoriesByRep (w : World) (repId : Int) : List Area :=
  w.areas.filter fun t => t.status ≠ .archived && territoryHeldByAny t [repId]

def repAtAreaCap (w : World) (repId : Int) (excludeTerritoryId : Nat) : Bool :=
  let active := (getTerritoriesByRep w repId).filter fun t =>
    counts t.status && t.id ≠ excludeTerritoryId
  !(active.length < maxActiveAreasPerRep)

/-- A scope of `none` is open. -/
def canManageTerritory (scope : Option (List Int)) (t : Area) : Bool :=
  scope.all fun ids => territoryHeldByAny t ids ||
    t.assigneeIds.getD [] = [] &&
      (t.status = .unassigned || t.status = .reclaimed || t.status = .draft)

def repInVisibilityScope (scope : Option (List Int)) (repId : Int) : Bool :=
  scope.all (repId ∈ ·)

def repInCallerTenant (roster : List Member) (repId : Int) : Bool := roster.any (·.id = repId)

def isActive (roster : List Member) (repId : Int) : Bool :=
  (roster.find? (·.id = repId)).all (·.active)

def reachable (w : World) (scope : Option (List Int)) (repId : Int) : Bool :=
  0 < repId && repInCallerTenant w.roster repId && repInVisibilityScope scope repId

def passes (w : World) (scope : Option (List Int)) (t : Area) : Request → Bool
  | .assign areaId repId _ =>
    reachable w scope repId && isActive w.roster repId && !repAtAreaCap w repId areaId
  | .complete _ => true
  | .share areaId repIds =>
    repIds.all (reachable w scope) &&
      repIds.all (fun r => r ∈ t.assigneeIds.getD [] ||
        isActive w.roster r && !repAtAreaCap w r areaId) &&
      repIds ≠ [] && repIds.eraseDups.length ≤ maxAreaAssignees
  | .unassign _ repId _ => reachable w scope repId && repId ∈ holders t
  | .reclaim areaId mode newRepId =>
    mode ≠ .reassign || newRepId.any fun target =>
      reachable w scope target && isActive w.roster target && !repAtAreaCap w target areaId

def receive (w : World) (scope : Option (List Int)) (request : Request) : World :=
  match w.areas.find? (·.id = request.areaId) with
  | none => w
  | some t =>
    if canManageTerritory scope t && t.status ≠ .archived && passes w scope t request then
      { w with pending := w.pending ++ [⟨request, t⟩] }
    else w

structure TerritoryState where
  status : TerritoryStatus
  repIds : List Int

def stateOf (t : Area) : TerritoryState := ⟨t.status, holders t⟩

def reclaimTerritory (mode : ReclaimMode) (newRepId : Option Int) : TerritoryState :=
  match mode with
  | .keepLeads => ⟨.reclaimed, []⟩
  | .returnToPool => ⟨.unassigned, []⟩
  | .reassign => ⟨.shared, newRepId.toList⟩

def unassignRep (state : TerritoryState) (repId : Int) : TerritoryState :=
  if repId ∈ state.repIds then
    let repIds := state.repIds.filter (· ≠ repId)
    { repIds
      status := if repIds.length = 0 then .unassigned
        else if repIds.length = 1 then .active else .shared }
  else state

def updateTerritory (w : World) (id : Nat) (f : Area → Area) : World :=
  { w with areas := w.areas.map fun t => if t.id = id then f t else t }

def stampTerritoryDoors (w : World) (candidateIds : List Nat) (repId : Int) (territoryId : Nat) :
    World :=
  { w with
    doors := w.doors.map fun d =>
      if d.id ∈ candidateIds ∧ d.assignedRepId = none then
        { d with assignedRepId := some repId, assignedTerritoryId := some territoryId }
      else d }

def bulkAssignTerritoryLeadsExcept (w : World) (territoryId : Nat) (repId : Int)
    (keepRepIds : List Int) : World :=
  { w with
    doors := w.doors.map fun d =>
      if d.assignedTerritoryId = some territoryId ∧ !d.assignedRepId.any (· ∈ keepRepIds) then
        { d with assignedRepId := some repId }
      else d }

def bulkReturnTerritoryLeadsToPool (w : World) (territoryId : Nat) : World :=
  { w with
    doors := w.doors.map fun d =>
      if d.assignedTerritoryId = some territoryId ∧ d.assignedRepId.isSome then
        { d with assignedRepId := none, assignedTerritoryId := none }
      else d }

def bulkReleaseTerritoryLeadsFromRep (w : World) (territoryId : Nat) (repId : Int) : World :=
  { w with
    doors := w.doors.map fun d =>
      if d.assignedTerritoryId = some territoryId ∧ d.assignedRepId = some repId then
        { d with assignedRepId := none }
      else d }

/-- The holder columns of an update. The primary stays when the crew is empty. -/
def setHolders (state : TerritoryState) (t : Area) : Area → Area := fun row =>
  { row with
    status := state.status
    repId := state.repIds.head?.getD t.repId
    assigneeIds := some state.repIds }

/-- `assertRepsUnderCap` in the transaction. -/
def refused (w : World) (p : Pending) : Bool :=
  match p.request with
  | .assign areaId repId _ => repAtAreaCap w repId areaId
  | .share areaId repIds =>
    (repIds.filter (· ∉ p.snapshot.assigneeIds.getD [])).any (repAtAreaCap w · areaId)
  | .reclaim areaId .reassign newRepId => newRepId.any (repAtAreaCap w · areaId)
  | _ => false

def apply (w : World) (p : Pending) : World :=
  match p.request with
  | .assign areaId repId inside =>
    updateTerritory (stampTerritoryDoors w inside repId areaId) areaId
      (setHolders ⟨.active, [repId]⟩ p.snapshot)
  | .complete areaId => updateTerritory w areaId fun row => { row with status := .completed }
  | .share areaId repIds =>
    let merged := repIds.eraseDups
    let status := if 1 < merged.length then .shared else .active
    let w := updateTerritory w areaId (setHolders ⟨status, merged⟩ p.snapshot)
    bulkAssignTerritoryLeadsExcept w areaId (merged.head?.getD p.snapshot.repId) merged
  | .unassign areaId repId releaseLeads =>
    let next := unassignRep (stateOf p.snapshot) repId
    let w := updateTerritory w areaId (setHolders next p.snapshot)
    if releaseLeads then bulkReleaseTerritoryLeadsFromRep w areaId repId else w
  | .reclaim areaId mode newRepId =>
    let w := updateTerritory w areaId (setHolders (reclaimTerritory mode newRepId) p.snapshot)
    match mode, newRepId with
    | .keepLeads, _ => w
    | .returnToPool, _ => bulkReturnTerritoryLeadsToPool w areaId
    | .reassign, some repId => bulkAssignTerritoryLeadsExcept w areaId repId [repId]
    | .reassign, none => w

inductive Action where
  | receive (scope : Option (List Int)) (request : Request)
  | commit (index : Nat)

def commit (w : World) (index : Nat) : World :=
  match w.pending[index]? with
  | none => w
  | some p =>
    let w := { w with pending := w.pending.eraseIdx index }
    if refused w p then w else apply w p

def step (w : World) : Action → World
  | .receive scope request => receive w scope request
  | .commit index => commit w index

end HomefrontFiber.AreaCrew
