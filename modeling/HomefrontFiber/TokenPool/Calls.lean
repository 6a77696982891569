import Mathlib.Data.Int.Order.Basic
import Mathlib.Data.List.Dedup
import Mathlib.Data.List.Nodup
import Mathlib.Data.String.Basic
import Mathlib.Tactic.Common
import HomefrontFiber.Foundation.Runs
import HomefrontFiber.Foundation.Table

/-!
# The slots of the token pool

A slot holds one minted token with the address keys that it is charged with. What runs between two
suspensions of a call is one change of the pool. A refresh is a task of its own: it waits for the
fleet's failure count, perhaps backs off, takes a permit, mints, hands the permit on and settles its
slot.
-/

namespace HomefrontFiber.TokenPool

inductive AuthorizedTokenState where
  | empty | ready | refreshing | expired
  deriving DecidableEq

inductive AuthorizedTokenHealth where
  | healthy | degraded | unhealthy

structure Token where
  text : String
  /-- The number of the mint. -/
  mint : Nat

structure TokenSlot where
  id : Nat
  state : AuthorizedTokenState := .empty
  token : Option Token := none
  expiresAt : Int := 0
  leases : Nat := 0
  addressKeys : List String := []
  health : AuthorizedTokenHealth := .unhealthy
  lastLeaseSequence : Nat := 0
  refreshInFlight : Bool := false
  failures : Nat := 0
  lastError : Option String := none

structure PoolSettings where
  maxSize : Nat
  warmMinimum : Nat
  refreshMarginMs : Int
  maxLeasesPerToken : Nat
  maxConcurrentRefreshes : Nat
  maxChecksPerToken : Nat

inductive MintResult where
  | minted (token : String) (expiresAt : Int)
  | failed (message : String)
  deriving DecidableEq

inductive RefreshPhase where
  /-- Waits for the fleet's failure count. -/
  | syncing
  | backingOff
  /-- In the list of waiters for a permit. -/
  | waiting
  /-- Its waiter has been resolved, and it has not run since. -/
  | woken
  | minting
  /-- The mint call has settled, and the permit is still held. -/
  | settled (result : MintResult)
  /-- The permit has been given back. -/
  | released (result : MintResult)
  deriving DecidableEq

structure Refresh where
  slotId : Nat
  phase : RefreshPhase

/-- `laneCount` is above one. -/
structure Lane where
  id : Int
  count : Nat

structure LeaseCall where
  addressKey : Option String
  lane : Option Lane
  deadlineAt : Int

/-- Where a call of `lease` is suspended. The work that it awaits begins when it is resumed at
`before`. -/
inductive LeasePoint where
  | beforeWarm | afterWarm
  | beforeDue | afterDue
  | beforeExpand (slotId : Nat) | afterExpand
  | beforeRecycle (slotId : Nat) | afterRecycle
  | beforeCreate (slotId : Nat) | afterCreate
  | afterRace

inductive Call where
  | lease (call : LeaseCall) (point : LeasePoint)
  | refreshLease (slotId : Nat) (addressKey : Option String)
  /-- `maintain`, between its two parts. -/
  | maintain
  /-- The rest of a warming: the new slots are awaited, then perhaps a slot that is reused. -/
  | warmFull
  | warmReused
  | warmDone

inductive LeaseError where
  | waitExpired | batchCapacityExhausted | poolEmpty | slotCapacityExhausted

/-- A granted lease, with the state of its slot and the time when it was granted. -/
structure Lease where
  slotId : Nat
  token : Token
  expiresAt : Int
  addressKey : Option String
  checksUsed : Nat
  slotState : AuthorizedTokenState
  grantedAt : Int
  released : Bool := false

structure Pool where
  slots : List TokenSlot
  refreshes : List Refresh
  refreshWaiters : List Nat
  activeRefreshes : Nat
  consecutiveMintFailures : Nat
  lastMintFailureAt : Int
  leaseSequence : Nat
  warmInFlight : Bool
  calls : List Call
  leases : List Lease
  refusals : List LeaseError
  mints : Nat
  charges : List (Nat × String)
  nowMs : Int

namespace Pool

def start (nowMs : Int) : Pool where
  slots := []
  refreshes := []
  refreshWaiters := []
  activeRefreshes := 0
  consecutiveMintFailures := 0
  lastMintFailureAt := 0
  leaseSequence := 0
  warmInFlight := false
  calls := []
  leases := []
  refusals := []
  mints := 0
  charges := []
  nowMs := nowMs

def slot? (p : Pool) (slotId : Nat) : Option TokenSlot := p.slots.find? (·.id = slotId)

def updateSlot (p : Pool) (slotId : Nat) (f : TokenSlot → TokenSlot) : Pool :=
  { p with slots := p.slots.map fun slot => if slot.id = slotId then f slot else slot }

end Pool

namespace TokenSlot

def lapse (slot : TokenSlot) : TokenSlot :=
  { slot with token := none, state := .expired, health := .unhealthy, addressKeys := [] }

def updateState (nowMs : Int) (slot : TokenSlot) : TokenSlot :=
  if slot.state = .ready ∧ slot.expiresAt ≤ nowMs then slot.lapse else slot

def beginRefresh (slot : TokenSlot) : TokenSlot :=
  { slot with state := .refreshing, refreshInFlight := true }

def failRefresh (message : String) (slot : TokenSlot) : TokenSlot :=
  { slot with
    token := none
    expiresAt := 0
    failures := slot.failures + 1
    health := if 3 ≤ slot.failures + 1 then .unhealthy else .degraded
    lastError := some (String.ofList (message.toList.take 180))
    state := .empty
    refreshInFlight := false }

def hold (token : Token) (expiresAt : Int) (slot : TokenSlot) : TokenSlot :=
  { slot with
    token := some token
    expiresAt := expiresAt
    state := .ready
    health := .healthy
    addressKeys := []
    failures := 0
    lastError := none
    refreshInFlight := false }

def addKey (key : String) (slot : TokenSlot) : TokenSlot :=
  { slot with
    addressKeys := if key ∈ slot.addressKeys then slot.addressKeys else slot.addressKeys ++ [key] }

def dropToken (slot : TokenSlot) : TokenSlot :=
  { slot with token := none, expiresAt := 0, state := .empty, addressKeys := [] }

def addLease (sequence : Nat) (slot : TokenSlot) : TokenSlot :=
  { slot with leases := slot.leases + 1, lastLeaseSequence := sequence }

def dropLease (slot : TokenSlot) : TokenSlot := { slot with leases := slot.leases - 1 }

def isReady (slot : TokenSlot) (nowMs marginMs : Int) : Bool :=
  slot.state = .ready && slot.token.isSome && nowMs + marginMs < slot.expiresAt

def isDue (slot : TokenSlot) (nowMs marginMs : Int) : Bool :=
  (slot.state = .ready && slot.expiresAt ≤ nowMs + marginMs) || slot.state = .expired ||
    slot.state = .empty

def onLane (slot : TokenSlot) (lane : Lane) : Bool := (slot.id : Int) % lane.count = lane.id

def hasRoom (slot : TokenSlot) (maxChecks : Nat) (addressKey : Option String) : Bool :=
  addressKey.all fun key => key ∈ slot.addressKeys || slot.addressKeys.length < maxChecks

/-- The order in which ready slots are preferred: one that knows the address, then the most used. -/
def preferredTo (addressKey : Option String) (a b : TokenSlot) : Bool :=
  let knows (slot : TokenSlot) : Bool := addressKey.any (· ∈ slot.addressKeys)
  if knows a ≠ knows b then knows a
  else if a.addressKeys.length ≠ b.addressKeys.length then
    b.addressKeys.length < a.addressKeys.length
  else if a.leases ≠ b.leases then a.leases < b.leases
  else if a.lastLeaseSequence ≠ b.lastLeaseSequence then a.lastLeaseSequence < b.lastLeaseSequence
  else a.id ≤ b.id

end TokenSlot

namespace Pool

variable (o : PoolSettings)

def updateStates (p : Pool) : Pool :=
  { p with slots := p.slots.map (TokenSlot.updateState p.nowMs) }

def pickReady (p : Pool) (addressKey : Option String) (lane : Option Lane) : Option TokenSlot :=
  ((p.slots.filter fun slot => lane.all slot.onLane && slot.isReady p.nowMs o.refreshMarginMs &&
    slot.hasRoom o.maxChecksPerToken addressKey).mergeSort (TokenSlot.preferredTo addressKey)).head?

def createSlot (p : Pool) : Pool :=
  if p.slots.length < o.maxSize then { p with slots := p.slots ++ [{ id := p.slots.length }] } else p

/-- What `refreshSlot` does before it is suspended: it begins a refresh unless the token will do or
a refresh is in flight. -/
def refreshSlot (p : Pool) (slotId : Nat) (force : Bool) : Pool :=
  match p.slot? slotId with
  | none => p
  | some slot =>
    if !force && slot.isReady p.nowMs o.refreshMarginMs then p
    else if slot.refreshInFlight then p
    else { p.updateSlot slotId TokenSlot.beginRefresh with
      refreshes := p.refreshes ++ [⟨slotId, .syncing⟩] }

def setPhase (p : Pool) (slotId : Nat) (phase : RefreshPhase) : Pool :=
  { p with refreshes := p.refreshes.map fun r =>
      if r.slotId = slotId then { r with phase := phase } else r }

/-- The entry of `withRefreshPermit`: with a permit the mint call is made at once. -/
def enterPermit (p : Pool) (slotId : Nat) : Pool :=
  if o.maxConcurrentRefreshes ≤ p.activeRefreshes then
    { p.setPhase slotId .waiting with refreshWaiters := p.refreshWaiters ++ [slotId] }
  else { p.setPhase slotId .minting with activeRefreshes := p.activeRefreshes + 1 }

def releasePermit (p : Pool) (slotId : Nat) (result : MintResult) : Pool :=
  let p := { p.setPhase slotId (.released result) with activeRefreshes := p.activeRefreshes - 1 }
  match p.refreshWaiters with
  | [] => p
  | waiter :: rest => { p.setPhase waiter .woken with refreshWaiters := rest }

def settleRefresh (p : Pool) (slotId : Nat) (result : MintResult) : Pool :=
  let p := { p with refreshes := p.refreshes.filter (·.slotId ≠ slotId) }
  let fail (message : String) : Pool :=
    { p.updateSlot slotId (TokenSlot.failRefresh message) with
      consecutiveMintFailures := p.consecutiveMintFailures + 1
      lastMintFailureAt := p.nowMs }
  match result with
  | .failed message => fail message
  | .minted token expiresAt =>
    if token = "" ∨ expiresAt ≤ p.nowMs + o.refreshMarginMs then
      fail "AUTHORIZED_TOKEN_EXPIRES_TOO_SOON"
    else
      { p.updateSlot slotId (TokenSlot.hold ⟨token, p.mints⟩ expiresAt) with
        consecutiveMintFailures := 0
        mints := p.mints + 1 }

/-- A key is added to a slot and to what its token is charged with. -/
def charge (p : Pool) (slot : TokenSlot) (key : String) : Pool :=
  { p.updateSlot slot.id (TokenSlot.addKey key) with
    charges := p.charges ++ (slot.token.toList.map fun token => (token.mint, key)) }

def invalidate (p : Pool) (token : String) : Pool :=
  if token = "" then p
  else { p with slots := p.slots.map fun slot =>
    if slot.token.any (·.text = token) then { slot.dropToken with health := .degraded } else slot }

def retire (p : Pool) (which : TokenSlot → Bool) : Pool :=
  { p with slots := p.slots.map fun slot =>
      if which slot && slot.token.isSome then { slot.dropToken with leases := 0 } else slot }

def retireSlot (p : Pool) (slotId : Nat) : Pool := p.retire (·.id = slotId)

def retireLane (p : Pool) (laneId : Int) (laneCount : Nat) : Pool :=
  if laneCount < 1 then p else p.retire (TokenSlot.onLane · ⟨laneId, laneCount⟩)

def retireGeneration (p : Pool) : Pool := p.retire fun _ => true

def expire (p : Pool) (slotId : Nat) : Pool :=
  p.updateSlot slotId fun slot => { slot.dropToken with state := .expired, health := .unhealthy }

end Pool

end HomefrontFiber.TokenPool

/-!
## The calls of the token pool

A call of `lease` runs through its stages and is suspended wherever the code awaits. A suspended
call may go on at any time and may be given up at any time, which covers every order in which what
it awaits settles, its deadline and its abort.
-/

namespace HomefrontFiber.TokenPool.Pool

variable (o : PoolSettings)

def suspend (p : Pool) (call : Call) : Pool := { p with calls := p.calls ++ [call] }

def refuse (p : Pool) (error : LeaseError) : Pool := { p with refusals := p.refusals ++ [error] }

def expired (p : Pool) (c : LeaseCall) (aborted : Bool) : Bool := c.deadlineAt ≤ p.nowMs || aborted

/-- `ready`: the deadline is checked before the work is handed over. -/
def awaitReady (p : Pool) (c : LeaseCall) (aborted : Bool) (point : LeasePoint) : Pool :=
  if p.expired c aborted then p.refuse .waitExpired else p.suspend (.lease c point)

def grant (p : Pool) (c : LeaseCall) (slot : TokenSlot) (token : Token) : Pool :=
  let checksUsed := match c.addressKey with
    | none => slot.addressKeys.length
    | some key =>
      if key ∈ slot.addressKeys then slot.addressKeys.length else slot.addressKeys.length + 1
  let p := match c.addressKey with
    | none => p
    | some key => if key ∈ slot.addressKeys then p else p.charge slot key
  { p.updateSlot slot.id (TokenSlot.addLease (p.leaseSequence + 1)) with
    leaseSequence := p.leaseSequence + 1
    leases := p.leases ++ [{
      slotId := slot.id
      token := token
      expiresAt := slot.expiresAt
      addressKey := c.addressKey
      checksUsed := checksUsed
      slotState := slot.state
      grantedAt := p.nowMs }] }

/-- The end of `lease`: a slot with a token is charged and leased. -/
def leaseSlot (p : Pool) (c : LeaseCall) (aborted : Bool) (slot : Option TokenSlot) : Pool :=
  match slot.bind fun slot => slot.token.map fun token => (slot, token) with
  | none =>
    p.refuse <| if o.maxSize ≤ p.slots.length ∧
        ∀ slot ∈ p.slots, o.maxChecksPerToken ≤ slot.addressKeys.length then
      .batchCapacityExhausted else .poolEmpty
  | some (slot, token) =>
    if p.expired c aborted then p.refuse .waitExpired
    else if slot.hasRoom o.maxChecksPerToken c.addressKey then p.grant c slot token
    else p.refuse .slotCapacityExhausted

/-- Any ready token, else whatever refresh is in flight is awaited. -/
def leaseAny (p : Pool) (c : LeaseCall) (aborted : Bool) (slot : Option TokenSlot) : Pool :=
  match slot.or (c.lane.bind fun _ => p.pickReady o c.addressKey none) with
  | some slot => p.leaseSlot o c aborted (some slot)
  | none =>
    if p.slots.any (·.refreshInFlight) then p.awaitReady c aborted .afterRace
    else p.leaseSlot o c aborted (p.pickReady o c.addressKey none)

def growLane (lane : Option Lane) : Nat → Pool → Pool × Option Nat
  | 0, p => (p, none)
  | attempts + 1, p =>
    if p.slots.length < o.maxSize then
      let slot : TokenSlot := { id := p.slots.length }
      if lane.all slot.onLane then (p.createSlot o, some slot.id)
      else growLane lane attempts (p.createSlot o)
    else (p, none)

def leaseCreated (p : Pool) (c : LeaseCall) (aborted : Bool) (slot : Option TokenSlot) : Pool :=
  if slot.isNone && p.slots.length < o.maxSize then
    match growLane o c.lane (c.lane.elim 1 Lane.count) p with
    | (p, some slotId) => p.awaitReady c aborted (.beforeCreate slotId)
    | (p, none) => p.leaseAny o c aborted (p.pickReady o c.addressKey c.lane)
  else p.leaseAny o c aborted slot

def reusable (p : Pool) (lane : Lane) : Option TokenSlot :=
  let own := p.slots.filter fun slot => slot.onLane lane
  ((own.find? fun slot => slot.state = .empty || slot.state = .expired).or
    (own.find? fun slot => slot.leases = 0)).or own.head?

def leaseRecycled (p : Pool) (c : LeaseCall) (aborted : Bool) (slot : Option TokenSlot) : Pool :=
  match slot, c.lane.bind p.reusable with
  | none, some slot => p.awaitReady c aborted (.beforeRecycle slot.id)
  | slot, _ => p.leaseCreated o c aborted slot

/-- A slot with all its leases taken is not shared further while the pool may grow. -/
def leaseExpanded (p : Pool) (c : LeaseCall) (aborted : Bool) (slot : Option TokenSlot) : Pool :=
  if slot.any (o.maxLeasesPerToken ≤ ·.leases) && p.slots.length < o.maxSize then
    (p.createSlot o).awaitReady c aborted (.beforeExpand p.slots.length)
  else p.leaseRecycled o c aborted slot

def lease (p : Pool) (c : LeaseCall) (aborted : Bool) : Pool :=
  if p.expired c aborted then p.refuse .waitExpired
  else
    match p.pickReady o c.addressKey c.lane with
    | none => p.awaitReady c aborted .beforeWarm
    | some slot => p.leaseExpanded o c aborted (some slot)

def createSlots : Nat → Pool → Pool
  | 0, p => p
  | n + 1, p => createSlots n (p.createSlot o)

def refreshSlots (p : Pool) (slotIds : List Nat) : Pool :=
  slotIds.foldl (fun p slotId => p.refreshSlot o slotId true) p

/-- What `ensureWarm` does before it is suspended. -/
def ensureWarm (p : Pool) : Pool :=
  if (p.pickReady o none none).isSome || p.warmInFlight then p
  else
    let p := p.updateStates
    let size := p.slots.length
    let missing := min (o.maxSize - size) (o.warmMinimum - size)
    let needed := if 0 < p.consecutiveMintFailures then min o.maxConcurrentRefreshes missing
      else missing
    let p := (createSlots o needed p).refreshSlots o (List.range' size needed)
    { p.suspend .warmFull with warmInFlight := true }

/-- What `refreshDueSlots` does before it is suspended. -/
def refreshDueSlots (p : Pool) (maxWave : Option Nat) : Pool :=
  let p := p.updateStates
  let ready := p.slots.countP (·.isReady p.nowMs o.refreshMarginMs)
  let deficit := o.warmMinimum - ready
  if deficit = 0 then p
  else
    let due := p.slots.filter (·.isDue p.nowMs o.refreshMarginMs)
    let failureWave := if 0 < p.consecutiveMintFailures then o.maxConcurrentRefreshes
      else due.length
    let wave := min deficit (maxWave.getD failureWave)
    p.refreshSlots o ((due.take wave).map TokenSlot.id)

def resumeLease (p : Pool) (c : LeaseCall) (aborted : Bool) : LeasePoint → Pool
  | .beforeWarm => (p.ensureWarm o).suspend (.lease c .afterWarm)
  | .afterWarm => p.awaitReady c aborted .beforeDue
  | .beforeDue => (p.refreshDueSlots o (some 1)).suspend (.lease c .afterDue)
  | .afterDue => p.leaseExpanded o c aborted (p.pickReady o c.addressKey c.lane)
  | .beforeExpand slotId => (p.refreshSlot o slotId true).suspend (.lease c .afterExpand)
  | .afterExpand => p.leaseRecycled o c aborted (p.pickReady o c.addressKey c.lane)
  | .beforeRecycle slotId => (p.refreshSlot o slotId true).suspend (.lease c .afterRecycle)
  | .afterRecycle => p.leaseCreated o c aborted (p.pickReady o c.addressKey c.lane)
  | .beforeCreate slotId => (p.refreshSlot o slotId true).suspend (.lease c .afterCreate)
  | .afterCreate => p.leaseAny o c aborted (p.pickReady o c.addressKey c.lane)
  | .afterRace => p.leaseSlot o c aborted (p.pickReady o c.addressKey none)

/-- The address of a lease is charged to whatever its slot holds now. -/
def resumeRefreshLease (p : Pool) (slotId : Nat) (addressKey : Option String) : Pool :=
  match p.slot? slotId, addressKey with
  | some slot, some key => p.charge slot key
  | _, _ => p

def resumeWarmFull (p : Pool) : Pool :=
  if (p.pickReady o none none).isSome then p.suspend .warmDone
  else
    match p.slots.find? fun slot => slot.state = .empty || slot.state = .expired with
    | none => p.suspend .warmDone
    | some slot => (p.refreshSlot o slot.id true).suspend .warmReused

def resumeCall (p : Pool) (aborted : Bool) : Call → Pool
  | .lease c point => p.resumeLease o c aborted point
  | .refreshLease slotId addressKey => p.resumeRefreshLease slotId addressKey
  | .maintain => p.ensureWarm o
  | .warmFull => p.resumeWarmFull o
  | .warmReused => p.suspend .warmDone
  | .warmDone => { p with warmInFlight := false }

def backoffMs (failures : Nat) : Int := min 120000 (5000 * 2 ^ (failures - 3))

/-- The fleet's count of failures replaces the pool's, where it was read. -/
def syncMintBackoffFromFleet (p : Pool) : Option (Nat × Int) → Pool
  | none => p
  | some (failures, lastFailureAt) =>
    { p with consecutiveMintFailures := failures, lastMintFailureAt := lastFailureAt }

/-- A refresh goes on. `shared` is the failure count of the fleet, where it was read, and `result`
is how the mint call settles. -/
def resumeRefresh (p : Pool) (r : Refresh) (shared : Option (Nat × Int)) (result : MintResult) :
    Pool :=
  match r.phase with
  | .syncing =>
    let p := p.syncMintBackoffFromFleet shared
    if 3 ≤ p.consecutiveMintFailures ∧
        p.nowMs < p.lastMintFailureAt + backoffMs p.consecutiveMintFailures then
      p.setPhase r.slotId .backingOff
    else p.enterPermit o r.slotId
  | .backingOff => p.enterPermit o r.slotId
  | .waiting => p
  | .woken => { p.setPhase r.slotId .minting with activeRefreshes := p.activeRefreshes + 1 }
  | .minting => p.setPhase r.slotId (.settled result)
  | .settled result => p.releasePermit r.slotId result
  | .released result => p.settleRefresh o r.slotId result

/-- A lease whose wait is over, or a refresh of a lease that has failed. -/
def giveUp (p : Pool) (i : Nat) : Pool :=
  match p.calls[i]? with
  | some (.lease _ _) => { (p.refuse .waitExpired) with calls := p.calls.eraseIdx i }
  | some (.refreshLease _ _) => { p with calls := p.calls.eraseIdx i }
  | _ => p

def release (p : Pool) (i : Nat) : Pool :=
  match p.leases[i]? with
  | none => p
  | some lease =>
    if lease.released then p
    else
      { p.updateSlot lease.slotId TokenSlot.dropLease with
        leases := p.leases.modify i fun lease => { lease with released := true } }

end HomefrontFiber.TokenPool.Pool

namespace HomefrontFiber.TokenPool

inductive Piece where
  | lease (addressKey : Option String) (lane : Option Lane) (deadlineAt : Int) (aborted : Bool)
  | release (i : Nat)
  | refreshSlot (slotId : Nat) (force : Bool)
  | refreshLease (i : Nat)
  | invalidate (token : String)
  | retireSlot (slotId : Nat)
  | retireLane (laneId : Int) (laneCount : Nat)
  | retireGeneration
  | expire (slotId : Nat)
  | maintain
  | ensureWarm
  | resumeRefresh (i : Nat) (shared : Option (Nat × Int)) (result : MintResult)
  | resumeCall (i : Nat) (aborted : Bool)
  | giveUp (i : Nat)

structure Action where
  waitMs : Nat := 0
  piece : Piece

variable (o : PoolSettings)

def Piece.run (p : Pool) : Piece → Pool
  | .lease addressKey lane deadlineAt aborted => p.lease o ⟨addressKey, lane, deadlineAt⟩ aborted
  | .release i => p.release i
  | .refreshSlot slotId force => p.refreshSlot o slotId force
  | .refreshLease i => (p.leases[i]?).elim p fun lease =>
    (p.refreshSlot o lease.slotId true).suspend (.refreshLease lease.slotId lease.addressKey)
  | .invalidate token => p.invalidate token
  | .retireSlot slotId => p.retireSlot slotId
  | .retireLane laneId laneCount => p.retireLane laneId laneCount
  | .retireGeneration => p.retireGeneration
  | .expire slotId => p.expire slotId
  | .maintain => (p.updateStates.refreshDueSlots o none).suspend .maintain
  | .ensureWarm => p.ensureWarm o
  | .resumeRefresh i shared result => (p.refreshes[i]?).elim p fun r =>
    p.resumeRefresh o r shared result
  | .resumeCall i aborted => (p.calls[i]?).elim p fun call =>
    Pool.resumeCall o { p with calls := p.calls.eraseIdx i } aborted call
  | .giveUp i => p.giveUp i

def Pool.wait (p : Pool) (ms : Nat) : Pool := { p with nowMs := p.nowMs + ms }

def step (p : Pool) (a : Action) : Pool := a.piece.run o (p.wait a.waitMs)

end HomefrontFiber.TokenPool
