import HomefrontFiber.ComingLedger.Answer
import HomefrontFiber.Foundation.IsoText

/-!
# Persisting one provider observation

An observation carries the instant at which the provider spoke. Its predecessor is looked up by that
instant among the stored snapshots, but the columns of the target carry the instant at which they were
written, and they are written whenever an observation is conclusive. Instants are milliseconds.
-/

namespace HomefrontFiber.Observation

open ComingLedger (Piece test trim upper)

/-- One broadband service of `uqualProvisioningResult`. -/
structure UqualService where
  technologyType : Option Text
  qualMessage : Option Text
  finalQual : Option Text
  reasonDetails : Option Text
  chipSetType : Option Text

/-- What the parser reads of a body for the fiber qualification. -/
structure KineticBody where
  techType : Option Text
  maxQualTechnologyType : Option Text
  chipSetType : Option Text
  services : List UqualService

inductive RawResponse
  | absent
  | unmodelled
  | kinetic (body : KineticBody)

def isNoQual (s : UqualService) : Bool :=
  upper s.qualMessage = "NO QUAL".toList || test [[.word "NO QUAL"]] (upper s.finalQual) ||
    test [[.word "REMOVE", .blanks, .word "FIBER"]] (upper s.reasonDetails)

def KineticBody.fiberService (b : KineticBody) : Option UqualService :=
  b.services.find? fun s => upper s.technologyType = "FIBER".toList && !isNoQual s

def KineticBody.fiberQualified (b : KineticBody) : Bool :=
  upper b.techType = "FIBER".toList || upper b.maxQualTechnologyType = "FIBER".toList ||
    upper (b.chipSetType.or (b.fiberService.bind (·.chipSetType))) = "FTTP".toList ||
    b.fiberService.isSome

inductive Corroboration
  | qualified | unqualified | unrecognized | absent
deriving DecidableEq

def corroborateAvailability : RawResponse → Corroboration
  | .absent => .absent
  | .unmodelled => .unrecognized
  | .kinetic body => if body.fiberQualified then .qualified else .unqualified

structure KineticObservation where
  fiberStatus : Option Text
  fiberAvailable : Option Bool
  isNewFiber : Option Bool
  billingStatus : Option Text
  apiSource : Option Text
  blocked : Bool
  checkFailed : Bool
  discoveredAt : Option Int
  rawResponse : RawResponse

/-- `replace(/gap+/g, by)`: each run of gaps becomes one character. -/
def collapse (gap : Char → Bool) (filler : Char) : Bool → Text → Text
  | _, [] => []
  | inGap, c :: t =>
    if gap c then (if inGap then collapse gap filler true t else filler :: collapse gap filler true t)
    else c :: collapse gap filler false t

def clean (t : Option Text) : Text := collapse Char.isWhitespace ' ' false (trim (t.getD []))

def statusKey (t : Option Text) : Text :=
  collapse (fun c => c.isWhitespace || c = '-') '_' false ((clean t).map Char.toLower)

def inferAvailability (o : KineticObservation) : Option Bool :=
  if o.checkFailed || o.blocked || o.apiSource = some "failed".toList then none
  else if o.fiberAvailable = some true || (o.fiberAvailable = none && o.isNewFiber = some true) then
    if corroborateAvailability o.rawResponse = .unqualified then some false else some true
  else if o.fiberAvailable.isSome then o.fiberAvailable
  else if statusKey o.fiberStatus = "no_service".toList then some false else none

inductive TransitionStatus
  | checkFailed | baselineAvailable | unavailable | freshlyAvailable | stillAvailable
  | wentUnavailable

structure Transition where
  status : TransitionStatus
  fresh : Bool

/-- `previous` is what was known of the door before, if anything. -/
def classifyFiberAvailabilityTransition (previous : Option Bool) (current : Option Bool) :
    Transition :=
  match current, previous with
  | none, _ => { status := .checkFailed, fresh := false }
  | some true, none => { status := .baselineAvailable, fresh := false }
  | some false, none => { status := .unavailable, fresh := false }
  | some true, some false => { status := .freshlyAvailable, fresh := true }
  | some true, some true => { status := .stillAvailable, fresh := false }
  | some false, some true => { status := .wentUnavailable, fresh := false }
  | some false, some false => { status := .unavailable, fresh := false }

def legacyAvailabilityStatus : TransitionStatus → Text
  | .checkFailed => "check_failed".toList
  | .baselineAvailable => "checked_available".toList
  | .unavailable => "checked_unavailable".toList
  | .freshlyAvailable => "newly_live".toList
  | .stillAvailable => "still_available".toList
  | .wentUnavailable => "went_stale".toList

/-- The last-result columns of a target. `lastScannedAt` is when they were written. -/
structure TargetState where
  lastScannedAt : Option Int
  lastFiberAvailable : Option Bool
  lastFiberStatus : Option Text
  lastIsNewFiber : Bool
  lastBillingStatus : Option Text
  lastAvailabilityStatus : Option Text
  firstSeenLiveAt : Option Int
  firstSeenFiberAt : Option Int
  negStreak : Nat
  scanCount : Nat
  inconclusiveAttempts : Nat

structure Snapshot where
  checkedAtEpoch : Int
  conclusive : Bool
  fiberAvailable : Option Bool
  transitionStatus : TransitionStatus
  fresh : Bool

/-- A target with its snapshots, in the order in which they were recorded. -/
structure Door where
  target : TargetState
  snapshots : List Snapshot

structure PreviousState where
  fiberAvailable : Bool
  observedAt : Int

def legacyStateFromTarget (t : TargetState) : Option PreviousState :=
  t.lastScannedAt.bind fun observedAt =>
    match t.lastFiberAvailable with
    | some fiberAvailable => some { fiberAvailable, observedAt }
    | none =>
      let status := statusKey ((t.lastAvailabilityStatus.filter (· ≠ [])).or t.lastFiberStatus)
      if status = "checked_unavailable".toList || status = "unavailable".toList ||
          status = "no_service".toList then
        some { fiberAvailable := false, observedAt }
      else if t.lastIsNewFiber then some { fiberAvailable := true, observedAt }
      else none

def Snapshot.answers (s : Snapshot) : Bool := s.conclusive && s.fiberAvailable.isSome

/-- The newest conclusive snapshot strictly before an instant, the later recorded among equals. -/
def newestBefore (ms : Int) (snapshots : List Snapshot) : Option Snapshot :=
  snapshots.foldl (fun newest s =>
    if s.answers && s.checkedAtEpoch < ms && newest.all (·.checkedAtEpoch ≤ s.checkedAtEpoch) then
      some s
    else newest) none

/-- A prior unavailable state from before the snapshots, with its instant and its provenance. -/
structure LegacyPriorUnavailableEvidence where
  observedAt : Option Int
  source : Text

/-- `writeMs` is the clock at the write. -/
structure Call where
  observation : KineticObservation
  legacyPriorUnavailableEvidence : Option LegacyPriorUnavailableEvidence
  writeMs : Int

/-- An observation without an instant of its own is observed when it is written. -/
def Call.observedMs (c : Call) : Int := c.observation.discoveredAt.getD c.writeMs

def Call.verdict (c : Call) : Option Bool := inferAvailability c.observation

/-- `datetime('now')`, to the second. -/
def stampedAt (ms : Int) : Int := ms / 1000 * 1000

/-- The explicit evidence is refused unless it is dated before the observation and sourced. -/
def explicitPrevious (c : Call) : Except String (Option PreviousState) :=
  match c.legacyPriorUnavailableEvidence with
  | none => .ok none
  | some legacy =>
    match legacy.observedAt with
    | none => .error "KINETIC_LEGACY_BASELINE_EVIDENCE_INVALID"
    | some observedAt =>
      if c.observedMs ≤ observedAt || clean (some legacy.source) = [] then
        .error "KINETIC_LEGACY_BASELINE_EVIDENCE_INVALID"
      else .ok (some { fiberAvailable := false, observedAt })

def persisted (s : Option Snapshot) : Option PreviousState :=
  s.bind fun s => s.fiberAvailable.map fun fiberAvailable =>
    { fiberAvailable, observedAt := s.checkedAtEpoch }

/-- A state that is newer than the one known so far, and not yet a snapshot. -/
def newer (known candidate : Option PreviousState) : Option PreviousState :=
  candidate.filter fun p => known.all (·.observedAt < p.observedAt)

/-- Prior evidence that is newer than every earlier snapshot: the columns of the target, and above
them the explicit evidence. -/
def baseline (d : Door) (observedMs : Int) (explicit : Option PreviousState) :
    Option PreviousState :=
  let latest := persisted (newestBefore observedMs d.snapshots)
  let fromTarget := newer latest
    ((legacyStateFromTarget d.target).filter (·.observedAt < observedMs))
  (newer (fromTarget.or latest) explicit).or fromTarget

def baselineSnapshot (p : PreviousState) : Snapshot where
  checkedAtEpoch := p.observedAt
  conclusive := true
  fiberAvailable := some p.fiberAvailable
  transitionStatus := if p.fiberAvailable then .baselineAvailable else .unavailable
  fresh := false

def recordScanTargetResult (t : TargetState) (c : Call) (fiberAvailable : Bool)
    (transition : Transition) : TargetState where
  lastScannedAt := some (stampedAt c.writeMs)
  lastFiberAvailable := some fiberAvailable
  lastFiberStatus :=
    let status := clean c.observation.fiberStatus
    if status ≠ [] then some status
    else if c.observation.isNewFiber = some true then some "new_fiber".toList
    else some "unknown".toList
  lastIsNewFiber := c.observation.isNewFiber = some true
  lastBillingStatus := c.observation.billingStatus
  lastAvailabilityStatus := some (legacyAvailabilityStatus transition.status)
  firstSeenLiveAt := t.firstSeenLiveAt.or
    (if transition.fresh then some (stampedAt c.writeMs) else none)
  firstSeenFiberAt := t.firstSeenFiberAt.or
    (if transition.fresh || c.observation.isNewFiber = some true then some (stampedAt c.writeMs)
      else none)
  negStreak := if fiberAvailable then 0 else t.negStreak + 1
  scanCount := t.scanCount + 1
  inconclusiveAttempts := 0

/-- Only a target that was never scanned counts its inconclusive probes. -/
def bumpScanTargetInconclusive (t : TargetState) : TargetState :=
  if t.lastScannedAt = none then { t with inconclusiveAttempts := t.inconclusiveAttempts + 1 } else t

def persistKineticObservation (d : Door) (c : Call) : Except String Door := do
  let explicit ← explicitPrevious c
  let prior := baseline d c.observedMs explicit
  let previous := prior.or (persisted (newestBefore c.observedMs d.snapshots))
  let transition := classifyFiberAvailabilityTransition (previous.map (·.fiberAvailable)) c.verdict
  let snapshot : Snapshot :=
    { checkedAtEpoch := c.observedMs
      conclusive := c.verdict.isSome
      fiberAvailable := c.verdict
      transitionStatus := transition.status
      fresh := transition.fresh }
  pure
    { target :=
        match c.verdict with
        | some fiberAvailable => recordScanTargetResult d.target c fiberAvailable transition
        | none => bumpScanTargetInconclusive d.target
      snapshots := d.snapshots ++ prior.toList.map baselineSnapshot ++ [snapshot] }

end HomefrontFiber.Observation
