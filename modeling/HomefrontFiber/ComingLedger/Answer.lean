import Mathlib.Data.List.Basic

/-!
# What a provider answer says about the future

Two readers look at the same answer. The snapshot writer reduces it to a lifecycle signal, the
coming ledger reads it for a promise of future service. They match the provider's texts against
patterns of their own.
-/

namespace HomefrontFiber.ComingLedger

abbrev Text := List Char

/-- A piece of a pattern: letters, any run of blanks, or one optional blank or dash. -/
inductive Piece
  | word (letters : String)
  | blanks
  | optionalDash

/-- Matches the pieces at the start of a text. A word never starts with a blank or a dash. -/
def matchHere : List Piece → Text → Bool
  | [], _ => true
  | .word letters :: pieces, t =>
    letters.toList.isPrefixOf t && matchHere pieces (t.drop letters.length)
  | .blanks :: pieces, t => matchHere pieces (t.dropWhile Char.isWhitespace)
  | .optionalDash :: pieces, t =>
    match t with
    | c :: rest => matchHere pieces (if c = '-' || c.isWhitespace then rest else t)
    | [] => matchHere pieces []

/-- `RegExp.prototype.test` for a list of alternatives. -/
def test (alternatives : List (List Piece)) (t : Text) : Bool :=
  t.tails.any fun rest => alternatives.any (matchHere · rest)

def trim (t : Text) : Text :=
  ((t.dropWhile Char.isWhitespace).reverse.dropWhile Char.isWhitespace).reverse

/-- `upper`: an absent text reads as empty. -/
def upper (t : Option Text) : Text := (trim (t.getD [])).map Char.toUpper

def comingSoonPattern : List Piece := [.word "COMING", .blanks, .word "SOON"]

/-- A date that the provider labelled as a service date, as a day since 1970. -/
structure ProviderDateHit where
  date : Int
  path : String
  raw : Text

/-- The build-out fields of a raw body. `completionIsDate` is what `normalizeDate` says of the
completion text. -/
structure ProviderBuildFlags where
  futureEligible : Bool
  buildOutStatus : Option Text
  hasExistingService : Bool
  pendingOrder : Bool
  futureQual : Bool
  futureTechnology : Option Text
  completionText : Option Text
  completionIsDate : Bool

inductive FiberStatus
  | newFiber | existingFiber | tenuredFiber | copper | unknown | noService
deriving DecidableEq

/-- One valid answer, with what the date walk found in its raw body. -/
structure ScanResult where
  fiberAvailable : Bool
  fiberStatus : FiberStatus
  householdSegmentType : Option Text
  marketSegmentType : Option Text
  serviceStatus : Option Text
  billingStatus : Option Text
  finalQual : Option Text
  maxQual : Option Text
  flags : ProviderBuildFlags
  found : Option ProviderDateHit

inductive LifecycleState
  | unavailable | comingSoon | newlyLit | freshLead | stillFresh | aged
deriving DecidableEq

inductive FiberTransitionStatus
  | baselineAvailable | unavailable | freshlyAvailable | stillAvailable | wentUnavailable
deriving DecidableEq

def classifyFiberAvailabilityTransition (everObserved wasAvailable isAvailable : Bool) :
    FiberTransitionStatus :=
  if !everObserved then (if isAvailable then .baselineAvailable else .unavailable)
  else if !wasAvailable && isAvailable then .freshlyAvailable
  else if wasAvailable && isAvailable then .stillAvailable
  else if wasAvailable && !isAvailable then .wentUnavailable
  else .unavailable

structure LifecycleSignal where
  fiberAvailable : Bool
  comingSoon : Bool
  freshQualifying : Bool
  transitionStatus : FiberTransitionStatus

def comingSoonSegment (segment : Text) : Bool :=
  test [comingSoonPattern, [.word "FUTURE"], [.word "PLANNED"], [.word "PENDING"]] segment

def lifecycleSignalOf (s : ScanResult) (transitionStatus : FiberTransitionStatus) :
    LifecycleSignal :=
  let segment := upper s.householdSegmentType
  let billing := upper s.billingStatus
  let newFiber := segment = "NEW FIBER".toList || s.fiberStatus = .newFiber
  { fiberAvailable := s.fiberAvailable
    comingSoon := comingSoonSegment segment || (newFiber && (billing = ['Y'] || billing = ['A']))
    freshQualifying := s.fiberAvailable && newFiber && billing = ['N']
    transitionStatus }

/-- The next state, or none when the answer makes no claim about it. -/
def nextLifecycleState (prev : Option LifecycleState) (sig : LifecycleSignal) :
    Option LifecycleState :=
  if sig.freshQualifying then
    if prev = some .freshLead || prev = some .stillFresh || prev = some .aged then some .stillFresh
    else some .freshLead
  else if sig.comingSoon then some .comingSoon
  else if !sig.fiberAvailable then some .unavailable
  else if prev = some .unavailable || prev = some .comingSoon ||
      sig.transitionStatus = .freshlyAvailable then some .newlyLit
  else none

inductive Signal
  | segmentFuture | marketSegmentFuture | serviceStatusFuture | qualificationFuture | nowActive
  | providerFutureEligible | buildPending | hasExistingService | pendingOrder | futureQual
  | futureBuildPlanned | providerDate
deriving DecidableEq

structure FutureServiceRead where
  isFuture : Bool
  isNowActive : Bool
  promisedDate : Option Int
  datePath : Option String
  signals : List Signal
  quote : Option Text

def futureSegment (t : Text) : Bool :=
  test [comingSoonPattern, [.word "FUTURE"], [.word "PLANNED"],
    [.word "PRE", .optionalDash, .word "LAUNCH"],
    [.word "UNDER", .blanks, .word "CONSTRUCTION"], [.word "IN", .blanks, .word "BUILD"],
    [.word "BUILD", .blanks, .word "IN", .blanks, .word "PROGRESS"]] t

def futureStatus (t : Text) : Bool :=
  test [comingSoonPattern, [.word "FUTURE"], [.word "PLANNED"], [.word "PENDING"],
    [.word "IN", .blanks, .word "PROGRESS"], [.word "SCHEDULED"]] t

def futureQualification (t : Text) : Bool :=
  test [[.word "FUTURE", .blanks, .word "QUAL"], [.word "PLANNED", .blanks, .word "QUAL"],
    [.word "QUAL", .blanks, .word "PENDING"], comingSoonPattern] t

def buildPending (t : Text) : Bool :=
  test [[.word "PENDING"], [.word "IN", .blanks, .word "PROGRESS"], [.word "PLANNED"],
    [.word "UNDER", .blanks, .word "CONSTRUCTION"], [.word "SCHEDULED"]] t

def Signal.promises : Signal → Bool
  | .segmentFuture | .marketSegmentFuture | .serviceStatusFuture | .qualificationFuture
  | .buildPending | .providerFutureEligible | .futureQual | .futureBuildPlanned
  | .providerDate => true
  | .nowActive | .hasExistingService | .pendingOrder => false

/-- Every signal with its condition and the words that it would quote, in the order of the source. -/
def signalTable (p : ScanResult) : List (Signal × Bool × Option Text) :=
  let segment := upper p.householdSegmentType
  let billing := upper p.billingStatus
  let qual := trim (upper p.finalQual ++ ' ' :: upper p.maxQual)
  [(.segmentFuture, futureSegment segment, p.householdSegmentType),
    (.marketSegmentFuture, futureSegment (upper p.marketSegmentType), p.marketSegmentType),
    (.serviceStatusFuture, futureStatus (upper p.serviceStatus), p.serviceStatus),
    (.qualificationFuture, futureQualification qual, p.finalQual.or p.maxQual),
    (.nowActive, segment = "NEW FIBER".toList && (billing = ['Y'] || billing = ['A']), none),
    (.providerFutureEligible, p.flags.futureEligible, none),
    (.buildPending, p.flags.buildOutStatus.any fun s => buildPending (upper (some s)),
      p.flags.buildOutStatus),
    (.hasExistingService, p.flags.hasExistingService, none),
    (.pendingOrder, p.flags.pendingOrder, none),
    (.futureQual, p.flags.futureQual,
      (p.flags.completionText.or p.flags.futureTechnology).or (some "FutureQual".toList)),
    (.futureBuildPlanned, p.flags.completionText.isSome && !p.flags.completionIsDate,
      p.flags.completionText),
    (.providerDate, p.found.isSome, p.found.map (·.raw))]

/-- An already active door is never future, whatever else the answer says. -/
def readFutureService (p : ScanResult) : FutureServiceRead :=
  let raised := (signalTable p).filter (·.2.1)
  let signals := raised.map (·.1)
  let isNowActive := signals.contains .nowActive
  { isFuture := !isNowActive && signals.any Signal.promises
    isNowActive
    promisedDate := p.found.map (·.date)
    datePath := p.found.map (·.path)
    signals
    quote := (raised.findSome? (·.2.2)).map (·.take 200) }

end HomefrontFiber.ComingLedger
