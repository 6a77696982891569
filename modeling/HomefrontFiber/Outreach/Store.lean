import Mathlib.Algebra.Order.Ring.Rat
import Mathlib.Data.List.Infix
import HomefrontFiber.Foundation.Table

/-!
# The gate before any message

The pure rules of `shared/contactConsent.ts`: the normal forms of a destination, the keywords of an
inbound reply, and the one decision that every send passes. The gate names each rule that fails, in
the order in which it looks at them.
-/

namespace HomefrontFiber.Outreach

inductive ContactChannel where
  | sms | email
deriving DecidableEq

def ContactChannel.text : ContactChannel → String
  | .sms => "sms"
  | .email => "email"

inductive ConsentStatus where
  | granted | revoked | neverGranted | unknown

inductive ConsentBasis where
  | expressWritten | expressOral | transactionalService | existingBusinessRelationship | none
deriving DecidableEq

inductive MessagePurpose where
  | transactionalServiceUpdate | marketing

def sufficientBases : MessagePurpose → ContactChannel → List ConsentBasis
  | .transactionalServiceUpdate, _ =>
    [.expressWritten, .expressOral, .transactionalService, .existingBusinessRelationship]
  | .marketing, .sms => [.expressWritten]
  | .marketing, .email => [.expressWritten, .expressOral, .existingBusinessRelationship]

def trim (text : List Char) : List Char :=
  ((text.dropWhile Char.isWhitespace).reverse.dropWhile Char.isWhitespace).reverse

/-- A North American number in E.164. -/
def normalizePhoneE164 (raw : String) : Option String :=
  let digits := raw.toList.filter Char.isDigit
  let ten := if digits.length = 11 ∧ digits.head? = some '1' then digits.drop 1 else digits
  if ten.length ≠ 10 then none
  else if ten[0]?.any (· < '2') ∨ ten[3]?.any (· < '2') then none
  else if ten[1]? = some '1' ∧ ten[2]? = some '1' then none
  else if ten.all fun c => ten.head? = some c then none
  else some (String.ofList ('+' :: '1' :: ten))

def dotted (text : List Char) : Bool :=
  text.head? = some '.' || text.getLast? = some '.' || decide (['.', '.'] <:+: text)

/-- `/^[A-Za-z0-9.!#$%&'*+/=?^_`{|}~-]+$/` on the local part and `/^[A-Za-z0-9.-]+$/` on the
domain. -/
def localChar (c : Char) : Bool :=
  c.isAlphanum || ".!#$%&'*+/=?^_\x60\x7b|\x7d~-".toList.contains c

def domainChar (c : Char) : Bool := c.isAlphanum || c = '.' || c = '-'

def isPlausibleEmail (raw : String) : Bool :=
  let text := trim raw.toList
  let before := text.takeWhile (· ≠ '@')
  let domain := (text.dropWhile (· ≠ '@')).drop 1
  decide (text ≠ []) && decide (text.length ≤ 254) && text.all (fun c => !c.isWhitespace) &&
    text.contains '@' && !domain.contains '@' &&
    decide (before ≠ []) && decide (before.length ≤ 64) && !dotted before &&
    decide (domain ≠ []) && decide (domain.length ≤ 253) && !dotted domain &&
    domain.contains '.' && before.all localChar && domain.all domainChar

def optOutKeywords : List String :=
  ["stop", "stopall", "unsubscribe", "cancel", "end", "quit", "optout", "opt out", "remove"]

def optInKeywords : List String := ["start", "unstop", "yes", "optin", "opt in"]

/-- The message in lower case, without blanks around it and punctuation behind it. -/
def replyText (body : String) : List Char :=
  ((trim body.toList).map Char.toLower).reverse.dropWhile
    (fun c => ['.', '!', '?', ',', ';', ':'].contains c) |>.reverse

def detectOptOut (body : String) : Option String :=
  optOutKeywords.find? fun k => k.toList = replyText body

def detectOptIn (body : String) : Option String :=
  optInKeywords.find? fun k => k.toList = replyText body

def isWordChar (c : Char) : Bool := c.isAlphanum || c = '_'

/-- `/\b(reply|text)\s+stop\b/i`, on the runs of word characters and of others. -/
def asksForStop : List (List Char) → Bool
  | a :: b :: c :: rest =>
    (decide (a = "reply".toList ∨ a = "text".toList) && b.all Char.isWhitespace &&
      decide (c = "stop".toList)) || asksForStop (b :: c :: rest)
  | _ => false

def bodyCarriesOptOut (body : String) : Bool :=
  asksForStop ((body.toList.map Char.toLower).splitBy fun a b => isWordChar a = isWordChar b)

def includes (body part : String) : Bool := decide (part.toList <:+: body.toList)

inductive ContactBlockReason where
  | featureDisabled | orgNotApproved | identityUnresolved | noDestination | invalidDestination
  | suppressed | consentRevoked | consentMissing | consentBasisInsufficient | doNotContact
  | templateNotApproved | quietHours | rateLimitDaily | rateLimitCase | rateLimitCooldown
  | senderNotConfigured | missingOptOutLanguage | missingPostalAddress | missingUnsubscribe

structure MessagingCaps where
  maxPerDestinationPerDay : Nat
  maxPerCaseTotal : Nat
  minHoursBetweenOutreach : Nat

def DEFAULT_MESSAGING_CAPS : MessagingCaps where
  maxPerDestinationPerDay := 1
  maxPerCaseTotal := 4
  minHoursBetweenOutreach := 24

structure QuietHours where
  startHour : Nat
  endHour : Nat

/-- The counters that the caller reads from the outreach table. -/
structure OutreachCounters where
  sentToDestinationToday : Nat
  sentForCaseTotal : Nat
  hoursSinceLastOutreachToCase : Option Rat

structure ContactGateInput where
  channel : ContactChannel
  purpose : MessagePurpose
  featureEnabled : Bool
  organizationApproved : Bool
  identityResolved : Bool
  destination : Option String
  suppressed : Bool
  doNotContact : Bool
  consentStatus : ConsentStatus
  consentBasis : Option ConsentBasis
  templateApproved : Bool
  senderConfigured : Bool
  bodyHasOptOutLanguage : Bool
  bodyHasUnsubscribe : Bool
  bodyHasPostalAddress : Bool
  recipientLocalHour : Option Nat
  quietHours : QuietHours
  counters : OutreachCounters
  caps : MessagingCaps

def isWithinQuietHours (hour : Option Nat) (window : QuietHours) : Bool :=
  match hour with
  | none => false
  | some hour =>
    if 23 < hour then false
    else if window.startHour = window.endHour then false
    else if window.startHour < window.endHour then
      decide (window.startHour ≤ hour) && decide (hour < window.endHour)
    else decide (window.startHour ≤ hour) || decide (hour < window.endHour)

def ContactGateInput.destinationBlocks (input : ContactGateInput) : List ContactBlockReason :=
  match input.destination with
  | none => [.noDestination]
  | some destination =>
    if destination = "" then [.noDestination]
    else match input.channel with
    | .sms => if normalizePhoneE164 destination = none then [.invalidDestination] else []
    | .email => if isPlausibleEmail destination then [] else [.invalidDestination]

def ContactGateInput.consentBlocks (input : ContactGateInput) : List ContactBlockReason :=
  match input.consentStatus with
  | .revoked => [.consentRevoked]
  | .granted =>
    if input.consentBasis.any (sufficientBases input.purpose input.channel).contains then []
    else [.consentBasisInsufficient]
  | .neverGranted | .unknown => [.consentMissing]

def blockIf (condition : Bool) (reason : ContactBlockReason) : List ContactBlockReason :=
  if condition then [reason] else []

def ContactGateInput.rateBlocks (input : ContactGateInput) : List ContactBlockReason :=
  blockIf (decide (input.caps.maxPerDestinationPerDay ≤ input.counters.sentToDestinationToday))
      .rateLimitDaily ++
    blockIf (decide (input.caps.maxPerCaseTotal ≤ input.counters.sentForCaseTotal))
      .rateLimitCase ++
    blockIf (input.counters.hoursSinceLastOutreachToCase.any
      (· < (input.caps.minHoursBetweenOutreach : Rat))) .rateLimitCooldown

/-- Every rule that fails, in the order of evaluation; the send is allowed when none does. -/
def evaluateContactGate (input : ContactGateInput) : List ContactBlockReason :=
  blockIf (!input.featureEnabled) .featureDisabled ++
  blockIf (!input.organizationApproved) .orgNotApproved ++
  blockIf (!input.identityResolved) .identityUnresolved ++
  input.destinationBlocks ++
  blockIf input.suppressed .suppressed ++
  blockIf input.doNotContact .doNotContact ++
  input.consentBlocks ++
  blockIf (!input.templateApproved) .templateNotApproved ++
  blockIf (!input.senderConfigured) .senderNotConfigured ++
  blockIf (decide (input.channel = .sms) && !input.bodyHasOptOutLanguage) .missingOptOutLanguage ++
  blockIf (decide (input.channel = .email) && !input.bodyHasUnsubscribe) .missingUnsubscribe ++
  blockIf (decide (input.channel = .email) && !input.bodyHasPostalAddress) .missingPostalAddress ++
  blockIf (!isWithinQuietHours input.recipientLocalHour input.quietHours) .quietHours ++
  input.rateBlocks

theorem blockIf_eq_nil_iff {condition : Bool} {reason : ContactBlockReason} :
    blockIf condition reason = [] ↔ condition = false := by
  cases condition <;> simp [blockIf]

/-- What a send that the gate lets through has met, as far as the tables decide it. -/
structure Admitted (input : ContactGateInput) : Prop where
  destination : input.destination.isSome = true
  unsuppressed : input.suppressed = false
  daily : input.counters.sentToDestinationToday < input.caps.maxPerDestinationPerDay
  total : input.counters.sentForCaseTotal < input.caps.maxPerCaseTotal
  cooldown : ∀ hours ∈ input.counters.hoursSinceLastOutreachToCase,
    (input.caps.minHoursBetweenOutreach : Rat) ≤ hours

theorem admitted_of_allowed {input : ContactGateInput} (h : evaluateContactGate input = []) :
    Admitted input := by
  unfold evaluateContactGate ContactGateInput.rateBlocks at h
  simp only [List.append_eq_nil_iff, blockIf_eq_nil_iff] at h
  obtain ⟨⟨⟨⟨⟨⟨⟨⟨⟨⟨⟨_, hdestination⟩, hsuppressed⟩, -⟩, -⟩, -⟩, -⟩, -⟩, -⟩, -⟩, -⟩, hrates⟩ := h
  obtain ⟨⟨hdaily, htotal⟩, hcooldown⟩ := hrates
  constructor
  · unfold ContactGateInput.destinationBlocks at hdestination
    cases hdest : input.destination with
    | none =>
      rw [hdest] at hdestination
      cases hdestination
    | some destination => rfl
  · exact hsuppressed
  · exact Nat.lt_of_not_le (of_decide_eq_false hdaily)
  · exact Nat.lt_of_not_le (of_decide_eq_false htotal)
  · intro hours hhours
    rw [Option.mem_def.mp hhours] at hcooldown
    exact not_lt.mp (by simpa using hcooldown)

end HomefrontFiber.Outreach

/-!
## Outreach and suppressions

The table of outreach messages, with the counters that the rate limits read, and the block list. A
destination is looked up by a hash that is keyed once a hash key is configured; rows from before
then carry the hash without a key.
-/

namespace HomefrontFiber.Outreach

structure Crypto where
  sha256Hex : String → String
  hmacSha256Hex : String → String → String

def hashMaterial (tenantId : Nat) (channel : ContactChannel) (normalized : String) : String :=
  toString tenantId ++ ":" ++ channel.text ++ ":" ++
    String.ofList ((trim normalized.toList).map Char.toLower)

def hashDestination (crypto : Crypto) (hashKey : Option String) (tenantId : Nat)
    (channel : ContactChannel) (normalized : String) : String :=
  match hashKey with
  | some key => crypto.hmacSha256Hex key (hashMaterial tenantId channel normalized)
  | none => crypto.sha256Hex (hashMaterial tenantId channel normalized)

def destinationHashCandidates (crypto : Crypto) (hashKey : Option String) (tenantId : Nat)
    (channel : ContactChannel) (normalized : String) : List String :=
  let unkeyed := crypto.sha256Hex (hashMaterial tenantId channel normalized)
  match hashKey with
  | some key =>
    let keyed := crypto.hmacSha256Hex key (hashMaterial tenantId channel normalized)
    if keyed = unkeyed then [keyed] else [keyed, unkeyed]
  | none => [unkeyed]

inductive OutreachStatus where
  | draft | queued | sent | delivered | failed | blocked | canceled
deriving DecidableEq

structure OutreachRow where
  id : Nat
  tenantId : Nat
  caseId : Nat
  channel : ContactChannel
  body : String
  recipientHash : Option String
  purpose : MessagePurpose
  status : OutreachStatus
  blockedReasons : List ContactBlockReason
  providerMessageId : Option String := none
  sentAt : Option Int := none
  deliveredAt : Option Int := none
  failedAt : Option Int := none
  failureDetail : Option String := none
  responseAt : Option Int := none
  optOutDetectedAt : Option Int := none

inductive SuppressionReason where
  | optOutReply | complaint | doNotContact | invalidDestination | adminBlock
deriving DecidableEq

structure Suppression where
  id : Nat
  tenantId : Nat
  channel : ContactChannel
  destinationHash : String
  reason : SuppressionReason
  source : String
  evidence : Option String
  suppressedAt : Int
  liftedAt : Option Int := none
  liftReason : Option String := none

structure OutreachDb where
  outreach : List OutreachRow
  suppressions : List Suppression

def OutreachRow.answersTo (tenantId : Nat) (recipientHash : String) (r : OutreachRow) : Bool :=
  decide (r.tenantId = tenantId) && decide (r.recipientHash = some recipientHash) &&
    (decide (r.status = .sent) || decide (r.status = .delivered))

/-- `status IN ('sent','delivered','queued')` -/
def OutreachStatus.counts : OutreachStatus → Bool
  | .sent | .delivered | .queued => true
  | .draft | .failed | .blocked | .canceled => false

/-- Whether a row counts against the daily limit of a destination. -/
def OutreachRow.countsToday (tenantId : Nat) (recipientHash : String) (now : Int)
    (r : OutreachRow) : Bool :=
  decide (r.tenantId = tenantId) && decide (r.recipientHash = some recipientHash) &&
    r.status.counts && r.sentAt.any (now - 86400000 ≤ ·)

def OutreachRow.countsForCase (tenantId caseId : Nat) (r : OutreachRow) : Bool :=
  decide (r.tenantId = tenantId) && decide (r.caseId = caseId) && r.status.counts

structure NewOutreach where
  tenantId : Nat
  caseId : Nat
  channel : ContactChannel
  body : String
  recipientHash : Option String
  purpose : MessagePurpose
  status : OutreachStatus
  blockedReasons : List ContactBlockReason

def NewOutreach.row (input : NewOutreach) (id : Nat) : OutreachRow where
  id
  tenantId := input.tenantId
  caseId := input.caseId
  channel := input.channel
  body := input.body
  recipientHash := input.recipientHash
  purpose := input.purpose
  status := input.status
  blockedReasons := input.blockedReasons

def Suppression.blocks (tenantId : Nat) (channel : ContactChannel) (hashes : List String)
    (x : Suppression) : Bool :=
  decide (x.tenantId = tenantId) && decide (x.channel = channel) && decide (x.liftedAt = none) &&
    hashes.contains x.destinationHash

namespace OutreachDb

variable (db : OutreachDb)

def nextOutreachId : Nat := db.outreach.length + 1

def insertOutreach (input : NewOutreach) : OutreachDb :=
  { db with outreach := db.outreach ++ [input.row db.nextOutreachId] }

def updateOutreach (id : Nat) (f : OutreachRow → OutreachRow) : OutreachDb :=
  { db with outreach := db.outreach.map fun r => if r.id = id then f r else r }

/-- Whether another row of the tenant of a row has the provider's message id. -/
def providerMessageTaken (id : Nat) (providerMessageId : String) : Bool :=
  db.outreach.any fun r => decide (r.id = id) && db.outreach.any fun other =>
    decide (other.id ≠ id) && decide (other.tenantId = r.tenantId) &&
      decide (other.providerMessageId = some providerMessageId)

/-- The unique index on the provider's message ids refuses a second row with one. -/
def markOutreachSent (id : Nat) (providerMessageId : String) (now : Int) : Option OutreachDb :=
  if db.providerMessageTaken id providerMessageId then none
  else some (db.updateOutreach id fun r => { r with
    status := .sent
    sentAt := some now
    providerMessageId := some providerMessageId })

def markOutreachFailed (id : Nat) (safeDetail : String) (now : Int) : OutreachDb :=
  db.updateOutreach id fun r => { r with
    status := .failed
    failedAt := some now
    failureDetail := some (String.ofList (safeDetail.toList.take 300)) }

def markOutreachDelivered (tenantId : Nat) (providerMessageId : String) (now : Int) : OutreachDb :=
  { db with outreach := db.outreach.map fun r =>
      if r.tenantId = tenantId ∧ r.providerMessageId = some providerMessageId ∧
          (r.status = .sent ∨ r.status = .queued) then
        { r with status := .delivered, deliveredAt := some now }
      else r }

def recordInboundResponse (tenantId : Nat) (recipientHash : String) (optOut : Bool) (now : Int) :
    OutreachDb × Nat :=
  ({ db with outreach := db.outreach.map fun r =>
      if r.answersTo tenantId recipientHash then
        { r with
          responseAt := r.responseAt.or (some now)
          optOutDetectedAt := if optOut then r.optOutDetectedAt.or (some now)
            else r.optOutDetectedAt }
      else r }, db.outreach.countP (·.answersTo tenantId recipientHash))

/-- The counters of the rate limits, from the rows that were sent, delivered or queued. A queued row
has no `sent_at` yet. -/
def outreachCounters (tenantId caseId : Nat) (recipientHash : Option String) (now : Int) :
    OutreachCounters where
  sentToDestinationToday := match recipientHash with
    | some hash => db.outreach.countP (·.countsToday tenantId hash now)
    | none => 0
  sentForCaseTotal := db.outreach.countP (·.countsForCase tenantId caseId)
  hoursSinceLastOutreachToCase :=
    ((db.outreach.filter (·.countsForCase tenantId caseId)).filterMap (·.sentAt)).max?.map
      fun last => ((now - last : Int) : Rat) / 3600000

def isSuppressed (tenantId : Nat) (channel : ContactChannel) (hashes : List String) : Bool :=
  db.suppressions.any (·.blocks tenantId channel hashes)

/-- Insert a block or arm a lifted one again; a block that stands is left as it is. -/
def suppressHash (tenantId : Nat) (channel : ContactChannel) (hash : String)
    (reason : SuppressionReason) (source : String) (evidence : Option String) (now : Int) :
    OutreachDb :=
  let mine := fun x : Suppression => decide (x.tenantId = tenantId) &&
    decide (x.channel = channel) && decide (x.destinationHash = hash)
  if db.suppressions.any mine then
    { db with suppressions := db.suppressions.map fun x =>
        if mine x && x.liftedAt.isSome then
          { x with
            liftedAt := none
            liftReason := none
            reason := reason
            source := source
            evidence := evidence
            suppressedAt := now }
        else x }
  else
    { db with suppressions := db.suppressions ++ [{
        id := db.suppressions.length + 1
        tenantId
        channel
        destinationHash := hash
        reason
        source
        evidence
        suppressedAt := now }] }

def suppressDestination (crypto : Crypto) (hashKey : Option String) (tenantId : Nat)
    (channel : ContactChannel) (destinationNormalized : String) (reason : SuppressionReason)
    (source : String) (evidence : Option String) (now : Int) : OutreachDb :=
  db.suppressHash tenantId channel
    (hashDestination crypto hashKey tenantId channel destinationNormalized) reason source evidence
    now

def suppressByHash (tenantId : Nat) (channel : ContactChannel) (hash : String)
    (outreachId : Nat) (now : Int) : OutreachDb :=
  let mine := fun x : Suppression => decide (x.tenantId = tenantId) &&
    decide (x.channel = channel) && decide (x.destinationHash = hash)
  if db.suppressions.any mine then
    { db with suppressions := db.suppressions.map fun x =>
        if mine x then { x with liftedAt := none, liftReason := none } else x }
  else
    { db with suppressions := db.suppressions ++ [{
        id := db.suppressions.length + 1
        tenantId
        channel
        destinationHash := hash
        reason := .optOutReply
        source := "email_unsubscribe"
        evidence := some ("outreach:" ++ toString outreachId)
        suppressedAt := now }] }

def liftSuppression (tenantId id : Nat) (reason : String) (now : Int) : OutreachDb :=
  { db with suppressions := db.suppressions.map fun x =>
      if x.id = id ∧ x.tenantId = tenantId ∧ x.liftedAt = none then
        { x with
          liftedAt := some now
          liftReason := some (String.ofList (reason.toList.take 500)) }
      else x }

/-- A re-subscription by text lifts the blocks that a reply made. -/
def liftReplySuppression (tenantId : Nat) (hashes : List String) (now : Int) : OutreachDb :=
  { db with suppressions := db.suppressions.map fun x =>
      if x.blocks tenantId .sms hashes ∧ x.reason = .optOutReply then
        { x with
          liftedAt := some now
          liftReason := some "The customer replied START" }
      else x }

end OutreachDb

end HomefrontFiber.Outreach
