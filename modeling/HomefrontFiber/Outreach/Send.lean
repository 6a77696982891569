import HomefrontFiber.Outreach.Store

/-!
# The send path

A send runs up to the call of the provider in one piece: it reads the tables, passes the gate and
writes a queued row. Then it waits, and other sends run; when the provider answers, the row becomes
sent or failed. `calls` keeps the sends that passed the gate, also the answered ones, with the
instants at which they began and at which the provider took the message.
-/

namespace HomefrontFiber.Outreach

structure UnsubscribeToken where
  tenantId : Nat
  outreachId : Nat
  signature : String

/-- The process: its hashes, the signature of its unsubscribe secret, its public address and the
caps of the organizations. -/
structure Env where
  crypto : Crypto
  sign : Option (Nat → Nat → String)
  publicBaseUrl : Option String
  encodeToken : UnsubscribeToken → String
  caps : Nat → MessagingCaps

def Env.unsubscribeToken (env : Env) (tenantId outreachId : Nat) : Option UnsubscribeToken :=
  env.sign.map fun sign => { tenantId, outreachId, signature := sign tenantId outreachId }

/-- The token of `unsubscribeUrl`, which needs an address to be built on. -/
def Env.unsubscribeLink (env : Env) (tenantId outreachId : Nat) : Option UnsubscribeToken :=
  env.publicBaseUrl.bind fun _ => env.unsubscribeToken tenantId outreachId

def Env.unsubscribeUrl (env : Env) (link : UnsubscribeToken) : String :=
  env.publicBaseUrl.getD "" ++ "/api/order-recovery/unsubscribe?token=" ++ env.encodeToken link

def Env.verifyUnsubscribeToken (env : Env) (token : UnsubscribeToken) : Bool :=
  env.sign.any fun sign => decide (token.signature = sign token.tenantId token.outreachId)

inductive BodyPart where
  | words (text : String)
  | unsubscribeLink

structure Rendered where
  ok : Bool
  text : String
  links : List UnsubscribeToken

/-- Fill in the unsubscribe link with the one that `templateValues` has, for no outreach row yet. -/
def renderTemplate (env : Env) (tenantId : Nat) : List BodyPart → Rendered
  | [] => { ok := true, text := "", links := [] }
  | .words text :: rest =>
    let r := renderTemplate env tenantId rest
    { r with text := text ++ r.text }
  | .unsubscribeLink :: rest =>
    let r := renderTemplate env tenantId rest
    match env.unsubscribeLink tenantId 0 with
    | some link => { r with text := env.unsubscribeUrl link ++ r.text, links := link :: r.links }
    | none => { r with ok := false, text := "\x7b\x7bunsubscribe_link\x7d\x7d" ++ r.text }

structure OutreachCall where
  outreachId : Nat
  tenantId : Nat
  caseId : Nat
  channel : ContactChannel
  destination : String
  /-- The unsubscribe links in the body and in the List-Unsubscribe header. -/
  bodyLinks : List UnsubscribeToken
  headerLink : Option UnsubscribeToken
  startedAt : Int
  acceptedAt : Option Int := none
  answered : Bool := false

structure System where
  db : OutreachDb
  hashKey : Option String
  now : Int
  calls : List OutreachCall

structure SendCall where
  tenantId : Nat
  caseId : Nat
  channel : ContactChannel
  purpose : MessagePurpose
  /-- Whether the case, its order and the active template exist. -/
  contextFound : Bool
  automated : Bool
  automatedSequencesEnabled : Bool
  recoveryMessagingEnabled : Bool
  template : List BodyPart
  templateApproved : Bool
  subjectOk : Bool
  destination : Option String
  messagingApproved : Bool
  consentPolicyConfigured : Bool
  identityResolved : Bool
  doNotKnock : Bool
  consentStatus : ConsentStatus
  consentBasis : Option ConsentBasis
  senderConfigured : Bool
  companyMailingAddress : Option String
  recipientLocalHour : Option Nat
  quietHours : QuietHours

namespace System

variable (env : Env) (s : System)

def hash (tenantId : Nat) (channel : ContactChannel) (destination : String) : String :=
  hashDestination env.crypto s.hashKey tenantId channel destination

def candidates (tenantId : Nat) (channel : ContactChannel) (destination : String) :
    List String :=
  destinationHashCandidates env.crypto s.hashKey tenantId channel destination

def recipientHash (c : SendCall) : Option String :=
  c.destination.map (s.hash env c.tenantId c.channel)

def counters (c : SendCall) : OutreachCounters :=
  s.db.outreachCounters c.tenantId c.caseId (s.recipientHash env c) s.now

def suppressed (c : SendCall) : Bool :=
  match c.destination with
  | some destination =>
    s.db.isSuppressed c.tenantId c.channel (s.candidates env c.tenantId c.channel destination)
  | none => false

/-- What `evaluateGate` hands to the gate. -/
def gateInput (c : SendCall) (body : String) (renderOk : Bool) : ContactGateInput where
  channel := c.channel
  purpose := c.purpose
  featureEnabled := c.recoveryMessagingEnabled
  organizationApproved := c.messagingApproved && c.consentPolicyConfigured
  identityResolved := c.identityResolved
  destination := c.destination
  suppressed := s.suppressed env c
  doNotContact := c.doNotKnock
  consentStatus := c.consentStatus
  consentBasis := c.consentBasis
  templateApproved := c.templateApproved && renderOk
  senderConfigured := c.senderConfigured
  bodyHasOptOutLanguage := bodyCarriesOptOut body
  bodyHasUnsubscribe := includes body "/unsubscribe"
  bodyHasPostalAddress := c.companyMailingAddress.any fun address => decide (address ≠ "") &&
    decide (trim (address.toList.takeWhile (· ≠ '\n')) <:+: body.toList)
  recipientLocalHour := c.recipientLocalHour
  quietHours := c.quietHours
  counters := s.counters env c
  caps := env.caps c.tenantId

def recordBlocked (c : SendCall) (body : String) (recipientHash : Option String)
    (reasons : List ContactBlockReason) : System :=
  { s with db := s.db.insertOutreach {
      tenantId := c.tenantId
      caseId := c.caseId
      channel := c.channel
      body
      recipientHash
      purpose := .transactionalServiceUpdate
      status := .blocked
      blockedReasons := reasons } }

def call (c : SendCall) (destination : String) (links : List UnsubscribeToken) : OutreachCall where
  outreachId := s.db.nextOutreachId
  tenantId := c.tenantId
  caseId := c.caseId
  channel := c.channel
  destination
  bodyLinks := links
  headerLink := match c.channel with
    | .sms => none
    | .email => env.unsubscribeLink c.tenantId s.db.nextOutreachId
  startedAt := s.now

def queue (c : SendCall) (destination : String) (rendered : Rendered) : System :=
  { s with
    db := s.db.insertOutreach {
      tenantId := c.tenantId
      caseId := c.caseId
      channel := c.channel
      body := rendered.text
      recipientHash := s.recipientHash env c
      purpose := c.purpose
      status := .queued
      blockedReasons := [] }
    calls := s.calls ++ [s.call env c destination rendered.links] }

def Passes (c : SendCall) : Prop :=
  c.contextFound = true ∧
  ¬(c.automated && (!c.automatedSequencesEnabled || !c.recoveryMessagingEnabled)) = true ∧
  ((renderTemplate env c.tenantId c.template).ok && c.subjectOk) = true ∧
  evaluateContactGate (s.gateInput env c (renderTemplate env c.tenantId c.template).text true) = []

instance (c : SendCall) : Decidable (s.Passes env c) :=
  inferInstanceAs (Decidable (_ ∧ _ ∧ _ ∧ _))

def sendOutreach (c : SendCall) : System :=
  let rendered := renderTemplate env c.tenantId c.template
  if !c.contextFound then s
  else if c.automated && (!c.automatedSequencesEnabled || !c.recoveryMessagingEnabled) then
    s.recordBlocked c "" none [.featureDisabled]
  else if !(rendered.ok && c.subjectOk) then
    s.recordBlocked c rendered.text (s.recipientHash env c) [.templateNotApproved]
  else
    let blockedBy := evaluateContactGate (s.gateInput env c rendered.text true)
    match c.destination with
    | some destination =>
      if blockedBy = [] then s.queue env c destination rendered
      else s.recordBlocked c rendered.text (s.recipientHash env c) blockedBy
    | none => s.recordBlocked c rendered.text (s.recipientHash env c) blockedBy

def updateCall (id : Nat) (f : OutreachCall → OutreachCall) : List OutreachCall :=
  s.calls.map fun c => if c.outreachId = id then f c else c

def inFlight (id : Nat) : Option OutreachCall :=
  s.calls.find? fun c => decide (c.outreachId = id) && !c.answered

def accept (id : Nat) : System :=
  match s.inFlight id with
  | none => s
  | some c =>
    if c.acceptedAt.isSome then s
    else { s with calls := s.updateCall id fun c => { c with acceptedAt := some s.now } }

/-- The provider answers: with its id for a message that it took, else with an error. A second row
with the id is refused by the table, and the send ends there with its row still queued. -/
def answer (id : Nat) (providerMessageId : String) (safeError : String) : System :=
  match s.inFlight id with
  | none => s
  | some c =>
    { s with
      db := if c.acceptedAt.isSome then (s.db.markOutreachSent id providerMessageId s.now).getD s.db
        else s.db.markOutreachFailed id safeError s.now
      calls := s.updateCall id fun c => { c with answered := true } }

end System

inductive Traffic where
  | tick (ms : Nat)
  | send (c : SendCall)
  | accept (outreachId : Nat)
  | answer (outreachId : Nat) (providerMessageId safeError : String)
  | delivered (tenantId : Nat) (providerMessageId : String)

def System.traffic (env : Env) (s : System) : Traffic → System
  | .tick ms => { s with now := s.now + ms }
  | .send c => s.sendOutreach env c
  | .accept id => s.accept id
  | .answer id providerMessageId safeError => s.answer id providerMessageId safeError
  | .delivered tenantId providerMessageId =>
    { s with db := s.db.markOutreachDelivered tenantId providerMessageId s.now }

/-- A send queues a message when it passes, else it leaves the calls alone and adds at most a
blocked row. -/
theorem System.sendOutreach_cases (env : Env) (s : System) (c : SendCall) :
    (s.Passes env c ∧ ∃ destination, c.destination = some destination ∧
      s.sendOutreach env c =
        s.queue env c destination (renderTemplate env c.tenantId c.template)) ∨
    (¬s.Passes env c ∧ (s.sendOutreach env c = s ∨
      ∃ body hash reasons, s.sendOutreach env c = s.recordBlocked c body hash reasons)) := by
  let rendered := renderTemplate env c.tenantId c.template
  let blockedBy := evaluateContactGate (s.gateInput env c rendered.text true)
  by_cases hfound : c.contextFound = true
  · by_cases hautomated :
        (c.automated && (!c.automatedSequencesEnabled || !c.recoveryMessagingEnabled)) = true
    · have hblocked : s.sendOutreach env c = s.recordBlocked c "" none [.featureDisabled] := by
        unfold sendOutreach
        rw [hfound, if_neg (by decide), if_pos hautomated]
      exact .inr ⟨fun h => h.2.1 hautomated, .inr ⟨_, _, _, hblocked⟩⟩
    by_cases hrendered : (rendered.ok && c.subjectOk) = true
    · cases hdest : c.destination with
      | none =>
        have hblocked : s.sendOutreach env c =
            s.recordBlocked c rendered.text (s.recipientHash env c) blockedBy := by
          unfold sendOutreach
          rw [hfound, if_neg (by decide), if_neg hautomated, hrendered, if_neg (by decide), hdest]
        refine .inr ⟨fun h => ?_, .inr ⟨_, _, _, hblocked⟩⟩
        have hsome : c.destination.isSome = true := (admitted_of_allowed h.2.2.2).destination
        rw [hdest] at hsome
        cases hsome
      | some destination =>
        by_cases hgate : blockedBy = []
        · have hqueued : s.sendOutreach env c = s.queue env c destination rendered := by
            unfold sendOutreach
            rw [hfound, if_neg (by decide), if_neg hautomated, hrendered, if_neg (by decide),
              hdest]
            exact if_pos hgate
          exact .inl ⟨⟨hfound, hautomated, hrendered, hgate⟩, destination, rfl, hqueued⟩
        · have hblocked : s.sendOutreach env c =
              s.recordBlocked c rendered.text (s.recipientHash env c) blockedBy := by
            unfold sendOutreach
            rw [hfound, if_neg (by decide), if_neg hautomated, hrendered, if_neg (by decide),
              hdest]
            exact if_neg hgate
          exact .inr ⟨fun h => hgate h.2.2.2, .inr ⟨_, _, _, hblocked⟩⟩
    · have hblocked : s.sendOutreach env c =
          s.recordBlocked c rendered.text (s.recipientHash env c) [.templateNotApproved] := by
        unfold sendOutreach
        rw [hfound, if_neg (by decide), if_neg hautomated, Bool.eq_false_iff.mpr hrendered,
          if_pos (by decide)]
      exact .inr ⟨fun h => hrendered h.2.2.1, .inr ⟨_, _, _, hblocked⟩⟩
  · have hmissing : s.sendOutreach env c = s := by
      unfold sendOutreach
      rw [Bool.eq_false_iff.mpr hfound, if_pos (by decide)]
    exact .inr ⟨fun h => hfound h.1, .inl hmissing⟩

end HomefrontFiber.Outreach
