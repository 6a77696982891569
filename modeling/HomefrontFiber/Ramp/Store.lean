import Mathlib.Data.List.Dedup
import HomefrontFiber.Momentum.Rules
import HomefrontFiber.Foundation.Runs
import HomefrontFiber.Foundation.Table
import HomefrontFiber.Workweek

/-!
# The rules of the ramp bonus

A new hire is paid for a training day inside the first days of tenure, and once for finishing the
curriculum. `rampCeilingCentsPerHire` is what an organisation is told that a new hire can cost.
-/

namespace HomefrontFiber.Ramp

def usd (c : Int) : String := Momentum.usd c

structure RampBonusConfig where
  enabled : Bool := true
  windowDays : Int := 14
  rewardCents : Int := 5000
  minCardsPerDay : Int := 10
  minLessonsPerDay : Int := 1
  minSpanMinutes : Int := 5
  requireQueueCleared : Bool := true
  completionRewardCents : Int := 5000
  completionEnabled : Bool := true
  completionInWindowBonusCents : Int := 5000

structure RampDayInput where
  tenureDay : Int
  distinctCardsToday : Int
  lessonsCompletedToday : Int
  dueRemaining : Int
  spanMinutes : Int

inductive RampBlock where
  | disabled | notANewHire | noWork | tooFewCards | queueOpen | tooFast

structure RampDecision where
  qualifies : Bool
  awardCents : Int
  blockedBy : Option RampBlock
  inWindow : Bool
  daysLeft : Int
  reason : String
  headline : String

def plural (n : Int) : String := if n = 1 then "" else "s"

def isRampRep (tenureDay : Int) (cfg : RampBonusConfig) : Bool :=
  cfg.enabled && 1 ≤ tenureDay && tenureDay ≤ max 0 cfg.windowDays

def daysLeft (day : Int) (cfg : RampBonusConfig) : Int :=
  if isRampRep day cfg then max 0 cfg.windowDays - day + 1 else 0

/-- The first rule that a training day fails, with what the rep reads. -/
def RampDayInput.block (input : RampDayInput) (cfg : RampBonusConfig) :
    Option (RampBlock × String) :=
  let reward := max 0 cfg.rewardCents
  let left := daysLeft input.tenureDay cfg
  let cards := max 0 input.distinctCardsToday
  let lessons := max 0 input.lessonsCompletedToday
  let due := max 0 input.dueRemaining
  let minCards := max 0 cfg.minCardsPerDay
  let short := max 0 (minCards - cards)
  if !cfg.enabled || reward ≤ 0 then some (.disabled, "")
  else if !isRampRep input.tenureDay cfg then some (.notANewHire, "")
  else if cards = 0 && lessons = 0 then
    some (.noWork, s!"Do today's cards for {usd reward} - {left} day{plural left}" ++
      " of the ramp bonus left")
  else if cards < minCards && lessons < max 1 cfg.minLessonsPerDay then
    some (.tooFewCards, s!"{short} more card{plural short} today for {usd reward}")
  else if cfg.requireQueueCleared && 0 < due then
    some (.queueOpen, s!"{due} card{plural due} still due - clear them for {usd reward}")
  else if minCards ≤ cards && max 0 input.spanMinutes < max 0 cfg.minSpanMinutes then
    some (.tooFast, "Those went by too fast to count as a drill. Work them properly and it pays.")
  else none

def evaluateRampDay (input : RampDayInput) (cfg : RampBonusConfig) : RampDecision :=
  let blocked := input.block cfg
  let reward := max 0 cfg.rewardCents
  { qualifies := blocked.isNone
    awardCents := if blocked.isNone then reward else 0
    blockedBy := blocked.map Prod.fst
    inWindow := isRampRep input.tenureDay cfg
    daysLeft := daysLeft input.tenureDay cfg
    reason := s!"Training day {max 1 input.tenureDay} of {max 0 cfg.windowDays}"
    headline := blocked.elim s!"Training done - {usd reward} earned today" Prod.snd }

structure TrainingCompletionInput where
  lessonsCompleted : Int
  lessonsTotal : Int
  tenureDay : Int

structure CompletionDecision where
  qualifies : Bool
  awardCents : Int
  baseCents : Int
  kickerCents : Int
  inWindow : Bool
  lessonsRemaining : Int
  reason : String
  headline : String

def kickerCents (tenureDay : Int) (cfg : RampBonusConfig) : Int :=
  if isRampRep tenureDay cfg then max 0 cfg.completionInWindowBonusCents else 0

def TrainingCompletionInput.unpaid (input : TrainingCompletionInput) (cfg : RampBonusConfig) :
    Option String :=
  let total := max 0 input.lessonsTotal
  let done := max 0 input.lessonsCompleted
  let remaining := max 0 (total - done)
  let award := max 0 cfg.completionRewardCents + kickerCents input.tenureDay cfg
  if !cfg.completionEnabled || award ≤ 0 then some ""
  else if total ≤ 0 then some ""
  else if done < total then
    some s!"{remaining} lesson{plural remaining} left to finish training - {usd award}"
  else none

def evaluateTrainingCompletion (input : TrainingCompletionInput) (cfg : RampBonusConfig) :
    CompletionDecision :=
  let unpaid := input.unpaid cfg
  let base := max 0 cfg.completionRewardCents
  let kicker := kickerCents input.tenureDay cfg
  { qualifies := unpaid.isNone
    awardCents := if unpaid.isNone then base + kicker else 0
    baseCents := base
    kickerCents := kicker
    inWindow := isRampRep input.tenureDay cfg
    lessonsRemaining := if unpaid.isNone then 0
      else max 0 (max 0 input.lessonsTotal - max 0 input.lessonsCompleted)
    reason := if unpaid.isNone then
        if 0 < kicker then "Finished training inside the ramp window" else "Finished training"
      else "Training complete"
    headline := unpaid.getD s!"Training finished - {usd (base + kicker)} earned" }

def awardError (label : String) (value : Int) : Option String :=
  if value < 0 then some s!"The {label} must be a whole number of cents, zero or above."
  else if 100000 < value then some s!"The {label} cannot pay more than $1,000."
  else none

/-- The message that a configuration is refused with, and `none` when it is valid. -/
def validateRampConfig (c : RampBonusConfig) : Option String :=
  if c.windowDays < 1 ∨ 180 < c.windowDays then
    some "The ramp window must be between 1 and 180 days."
  else if c.rewardCents < 1 then
    some "The bonus must be a whole number of cents above zero."
  else if 100000 < c.rewardCents then some "A daily bonus cannot pay more than $1,000."
  else if c.minCardsPerDay < 1 ∨ 200 < c.minCardsPerDay then
    some "A day's cards must be between 1 and 200."
  else if c.minLessonsPerDay < 1 ∨ 20 < c.minLessonsPerDay then
    some "A day's lessons must be between 1 and 20."
  else if c.minSpanMinutes < 0 ∨ 480 < c.minSpanMinutes then
    some "The minimum drill span must be between 0 minutes and 8 hours."
  else (awardError "completion award" c.completionRewardCents).or <|
    (awardError "in-window kicker" c.completionInWindowBonusCents).or <|
    if c.completionEnabled ∧ c.completionRewardCents = 0 ∧ c.completionInWindowBonusCents = 0 then
      some "Set a completion award before turning the finishing bonus on."
    else none

def completionCeilingCents (cfg : RampBonusConfig) : Int :=
  if !cfg.completionEnabled then 0
  else max 0 cfg.completionRewardCents + max 0 cfg.completionInWindowBonusCents

def rampCeilingCentsPerHire (cfg : RampBonusConfig) : Int :=
  max 0 cfg.rewardCents * max 0 cfg.windowDays + completionCeilingCents cfg

variable {cfg : RampBonusConfig}

theorem block_of_not_ramp {input : RampDayInput} (h : isRampRep input.tenureDay cfg = false) :
    (input.block cfg).isSome = true := by
  unfold RampDayInput.block
  dsimp only
  split
  · rfl
  · rw [if_pos (by rw [h]; rfl)]
    rfl

theorem evaluateRampDay_qualifies {input : RampDayInput}
    (h : (evaluateRampDay input cfg).qualifies = true) :
    isRampRep input.tenureDay cfg = true ∧
      (evaluateRampDay input cfg).awardCents = max 0 cfg.rewardCents := by
  have hnone : (input.block cfg).isNone = true := h
  constructor
  · by_contra hout
    have hsome := block_of_not_ramp ((Bool.not_eq_true _).mp hout)
    rw [Option.isSome_iff_ne_none] at hsome
    exact hsome (Option.isNone_iff_eq_none.mp hnone)
  · unfold evaluateRampDay
    dsimp only
    rw [if_pos hnone]

theorem completionCeilingCents_nonneg (cfg : RampBonusConfig) : 0 ≤ completionCeilingCents cfg := by
  unfold completionCeilingCents
  split <;> omega

theorem evaluateTrainingCompletion_le (input : TrainingCompletionInput) (cfg : RampBonusConfig) :
    (evaluateTrainingCompletion input cfg).awardCents ≤ completionCeilingCents cfg := by
  have hkicker : kickerCents input.tenureDay cfg ≤ max 0 cfg.completionInWindowBonusCents := by
    unfold kickerCents
    split <;> omega
  have hnonneg := completionCeilingCents_nonneg cfg
  unfold evaluateTrainingCompletion
  dsimp only
  cases henabled : cfg.completionEnabled with
  | false =>
    have hunpaid : input.unpaid cfg = some "" := by
      unfold TrainingCompletionInput.unpaid
      dsimp only
      rw [henabled]
      rfl
    rw [hunpaid]
    exact hnonneg
  | true =>
    split
    · unfold completionCeilingCents
      rw [henabled, if_neg (by simp)]
      omega
    · exact hnonneg

theorem isRampRep_iff {day : Int} : isRampRep day cfg = true ↔
    cfg.enabled = true ∧ 1 ≤ day ∧ day ≤ max 0 cfg.windowDays := by
  unfold isRampRep
  rw [Bool.and_eq_true, Bool.and_eq_true, decide_eq_true_eq, decide_eq_true_eq, and_assoc]

end HomefrontFiber.Ramp

/-!
## One rep's onboarding, training and ramp awards

`hireDateFor` reads the hire date from the newest activated application, else from the last
completed signature, else from the roster row of a rep without a packet. `awardRampForRep` books a
day under its local date and the curriculum under one key, and the ledger holds a key once. The
training rows belong to the call.
-/

namespace HomefrontFiber.Ramp

inductive OnboardingDocumentType where
  | independentContractor | commissionAgreement | confidentiality | fieldSafety
  deriving DecidableEq

def onboardingDocumentTypes : List OnboardingDocumentType :=
  [.independentContractor, .commissionAgreement, .confidentiality, .fieldSafety]

inductive SigningStatus where
  | creating | sent | delivered | completed (atMs : Int) | declined | voided | failed
  deriving DecidableEq

namespace SigningStatus

def completedAt : SigningStatus → Option Int
  | .completed atMs => some atMs
  | _ => none

def isOpen (s : SigningStatus) : Bool := s = .creating || s = .sent || s = .delivered

/-- `sent` and `delivered`: the document may be signed, declined or voided. -/
def isIssued (s : SigningStatus) : Bool := s = .sent || s = .delivered

end SigningStatus

structure SigningDocument where
  documentType : OnboardingDocumentType
  documentVersion : String
  status : SigningStatus

structure RepApplication where
  activatedAt : Option Int

inductive RampKey where
  | day (localDay : Int)
  | complete
  deriving DecidableEq

structure Spiff where
  saleRef : RampKey
  amountCents : Int
  reason : String
  createdAtMs : Int

structure Db where
  rosterCreatedAt : Option Int
  applications : List RepApplication
  documents : List SigningDocument
  spiffs : List Spiff

def Db.empty : Db where
  rosterCreatedAt := none
  applications := []
  documents := []
  spiffs := []

inductive HireDateSource where
  | portalActivation | lastSignature | rosterCreated | notActivated

structure HireDate where
  ms : Option Int
  source : Option HireDateSource

def Db.activatedAt (db : Db) : Option Int :=
  (db.applications.filterMap RepApplication.activatedAt).getLast?

def Db.lastSignature (db : Db) : Option Int :=
  (db.documents.filterMap fun d => d.status.completedAt).max?

def hireDateFor (db : Db) : HireDate :=
  match db.activatedAt with
  | some at_ => ⟨some at_, some .portalActivation⟩
  | none =>
    match db.lastSignature with
    | some at_ => ⟨some at_, some .lastSignature⟩
    | none =>
      if db.applications ≠ [] ∨ db.documents ≠ [] then ⟨none, some .notActivated⟩
      else
        match db.rosterCreatedAt with
        | some at_ => ⟨some at_, some .rosterCreated⟩
        | none => ⟨none, none⟩

def localMidnight (z : Zone) (ms : Int) : Int := z.zonedWallToUtcMs (z.localYmd ms) 0 0

/-- The day of tenure from a hire date, counted between local midnights. -/
def tenureFrom (z : Zone) (hiredMs nowMs : Int) : Int :=
  let days := (2 * (localMidnight z nowMs - localMidnight z hiredMs) + 86400000) / 172800000
  if days < 0 then 0 else days + 1

def tenureDay (z : Zone) (db : Db) (nowMs : Int) : Int :=
  (hireDateFor db).ms.elim 0 (tenureFrom z · nowMs)

structure RawReview where
  cardId : String
  reviewedAt : Int
  createdAt : Option Int

structure LessonProgress where
  lessonId : String
  completedAt : Int

structure Training where
  reviews : List RawReview
  progress : List LessonProgress
  /-- When the cards of the deck are due, where they are scheduled. -/
  dueAt : List (Option Int)

def syncGraceMs : Int := 300000

/-- The server's clock for a live submission, the device's for one that sat in the outbox. -/
def RawReview.trustedMs (r : RawReview) : Int :=
  match r.createdAt with
  | some serverMs => if serverMs - r.reviewedAt ≤ syncGraceMs then serverMs else r.reviewedAt
  | none => r.reviewedAt

def distinctCards (rows : List RawReview) : Int :=
  ((rows.map RawReview.cardId).filter (· ≠ "")).dedup.length

def spanMinutes (rows : List RawReview) : Int :=
  let times := rows.map RawReview.trustedMs
  match times.max?, times.min? with
  | some last, some first => (last - first) / 60000
  | _, _ => 0

def inLocalDay (z : Zone) (nowMs ms : Int) : Bool :=
  localMidnight z nowMs ≤ ms && ms < localMidnight z nowMs + 86400000

def Training.reviewsToday (t : Training) (z : Zone) (nowMs : Int) : List RawReview :=
  t.reviews.filter fun r => inLocalDay z nowMs r.reviewedAt

def Training.lessonsCompletedToday (t : Training) (z : Zone) (nowMs : Int) : Int :=
  t.progress.countP fun p => inLocalDay z nowMs p.completedAt

def Training.lessonsCompletedTotal (t : Training) : Int :=
  (t.progress.map LessonProgress.lessonId).dedup.length

def Training.dueRemaining (t : Training) (nowMs : Int) : Int :=
  t.dueAt.countP fun due => due.any (· ≤ nowMs)

/-- What a call knows apart from the store: the zone of the organisation, its settings and the
number of lessons in the curriculum. -/
structure Program where
  zone : Zone
  cfg : RampBonusConfig
  lessonsTotal : Nat

variable (p : Program)

def rampDecision (db : Db) (t : Training) (nowMs : Int) : RampDecision :=
  evaluateRampDay
    { tenureDay := tenureDay p.zone db nowMs
      distinctCardsToday := distinctCards (t.reviewsToday p.zone nowMs)
      lessonsCompletedToday := t.lessonsCompletedToday p.zone nowMs
      dueRemaining := t.dueRemaining nowMs
      spanMinutes := spanMinutes (t.reviewsToday p.zone nowMs) } p.cfg

def completionDecision (db : Db) (t : Training) (nowMs : Int) : CompletionDecision :=
  evaluateTrainingCompletion
    { lessonsCompleted := t.lessonsCompletedTotal
      lessonsTotal := p.lessonsTotal
      tenureDay := tenureDay p.zone db nowMs } p.cfg

def Db.book (db : Db) (row : Spiff) : Db :=
  if db.spiffs.any (·.saleRef = row.saleRef) then db
  else { db with spiffs := db.spiffs ++ [row] }

def awardRampForRep (db : Db) (t : Training) (nowMs : Int) : Db :=
  let decision := rampDecision p db t nowMs
  let completion := completionDecision p db t nowMs
  let booked := if p.cfg.enabled && decision.qualifies then
      db.book
        { saleRef := .day (p.zone.localYmd nowMs), amountCents := decision.awardCents
          reason := decision.reason, createdAtMs := nowMs }
    else db
  if completion.qualifies then
    booked.book
      { saleRef := .complete, amountCents := completion.awardCents, reason := completion.reason
        createdAtMs := nowMs }
  else booked

/-- A document that is open, or signed in its present version, is not issued again. -/
def Db.reserveSigningDocument (db : Db) (documentType : OnboardingDocumentType)
    (documentVersion : String) : Db :=
  if db.documents.any fun d => d.documentType = documentType &&
      (d.status.isOpen || d.status.completedAt.isSome && d.documentVersion = documentVersion) then db
  else { db with documents := db.documents ++ [⟨documentType, documentVersion, .creating⟩] }

def Db.moveDocument (db : Db) (i : Nat) (allowed : SigningStatus → Bool) (status : SigningStatus) :
    Db :=
  { db with documents := db.documents.modify i fun d =>
      if allowed d.status then { d with status } else d }

def Db.fullySigned (db : Db) : Bool :=
  onboardingDocumentTypes.all fun type =>
    db.documents.any fun d => d.documentType = type && d.status.completedAt.isSome

def activateNewest (atMs : Int) : List RepApplication → List RepApplication
  | [] => []
  | [a] => [{ activatedAt := a.activatedAt.or (some atMs) }]
  | a :: rest => a :: activateNewest atMs rest

def Db.syncRepActivation (db : Db) (atMs : Int) : Db :=
  if db.fullySigned then { db with applications := activateNewest atMs db.applications } else db

inductive Action where
  | createRosterRow (atMs : Int)
  | linkApplication
  | reserveSigningDocument (documentType : OnboardingDocumentType) (documentVersion : String)
  | markDocumentSent (i : Nat)
  | markDocumentFailed (i : Nat)
  | markDocumentViewed (i : Nat)
  | completeSigning (i : Nat) (atMs : Int)
  | declineSigning (i : Nat)
  | voidSigningDocument (i : Nat)
  | syncRepActivation (atMs : Int)
  | awardRampForRep (t : Training) (nowMs : Int)

def step (db : Db) : Action → Db
  | .createRosterRow atMs => { db with rosterCreatedAt := db.rosterCreatedAt.or (some atMs) }
  | .linkApplication => { db with applications := db.applications ++ [⟨none⟩] }
  | .reserveSigningDocument documentType documentVersion =>
    db.reserveSigningDocument documentType documentVersion
  | .markDocumentSent i => db.moveDocument i (· = .creating) .sent
  | .markDocumentFailed i => db.moveDocument i (· = .creating) .failed
  | .markDocumentViewed i => db.moveDocument i (· = .sent) .delivered
  | .completeSigning i atMs => db.moveDocument i SigningStatus.isIssued (.completed atMs)
  | .declineSigning i => db.moveDocument i SigningStatus.isIssued .declined
  | .voidSigningDocument i => db.moveDocument i SigningStatus.isIssued .voided
  | .syncRepActivation atMs => db.syncRepActivation atMs
  | .awardRampForRep t nowMs => Ramp.awardRampForRep p db t nowMs

end HomefrontFiber.Ramp
