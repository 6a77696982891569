import Mathlib.Data.List.Dedup
import HomefrontFiber.Workweek
import HomefrontFiber.Foundation.Runs

/-!
# The rules of a spiff campaign

A campaign pays a flat reward for a trigger. `evaluateCampaign` decides over the counters of a rep
whether it pays, and `campaignProgress` is the card that the rep sees. Both read one trigger.
Percentages are exact.
-/

namespace HomefrontFiber.Campaigns

inductive CampaignTrigger where
  | perSale
  | knocksByTime (knocks byHourLocal : Int)
  | saleByTime (byHourLocal : Int)
  | salesInDay (sales : Int)
  | knockStreak (days knocksPerDay : Int)
  | knocksAndSaleByTime (knocks byHourLocal : Int)
  deriving DecidableEq

inductive CampaignStatus where
  | scheduled | live | paused | ended | cancelled
  deriving DecidableEq

structure SpiffCampaign where
  id : Nat
  tenantId : Int
  name : String
  startsAtMs : Int
  endsAtMs : Int
  trigger : CampaignTrigger
  rewardCents : Int
  eligibleRepIds : Option (List Int) := none
  perRepCapCents : Int := 0
  campaignCapCents : Int := 0
  status : CampaignStatus := .live
  deriving DecidableEq

structure RepWindowCounters where
  repId : Int
  knocksBeforeCutoffToday : Int := 0
  salesInWindow : Int := 0
  salesToday : Int := 0
  firstSaleHourLocalToday : Option Int := none
  streakDaysMeetingBar : Int := 0
  awardedToRepCents : Int := 0
  awardedTotalCents : Int := 0

inductive CampaignSkip where
  | notLive | windowClosed | notEligible | triggerUnmet | repCapReached | campaignCapReached

def cents (n : Int) : Int := max 0 n

def isCampaignLive (c : SpiffCampaign) (nowMs : Int) : Bool :=
  c.status = .live && c.startsAtMs ≤ nowMs && nowMs < c.endsAtMs

def isRepEligible (c : SpiffCampaign) (repId : Int) : Bool :=
  c.eligibleRepIds.all (repId ∈ ·)

def saleBefore (counters : RepWindowCounters) (byHourLocal : Int) : Bool :=
  counters.firstSaleHourLocalToday.any (· < byHourLocal)

def triggerMet (trigger : CampaignTrigger) (counters : RepWindowCounters) : Bool :=
  match trigger with
  | .perSale => 0 < counters.salesInWindow
  | .knocksByTime knocks _ => max 1 knocks ≤ counters.knocksBeforeCutoffToday
  | .saleByTime byHourLocal => saleBefore counters byHourLocal
  | .salesInDay sales => max 1 sales ≤ counters.salesToday
  | .knockStreak days _ => max 1 days ≤ counters.streakDaysMeetingBar
  | .knocksAndSaleByTime knocks byHourLocal =>
    max 1 knocks ≤ counters.knocksBeforeCutoffToday && saleBefore counters byHourLocal

def hour12 (hour24 : Int) : String :=
  let h := hour24 % 24
  if h = 0 then "12 AM"
  else if h = 12 then "12 PM"
  else if h < 12 then s!"{h} AM"
  else s!"{h - 12} PM"

def plural (n : Int) : String := if n = 1 then "" else "s"

structure CampaignProgress where
  current : Int
  target : Int
  pct : Int
  met : Bool
  msRemaining : Int
  headline : String
  nextStep : String

def campaignProgress (c : SpiffCampaign) (counters : RepWindowCounters) (nowMs : Int) :
    CampaignProgress :=
  let met := triggerMet c.trigger counters
  let card (current target : Int) (headline nextStep : String) : CampaignProgress :=
    { current, target, met, headline, nextStep
      pct := if target ≤ 0 then 0
        else max 0 (min 100 ((current * 200 + target) / (2 * target)))
      msRemaining := max 0 (c.endsAtMs - nowMs) }
  match c.trigger with
  | .perSale =>
    let n := counters.salesInWindow
    card n (max 1 (n + 1))
      (if 0 < n then s!"{n} sale{plural n} in this campaign" else "Every sale pays extra")
      "Every sale while this runs pays the bonus."
  | .knocksByTime knocks byHourLocal =>
    let n := counters.knocksBeforeCutoffToday
    let target := max 1 knocks
    let left := max 0 (target - n)
    card n target
      (if met then s!"{target} knocks in - bonus earned"
        else s!"{n} of {target} knocks before {hour12 byHourLocal}")
      (if met then "" else s!"{left} more knock{plural left} before {hour12 byHourLocal}.")
  | .saleByTime byHourLocal =>
    card (if counters.firstSaleHourLocalToday.isSome then 1 else 0) 1
      (if met then s!"First sale in before {hour12 byHourLocal}"
        else s!"Sell before {hour12 byHourLocal}")
      (if met then "" else s!"Your first sale before {hour12 byHourLocal} earns it.")
  | .salesInDay sales =>
    let n := counters.salesToday
    let target := max 1 sales
    let left := max 0 (target - n)
    card n target
      (if met then s!"{n} sales today - bonus earned" else s!"{n} of {target} sales today")
      (if met then "" else s!"{left} more sale{plural left} today.")
  | .knockStreak days knocksPerDay =>
    let n := counters.streakDaysMeetingBar
    let target := max 1 days
    let left := max 0 (target - n)
    card n target
      (if met then s!"{n}-day streak - bonus earned" else s!"Day {n} of {target}")
      (if met then "" else s!"{left} more day{plural left} at {knocksPerDay}+ knocks.")
  | .knocksAndSaleByTime knocks byHourLocal =>
    let n := counters.knocksBeforeCutoffToday
    let doorsTarget := max 1 knocks
    let by_ := hour12 byHourLocal
    let left := max 0 (doorsTarget - n)
    if met then card 2 2 s!"{doorsTarget} doors and a sale before {by_} - bonus earned" ""
    else if doorsTarget ≤ n then
      card 1 2 s!"Doors done - one sale before {by_} takes it" s!"Close one before {by_}."
    else
      card n doorsTarget s!"{n} of {doorsTarget} doors before {by_}"
        (if saleBefore counters byHourLocal then
          s!"Sale's in - {left} more door{plural left} before {by_}."
        else s!"{left} more door{plural left} and a sale before {by_}.")

def awardReason (c : SpiffCampaign) : String :=
  match c.trigger with
  | .perSale => s!"{c.name} - sale bonus"
  | .knocksByTime knocks byHourLocal =>
    s!"{c.name} - {knocks} knocks before {hour12 byHourLocal}"
  | .saleByTime byHourLocal => s!"{c.name} - sale before {hour12 byHourLocal}"
  | .salesInDay sales => s!"{c.name} - {sales} sales in a day"
  | .knockStreak days _ => s!"{c.name} - {days}-day knock streak"
  | .knocksAndSaleByTime _ _ => c.name

structure CampaignAward where
  campaignId : Nat
  repId : Int
  amountCents : Int
  reason : String

/-- What is left under a cap, if the cap is not zero. -/
def room (capCents awardedCents : Int) : Option Int :=
  if 0 < cents capCents then some (cents capCents - cents awardedCents) else none

def trimTo (amount : Int) (left : Option Int) : Int := left.elim amount (min amount)

/-- `evaluateCampaign`. Caps trim an award that does not fit. -/
def evaluateCampaign (c : SpiffCampaign) (counters : RepWindowCounters) (nowMs : Int) :
    Except CampaignSkip CampaignAward :=
  if c.status ≠ .live then
    .error (if c.status = .ended || c.status = .cancelled then .windowClosed else .notLive)
  else if nowMs < c.startsAtMs || c.endsAtMs ≤ nowMs then .error .windowClosed
  else if !isRepEligible c counters.repId then .error .notEligible
  else if !triggerMet c.trigger counters then .error .triggerUnmet
  else if cents c.rewardCents ≤ 0 then .error .triggerUnmet
  else
    let repRoom := room c.perRepCapCents counters.awardedToRepCents
    let campaignRoom := room c.campaignCapCents counters.awardedTotalCents
    if repRoom.any (· ≤ 0) then .error .repCapReached
    else if campaignRoom.any (· ≤ 0) then .error .campaignCapReached
    else .ok ⟨c.id, counters.repId,
      trimTo (trimTo (cents c.rewardCents) repRoom) campaignRoom, awardReason c⟩

structure CampaignInput where
  name : Text
  rewardCents : Int
  startsAtMs : Int
  endsAtMs : Int
  trigger : CampaignTrigger
  perRepCapCents : Option Int := none
  campaignCapCents : Option Int := none

def hourError (byHourLocal : Int) : Option String :=
  if byHourLocal < 1 || 23 < byHourLocal then some "Cutoff hour must be between 1 and 23." else none

def triggerError : CampaignTrigger → Option String
  | .knocksByTime knocks byHourLocal =>
    if knocks < 1 || 500 < knocks then some "Knock target must be between 1 and 500."
    else hourError byHourLocal
  | .saleByTime byHourLocal => hourError byHourLocal
  | .salesInDay sales =>
    if sales < 1 || 50 < sales then some "Sales target must be between 1 and 50." else none
  | .knockStreak days knocksPerDay =>
    if days < 2 || 30 < days then some "Streak length must be between 2 and 30 days."
    else if knocksPerDay < 1 || 500 < knocksPerDay then
      some "Daily knock bar must be between 1 and 500."
    else none
  | .perSale | .knocksAndSaleByTime _ _ => none

def capError (label : String) (cap : Option Int) : Option String :=
  if cap.any (· < 0) then some s!"{label} must be a whole number of cents (0 = uncapped)." else none

def validateCampaignInput (input : CampaignInput) : Option String :=
  let name := trim input.name
  if name.length < 2 || 60 < name.length then
    some "Give the campaign a name between 2 and 60 characters."
  else if input.rewardCents ≤ 0 then
    some "The reward must be a whole number of cents above zero."
  else if 100000 < input.rewardCents then some "The reward cannot exceed $1,000 per award."
  else if input.endsAtMs ≤ input.startsAtMs then some "The campaign must end after it starts."
  else if 31 * msPerDay < input.endsAtMs - input.startsAtMs then
    some ("A campaign can run for at most 31 days - use the commission plan for anything " ++
      "longer.")
  else triggerError input.trigger <|> capError "Per-rep cap" input.perRepCapCents <|>
    capError "Campaign cap" input.campaignCapCents

end HomefrontFiber.Campaigns

/-!
## The counters and the ledger of spiff campaigns

`buildCounters` reads the knocks and sales of a rep for the fields that the trigger of a campaign
needs. `awardCampaignsForRep` evaluates the live campaigns one after the other and books each award
under a key that the ledger holds once. Instants are in milliseconds, and the time zone of an
organisation is the one of the pay week.
-/

namespace HomefrontFiber.Campaigns

def msPerHour : Int := 3600000

def localHourIn (z : Zone) (utcMs : Int) : Int := (utcMs + z.offset utcMs) % msPerDay / msPerHour

structure Knock where
  leadId : Int
  leadTenantId : Int
  repId : Int
  knockedAt : Int
  verified : Bool
  superseded : Bool := false

structure Sale where
  tenantId : Int
  repId : Int
  soldAt : Int
  qualified : Bool := true
  deriving DecidableEq

/-- The key of an award: the sale of the call for a per-sale campaign, else the local day. -/
inductive KeySuffix where
  | sale (saleRef : Text)
  | day (localDay : Int)
  deriving DecidableEq

structure AwardKey where
  campaignId : Nat
  repId : Int
  suffix : KeySuffix
  deriving DecidableEq

inductive SpiffStatus where
  | earned | approved | paid

structure Spiff where
  tenantId : Int
  campaignId : Nat
  repId : Int
  saleRef : AwardKey
  amountCents : Int
  reason : String
  status : SpiffStatus := .earned

structure Db where
  timezone : Int → Zone
  knocks : List Knock := []
  sales : List Sale := []
  campaigns : List SpiffCampaign := []
  spiffs : List Spiff := []

def mine (tenantId repId : Int) (s : Sale) : Bool :=
  s.tenantId = tenantId && s.repId = repId && s.qualified

def counted (tenantId repId : Int) (k : Knock) : Bool :=
  k.repId = repId && k.leadTenantId = tenantId && k.verified && !k.superseded

def doors (knocks : List Knock) : Int := ((knocks.map (·.leadId)).dedup.length : Nat)

def knockCount (db : Db) (tenantId repId fromMs toMs : Int) : Int :=
  doors (db.knocks.filter fun k =>
    counted tenantId repId k && fromMs ≤ k.knockedAt && k.knockedAt < toMs)

def salesIn (db : Db) (tenantId repId fromMs toMs : Int) : List Sale :=
  db.sales.filter fun s => mine tenantId repId s && fromMs ≤ s.soldAt && s.soldAt < toMs

def saleCount (db : Db) (tenantId repId fromMs toMs : Int) : Int :=
  ((salesIn db tenantId repId fromMs toMs).length : Nat)

def firstSaleMs (db : Db) (tenantId repId fromMs toMs : Int) : Option Int :=
  ((salesIn db tenantId repId fromMs toMs).map (·.soldAt)).min?

def dayStart (z : Zone) (nowMs : Int) : Int := z.zonedWallToUtcMs (z.localYmd nowMs) 0 0

/-- The consecutive days back from `back` that cleared the bar. -/
def walkBack (cleared : Int → Bool) (dayAt : Nat → Int) : Nat → Nat → Int
  | 0, _ => 0
  | fuel + 1, back => if cleared (dayAt back) then 1 + walkBack cleared dayAt fuel (back + 1) else 0

/-- `knockStreakDays`. Knocks are bucketed by the offset that today starts with. -/
def knockStreakDays (db : Db) (tenantId repId bar nowMs maxLookback : Int) : Int :=
  let z := db.timezone tenantId
  let today := z.localYmd nowMs
  let todayStartMs := z.zonedWallToUtcMs today 0 0
  let offsetMinutes := (todayStartMs - today * msPerDay + 30000) / 60000
  let fromMs := todayStartMs - (maxLookback - 1) * msPerDay
  let rows := db.knocks.filter fun k =>
    counted tenantId repId k && fromMs ≤ k.knockedAt && k.knockedAt < todayStartMs + msPerDay
  let onDay (day : Int) := rows.filter fun k => (k.knockedAt - offsetMinutes * 60000) / msPerDay = day
  walkBack (fun day => !(onDay day).isEmpty && bar ≤ doors (onDay day))
    (fun back => z.localYmd (nowMs - back * msPerDay)) maxLookback.toNat 0

def awarded (spiffs : List Spiff) (tenantId : Int) (campaignId : Nat) : Int :=
  ((spiffs.filter fun s => s.tenantId = tenantId && s.campaignId = campaignId).map
    (·.amountCents)).sum

def awardedToRep (spiffs : List Spiff) (tenantId : Int) (campaignId : Nat) (repId : Int) : Int :=
  awarded (spiffs.filter fun s => s.repId = repId) tenantId campaignId

def doorsBefore (db : Db) (tenantId repId byHourLocal nowMs : Int) : Int :=
  let z := db.timezone tenantId
  let cutoffMs := z.zonedWallToUtcMs (z.localYmd nowMs) byHourLocal 0
  knockCount db tenantId repId (dayStart z nowMs) (min cutoffMs nowMs)

def firstSaleHour (db : Db) (tenantId repId nowMs : Int) : Option Int :=
  let z := db.timezone tenantId
  (firstSaleMs db tenantId repId (dayStart z nowMs) (dayStart z nowMs + msPerDay)).map (localHourIn z)

def baseCounters (db : Db) (tenantId : Int) (c : SpiffCampaign) (repId : Int) :
    RepWindowCounters where
  repId := repId
  awardedToRepCents := awardedToRep db.spiffs tenantId c.id repId
  awardedTotalCents := awarded db.spiffs tenantId c.id

def buildCounters (db : Db) (tenantId : Int) (c : SpiffCampaign) (repId nowMs : Int) :
    RepWindowCounters :=
  let start := dayStart (db.timezone tenantId) nowMs
  let winStart := c.startsAtMs
  let winEnd := min c.endsAtMs nowMs
  let base := baseCounters db tenantId c repId
  match c.trigger with
  | .perSale =>
    { base with
      salesInWindow :=
        if winStart < winEnd then saleCount db tenantId repId winStart winEnd else 0 }
  | .knocksByTime _ byHourLocal =>
    { base with knocksBeforeCutoffToday := doorsBefore db tenantId repId byHourLocal nowMs }
  | .saleByTime _ =>
    { base with firstSaleHourLocalToday := firstSaleHour db tenantId repId nowMs }
  | .salesInDay _ =>
    { base with salesToday := saleCount db tenantId repId start (start + msPerDay) }
  | .knockStreak days knocksPerDay =>
    { base with
      streakDaysMeetingBar := knockStreakDays db tenantId repId knocksPerDay nowMs (max 1 days) }
  | .knocksAndSaleByTime _ _ => base

/-- What `expireFinishedCampaigns` makes of a campaign. -/
def refresh (nowMs : Int) (c : SpiffCampaign) : SpiffCampaign :=
  if (c.status = .live || c.status = .scheduled || c.status = .paused) && c.endsAtMs ≤ nowMs then
    { c with status := .ended }
  else if c.status = .scheduled && c.startsAtMs ≤ nowMs && nowMs < c.endsAtMs then
    { c with status := .live }
  else c

def expireFinishedCampaigns (db : Db) (tenantId nowMs : Int) : Db :=
  { db with
    campaigns := db.campaigns.map fun c => if c.tenantId = tenantId then refresh nowMs c else c }

def idempotencyKey (z : Zone) (c : SpiffCampaign) (repId nowMs : Int) (saleRef : Option Text) :
    AwardKey where
  campaignId := c.id
  repId := repId
  suffix :=
    match c.trigger, saleRef with
    | .perSale, some ref => if ref = [] then .day (z.localYmd nowMs) else .sale ref
    | _, _ => .day (z.localYmd nowMs)

def keyTaken (spiffs : List Spiff) (tenantId : Int) (key : AwardKey) : Bool :=
  spiffs.any fun s => s.tenantId = tenantId && s.saleRef = key

def awardCampaign (tenantId repId nowMs : Int) (saleRef : Option Text) (db : Db)
    (c : SpiffCampaign) : Db :=
  if c.trigger = .perSale && saleRef.all (· = []) then db
  else
    match evaluateCampaign c (buildCounters db tenantId c repId nowMs) nowMs with
    | .error _ => db
    | .ok award =>
      let key := idempotencyKey (db.timezone tenantId) c repId nowMs saleRef
      if keyTaken db.spiffs tenantId key then db
      else
        { db with
          spiffs := db.spiffs ++ [⟨tenantId, c.id, repId, key, award.amountCents, award.reason,
            .earned⟩] }

def liveCampaigns (db : Db) (tenantId nowMs : Int) : List SpiffCampaign :=
  db.campaigns.filter fun c =>
    c.tenantId = tenantId && c.status = .live && c.startsAtMs ≤ nowMs && nowMs < c.endsAtMs

def awardCampaignsForRep (db : Db) (tenantId repId nowMs : Int) (saleRef : Option Text) : Db :=
  let db := expireFinishedCampaigns db tenantId nowMs
  (liveCampaigns db tenantId nowMs).foldl (awardCampaign tenantId repId nowMs saleRef) db

/-- `createCampaign` for an input that the validation accepts. -/
def createCampaign (db : Db) (tenantId : Int) (input : CampaignInput)
    (eligibleRepIds : Option (List Int)) (nowMs : Int) : Db :=
  if (validateCampaignInput input).isSome then db
  else
    { db with
      campaigns := db.campaigns ++ [
        { id := db.campaigns.length + 1, tenantId
          name := String.ofList (trim input.name)
          startsAtMs := input.startsAtMs
          endsAtMs := input.endsAtMs
          trigger := input.trigger
          rewardCents := input.rewardCents
          eligibleRepIds := eligibleRepIds.filter (· ≠ [])
          perRepCapCents := max 0 (input.perRepCapCents.getD 0)
          campaignCapCents := max 0 (input.campaignCapCents.getD 0)
          status := if nowMs < input.startsAtMs then .scheduled else .live }] }

def setCampaignStatus (db : Db) (tenantId : Int) (id : Nat) (status : CampaignStatus)
    (nowMs : Int) : Db :=
  { db with
    campaigns := db.campaigns.map fun c =>
      if c.tenantId = tenantId && c.id = id && c.status ≠ .cancelled && c.status ≠ .ended &&
          !(status = .live && c.endsAtMs ≤ nowMs) then
        { c with status }
      else c }

inductive Action where
  | launch (tenantId : Int) (input : CampaignInput) (eligibleRepIds : Option (List Int))
      (nowMs : Int)
  | setStatus (tenantId : Int) (id : Nat) (status : CampaignStatus) (nowMs : Int)
  | field (knocks : List Knock) (sales : List Sale)
  | settle (tenantId : Int) (key : AwardKey) (status : SpiffStatus)
  | award (tenantId repId nowMs : Int) (saleRef : Option Text)

def step (db : Db) : Action → Db
  | .launch tenantId input eligibleRepIds nowMs =>
    createCampaign db tenantId input eligibleRepIds nowMs
  | .setStatus tenantId id status nowMs => setCampaignStatus db tenantId id status nowMs
  | .field knocks sales => { db with knocks, sales }
  | .settle tenantId key status =>
    { db with
      spiffs := db.spiffs.map fun s =>
        if s.tenantId = tenantId && s.saleRef = key then { s with status } else s }
  | .award tenantId repId nowMs saleRef => awardCampaignsForRep db tenantId repId nowMs saleRef

end HomefrontFiber.Campaigns
