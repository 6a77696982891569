import HomefrontFiber.Campaigns.Store
import HomefrontFiber.Foundation.Table

/-!
# What a campaign promises

The counters are built for the trigger of a campaign. `fullCounters` has every field, and sales up
to the instant of the call. The verdicts agree except where a per-sale campaign has the sale of
this very instant as its first, and where a rep has met a knocks-and-sale trigger: no counter is
built for it.
-/

variable {k : RepWindowCounters} {db : Db} {repId : Int}

namespace HomefrontFiber.Campaigns

/-- The sales of a rep in the window of a campaign, those of this instant included. -/
def salesThrough (db : Db) (c : SpiffCampaign) (repId nowMs : Int) : List Sale :=
  db.sales.filter fun s => mine c.tenantId repId s && c.startsAtMs ≤ s.soldAt &&
    s.soldAt < c.endsAtMs && s.soldAt ≤ nowMs

def cutoffHour : CampaignTrigger → Int
  | .knocksByTime _ byHourLocal | .knocksAndSaleByTime _ byHourLocal => byHourLocal
  | _ => 24

def fullCounters (db : Db) (c : SpiffCampaign) (repId nowMs : Int) : RepWindowCounters :=
  let start := dayStart (db.timezone c.tenantId) nowMs
  { baseCounters db c.tenantId c repId with
    knocksBeforeCutoffToday := doorsBefore db c.tenantId repId (cutoffHour c.trigger) nowMs
    salesInWindow := ((salesThrough db c repId nowMs).length : Nat)
    salesToday := saleCount db c.tenantId repId start (start + msPerDay)
    firstSaleHourLocalToday := firstSaleHour db c.tenantId repId nowMs
    streakDaysMeetingBar :=
      match c.trigger with
      | .knockStreak days knocksPerDay =>
        knockStreakDays db c.tenantId repId knocksPerDay nowMs (max 1 days)
      | _ => knockStreakDays db c.tenantId repId 1 nowMs 60 }

/-- The decision and the card are those of the full counters. -/
def SameVerdict (db : Db) (c : SpiffCampaign) (repId nowMs : Int) : Prop :=
  let built := buildCounters db c.tenantId c repId nowMs
  let full := fullCounters db c repId nowMs
  evaluateCampaign c built nowMs = evaluateCampaign c full nowMs ∧
    (campaignProgress c built nowMs).met = (campaignProgress c full nowMs).met

/-- The full trigger is met and the campaign is live for the rep with room under its caps. -/
structure Due (db : Db) (c : SpiffCampaign) (repId nowMs : Int) (saleRef : Option Text) :
    Prop where
  trigger : triggerMet c.trigger (fullCounters db c repId nowMs) = true
  live : isCampaignLive c nowMs = true
  eligible : isRepEligible c repId = true
  reward : 0 < c.rewardCents
  repRoom : 0 < c.perRepCapCents →
    awardedToRep db.spiffs c.tenantId c.id repId < c.perRepCapCents
  campaignRoom : 0 < c.campaignCapCents →
    awarded db.spiffs c.tenantId c.id < c.campaignCapCents
  sale : c.trigger = .perSale → saleRef.all (· = []) = false

def key (db : Db) (c : SpiffCampaign) (repId nowMs : Int) (saleRef : Option Text) : AwardKey :=
  idempotencyKey (db.timezone c.tenantId) c repId nowMs saleRef

def BooksDue (db : Db) (c : SpiffCampaign) (repId nowMs : Int) (saleRef : Option Text) : Prop :=
  keyTaken (awardCampaignsForRep db c.tenantId repId nowMs saleRef).spiffs c.tenantId
      (key db c repId nowMs saleRef) = true ↔
    keyTaken db.spiffs c.tenantId (key db c repId nowMs saleRef) = true ∨
      Due db (refresh nowMs c) repId nowMs saleRef

def PaysPromise (db : Db) (c : SpiffCampaign) (repId nowMs : Int) (saleRef : Option Text) : Prop :=
  SameVerdict db (refresh nowMs c) repId nowMs ∧ BooksDue db c repId nowMs saleRef

def SoldBefore (db : Db) (c : SpiffCampaign) (repId nowMs : Int) : Prop :=
  ∃ s ∈ db.sales, mine c.tenantId repId s = true ∧ c.startsAtMs ≤ s.soldAt ∧
    s.soldAt < c.endsAtMs ∧ s.soldAt < nowMs

def SoldNow (db : Db) (c : SpiffCampaign) (repId nowMs : Int) : Prop :=
  ∃ s ∈ db.sales, mine c.tenantId repId s = true ∧ c.startsAtMs ≤ s.soldAt ∧
    s.soldAt < c.endsAtMs ∧ s.soldAt = nowMs

/-- A per-sale campaign has an earlier sale or none of this instant, and a knocks-and-sale campaign
has too few doors or no sale before its cutoff. -/
def Kept (db : Db) (c : SpiffCampaign) (repId nowMs : Int) : Prop :=
  match c.trigger with
  | .perSale => SoldBefore db c repId nowMs ∨ ¬ SoldNow db c repId nowMs
  | .knocksAndSaleByTime knocks byHourLocal =>
    doorsBefore db c.tenantId repId byHourLocal nowMs < max 1 knocks ∨
      ∀ hour, firstSaleHour db c.tenantId repId nowMs = some hour → byHourLocal ≤ hour
  | _ => True

theorem campaignProgress_met (c : SpiffCampaign) (k : RepWindowCounters) (nowMs : Int) :
    (campaignProgress c k nowMs).met = triggerMet c.trigger k := by
  cases ht : c.trigger with
  | knocksAndSaleByTime knocks byHourLocal =>
    simp only [campaignProgress, ht]
    split
    · rfl
    · split <;> rfl
  | _ => simp only [campaignProgress, ht]

/-- Over counters of one rep with the same awards, the decision depends on the trigger alone. -/
theorem evaluateCampaign_congr {c : SpiffCampaign} {k' : RepWindowCounters} (nowMs : Int)
    (hrep : k.repId = k'.repId) (hto : k.awardedToRepCents = k'.awardedToRepCents)
    (htotal : k.awardedTotalCents = k'.awardedTotalCents)
    (hmet : triggerMet c.trigger k = triggerMet c.trigger k') :
    evaluateCampaign c k nowMs = evaluateCampaign c k' nowMs := by
  unfold evaluateCampaign
  rw [hrep, hto, htotal, hmet]

theorem buildCounters_base (db : Db) (tenantId : Int) (c : SpiffCampaign) (repId nowMs : Int) :
    (buildCounters db tenantId c repId nowMs).repId = repId ∧
      (buildCounters db tenantId c repId nowMs).awardedToRepCents =
        awardedToRep db.spiffs tenantId c.id repId ∧
      (buildCounters db tenantId c repId nowMs).awardedTotalCents =
        awarded db.spiffs tenantId c.id := by
  unfold buildCounters
  split <;> exact ⟨rfl, rfl, rfl⟩

theorem salesInWindow_pos {c : SpiffCampaign} {nowMs : Int} :
    (0 < if c.startsAtMs < min c.endsAtMs nowMs then
      saleCount db c.tenantId repId c.startsAtMs (min c.endsAtMs nowMs) else 0) ↔
      SoldBefore db c repId nowMs := by
  constructor
  · intro hpos
    split at hpos
    · unfold saleCount at hpos
      obtain ⟨s, hs⟩ := List.exists_mem_of_length_pos (Int.natCast_pos.mp hpos)
      obtain ⟨hmem, hin⟩ := List.mem_filter.mp hs
      simp only [Bool.and_eq_true, decide_eq_true_eq, lt_min_iff] at hin
      exact ⟨s, hmem, hin.1.1, hin.1.2, hin.2.1, hin.2.2⟩
    · exact absurd hpos (lt_irrefl 0)
  · rintro ⟨s, hmem, hmine, hstart, hend, hnow⟩
    have hlt : s.soldAt < min c.endsAtMs nowMs := lt_min hend hnow
    rw [if_pos (hstart.trans_lt hlt)]
    unfold saleCount
    rw [Int.natCast_pos]
    apply List.length_pos_of_mem (a := s)
    apply List.mem_filter.mpr
    refine ⟨hmem, ?_⟩
    simp only [Bool.and_eq_true, decide_eq_true_eq]
    exact ⟨⟨hmine, hstart⟩, hlt⟩

theorem salesThrough_pos {c : SpiffCampaign} {nowMs : Int} :
    0 < ((salesThrough db c repId nowMs).length : Int) ↔
      SoldBefore db c repId nowMs ∨ SoldNow db c repId nowMs := by
  rw [Int.natCast_pos, List.length_pos_iff_exists_mem]
  constructor
  · rintro ⟨s, hs⟩
    obtain ⟨hmem, hin⟩ := List.mem_filter.mp hs
    simp only [Bool.and_eq_true, decide_eq_true_eq] at hin
    obtain ⟨⟨⟨hmine, hstart⟩, hend⟩, hnow⟩ := hin
    rcases hnow.lt_or_eq with hlt | heq
    · exact .inl ⟨s, hmem, hmine, hstart, hend, hlt⟩
    · exact .inr ⟨s, hmem, hmine, hstart, hend, heq⟩
  · rintro (⟨s, hmem, hmine, hstart, hend, hnow⟩ | ⟨s, hmem, hmine, hstart, hend, hnow⟩) <;>
    · refine ⟨s, List.mem_filter.mpr ⟨hmem, ?_⟩⟩
      simp only [Bool.and_eq_true, decide_eq_true_eq]
      exact ⟨⟨⟨hmine, hstart⟩, hend⟩, hnow.le⟩

theorem saleBefore_eq_false {byHourLocal : Int} :
    saleBefore k byHourLocal = false ↔
      ∀ hour, k.firstSaleHourLocalToday = some hour → byHourLocal ≤ hour := by
  unfold saleBefore
  cases k.firstSaleHourLocalToday with
  | none => simp
  | some hour => simp

theorem triggerMet_build_iff (db : Db) (c : SpiffCampaign) (repId nowMs : Int) :
    triggerMet c.trigger (buildCounters db c.tenantId c repId nowMs) =
      triggerMet c.trigger (fullCounters db c repId nowMs) ↔ Kept db c repId nowMs := by
  unfold Kept
  cases ht : c.trigger with
  | perSale =>
    have hcount : (buildCounters db c.tenantId c repId nowMs).salesInWindow =
        if c.startsAtMs < min c.endsAtMs nowMs then
          saleCount db c.tenantId repId c.startsAtMs (min c.endsAtMs nowMs) else 0 := by
      simp only [buildCounters, ht]
    have hfull : 0 < (fullCounters db c repId nowMs).salesInWindow ↔
        SoldBefore db c repId nowMs ∨ SoldNow db c repId nowMs := salesThrough_pos
    dsimp only [triggerMet]
    rw [decide_eq_decide, hcount, salesInWindow_pos, hfull]
    constructor
    · intro h
      by_cases hb : SoldBefore db c repId nowMs
      · exact .inl hb
      · exact .inr fun hn => hb (h.mpr (.inr hn))
    · intro h
      constructor
      · exact .inl
      · rintro (hb | hn)
        · exact hb
        · rcases h with hb | hno
          · exact hb
          · exact absurd hn hno
  | knocksAndSaleByTime knocks byHourLocal =>
    have hzero : triggerMet (.knocksAndSaleByTime knocks byHourLocal)
        (buildCounters db c.tenantId c repId nowMs) = false := by
      simp only [triggerMet, buildCounters, ht, baseCounters]
      have hmax : ¬ max 1 knocks ≤ 0 := by omega
      simp [hmax]
    rw [hzero, eq_comm]
    simp only [triggerMet, Bool.and_eq_false_iff, decide_eq_false_iff_not, not_le,
      saleBefore_eq_false]
    simp only [fullCounters, ht, cutoffHour]
  | _ => simp [triggerMet, buildCounters, ht, fullCounters, cutoffHour, saleBefore]

theorem sameVerdict_iff (db : Db) (c : SpiffCampaign) (repId nowMs : Int) :
    SameVerdict db c repId nowMs ↔ Kept db c repId nowMs := by
  rw [← triggerMet_build_iff]
  unfold SameVerdict
  dsimp only
  rw [campaignProgress_met, campaignProgress_met]
  constructor
  · exact fun h => h.2
  · intro hmet
    obtain ⟨hrep, hto, htotal⟩ := buildCounters_base db c.tenantId c repId nowMs
    exact ⟨evaluateCampaign_congr nowMs hrep hto htotal hmet, hmet⟩

end HomefrontFiber.Campaigns

/-!
## Campaigns pay once and within their caps

The turn of a campaign looks at its own awards and its own key only, so a call books each award as
if the campaign were alone. The caps hold along every run because a trimmed award fits the room
that is left.
-/

namespace HomefrontFiber.Campaigns

open List

/-- What a paying decision says of the campaign, the trigger and the room under the caps. -/
theorem evaluateCampaign_ok_iff {c : SpiffCampaign} {nowMs : Int} :
    (∃ award, evaluateCampaign c k nowMs = .ok award) ↔ isCampaignLive c nowMs = true ∧
      isRepEligible c k.repId = true ∧ triggerMet c.trigger k = true ∧ 0 < c.rewardCents ∧
      (∀ r, room c.perRepCapCents k.awardedToRepCents = some r → 0 < r) ∧
      ∀ r, room c.campaignCapCents k.awardedTotalCents = some r → 0 < r := by
  have hroom : ∀ left : Option Int, (left.any (· ≤ 0)) = false ↔ ∀ r, left = some r → 0 < r := by
    intro left
    cases left with
    | none => simp
    | some r => simp
  have hreward : ¬ cents c.rewardCents ≤ 0 ↔ 0 < c.rewardCents := by
    unfold cents
    omega
  have hlive : isCampaignLive c nowMs = true ↔
      c.status = .live ∧ c.startsAtMs ≤ nowMs ∧ nowMs < c.endsAtMs := by
    simp [isCampaignLive, and_assoc]
  rw [hlive, ← hreward, ← hroom, ← hroom]
  unfold evaluateCampaign
  dsimp only
  split
  · rename_i hs
    exact ⟨fun h => (nomatch h), fun h => absurd h.1.1 hs⟩
  · rename_i hs
    split
    · rename_i hw
      simp only [Bool.or_eq_true, decide_eq_true_eq] at hw
      refine ⟨fun h => (nomatch h), fun h => ?_⟩
      have hwin := h.1.2
      omega
    · rename_i hw
      simp only [Bool.or_eq_true, decide_eq_true_eq, not_or, not_lt, not_le] at hw
      split
      · rename_i he
        rw [Bool.not_eq_true'] at he
        refine ⟨fun h => (nomatch h), fun h => ?_⟩
        rw [he] at h
        exact absurd h.2.1 Bool.false_ne_true
      · rename_i he
        rw [Bool.not_eq_true', Bool.not_eq_false] at he
        split
        · rename_i ht
          rw [Bool.not_eq_true'] at ht
          refine ⟨fun h => (nomatch h), fun h => ?_⟩
          rw [ht] at h
          exact absurd h.2.2.1 Bool.false_ne_true
        · rename_i ht
          rw [Bool.not_eq_true', Bool.not_eq_false] at ht
          split
          · rename_i hr
            exact ⟨fun h => (nomatch h), fun h => absurd hr h.2.2.2.1⟩
          · rename_i hr
            split
            · rename_i hp
              refine ⟨fun h => (nomatch h), fun h => ?_⟩
              rw [hp] at h
              exact absurd h.2.2.2.2.1.symm Bool.false_ne_true
            · rename_i hp
              split
              · rename_i hc
                refine ⟨fun h => (nomatch h), fun h => ?_⟩
                rw [hc] at h
                exact absurd h.2.2.2.2.2.symm Bool.false_ne_true
              · rename_i hc
                rw [Bool.not_eq_true] at hp hc
                exact ⟨fun _ => ⟨⟨not_not.mp hs, hw⟩, he, ht, hr, hp, hc⟩, fun _ => ⟨_, rfl⟩⟩

theorem evaluateCampaign_amount {c : SpiffCampaign} {nowMs : Int}
    {award : CampaignAward} (h : evaluateCampaign c k nowMs = .ok award) :
    0 < award.amountCents ∧
      (∀ r, room c.perRepCapCents k.awardedToRepCents = some r → award.amountCents ≤ r) ∧
      ∀ r, room c.campaignCapCents k.awardedTotalCents = some r → award.amountCents ≤ r := by
  obtain ⟨-, -, -, hreward, hrep, hcampaign⟩ := evaluateCampaign_ok_iff.mp ⟨award, h⟩
  have hamount : award.amountCents =
      trimTo (trimTo (cents c.rewardCents) (room c.perRepCapCents k.awardedToRepCents))
        (room c.campaignCapCents k.awardedTotalCents) := by
    unfold evaluateCampaign at h
    dsimp only at h
    repeat' split at h
    all_goals cases h
    rfl
  have hcents : 0 < cents c.rewardCents := by
    unfold cents
    omega
  rw [hamount]
  cases hr : room c.perRepCapCents k.awardedToRepCents with
  | none =>
    cases hc : room c.campaignCapCents k.awardedTotalCents with
    | none => exact ⟨hcents, fun _ h => (nomatch h), fun _ h => (nomatch h)⟩
    | some r =>
      have hpos := hcampaign r hc
      refine ⟨lt_min hcents hpos, fun _ h => (nomatch h), ?_⟩
      intro r' hr'
      cases hr'
      exact min_le_right _ _
  | some r =>
    have hpos := hrep r hr
    cases hc : room c.campaignCapCents k.awardedTotalCents with
    | none =>
      refine ⟨lt_min hcents hpos, ?_, fun _ h => (nomatch h)⟩
      intro r' hr'
      cases hr'
      exact min_le_right _ _
    | some r₂ =>
      have hpos₂ := hcampaign r₂ hc
      refine ⟨lt_min (lt_min hcents hpos) hpos₂, ?_, ?_⟩
      · intro r' hr'
        cases hr'
        exact (min_le_left _ _).trans (min_le_right _ _)
      · intro r' hr'
        cases hr'
        exact min_le_right _ _

/-- The tables agree on all that the turn of a campaign reads. -/
structure SameFor (tenantId : Int) (id : Nat) (db db' : Db) : Prop where
  timezone : db'.timezone = db.timezone
  knocks : db'.knocks = db.knocks
  sales : db'.sales = db.sales
  total : awarded db'.spiffs tenantId id = awarded db.spiffs tenantId id
  toRep : ∀ repId, awardedToRep db'.spiffs tenantId id repId =
    awardedToRep db.spiffs tenantId id repId
  taken : ∀ key : AwardKey, key.campaignId = id →
    keyTaken db'.spiffs tenantId key = keyTaken db.spiffs tenantId key

theorem SameFor.refl (tenantId : Int) (id : Nat) (db : Db) : SameFor tenantId id db db :=
  ⟨rfl, rfl, rfl, rfl, fun _ => rfl, fun _ _ => rfl⟩

variable {tenantId cap : Int} {spiffs : List Spiff}

theorem SameFor.trans {id : Nat} {a b c : Db} (h : SameFor tenantId id a b)
    (h' : SameFor tenantId id b c) : SameFor tenantId id a c where
  timezone := h'.timezone.trans h.timezone
  knocks := h'.knocks.trans h.knocks
  sales := h'.sales.trans h.sales
  total := h'.total.trans h.total
  toRep repId := (h'.toRep repId).trans (h.toRep repId)
  taken key hk := (h'.taken key hk).trans (h.taken key hk)

theorem awarded_snoc (spiffs : List Spiff) (s : Spiff) (tenantId : Int) (id : Nat) :
    awarded (spiffs ++ [s]) tenantId id = awarded spiffs tenantId id +
      if s.tenantId = tenantId ∧ s.campaignId = id then s.amountCents else 0 := by
  unfold awarded
  rw [filter_append, map_append, sum_append]
  split
  · rename_i hs
    rw [filter_cons_of_pos (by simpa using hs)]
    simp
  · rename_i hs
    rw [filter_cons_of_neg (by simpa using hs)]
    simp

theorem awardedToRep_snoc (spiffs : List Spiff) (s : Spiff) (tenantId : Int) (id : Nat)
    (repId : Int) : awardedToRep (spiffs ++ [s]) tenantId id repId =
      awardedToRep spiffs tenantId id repId +
        if s.repId = repId ∧ s.tenantId = tenantId ∧ s.campaignId = id then s.amountCents else 0 := by
  unfold awardedToRep
  rw [filter_append]
  by_cases hrep : s.repId = repId
  · rw [filter_cons_of_pos (by simpa using hrep), filter_nil, awarded_snoc]
    simp [hrep]
  · rw [filter_cons_of_neg (by simpa using hrep), filter_nil, append_nil]
    simp [hrep]

theorem keyTaken_snoc (spiffs : List Spiff) (s : Spiff) (tenantId : Int) (key : AwardKey) :
    keyTaken (spiffs ++ [s]) tenantId key =
      (keyTaken spiffs tenantId key || (s.tenantId = tenantId && s.saleRef = key)) := by
  simp [keyTaken]

/-- The turn of a campaign adds nothing or one spiff under a free key of the campaign. -/
theorem awardCampaign_cases (tenantId repId nowMs : Int) (saleRef : Option Text) (db : Db)
    (c : SpiffCampaign) : awardCampaign tenantId repId nowMs saleRef db c = db ∨
      ∃ award, evaluateCampaign c (buildCounters db tenantId c repId nowMs) nowMs = .ok award ∧
        keyTaken db.spiffs tenantId
          (idempotencyKey (db.timezone tenantId) c repId nowMs saleRef) = false ∧
        awardCampaign tenantId repId nowMs saleRef db c = { db with
          spiffs := db.spiffs ++ [⟨tenantId, c.id, repId,
            idempotencyKey (db.timezone tenantId) c repId nowMs saleRef, award.amountCents,
            award.reason, .earned⟩] } := by
  unfold awardCampaign
  split
  · exact .inl rfl
  · split
    · exact .inl rfl
    · rename_i award haward
      dsimp only
      split
      · exact .inl rfl
      · rename_i hfree
        exact .inr ⟨award, haward, Bool.eq_false_of_not_eq_true hfree, rfl⟩

theorem sameFor_awardCampaign (tenantId repId nowMs : Int) (saleRef : Option Text) (db : Db)
    (c : SpiffCampaign) {id : Nat} (hne : c.id ≠ id) :
    SameFor tenantId id db (awardCampaign tenantId repId nowMs saleRef db c) := by
  rcases awardCampaign_cases tenantId repId nowMs saleRef db c with hsame | ⟨award, -, -, hnew⟩
  · rw [hsame]
    exact SameFor.refl tenantId id db
  · rw [hnew]
    constructor
    · rfl
    · rfl
    · rfl
    · rw [awarded_snoc, if_neg (fun h => hne h.2), add_zero]
    · intro r
      rw [awardedToRep_snoc, if_neg (fun h => hne h.2.2), add_zero]
    · intro key hkey
      rw [keyTaken_snoc]
      have hother : idempotencyKey (db.timezone tenantId) c repId nowMs saleRef ≠ key := by
        intro heq
        apply hne
        rw [← hkey, ← heq]
        rfl
      simp [hother]

theorem sameFor_foldl (tenantId repId nowMs : Int) (saleRef : Option Text) {id : Nat}
    (cs : List SpiffCampaign) (hne : ∀ c ∈ cs, c.id ≠ id) (db : Db) :
    SameFor tenantId id db (cs.foldl (awardCampaign tenantId repId nowMs saleRef) db) := by
  induction cs generalizing db with
  | nil => exact SameFor.refl tenantId id db
  | cons c cs ih =>
    have hc := sameFor_awardCampaign tenantId repId nowMs saleRef db c (hne c mem_cons_self)
    exact hc.trans (ih (fun d hd => hne d (mem_cons_of_mem c hd)) _)

theorem SameFor.buildCounters {c : SpiffCampaign} {db' : Db}
    (h : SameFor tenantId c.id db db') (repId nowMs : Int) :
    buildCounters db' tenantId c repId nowMs = Campaigns.buildCounters db tenantId c repId nowMs := by
  have hbase : baseCounters db' tenantId c repId = baseCounters db tenantId c repId := by
    unfold baseCounters
    rw [h.total, h.toRep]
  unfold Campaigns.buildCounters saleCount salesIn doorsBefore knockCount firstSaleHour firstSaleMs
    salesIn knockStreakDays
  rw [hbase, h.timezone, h.knocks, h.sales]

/-- The call books the award of a campaign that has its turn exactly when the decision pays. -/
theorem keyTaken_foldl (tenantId repId nowMs : Int) (saleRef : Option Text)
    {cs : List SpiffCampaign} {c : SpiffCampaign} (hc : c ∈ cs) (hnd : (cs.map (·.id)).Nodup)
    (db : Db) :
    keyTaken (cs.foldl (awardCampaign tenantId repId nowMs saleRef) db).spiffs tenantId
        (idempotencyKey (db.timezone tenantId) c repId nowMs saleRef) = true ↔
      keyTaken db.spiffs tenantId
        (idempotencyKey (db.timezone tenantId) c repId nowMs saleRef) = true ∨
      (c.trigger = .perSale → saleRef.all (· = []) = false) ∧
        ∃ award, evaluateCampaign c (buildCounters db tenantId c repId nowMs) nowMs = .ok award := by
  obtain ⟨front, back, rfl⟩ := append_of_mem hc
  rw [map_append, map_cons, nodup_append, nodup_cons] at hnd
  obtain ⟨-, ⟨hafter, -⟩, hbefore⟩ := hnd
  have hfront : ∀ d ∈ front, d.id ≠ c.id := fun d hd =>
    hbefore d.id (mem_map_of_mem hd) c.id mem_cons_self
  have hback : ∀ d ∈ back, d.id ≠ c.id := fun d hd heq =>
    hafter (heq ▸ mem_map_of_mem (f := (·.id)) hd)
  rw [foldl_append, foldl_cons]
  generalize hmid : front.foldl (awardCampaign tenantId repId nowMs saleRef) db = mid
  have hsame : SameFor tenantId c.id db mid :=
    hmid ▸ sameFor_foldl tenantId repId nowMs saleRef front hfront db
  have hend := sameFor_foldl tenantId repId nowMs saleRef back hback
    (awardCampaign tenantId repId nowMs saleRef mid c)
  rw [hend.taken _ rfl, ← hsame.taken _ rfl, ← hsame.buildCounters repId nowMs, ← hsame.timezone]
  unfold awardCampaign
  split
  · rename_i hskip
    simp only [Bool.and_eq_true, decide_eq_true_eq] at hskip
    constructor
    · exact .inl
    · rintro (htaken | ⟨hsale, -⟩)
      · exact htaken
      · have hno := hsale hskip.1
        rw [hskip.2] at hno
        cases hno
  · rename_i hskip
    have hsale : c.trigger = .perSale → saleRef.all (· = []) = false := by
      intro ht
      rw [ht] at hskip
      simpa using hskip
    split
    · rename_i heval
      constructor
      · exact .inl
      · rintro (htaken | ⟨-, award, haward⟩)
        · exact htaken
        · rw [heval] at haward
          cases haward
    · rename_i award heval
      dsimp only
      split
      · rename_i htaken
        exact ⟨.inl, fun _ => htaken⟩
      · constructor
        · exact fun _ => .inr ⟨hsale, award, heval⟩
        · intro _
          rw [keyTaken_snoc]
          simp

section Refresh

variable (nowMs : Int) (c : SpiffCampaign)

@[simp] theorem refresh_id : (refresh nowMs c).id = c.id := by
  unfold refresh
  split_ifs <;> rfl

@[simp] theorem refresh_tenantId : (refresh nowMs c).tenantId = c.tenantId := by
  unfold refresh
  split_ifs <;> rfl

@[simp] theorem refresh_startsAtMs : (refresh nowMs c).startsAtMs = c.startsAtMs := by
  unfold refresh
  split_ifs <;> rfl

@[simp] theorem refresh_endsAtMs : (refresh nowMs c).endsAtMs = c.endsAtMs := by
  unfold refresh
  split_ifs <;> rfl

@[simp] theorem refresh_trigger : (refresh nowMs c).trigger = c.trigger := by
  unfold refresh
  split_ifs <;> rfl

@[simp] theorem refresh_perRepCapCents :
    (refresh nowMs c).perRepCapCents = c.perRepCapCents := by
  unfold refresh
  split_ifs <;> rfl

@[simp] theorem refresh_campaignCapCents :
    (refresh nowMs c).campaignCapCents = c.campaignCapCents := by
  unfold refresh
  split_ifs <;> rfl

end Refresh

theorem kept_refresh (db : Db) (c : SpiffCampaign) (repId nowMs : Int) :
    Kept db (refresh nowMs c) repId nowMs ↔ Kept db c repId nowMs := by
  unfold Kept SoldBefore SoldNow
  simp only [refresh_trigger, refresh_tenantId, refresh_startsAtMs, refresh_endsAtMs]

theorem key_refresh (db : Db) (c : SpiffCampaign) (repId nowMs : Int) (saleRef : Option Text) :
    key db (refresh nowMs c) repId nowMs saleRef = key db c repId nowMs saleRef := by
  unfold key idempotencyKey
  simp only [refresh_trigger, refresh_tenantId, refresh_id]

theorem awarded_nonneg (h : ∀ s ∈ spiffs, 0 < s.amountCents)
    (tenantId : Int) (id : Nat) : 0 ≤ awarded spiffs tenantId id := by
  unfold awarded
  apply sum_nonneg
  intro a ha
  obtain ⟨s, hs, rfl⟩ := mem_map.mp ha
  exact (h s (mem_filter.mp hs).1).le

theorem awardedToRep_nonneg (h : ∀ s ∈ spiffs, 0 < s.amountCents)
    (tenantId : Int) (id : Nat) (repId : Int) : 0 ≤ awardedToRep spiffs tenantId id repId :=
  awarded_nonneg (fun s hs => h s (mem_filter.mp hs).1) tenantId id

theorem room_eq {awarded : Int} (hcap : 0 < cap) (hawarded : 0 ≤ awarded) :
    room cap awarded = some (cap - awarded) := by
  have hc : cents cap = cap := max_eq_right hcap.le
  have ha : cents awarded = awarded := max_eq_right hawarded
  unfold room
  rw [hc, ha, if_pos hcap]

theorem room_pos_iff {awarded : Int} (hawarded : 0 ≤ awarded) :
    (∀ r, room cap awarded = some r → 0 < r) ↔ (0 < cap → awarded < cap) := by
  by_cases hcap : 0 < cap
  · rw [room_eq hcap hawarded]
    constructor
    · intro h _
      have hpos := h _ rfl
      omega
    · intro h r hr
      cases hr
      have hlt := h hcap
      omega
  · have hnone : room cap awarded = none := by
      unfold room cents
      rw [if_neg (by omega)]
    rw [hnone]
    exact ⟨fun _ h => absurd h hcap, fun _ _ h => (nomatch h)⟩

theorem due_iff {c : SpiffCampaign} {nowMs : Int} {saleRef : Option Text}
    (hpos : ∀ s ∈ db.spiffs, 0 < s.amountCents) (hkept : Kept db c repId nowMs) :
    Due db c repId nowMs saleRef ↔ (c.trigger = .perSale → saleRef.all (· = []) = false) ∧
      ∃ award, evaluateCampaign c (buildCounters db c.tenantId c repId nowMs) nowMs =
        .ok award := by
  have hmet := (triggerMet_build_iff db c repId nowMs).mpr hkept
  obtain ⟨hrep, hto, htotal⟩ := buildCounters_base db c.tenantId c repId nowMs
  rw [evaluateCampaign_ok_iff, hmet, hrep, hto, htotal,
    room_pos_iff (awardedToRep_nonneg hpos _ _ _), room_pos_iff (awarded_nonneg hpos _ _)]
  constructor
  · intro h
    exact ⟨h.sale, h.live, h.eligible, h.trigger, h.reward, h.repRoom, h.campaignRoom⟩
  · rintro ⟨hsale, hlive, heligible, htrigger, hreward, hrepRoom, hcampaignRoom⟩
    exact ⟨htrigger, hlive, heligible, hreward, hrepRoom, hcampaignRoom, hsale⟩

theorem mem_liveCampaigns {nowMs : Int} {c : SpiffCampaign} :
    c ∈ liveCampaigns db tenantId nowMs ↔
      c ∈ db.campaigns ∧ c.tenantId = tenantId ∧ isCampaignLive c nowMs = true := by
  unfold liveCampaigns isCampaignLive
  rw [mem_filter]
  simp [and_assoc]

theorem mem_expireFinishedCampaigns {nowMs : Int} {c : SpiffCampaign}
    (hc : c ∈ db.campaigns) (ht : c.tenantId = tenantId) :
    refresh nowMs c ∈ (expireFinishedCampaigns db tenantId nowMs).campaigns := by
  apply mem_map.mpr
  exact ⟨c, hc, if_pos ht⟩

theorem numbered_expireFinishedCampaigns (h : Numbered (·.id) db.campaigns) (tenantId nowMs : Int) :
    Numbered (·.id) (expireFinishedCampaigns db tenantId nowMs).campaigns := by
  apply h.map
  intro c _
  split
  · exact refresh_id nowMs c
  · rfl

/-- A call books the award of a campaign that keeps its promise exactly when it is due. -/
theorem booksDue_of_kept (hnum : Numbered (·.id) db.campaigns)
    (hpos : ∀ s ∈ db.spiffs, 0 < s.amountCents) {c : SpiffCampaign} (hc : c ∈ db.campaigns)
    {nowMs : Int} (saleRef : Option Text) (hkept : Kept db c repId nowMs) :
    BooksDue db c repId nowMs saleRef := by
  have hkept' : Kept db (refresh nowMs c) repId nowMs := (kept_refresh db c repId nowMs).mpr hkept
  have hdue : Due db (refresh nowMs c) repId nowMs saleRef ↔ _ := due_iff hpos hkept'
  rw [refresh_tenantId] at hdue
  have hmem : refresh nowMs c ∈ (expireFinishedCampaigns db c.tenantId nowMs).campaigns :=
    mem_expireFinishedCampaigns hc rfl
  have hnum' := numbered_expireFinishedCampaigns hnum c.tenantId nowMs
  unfold BooksDue
  rw [hdue, ← key_refresh]
  unfold key awardCampaignsForRep
  rw [refresh_tenantId]
  by_cases hlive : isCampaignLive (refresh nowMs c) nowMs = true
  · have hin : refresh nowMs c ∈
        liveCampaigns (expireFinishedCampaigns db c.tenantId nowMs) c.tenantId nowMs :=
      mem_liveCampaigns.mpr ⟨hmem, refresh_tenantId nowMs c, hlive⟩
    have hnd : ((liveCampaigns (expireFinishedCampaigns db c.tenantId nowMs) c.tenantId
        nowMs).map (·.id)).Nodup :=
      hnum'.nodup.sublist (filter_sublist.map _)
    exact keyTaken_foldl c.tenantId repId nowMs saleRef hin hnd _
  · have hother : ∀ d ∈ liveCampaigns (expireFinishedCampaigns db c.tenantId nowMs) c.tenantId
        nowMs, d.id ≠ (refresh nowMs c).id := by
      intro d hd hid
      obtain ⟨hdmem, -, hdlive⟩ := mem_liveCampaigns.mp hd
      rw [hnum'.eq_of_key hdmem hmem hid] at hdlive
      exact hlive hdlive
    have hsame := sameFor_foldl c.tenantId repId nowMs saleRef _ hother
      (expireFinishedCampaigns db c.tenantId nowMs)
    rw [hsame.taken _ rfl]
    constructor
    · exact .inl
    · rintro (htaken | ⟨-, award, haward⟩)
      · exact htaken
      · exact absurd (evaluateCampaign_ok_iff.mp ⟨award, haward⟩).1 hlive

/-- A campaign pays what its card promises exactly where `Kept` holds. -/
theorem paysPromise_iff (hnum : Numbered (·.id) db.campaigns)
    (hpos : ∀ s ∈ db.spiffs, 0 < s.amountCents) {c : SpiffCampaign} (hc : c ∈ db.campaigns)
    (repId nowMs : Int) (saleRef : Option Text) :
    PaysPromise db c repId nowMs saleRef ↔ Kept db c repId nowMs := by
  unfold PaysPromise
  rw [sameVerdict_iff, kept_refresh]
  constructor
  · exact fun h => h.1
  · intro hkept
    exact ⟨hkept, booksDue_of_kept hnum hpos hc saleRef hkept⟩

end HomefrontFiber.Campaigns
