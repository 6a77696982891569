import HomefrontFiber.Campaigns.Pays

/-!
# The caps of a campaign along a run

An award fits the room that its caps leave, and its key is free when it is booked. So the ledger
never holds a key twice and never goes over a cap, whatever knocks and sales the run records.
-/

namespace HomefrontFiber.Campaigns

open List

structure Sound (db : Db) : Prop where
  numbered : Numbered (·.id) db.campaigns
  known : ∀ s ∈ db.spiffs, s.campaignId ≤ db.campaigns.length
  positive : ∀ s ∈ db.spiffs, 0 < s.amountCents
  once : (db.spiffs.map fun s => (s.tenantId, s.saleRef)).Nodup
  repCap : ∀ c ∈ db.campaigns, 0 < c.perRepCapCents → ∀ repId,
    awardedToRep db.spiffs c.tenantId c.id repId ≤ c.perRepCapCents
  campaignCap : ∀ c ∈ db.campaigns, 0 < c.campaignCapCents →
    awarded db.spiffs c.tenantId c.id ≤ c.campaignCapCents

theorem sound_empty (timezone : Int → Zone) : Sound { timezone } where
  numbered := Numbered.nil
  known _ h := absurd h not_mem_nil
  positive _ h := absurd h not_mem_nil
  once := nodup_nil
  repCap _ h := absurd h not_mem_nil
  campaignCap _ h := absurd h not_mem_nil

variable {db : Db}

theorem Sound.editCampaigns (hs : Sound db) {f : SpiffCampaign → SpiffCampaign}
    (hid : ∀ c, (f c).id = c.id) (htenant : ∀ c, (f c).tenantId = c.tenantId)
    (hrep : ∀ c, (f c).perRepCapCents = c.perRepCapCents)
    (hcap : ∀ c, (f c).campaignCapCents = c.campaignCapCents) :
    Sound { db with campaigns := db.campaigns.map f } where
  numbered := hs.numbered.map fun c _ => hid c
  known s h := by
    rw [length_map]
    exact hs.known s h
  positive := hs.positive
  once := hs.once
  repCap c hc hpos repId := by
    obtain ⟨d, hd, rfl⟩ := mem_map.mp hc
    rw [hrep] at hpos
    rw [hid, htenant, hrep]
    exact hs.repCap d hd hpos repId
  campaignCap c hc hpos := by
    obtain ⟨d, hd, rfl⟩ := mem_map.mp hc
    rw [hcap] at hpos
    rw [hid, htenant, hcap]
    exact hs.campaignCap d hd hpos

theorem Sound.expireFinishedCampaigns (hs : Sound db) (tenantId nowMs : Int) :
    Sound (expireFinishedCampaigns db tenantId nowMs) := by
  apply hs.editCampaigns <;>
  · intro c
    split
    · simp
    · rfl

theorem Sound.setCampaignStatus (hs : Sound db) (tenantId : Int) (id : Nat)
    (status : CampaignStatus) (nowMs : Int) :
    Sound (setCampaignStatus db tenantId id status nowMs) := by
  apply hs.editCampaigns <;>
  · intro c
    split <;> rfl

theorem awarded_eq_zero {spiffs : List Spiff} {id : Nat} (h : ∀ s ∈ spiffs, s.campaignId ≠ id)
    (tenantId : Int) : awarded spiffs tenantId id = 0 := by
  unfold awarded
  have hnone : (spiffs.filter fun s => s.tenantId = tenantId && s.campaignId = id) = [] := by
    apply filter_eq_nil_iff.mpr
    intro s hs
    simp [h s hs]
  rw [hnone]
  rfl

theorem Sound.createCampaign (hs : Sound db) (tenantId : Int) (input : CampaignInput)
    (eligibleRepIds : Option (List Int)) (nowMs : Int) :
    Sound (createCampaign db tenantId input eligibleRepIds nowMs) := by
  unfold Campaigns.createCampaign
  split
  · exact hs
  · have hunknown : ∀ s ∈ db.spiffs, s.campaignId ≠ db.campaigns.length + 1 := by
      intro s h
      have hle := hs.known s h
      omega
    constructor
    · exact hs.numbered.snoc rfl
    · intro s h
      have hle := hs.known s h
      simp only [length_append, length_singleton]
      omega
    · exact hs.positive
    · exact hs.once
    · intro c hc hpos repId
      rcases mem_append.mp hc with hold | hnew
      · exact hs.repCap c hold hpos repId
      · cases mem_singleton.mp hnew
        unfold awardedToRep
        rw [awarded_eq_zero fun s h => hunknown s (mem_filter.mp h).1]
        exact hpos.le
    · intro c hc hpos
      rcases mem_append.mp hc with hold | hnew
      · exact hs.campaignCap c hold hpos
      · cases mem_singleton.mp hnew
        rw [awarded_eq_zero hunknown]
        exact hpos.le

theorem awarded_settle (spiffs : List Spiff) (p : Spiff → Bool) (status : SpiffStatus)
    (tenantId : Int) (id : Nat) :
    awarded (spiffs.map fun s => if p s then { s with status } else s) tenantId id =
      awarded spiffs tenantId id := by
  unfold awarded
  rw [filter_map, map_map]
  have hsame : (fun s : Spiff => s.tenantId = tenantId && s.campaignId = id) ∘
      (fun s => if p s then { s with status } else s) =
      fun s => s.tenantId = tenantId && s.campaignId = id := by
    funext s
    dsimp only [Function.comp]
    split <;> rfl
  have hamount : (fun s : Spiff => s.amountCents) ∘
      (fun s => if p s then { s with status } else s) = (·.amountCents) := by
    funext s
    dsimp only [Function.comp]
    split <;> rfl
  rw [hsame, hamount]

theorem awardedToRep_settle (spiffs : List Spiff) (p : Spiff → Bool) (status : SpiffStatus)
    (tenantId : Int) (id : Nat) (repId : Int) :
    awardedToRep (spiffs.map fun s => if p s then { s with status } else s) tenantId id repId =
      awardedToRep spiffs tenantId id repId := by
  unfold awardedToRep
  rw [filter_map]
  have hsame : (fun s : Spiff => decide (s.repId = repId)) ∘
      (fun s => if p s then { s with status } else s) = fun s => decide (s.repId = repId) := by
    funext s
    dsimp only [Function.comp]
    split <;> rfl
  rw [hsame, awarded_settle]

theorem Sound.settle (hs : Sound db) (tenantId : Int) (key : AwardKey)
    (status : SpiffStatus) : Sound (step db (.settle tenantId key status)) := by
  have hrow : ∀ t ∈ (step db (.settle tenantId key status)).spiffs, ∃ s ∈ db.spiffs,
      t.campaignId = s.campaignId ∧ t.amountCents = s.amountCents := by
    intro t ht
    obtain ⟨s, h, rfl⟩ := mem_map.mp ht
    refine ⟨s, h, ?_⟩
    split <;> exact ⟨rfl, rfl⟩
  constructor
  · exact hs.numbered
  · intro t ht
    obtain ⟨s, h, hid, -⟩ := hrow t ht
    rw [hid]
    exact hs.known s h
  · intro t ht
    obtain ⟨s, h, -, hamount⟩ := hrow t ht
    rw [hamount]
    exact hs.positive s h
  · unfold step
    rw [map_map]
    have hkeys : (fun s : Spiff => (s.tenantId, s.saleRef)) ∘ (fun s =>
        if s.tenantId = tenantId && s.saleRef = key then { s with status } else s) =
        fun s => (s.tenantId, s.saleRef) := by
      funext s
      dsimp only [Function.comp]
      split <;> rfl
    rw [hkeys]
    exact hs.once
  · intro c hc hpos repId
    unfold step
    rw [awardedToRep_settle]
    exact hs.repCap c hc hpos repId
  · intro c hc hpos
    unfold step
    rw [awarded_settle]
    exact hs.campaignCap c hc hpos

theorem Sound.awardCampaign (hs : Sound db) {c : SpiffCampaign}
    (hc : c ∈ db.campaigns) (repId nowMs : Int) (saleRef : Option Text) :
    Sound (awardCampaign c.tenantId repId nowMs saleRef db c) := by
  rcases awardCampaign_cases c.tenantId repId nowMs saleRef db c with
    hsame | ⟨award, haward, hfree, hnew⟩
  · rw [hsame]
    exact hs
  · obtain ⟨hpos, hrepRoom, hcampaignRoom⟩ := evaluateCampaign_amount haward
    obtain ⟨-, hto, htotal⟩ := buildCounters_base db c.tenantId c repId nowMs
    rw [hto] at hrepRoom
    rw [htotal] at hcampaignRoom
    rw [hnew]
    constructor
    · exact hs.numbered
    · intro s h
      rcases mem_append.mp h with hold | hlast
      · exact hs.known s hold
      · cases mem_singleton.mp hlast
        exact hs.numbered.le_length hc
    · intro s h
      rcases mem_append.mp h with hold | hlast
      · exact hs.positive s hold
      · cases mem_singleton.mp hlast
        exact hpos
    · rw [map_append, nodup_append]
      refine ⟨hs.once, nodup_singleton _, ?_⟩
      intro k hk k' hk' heq
      obtain ⟨s, h, rfl⟩ := mem_map.mp hk
      cases mem_singleton.mp hk'
      have hno := any_eq_false.mp hfree s h
      injection heq with htenant hkey
      simp [htenant, hkey] at hno
    · intro d hd hcap r
      have hold := hs.repCap d hd hcap r
      rw [awardedToRep_snoc]
      split
      · rename_i hthis
        obtain ⟨hr, -, hid⟩ := hthis
        have hdc : d = c := hs.numbered.eq_of_key hd hc hid.symm
        subst hdc
        have hroom := hrepRoom _ (room_eq hcap (awardedToRep_nonneg hs.positive _ _ _))
        have hr' : repId = r := hr
        subst hr'
        dsimp only
        omega
      · omega
    · intro d hd hcap
      have hold := hs.campaignCap d hd hcap
      rw [awarded_snoc]
      split
      · rename_i hthis
        have hdc : d = c := hs.numbered.eq_of_key hd hc hthis.2.symm
        subst hdc
        have hroom := hcampaignRoom _ (room_eq hcap (awarded_nonneg hs.positive _ _))
        dsimp only
        omega
      · omega

theorem awardCampaign_campaigns (tenantId repId nowMs : Int) (saleRef : Option Text) (db : Db)
    (c : SpiffCampaign) :
    (Campaigns.awardCampaign tenantId repId nowMs saleRef db c).campaigns = db.campaigns := by
  rcases awardCampaign_cases tenantId repId nowMs saleRef db c with hsame | ⟨_, -, -, hnew⟩
  · rw [hsame]
  · rw [hnew]

theorem Sound.foldl {tenantId repId nowMs : Int} {saleRef : Option Text}
    (cs : List SpiffCampaign) (hs : Sound db)
    (hcs : ∀ c ∈ cs, c ∈ db.campaigns ∧ c.tenantId = tenantId) :
    Sound (cs.foldl (Campaigns.awardCampaign tenantId repId nowMs saleRef) db) := by
  induction cs generalizing db with
  | nil => exact hs
  | cons c cs ih =>
    obtain ⟨hc, rfl⟩ := hcs c mem_cons_self
    apply ih (hs.awardCampaign hc repId nowMs saleRef)
    intro d hd
    rw [awardCampaign_campaigns]
    exact hcs d (mem_cons_of_mem c hd)

theorem Sound.next (hs : Sound db) (a : Action) : Sound (step db a) := by
  cases a with
  | launch tenantId input eligibleRepIds nowMs =>
    exact hs.createCampaign tenantId input eligibleRepIds nowMs
  | setStatus tenantId id status nowMs => exact hs.setCampaignStatus tenantId id status nowMs
  | field knocks sales =>
    exact ⟨hs.numbered, hs.known, hs.positive, hs.once, hs.repCap, hs.campaignCap⟩
  | settle tenantId key status => exact hs.settle tenantId key status
  | award tenantId repId nowMs saleRef =>
    apply (hs.expireFinishedCampaigns tenantId nowMs).foldl
    intro c hc
    obtain ⟨hmem, htenant, -⟩ := mem_liveCampaigns.mp hc
    exact ⟨hmem, htenant⟩

theorem sound_run (timezone : Int → Zone) (actions : List Action) :
    Sound (run step { timezone } actions) := by
  have hstep : ∀ (db : Db) (a : Action), Sound db → Sound (step db a) := fun _ a h => h.next a
  exact run_invariant_all hstep actions (sound_empty timezone)

/-- In every state that a run reaches, a campaign pays what its card promises exactly where `Kept`
holds, no award is booked twice, and no cap is exceeded. -/
theorem campaigns_pay (timezone : Int → Zone) (actions : List Action) :
    let db := run step { timezone } actions
    (∀ c ∈ db.campaigns, ∀ repId nowMs saleRef,
      PaysPromise db c repId nowMs saleRef ↔ Kept db c repId nowMs) ∧
    (db.spiffs.map fun s => (s.tenantId, s.saleRef)).Nodup ∧
    ∀ c ∈ db.campaigns,
      (0 < c.perRepCapCents → ∀ repId,
        awardedToRep db.spiffs c.tenantId c.id repId ≤ c.perRepCapCents) ∧
      (0 < c.campaignCapCents → awarded db.spiffs c.tenantId c.id ≤ c.campaignCapCents) := by
  have hs := sound_run timezone actions
  refine ⟨?_, hs.once, fun c hc => ⟨hs.repCap c hc, hs.campaignCap c hc⟩⟩
  intro c hc repId nowMs saleRef
  exact paysPromise_iff hs.numbered hs.positive hc repId nowMs saleRef

def doorsAndSale : CampaignInput where
  name := "Friday push".toList
  rewardCents := 5000
  startsAtMs := 0
  endsAtMs := msPerDay
  trigger := .knocksAndSaleByTime 2 17

def perSaleBonus : CampaignInput where
  name := "Every sale".toList
  rewardCents := 1000
  startsAtMs := 0
  endsAtMs := msPerDay
  trigger := .perSale

/-- Rep 7 knocks two doors in the morning and sells at eleven. -/
def fridayDb : Db := run step { timezone := fun _ => Zone.utc } [
  .launch 1 doorsAndSale none 0,
  .launch 1 perSaleBonus none 0,
  .field [⟨1, 1, 7, 9 * msPerHour, true, false⟩, ⟨2, 1, 7, 10 * msPerHour, true, false⟩]
    [⟨1, 7, 11 * msPerHour, true⟩]]

/-- The doors and the sale are in before the cutoff and the call at noon books nothing, and the sale
of eleven earns nothing from the per-sale campaign by a call at eleven. -/
theorem not_pays_fridayDb :
    validateCampaignInput doorsAndSale = none ∧ validateCampaignInput perSaleBonus = none ∧
    (∃ c ∈ fridayDb.campaigns, Due fridayDb c 7 (12 * msPerHour) none ∧
      ¬ SameVerdict fridayDb c 7 (12 * msPerHour) ∧
      (awardCampaignsForRep fridayDb 1 7 (12 * msPerHour) none).spiffs = []) ∧
    ∃ c ∈ fridayDb.campaigns, Due fridayDb c 7 (11 * msPerHour) (some ['s', '1']) ∧
      ¬ SameVerdict fridayDb c 7 (11 * msPerHour) ∧
      (awardCampaignsForRep fridayDb 1 7 (11 * msPerHour) (some ['s', '1'])).spiffs = [] := by
  refine ⟨by decide +kernel, by decide +kernel,
    ⟨⟨1, 1, "Friday push", 0, msPerDay, .knocksAndSaleByTime 2 17, 5000, none, 0, 0, .live⟩,
      by decide +kernel, ?_, ?_, by decide +kernel⟩,
    ⟨⟨2, 1, "Every sale", 0, msPerDay, .perSale, 1000, none, 0, 0, .live⟩,
      by decide +kernel, ?_, ?_, by decide +kernel⟩⟩
  · constructor <;> decide +kernel
  · rw [sameVerdict_iff]
    intro h
    rcases h with hfew | hlate
    · exact absurd hfew (by decide +kernel)
    · exact absurd (hlate 11 (by decide +kernel)) (by decide)
  · constructor <;> decide +kernel
  · rw [sameVerdict_iff]
    intro h
    rcases h with ⟨s, hs, -, -, -, hbefore⟩ | hno
    · have hat : ∀ s ∈ fridayDb.sales, ¬ s.soldAt < 11 * msPerHour := by decide +kernel
      exact hat s hs hbefore
    · exact hno ⟨⟨1, 7, 11 * msPerHour, true⟩, by decide +kernel, by decide +kernel,
        by decide, by decide, rfl⟩

end HomefrontFiber.Campaigns
