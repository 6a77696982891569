import HomefrontFiber.Momentum.Promises

/-!
# The caps over a run

The cents converted on a local date are among those that `awardedToday` counts, as long as the
bounds of the day cover the date so far. A run whose steps meet the condition keeps the ledger and
the caps in every state, and every run keeps the terms of its offers.
-/

namespace HomefrontFiber.Momentum

open List

variable {z : Zone} {cfg : MomentumConfig} {db : Db} {o : Offer}

namespace Booked

theorem start (nowMs : Int) : Booked (.start nowMs) where
  rows := nofun
  owned := nofun

theorem wait (h : Booked db) (ms : Nat) : Booked (db.wait ms) where
  rows := h.rows
  owned := h.owned

theorem isConverted_expireAt (nowMs : Int) (o : Offer) :
    (o.expireAt nowMs).isConverted = o.isConverted := by
  rw [Bool.eq_iff_iff, Offer.isConverted_iff, Offer.isConverted_iff]
  simp only [Offer.expireAt_converted_iff]

theorem expire (h : Booked db) : Booked db.expireStaleOffers where
  rows o ho hconv := by
    obtain ⟨b, hb, rfl⟩ := mem_expire ho
    rw [isConverted_expireAt] at hconv
    have hrows := h.rows b hb hconv
    unfold Db.spiffsOf at hrows ⊢
    rw [Offer.expireAt_id, Offer.expireAt_repId, Offer.expireAt_amountCents]
    exact hrows
  owned s hs := by
    obtain ⟨b, hb, hid, hconv⟩ := h.owned s hs
    refine ⟨b.expireAt db.nowMs, mem_map_of_mem hb, ?_, ?_⟩
    · rw [Offer.expireAt_id, hid]
    · rw [isConverted_expireAt, hconv]

theorem arm (h : Booked db) (repId : Int) (new : MomentumOffer) :
    Booked { db with offers := db.offers ++ [db.armedRow repId new] } where
  rows o ho hconv := by
    rcases mem_append.mp ho with ho | ho
    · exact h.rows o ho hconv
    · obtain rfl := mem_singleton.mp ho
      cases hconv
  owned s hs := by
    obtain ⟨b, hb, hid⟩ := h.owned s hs
    exact ⟨b, mem_append_left _ hb, hid⟩

theorem convert (h : Booked db) (hwf : OffersWf db) (ho : o ∈ db.offers) (hlive : o.status = .live)
    (saleRef : String) : Booked ((db.closeOffer o.id saleRef).payOffer o) := by
  have hfresh : ∀ s ∈ db.spiffs, s.offerId ≠ o.id := by
    intro s hs hid
    obtain ⟨b, hb, hbid, hconv⟩ := h.owned s hs
    obtain rfl := hwf.numbered.eq_of_key hb ho (hbid.trans hid)
    obtain ⟨ref, t, hst⟩ := Offer.isConverted_iff.mp hconv
    rw [hlive] at hst
    cases hst
  have hany : (db.closeOffer o.id saleRef).spiffs.any (·.offerId = o.id) = false := by
    rw [any_eq_false]
    intro s hs
    simpa using hfresh s hs
  unfold Db.payOffer
  rw [if_neg (by simpa using hany)]
  constructor
  · intro b hb hconv
    obtain ⟨c, hc, rfl⟩ := mem_closeOffer hb
    unfold Db.spiffsOf
    rw [Offer.close_id, Offer.close_repId, Offer.close_amountCents]
    rw [filter_append, map_append]
    by_cases hid : c.id = o.id
    · obtain rfl := hwf.numbered.eq_of_key hc ho hid
      have hnone : (db.closeOffer c.id saleRef).spiffs.filter (·.offerId = c.id) = [] := by
        rw [filter_eq_nil_iff]
        intro s hs
        simpa using hfresh s hs
      rw [hnone]
      simp
    · rw [Offer.close_of_ne hid] at hconv
      have hother : o.id ≠ c.id := fun heq => hid heq.symm
      rw [filter_cons_of_neg (by simpa using hother), filter_nil, map_nil,
        append_nil]
      exact h.rows c hc hconv
  · intro s hs
    rcases mem_append.mp hs with hs | hs
    · obtain ⟨b, hb, hid, hconv⟩ := h.owned s hs
      refine ⟨b, ?_, hid, hconv⟩
      obtain ⟨ref, t, hst⟩ := Offer.isConverted_iff.mp hconv
      have hkeep : b.close o.id saleRef db.nowMs = b := Offer.close_of_not_live (by simp [hst])
      exact hkeep ▸ mem_map_of_mem hb
    · obtain rfl := mem_singleton.mp hs
      refine ⟨o.close o.id saleRef db.nowMs, mem_map_of_mem ho, Offer.close_id, ?_⟩
      rw [Offer.close_self hlive]
      rfl

end Booked

theorem convertedOn_eq (db : Db) (z : Zone) (repId : Option Int) (day : Int) :
    db.convertedOn z repId day = (db.offers.map fun o =>
      if o.convertedIn (fun t => z.localYmd t = day) && repId.all (o.repId = ·) then o.amountCents
      else 0).sum := convertedCents_eq _ _ _

theorem convertedOn_nonneg (h : OffersWf db) (z : Zone) (repId : Option Int) (day : Int) :
    0 ≤ db.convertedOn z repId day := by
  apply sum_nonneg
  intro c hc
  obtain ⟨o, ho, rfl⟩ := mem_map.mp hc
  exact (h.armed o (mem_of_mem_filter ho)).2.le

theorem convertedOn_le_awardedToday (h : OffersWf db) (hday : DayCounted z db.nowMs)
    (repId : Option Int) :
    db.convertedOn z repId (z.localYmd db.nowMs) ≤ db.awardedToday z repId := by
  unfold Db.awardedToday
  rw [convertedOn_eq, convertedCents_eq]
  apply sum_le_sum
  intro o ho
  have hpos := (h.armed o ho).2
  by_cases hdate : o.convertedIn (fun t => z.localYmd t = z.localYmd db.nowMs) = true
  · obtain ⟨ref, t, hst, ht⟩ := Offer.convertedIn_iff.mp hdate
    have hin : o.convertedIn (inLocalDayBounds z db.nowMs) = true :=
      Offer.convertedIn_iff.mpr ⟨ref, t, hst,
        (hday t (h.inTime o ho ref t hst).1 (of_decide_eq_true ht)).1⟩
    rw [hdate, hin]
  · rw [Bool.not_eq_true] at hdate
    rw [hdate, Bool.false_and, if_neg Bool.false_ne_true]
    split
    · exact hpos.le
    · exact le_rfl

theorem armedOn_le_offersArmedToday (h : OffersWf db) (hday : DayCounted z db.nowMs)
    (repId : Int) :
    db.armedOn z repId (z.localYmd db.nowMs) ≤ db.offersArmedToday z repId := by
  apply countP_mono_left
  intro o ho hdate
  simp only [Bool.and_eq_true, decide_eq_true_eq] at hdate ⊢
  exact ⟨hdate.1, (hday o.armedAtMs (h.armed o ho).1 hdate.2).1⟩

/-- Nothing of a rep is converted while they hold an offer, so a date that the offer was not armed
on begins with nothing. -/
theorem convertedOn_of_new_day (h : OffersWf db) (hday : DayCounted z db.nowMs)
    (ho : o ∈ db.offers) (hlive : o.status = .live)
    (hnew : z.localYmd o.armedAtMs ≠ z.localYmd db.nowMs) :
    db.convertedOn z (some o.repId) (z.localYmd db.nowMs) = 0 := by
  have hnone : (db.offers.filter fun b =>
      b.convertedIn (fun t => z.localYmd t = z.localYmd db.nowMs) &&
        (some o.repId).all (b.repId = ·)) = [] := by
    rw [filter_eq_nil_iff]
    intro b hb hcounted
    simp only [Option.all_some, Bool.and_eq_true, decide_eq_true_eq] at hcounted
    obtain ⟨hdate, hrep⟩ := hcounted
    obtain ⟨ref, t, hst, ht⟩ := Offer.convertedIn_iff.mp hdate
    have hbefore := h.latest o ho hlive b hb hrep ref t hst
    have hnow := (h.inTime b hb ref t hst).1
    exact hnew ((hday t hnow (of_decide_eq_true ht)).2 o.armedAtMs hbefore (h.armed o ho).1)
  unfold Db.convertedOn Db.convertedCents
  rw [hnone]
  rfl

namespace WithinCaps

theorem start (hvalid : validateMomentumConfig cfg = none) (nowMs : Int) :
    WithinCaps z cfg (.start nowMs) := by
  obtain ⟨hoffers, hrep, horg⟩ := bounds_nonneg hvalid
  exact ⟨fun _ _ _ => hoffers, fun _ _ _ => hrep, fun _ _ => horg, nofun⟩

theorem wait (h : WithinCaps z cfg db) (ms : Nat) : WithinCaps z cfg (db.wait ms) where
  offersPerRep := h.offersPerRep
  centsPerRep := h.centsPerRep
  centsPerOrg := h.centsPerOrg
  room := h.room

theorem expire (h : WithinCaps z cfg db) : WithinCaps z cfg db.expireStaleOffers where
  offersPerRep hcap repId day := by
    have hcount : db.expireStaleOffers.armedOn z repId day = db.armedOn z repId day := by
      unfold Db.armedOn Db.expireStaleOffers
      rw [countP_map]
      apply countP_congr
      intro o _
      simp only [Function.comp_apply, Offer.expireAt_repId, Offer.expireAt_armedAtMs]
    rw [hcount]
    exact h.offersPerRep hcap repId day
  centsPerRep hcap repId day := by
    unfold Db.convertedOn
    rw [convertedCents_expire]
    exact h.centsPerRep hcap repId day
  centsPerOrg hcap day := by
    unfold Db.convertedOn
    rw [convertedCents_expire]
    exact h.centsPerOrg hcap day
  room hcap o ho hlive := by
    obtain ⟨b, hb, rfl⟩ := mem_expire ho
    unfold Db.convertedOn
    rw [convertedCents_expire, Offer.expireAt_repId, Offer.expireAt_armedAtMs,
      Offer.expireAt_amountCents]
    exact h.room hcap b hb (Offer.expireAt_live hlive).1

theorem pay (h : WithinCaps z cfg db) (o : Offer) : WithinCaps z cfg (db.payOffer o) := by
  obtain ⟨hoffers, -⟩ := payOffer_offers db o
  constructor
  · unfold Db.armedOn
    rw [hoffers]
    exact h.offersPerRep
  · unfold Db.convertedOn Db.convertedCents
    rw [hoffers]
    exact h.centsPerRep
  · unfold Db.convertedOn Db.convertedCents
    rw [hoffers]
    exact h.centsPerOrg
  · unfold Db.convertedOn Db.convertedCents
    rw [hoffers]
    exact h.room

theorem armedOn_arm (db : Db) (z : Zone) (repId : Int) (new : MomentumOffer) (rep day : Int) :
    Db.armedOn { db with offers := db.offers ++ [db.armedRow repId new] } z rep day =
      db.armedOn z rep day + if repId = rep ∧ z.localYmd db.nowMs = day then 1 else 0 := by
  unfold Db.armedOn
  rw [countP_append, countP_cons, countP_nil, Nat.zero_add]
  by_cases hrep : repId = rep
  · by_cases hday : z.localYmd db.nowMs = day
    · simp [Db.armedRow, hrep, hday]
    · simp [Db.armedRow, hrep, hday]
  · simp [Db.armedRow, hrep]

theorem convertedOn_arm (db : Db) (z : Zone) (repId : Int) (new : MomentumOffer)
    (rep : Option Int) (day : Int) :
    Db.convertedOn { db with offers := db.offers ++ [db.armedRow repId new] } z rep day =
      db.convertedOn z rep day := by
  rw [convertedOn_eq, convertedOn_eq, map_append, sum_append]
  simp [Db.armedRow, Offer.convertedIn]

theorem arm (h : WithinCaps z cfg db) (hvalid : validateMomentumConfig cfg = none)
    (hwf : OffersWf db) (hday : cfg.Capped → DayCounted z db.nowMs) {act : Activity} {repId : Int}
    {new : MomentumOffer}
    (hnew : evaluateMomentum (db.buildSignals z cfg act repId) db.nowMs cfg = .ok new) :
    WithinCaps z cfg { db with offers := db.offers ++ [db.armedRow repId new] } := by
  obtain ⟨hoffers, hrep, -⟩ := bounds_nonneg hvalid
  obtain ⟨-, -, hcount, hroom, -⟩ := evaluateMomentum_ok hnew
  constructor
  · intro hcap rep day
    have hle := h.offersPerRep hcap rep day
    rw [armedOn_arm]
    split
    · rename_i hsame
      obtain ⟨rfl, rfl⟩ := hsame
      have htoday := armedOn_le_offersArmedToday hwf (hday (Or.inl hcap)) repId
      have hlt : (db.offersArmedToday z repId : Int) < cfg.maxOffersPerRepPerDay :=
        hcount (by omega)
      push_cast
      omega
    · simpa using hle
  · intro hcap rep day
    rw [convertedOn_arm]
    exact h.centsPerRep hcap rep day
  · intro hcap day
    rw [convertedOn_arm]
    exact h.centsPerOrg hcap day
  · intro hcap o ho hlive
    rw [convertedOn_arm]
    rcases mem_append.mp ho with ho | ho
    · exact h.room hcap o ho hlive
    · obtain rfl := mem_singleton.mp ho
      have htoday := convertedOn_le_awardedToday hwf (hday (Or.inr (Or.inl hcap))) (some repId)
      have hfits : cents (db.awardedToday z (some repId)) + new.amountCents ≤
          cfg.maxCentsPerRepPerDay := hroom (by omega)
      unfold cents at hfits
      change db.convertedOn z (some repId) (z.localYmd db.nowMs) + new.amountCents ≤ _
      omega

theorem convertedOn_close (hwf : OffersWf db) (ho : o ∈ db.offers) (hlive : o.status = .live)
    (saleRef : String) (z : Zone) (rep : Option Int) (day : Int) :
    (db.closeOffer o.id saleRef).convertedOn z rep day = db.convertedOn z rep day +
      if decide (z.localYmd db.nowMs = day) && rep.all (o.repId = ·) then o.amountCents else 0 :=
  convertedCents_close hwf.numbered ho hlive saleRef _ rep

theorem close (h : WithinCaps z cfg db) (hwf : OffersWf db)
    (hday : cfg.Capped → DayCounted z db.nowMs) (ho : o ∈ db.offers) (hlive : o.status = .live)
    (horg : cfg.maxCentsPerOrgPerDay ≠ 0 →
      db.awardedToday z none + o.amountCents ≤ cfg.maxCentsPerOrgPerDay) (saleRef : String) :
    WithinCaps z cfg (db.closeOffer o.id saleRef) := by
  constructor
  · intro hcap rep day
    have hcount : (db.closeOffer o.id saleRef).armedOn z rep day = db.armedOn z rep day := by
      unfold Db.armedOn Db.closeOffer
      rw [countP_map]
      apply countP_congr
      intro b _
      simp only [Function.comp_apply, Offer.close_repId, Offer.close_armedAtMs]
    rw [hcount]
    exact h.offersPerRep hcap rep day
  · intro hcap rep day
    rw [convertedOn_close hwf ho hlive]
    split
    · rename_i hsame
      simp only [Option.all_some, Bool.and_eq_true, decide_eq_true_eq] at hsame
      obtain ⟨rfl, rfl⟩ := hsame
      have hroom := h.room hcap o ho hlive
      by_cases harmed : z.localYmd o.armedAtMs = z.localYmd db.nowMs
      · rw [← harmed]
        exact hroom
      · rw [convertedOn_of_new_day hwf (hday (Or.inr (Or.inl hcap))) ho hlive harmed]
        have hnonneg := convertedOn_nonneg hwf z (some o.repId) (z.localYmd o.armedAtMs)
        omega
    · rw [add_zero]
      exact h.centsPerRep hcap rep day
  · intro hcap day
    rw [convertedOn_close hwf ho hlive]
    split
    · rename_i hsame
      simp only [Option.all_none, Bool.and_true, decide_eq_true_eq] at hsame
      obtain rfl := hsame
      have htoday := convertedOn_le_awardedToday hwf (hday (Or.inr (Or.inr hcap))) none
      have hfits := horg hcap
      omega
    · rw [add_zero]
      exact h.centsPerOrg hcap day
  · intro hcap b hb hl
    obtain ⟨c, hc, rfl⟩ := mem_closeOffer hb
    obtain ⟨hcl, hne⟩ := Offer.close_live hl
    have hrep : ¬ o.repId = c.repId := fun heq =>
      hne (congrArg Offer.id (hwf.oneLive c hc o ho heq.symm hcl hlive))
    rw [convertedOn_close hwf ho hlive, Offer.close_repId, Offer.close_armedAtMs,
      Offer.close_amountCents]
    simp only [Option.all_some, hrep, decide_false, Bool.and_false, Bool.false_eq_true, if_false,
      add_zero]
    exact h.room hcap c hc hcl

end WithinCaps

structure Sound (z : Zone) (cfg : MomentumConfig) (db : Db) : Prop where
  wf : OffersWf db
  booked : Booked db
  caps : WithinCaps z cfg db

namespace Sound

theorem start (hvalid : validateMomentumConfig cfg = none) (nowMs : Int) :
    Sound z cfg (.start nowMs) :=
  ⟨OffersWf.start nowMs, Booked.start nowMs, WithinCaps.start hvalid nowMs⟩

theorem atCall (h : Sound z cfg db) (a : Action) : Sound z cfg (db.atCall a) :=
  ⟨h.wf.atCall a, (h.booked.wait a.waitMs).expire, (h.caps.wait a.waitMs).expire⟩

theorem step (hvalid : validateMomentumConfig cfg = none) (h : Sound z cfg db) {a : Action}
    (hmeets : Meets z cfg db a) : Sound z cfg (step z cfg db a) := by
  have hcall := h.atCall a
  refine ⟨h.wf.step (offerMinutes_pos hvalid) a, ?_, ?_⟩
  · rcases step_cases (z := z) (offerMinutes_pos hvalid) db a with
      hs | hs | ⟨act, repId, new, -, hfree, hnew, hs⟩ | ⟨repId, saleRef, o, ha, hlive, hs⟩
    · exact hs ▸ h.booked.wait a.waitMs
    · exact hs ▸ hcall.booked
    · exact hs ▸ hcall.booked.arm repId new
    · obtain ⟨ho, -, hst, -⟩ := liveOffer_some hlive
      unfold Meets at hmeets
      rw [ha] at hmeets
      obtain ⟨hcrash, -, -⟩ := hmeets o hlive
      rcases hs with ⟨hcut, -⟩ | hs
      · exact absurd hcut hcrash
      · exact hs ▸ hcall.booked.convert hcall.wf ho hst saleRef
  · rcases step_cases (z := z) (offerMinutes_pos hvalid) db a with
      hs | hs | ⟨act, repId, new, ha, -, hnew, hs⟩ | ⟨repId, saleRef, o, ha, hlive, hs⟩
    · exact hs ▸ h.caps.wait a.waitMs
    · exact hs ▸ hcall.caps
    · unfold Meets at hmeets
      rw [ha] at hmeets
      exact hs ▸ hcall.caps.arm hvalid hcall.wf hmeets hnew
    · obtain ⟨ho, -, hst, -⟩ := liveOffer_some hlive
      unfold Meets at hmeets
      rw [ha] at hmeets
      obtain ⟨-, hday, horg⟩ := hmeets o hlive
      have hclosed := hcall.caps.close hcall.wf hday ho hst horg saleRef
      rcases hs with ⟨-, hs⟩ | hs
      · exact hs ▸ hclosed
      · exact hs ▸ hclosed.pay o

theorem promisesKept (h : Sound z cfg db) : PromisesKept z cfg db where
  booked := h.booked.rows
  inTime o ho ref t hst := (h.wf.inTime o ho ref t hst).2
  offersPerRep := h.caps.offersPerRep
  centsPerRep := h.caps.centsPerRep
  centsPerOrg := h.caps.centsPerOrg

end Sound

namespace Frozen

theorem refl (db : Db) : Frozen db db := fun o ho => ⟨o, ho, rfl, fun _ => rfl⟩

theorem trans {db₁ db₂ db₃ : Db} (h : Frozen db₁ db₂) (h' : Frozen db₂ db₃) : Frozen db₁ db₃ := by
  intro o ho
  obtain ⟨b, hb, hterms, hfinal⟩ := h o ho
  obtain ⟨c, hc, hterms', hfinal'⟩ := h' b hb
  refine ⟨c, hc, ?_, ?_⟩
  · rw [hterms', hterms]
  · intro hst
    rw [hfinal' (hfinal hst ▸ hst), hfinal hst]

theorem of_map {db' : Db} {f : Offer → Offer} (hdb : db'.offers = db.offers.map f)
    (hterms : ∀ o, f o = { o with status := (f o).status })
    (hfinal : ∀ o : Offer, o.status ≠ .live → f o = o) : Frozen db db' := by
  intro o ho
  refine ⟨f o, hdb ▸ mem_map_of_mem ho, hterms o, ?_⟩
  intro hst
  rw [hfinal o hst]

theorem of_append {db' : Db} {new : List Offer} (hdb : db'.offers = db.offers ++ new) :
    Frozen db db' :=
  fun o ho => ⟨o, hdb ▸ mem_append_left new ho, rfl, fun _ => rfl⟩

theorem atCall (db : Db) (a : Action) : Frozen db (db.atCall a) :=
  of_map rfl (Offer.expireAt_eq _) fun _ hst => Offer.expireAt_of_not_live hst

theorem step (hlength : 0 < cfg.offerMinutes) (db : Db) (a : Action) :
    Frozen db (step z cfg db a) := by
  rcases step_cases (z := z) hlength db a with
    hs | hs | ⟨act, repId, new, -, -, -, hs⟩ | ⟨repId, saleRef, o, -, -, hs⟩
  · rw [hs]
    exact refl db
  · rw [hs]
    exact atCall db a
  · rw [hs]
    exact (atCall db a).trans (of_append rfl)
  · have hclosed : Frozen db ((db.atCall a).closeOffer o.id saleRef) :=
      (atCall db a).trans (of_map rfl (Offer.close_eq _ _ _) fun _ hst =>
        Offer.close_of_not_live hst)
    rcases hs with ⟨-, hs⟩ | hs
    · rw [hs]
      exact hclosed
    · rw [hs]
      have hsame : (((db.atCall a).closeOffer o.id saleRef).payOffer o).offers =
          ((db.atCall a).closeOffer o.id saleRef).offers ++ [] := by
        rw [(payOffer_offers _ o).1, append_nil]
      exact hclosed.trans (of_append hsame)

theorem run (hlength : 0 < cfg.offerMinutes) (db : Db) (as : List Action) :
    Frozen db (run (Momentum.step z cfg) db as) := by
  induction as generalizing db with
  | nil => exact refl db
  | cons a as ih => exact (step hlength db a).trans (ih _)

end Frozen

theorem dayCounted_utc (nowMs : Int) : DayCounted .utc nowMs := by
  have hlocal : ∀ t, Zone.utc.localYmd t = t / 86400000 := by
    intro t
    simp [Zone.localYmd, Zone.utc, msPerDay]
  have hstart : localDayStart .utc nowMs = nowMs / 86400000 * 86400000 := by
    unfold localDayStart
    rw [hlocal]
    simp [Zone.zonedWallToUtcMs, Zone.utc, msPerDay]
  intro t ht hdate
  rw [hlocal, hlocal] at hdate
  constructor
  · unfold inLocalDayBounds
    rw [hstart]
    simp only [Bool.and_eq_true, decide_eq_true_eq]
    omega
  · intro u hu hnow
    rw [hlocal, hlocal]
    omega

/-- Doors with one verified conversation are enough for an offer of 25 dollars over five minutes,
one a day for a rep, with 30 dollars a day for the organisation. -/
def quietStreet : MomentumConfig where
  offerMinutes := 5
  dryMinutes := 0
  minDoorsInWindow := 1
  minConversationsInWindow := 0
  minInterestSignals := 0
  paceRatio := 1
  armAtScore := 1
  tiers := [⟨1, 2500⟩]
  maxOffersPerRepPerDay := 1
  maxCentsPerOrgPerDay := 3000

def hotDoor (waitMs : Nat) (repId nowMs : Int) : Action where
  waitMs := waitMs
  call := .armMomentumOffer
    ⟨[{ leadId := 1, repId := repId, knockedAt := nowMs - 60000, outcome := .interested }], []⟩ repId

theorem summer_bounded : -msPerDay < -14400000 ∧ -14400000 < msPerDay := by decide

theorem winter_bounded : -msPerDay < -18000000 ∧ -18000000 < msPerDay := by decide

/-- A zone whose clocks are set back by an hour at two in the morning of the first local day. -/
def longDay : Zone :=
  Zone.shiftedAt (-14400000) (-18000000) 21600000 summer_bounded winter_bounded

end HomefrontFiber.Momentum
