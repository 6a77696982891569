import HomefrontFiber.Momentum.Offers

/-!
# Promises and caps

A rep holds one live offer, and nothing of theirs is converted while they hold it. So what the caps
left room for when an offer was armed is still there when it is converted, on that day or on a new
one. The organisation's room is shared, and the offers of other reps may have used it up. A
conversion is booked by a second write.
-/

namespace HomefrontFiber.Momentum

open List

variable {z : Zone} {cfg : MomentumConfig} {db : Db} {o : Offer}

namespace Db

def armedOn (db : Db) (z : Zone) (repId day : Int) : Nat :=
  db.offers.countP fun o => o.repId = repId && z.localYmd o.armedAtMs = day

/-- Cents converted on a date, by one rep or by the whole organisation. -/
def convertedOn (db : Db) (z : Zone) (repId : Option Int) (day : Int) : Int :=
  db.convertedCents (fun t => z.localYmd t = day) repId

def spiffsOf (db : Db) (o : Offer) : List Spiff := db.spiffs.filter (·.offerId = o.id)

end Db

/-- Every converted offer is booked once with its amount and was converted in time, and no local
day exceeds a cap. -/
structure PromisesKept (z : Zone) (cfg : MomentumConfig) (db : Db) : Prop where
  booked : ∀ o ∈ db.offers, o.isConverted = true →
    (db.spiffsOf o).map (fun s => (s.repId, s.amountCents)) = [(o.repId, o.amountCents)]
  inTime : ∀ o ∈ db.offers, ∀ ref t, o.status = .converted ref t → t < o.expiresAtMs
  offersPerRep : cfg.maxOffersPerRepPerDay ≠ 0 →
    ∀ repId day, (db.armedOn z repId day : Int) ≤ cfg.maxOffersPerRepPerDay
  centsPerRep : cfg.maxCentsPerRepPerDay ≠ 0 →
    ∀ repId day, db.convertedOn z (some repId) day ≤ cfg.maxCentsPerRepPerDay
  centsPerOrg : cfg.maxCentsPerOrgPerDay ≠ 0 →
    ∀ day, db.convertedOn z none day ≤ cfg.maxCentsPerOrgPerDay

/-- An offer keeps its terms from when it is armed, and a conversion is final. -/
def Frozen (db db' : Db) : Prop :=
  ∀ o ∈ db.offers, ∃ o' ∈ db'.offers,
    o' = { o with status := o'.status } ∧ (o.status ≠ .live → o'.status = o.status)

/-- Up to now, the local day lies within the bounds that the caps are counted in and has not been
left. -/
def DayCounted (z : Zone) (nowMs : Int) : Prop :=
  ∀ t ≤ nowMs, z.localYmd t = z.localYmd nowMs →
    inLocalDayBounds z nowMs t = true ∧ ∀ u, t ≤ u → u ≤ nowMs → z.localYmd u = z.localYmd nowMs

def MomentumConfig.Capped (cfg : MomentumConfig) : Prop :=
  cfg.maxOffersPerRepPerDay ≠ 0 ∨ cfg.maxCentsPerRepPerDay ≠ 0 ∨ cfg.maxCentsPerOrgPerDay ≠ 0

/-- The day so far is counted whole. An offer that is converted still fits under what the
organisation has left, and is booked before any crash. -/
def Meets (z : Zone) (cfg : MomentumConfig) (db : Db) (a : Action) : Prop :=
  match a.call with
  | .armMomentumOffer _ _ => cfg.Capped → DayCounted z (db.atCall a).nowMs
  | .convertMomentumOffer repId _ => ∀ o ∈ (db.atCall a).liveOffer repId,
    a.crashedAfter ≠ some 3 ∧ (cfg.Capped → DayCounted z (db.atCall a).nowMs) ∧
      (cfg.maxCentsPerOrgPerDay ≠ 0 →
        (db.atCall a).awardedToday z none + o.amountCents ≤ cfg.maxCentsPerOrgPerDay)
  | .expireStaleOffers => True

structure OffersWf (db : Db) : Prop where
  numbered : Numbered Offer.id db.offers
  armed : ∀ o ∈ db.offers, o.armedAtMs ≤ db.nowMs ∧ 0 < o.amountCents
  inTime : ∀ o ∈ db.offers, ∀ ref t, o.status = .converted ref t → t ≤ db.nowMs ∧ t < o.expiresAtMs
  oneLive : ∀ o ∈ db.offers, ∀ o' ∈ db.offers, o.repId = o'.repId → o.status = .live →
    o'.status = .live → o = o'
  latest : ∀ o ∈ db.offers, o.status = .live → ∀ o' ∈ db.offers, o'.repId = o.repId →
    ∀ ref t, o'.status = .converted ref t → t ≤ o.armedAtMs

structure Booked (db : Db) : Prop where
  rows : ∀ o ∈ db.offers, o.isConverted = true →
    (db.spiffsOf o).map (fun s => (s.repId, s.amountCents)) = [(o.repId, o.amountCents)]
  owned : ∀ s ∈ db.spiffs, ∃ o ∈ db.offers, o.id = s.offerId ∧ o.isConverted = true

structure WithinCaps (z : Zone) (cfg : MomentumConfig) (db : Db) : Prop where
  offersPerRep : cfg.maxOffersPerRepPerDay ≠ 0 →
    ∀ repId day, (db.armedOn z repId day : Int) ≤ cfg.maxOffersPerRepPerDay
  centsPerRep : cfg.maxCentsPerRepPerDay ≠ 0 →
    ∀ repId day, db.convertedOn z (some repId) day ≤ cfg.maxCentsPerRepPerDay
  centsPerOrg : cfg.maxCentsPerOrgPerDay ≠ 0 →
    ∀ day, db.convertedOn z none day ≤ cfg.maxCentsPerOrgPerDay
  room : cfg.maxCentsPerRepPerDay ≠ 0 → ∀ o ∈ db.offers, o.status = .live →
    db.convertedOn z (some o.repId) (z.localYmd o.armedAtMs) + o.amountCents ≤
      cfg.maxCentsPerRepPerDay

theorem step_cases (hlength : 0 < cfg.offerMinutes) (db : Db) (a : Action) :
    step z cfg db a = db.wait a.waitMs ∨ step z cfg db a = db.atCall a ∨
      (∃ act repId new, a.call = .armMomentumOffer act repId ∧
        (∀ held ∈ (db.atCall a).offers, held.repId = repId → held.status ≠ .live) ∧
        evaluateMomentum ((db.atCall a).buildSignals z cfg act repId) (db.atCall a).nowMs cfg =
          .ok new ∧
        step z cfg db a = { db.atCall a with
          offers := (db.atCall a).offers ++ [(db.atCall a).armedRow repId new] }) ∨
      ∃ repId saleRef o, a.call = .convertMomentumOffer repId saleRef ∧
        (db.atCall a).liveOffer repId = some o ∧
        (a.crashedAfter = some 3 ∧ step z cfg db a = (db.atCall a).closeOffer o.id saleRef ∨
          step z cfg db a = ((db.atCall a).closeOffer o.id saleRef).payOffer o) := by
  have hmem := crashed_mem (db.wait a.waitMs) (a.call.commits z cfg (db.wait a.waitMs))
    a.crashedAfter
  have hstep : ((a.crashedAfter.elim (a.call.commits z cfg (db.wait a.waitMs))
      (a.call.commits z cfg (db.wait a.waitMs)).take).getLast?).getD (db.wait a.waitMs) =
      step z cfg db a := rfl
  rw [hstep, mem_cons] at hmem
  cases hcall : a.call with
  | armMomentumOffer act repId =>
    rw [hcall] at hmem
    rcases hmem with hs | hs
    · exact .inl hs
    · rcases armMomentumOffer_mem hlength hs with hs | ⟨new, hfree, hnew, hs⟩
      · exact .inr (.inl hs)
      · exact .inr (.inr (.inl ⟨act, repId, new, rfl, hfree, hnew, hs⟩))
  | convertMomentumOffer repId saleRef =>
    rw [hcall] at hstep
    rcases convertMomentumOffer_cases (db.wait a.waitMs) repId saleRef a.crashedAfter hstep with
      hs | hs | ⟨o, hlive, hs⟩
    · exact .inl hs
    · exact .inr (.inl hs)
    · exact .inr (.inr (.inr ⟨repId, saleRef, o, rfl, hlive, hs⟩))
  | expireStaleOffers =>
    rw [hcall] at hmem
    rcases hmem with hs | hs
    · exact .inl hs
    · exact .inr (.inl (mem_singleton.mp hs))

theorem mem_expire (h : o ∈ db.expireStaleOffers.offers) :
    ∃ b ∈ db.offers, b.expireAt db.nowMs = o := mem_map.mp h

theorem mem_closeOffer {offerId : Nat} {saleRef : String}
    (h : o ∈ (db.closeOffer offerId saleRef).offers) :
    ∃ b ∈ db.offers, b.close offerId saleRef db.nowMs = o := mem_map.mp h

theorem payOffer_offers (db : Db) (o : Offer) :
    (db.payOffer o).offers = db.offers ∧ (db.payOffer o).nowMs = db.nowMs := by
  unfold Db.payOffer
  split <;> exact ⟨rfl, rfl⟩

namespace OffersWf

theorem start (nowMs : Int) : OffersWf (.start nowMs) where
  numbered := Numbered.nil
  armed := nofun
  inTime := nofun
  oneLive := nofun
  latest := nofun

theorem wait (h : OffersWf db) (ms : Nat) : OffersWf (db.wait ms) where
  numbered := h.numbered
  armed o ho := ⟨(h.armed o ho).1.trans (by simp [Db.wait]), (h.armed o ho).2⟩
  inTime o ho ref t hst := ⟨(h.inTime o ho ref t hst).1.trans (by simp [Db.wait]),
    (h.inTime o ho ref t hst).2⟩
  oneLive := h.oneLive
  latest := h.latest

theorem expire (h : OffersWf db) : OffersWf db.expireStaleOffers where
  numbered := h.numbered.map fun o _ => Offer.expireAt_id db.nowMs o
  armed o ho := by
    obtain ⟨b, hb, rfl⟩ := mem_expire ho
    rw [Offer.expireAt_armedAtMs, Offer.expireAt_amountCents]
    exact h.armed b hb
  inTime o ho ref t hst := by
    obtain ⟨b, hb, rfl⟩ := mem_expire ho
    rw [Offer.expireAt_expiresAtMs]
    exact h.inTime b hb ref t (Offer.expireAt_converted_iff.mp hst)
  oneLive o ho o' ho' hrep hlive hlive' := by
    obtain ⟨b, hb, rfl⟩ := mem_expire ho
    obtain ⟨b', hb', rfl⟩ := mem_expire ho'
    rw [Offer.expireAt_repId, Offer.expireAt_repId] at hrep
    rw [h.oneLive b hb b' hb' hrep (Offer.expireAt_live hlive).1 (Offer.expireAt_live hlive').1]
  latest o ho hlive o' ho' hrep ref t hst := by
    obtain ⟨b, hb, rfl⟩ := mem_expire ho
    obtain ⟨b', hb', rfl⟩ := mem_expire ho'
    rw [Offer.expireAt_repId, Offer.expireAt_repId] at hrep
    rw [Offer.expireAt_armedAtMs]
    exact h.latest b hb (Offer.expireAt_live hlive).1 b' hb' hrep ref t
      (Offer.expireAt_converted_iff.mp hst)

theorem atCall (h : OffersWf db) (a : Action) : OffersWf (db.atCall a) := (h.wait a.waitMs).expire

/-- The rep who is armed held no live offer, and everything converted so far is older. -/
theorem arm (h : OffersWf db) {repId : Int} {new : MomentumOffer} (hpos : 0 < new.amountCents)
    (hfree : ∀ held ∈ db.offers, held.repId = repId → held.status ≠ .live) :
    OffersWf { db with offers := db.offers ++ [db.armedRow repId new] } where
  numbered := h.numbered.snoc rfl
  armed o ho := by
    rcases mem_append.mp ho with ho | ho
    · exact h.armed o ho
    · obtain rfl := mem_singleton.mp ho
      exact ⟨le_rfl, hpos⟩
  inTime o ho ref t hst := by
    rcases mem_append.mp ho with ho | ho
    · exact h.inTime o ho ref t hst
    · obtain rfl := mem_singleton.mp ho
      cases hst
  oneLive o ho o' ho' hrep hlive hlive' := by
    rcases mem_append.mp ho with ho | ho
    · rcases mem_append.mp ho' with ho' | ho'
      · exact h.oneLive o ho o' ho' hrep hlive hlive'
      · obtain rfl := mem_singleton.mp ho'
        exact absurd hlive (hfree o ho hrep)
    · obtain rfl := mem_singleton.mp ho
      rcases mem_append.mp ho' with ho' | ho'
      · exact absurd hlive' (hfree o' ho' hrep.symm)
      · exact (mem_singleton.mp ho').symm
  latest o ho hlive o' ho' hrep ref t hst := by
    rcases mem_append.mp ho' with ho' | ho'
    · rcases mem_append.mp ho with ho | ho
      · exact h.latest o ho hlive o' ho' hrep ref t hst
      · obtain rfl := mem_singleton.mp ho
        exact (h.inTime o' ho' ref t hst).1
    · obtain rfl := mem_singleton.mp ho'
      cases hst

theorem close (h : OffersWf db) (ho : o ∈ db.offers) (hlive : o.status = .live)
    (hopen : db.nowMs < o.expiresAtMs) (saleRef : String) :
    OffersWf (db.closeOffer o.id saleRef) where
  numbered := h.numbered.map fun b _ => Offer.close_id
  armed b hb := by
    obtain ⟨c, hc, rfl⟩ := mem_closeOffer hb
    rw [Offer.close_armedAtMs, Offer.close_amountCents]
    exact h.armed c hc
  inTime b hb ref t hst := by
    obtain ⟨c, hc, rfl⟩ := mem_closeOffer hb
    rw [Offer.close_expiresAtMs]
    by_cases hid : c.id = o.id
    · obtain rfl := h.numbered.eq_of_key hc ho hid
      rw [Offer.close_self hlive] at hst
      obtain ⟨-, rfl⟩ := OfferStatus.converted.inj hst
      exact ⟨le_rfl, hopen⟩
    · rw [Offer.close_of_ne hid] at hst
      exact h.inTime c hc ref t hst
  oneLive b hb b' hb' hrep hl hl' := by
    obtain ⟨c, hc, rfl⟩ := mem_closeOffer hb
    obtain ⟨c', hc', rfl⟩ := mem_closeOffer hb'
    rw [Offer.close_repId, Offer.close_repId] at hrep
    rw [h.oneLive c hc c' hc' hrep (Offer.close_live hl).1 (Offer.close_live hl').1]
  latest b hb hl b' hb' hrep ref t hst := by
    obtain ⟨c, hc, rfl⟩ := mem_closeOffer hb
    obtain ⟨c', hc', rfl⟩ := mem_closeOffer hb'
    obtain ⟨hcl, hne⟩ := Offer.close_live hl
    rw [Offer.close_repId, Offer.close_repId] at hrep
    rw [Offer.close_armedAtMs]
    by_cases hid : c'.id = o.id
    · obtain rfl := h.numbered.eq_of_key hc' ho hid
      exact absurd (congrArg Offer.id (h.oneLive c hc c' ho hrep.symm hcl hlive)) hne
    · rw [Offer.close_of_ne hid] at hst
      exact h.latest c hc hcl c' hc' hrep ref t hst

theorem pay (h : OffersWf db) (o : Offer) : OffersWf (db.payOffer o) := by
  obtain ⟨hoffers, hnow⟩ := payOffer_offers db o
  constructor
  · exact hoffers ▸ h.numbered
  · exact hoffers ▸ hnow ▸ h.armed
  · exact hoffers ▸ hnow ▸ h.inTime
  · exact hoffers ▸ h.oneLive
  · exact hoffers ▸ h.latest

theorem step (hlength : 0 < cfg.offerMinutes) (h : OffersWf db) (a : Action) :
    OffersWf (step z cfg db a) := by
  rcases step_cases (z := z) hlength db a with
    hs | hs | ⟨act, repId, new, -, hfree, hnew, hs⟩ | ⟨repId, saleRef, o, -, hlive, hs⟩
  · exact hs ▸ h.wait a.waitMs
  · exact hs ▸ h.atCall a
  · exact hs ▸ (h.atCall a).arm (evaluateMomentum_ok hnew).1 hfree
  · obtain ⟨ho, -, hst, hopen⟩ := liveOffer_some hlive
    have hclosed := (h.atCall a).close ho hst hopen saleRef
    rcases hs with ⟨-, hs⟩ | hs
    · exact hs ▸ hclosed
    · exact hs ▸ hclosed.pay o

end OffersWf

end HomefrontFiber.Momentum
