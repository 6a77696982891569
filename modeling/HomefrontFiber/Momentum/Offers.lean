import Mathlib.Data.List.Dedup
import HomefrontFiber.Foundation.Runs
import HomefrontFiber.Foundation.Table
import HomefrontFiber.Knocking.Schema
import HomefrontFiber.Momentum.Rules

/-!
# The offers of one organisation

An armed offer is a row with its amount and its expiry. `armMomentumOffer` and
`convertMomentumOffer` are given as the states that they commit, one after each of their writes, so
that a crash leaves the process in one of them. The knocks and the sales that the signals are read
from belong to the call.
-/

namespace HomefrontFiber.Momentum

structure Knock where
  leadId : Int
  repId : Int
  knockedAt : Int
  outcome : Knocking.KnockOutcome
  verified : Bool := true
  superseded : Bool := false

structure Sale where
  repId : Int
  soldAt : Int
  qualified : Bool := true

structure Activity where
  knocks : List Knock
  sales : List Sale

inductive OfferStatus where
  | live
  | converted (saleRef : String) (atMs : Int)
  | expired
  deriving DecidableEq

structure Offer where
  id : Nat
  repId : Int
  armedAtMs : Int
  expiresAtMs : Int
  amountCents : Int
  score : Int
  headline : String
  callToAction : String
  status : OfferStatus := .live

/-- A row of the ledger under the key `momentum:<offerId>`. -/
structure Spiff where
  offerId : Nat
  repId : Int
  amountCents : Int
  reason : String
  createdAtMs : Int

structure Db where
  offers : List Offer
  spiffs : List Spiff
  nowMs : Int

def Db.start (nowMs : Int) : Db where
  offers := []
  spiffs := []
  nowMs := nowMs

namespace Offer

def isConverted (o : Offer) : Bool :=
  match o.status with
  | .converted _ _ => true
  | .live | .expired => false

def convertedIn (o : Offer) (p : Int → Bool) : Bool :=
  match o.status with
  | .converted _ atMs => p atMs
  | .live | .expired => false

def expireAt (nowMs : Int) (o : Offer) : Offer :=
  if o.status = .live ∧ o.expiresAtMs ≤ nowMs then { o with status := .expired } else o

def close (offerId : Nat) (saleRef : String) (nowMs : Int) (o : Offer) : Offer :=
  if o.id = offerId ∧ o.status = .live then { o with status := .converted saleRef nowMs } else o

end Offer

def localDayStart (z : Zone) (nowMs : Int) : Int := z.zonedWallToUtcMs (z.localYmd nowMs) 0 0

def inLocalDayBounds (z : Zone) (nowMs t : Int) : Bool :=
  localDayStart z nowMs ≤ t && t < localDayStart z nowMs + 86400000

def Activity.verifiedIn (act : Activity) (repId fromMs toMs : Int) : List Knock :=
  act.knocks.filter fun k => k.repId = repId && fromMs ≤ k.knockedAt && k.knockedAt < toMs &&
    k.verified && !k.superseded

def distinctDoors (knocks : List Knock) : Int := (knocks.map Knock.leadId).dedup.length

def isInterest (outcome : Knocking.KnockOutcome) : Bool :=
  outcome = .interested || outcome = .followUp || outcome = .callback

def baselineDoorsPerHour (act : Activity) (repId windowStartMs : Int) : Rat :=
  let knocks := act.verifiedIn repId (windowStartMs - 14 * 86400000) windowStartMs
  let days := (knocks.map fun k => k.knockedAt / 86400000).dedup.length
  if distinctDoors knocks ≤ 0 ∨ days ≤ 0 then 0 else distinctDoors knocks / (days * 8)

def minutesSinceLastSale (act : Activity) (repId nowMs : Int) : Option Int :=
  (((act.sales.filter fun t => t.repId = repId && t.qualified).map Sale.soldAt).max?).map fun t =>
    max 0 ((2 * (nowMs - t) + 60000) / 120000)

namespace Db

def expireStaleOffers (db : Db) : Db where
  offers := db.offers.map (Offer.expireAt db.nowMs)
  spiffs := db.spiffs
  nowMs := db.nowMs

def liveOffer (db : Db) (repId : Int) : Option Offer :=
  db.offers.reverse.find? fun o =>
    o.repId = repId && o.status = .live && db.nowMs < o.expiresAtMs

/-- Cents converted at instants of a kind, by one rep or by the whole organisation. -/
def convertedCents (db : Db) (p : Int → Bool) (repId : Option Int) : Int :=
  ((db.offers.filter fun o => o.convertedIn p && repId.all (o.repId = ·)).map Offer.amountCents).sum

def awardedToday (db : Db) (z : Zone) (repId : Option Int) : Int :=
  db.convertedCents (inLocalDayBounds z db.nowMs) repId

def offersArmedToday (db : Db) (z : Zone) (repId : Int) : Nat :=
  db.offers.countP fun o => o.repId = repId && inLocalDayBounds z db.nowMs o.armedAtMs

def buildSignals (db : Db) (z : Zone) (cfg : MomentumConfig) (act : Activity) (repId : Int) :
    MomentumSignals :=
  let windowStart := db.nowMs - cfg.windowMinutes * 60000
  let knocks := act.verifiedIn repId windowStart db.nowMs
  { repId := repId
    doorsInWindow := distinctDoors knocks
    conversationsInWindow := distinctDoors (knocks.filter (·.outcome ≠ .notHome))
    interestSignalsInWindow := distinctDoors (knocks.filter (isInterest ·.outcome))
    baselineDoorsPerHour := baselineDoorsPerHour act repId windowStart
    minutesSinceLastSale := minutesSinceLastSale act repId db.nowMs
    offersArmedToday := db.offersArmedToday z repId
    awardedToRepTodayCents := db.awardedToday z (some repId)
    awardedOrgTodayCents := db.awardedToday z none }

def armedRow (db : Db) (repId : Int) (o : MomentumOffer) : Offer where
  id := db.offers.length + 1
  repId := repId
  armedAtMs := db.nowMs
  expiresAtMs := o.expiresAtMs
  amountCents := o.amountCents
  score := o.score
  headline := o.headline
  callToAction := o.callToAction

def insertOffer (db : Db) (repId : Int) (o : MomentumOffer) : Option Db :=
  if db.offers.any fun o => o.repId = repId && o.status = .live then none
  else some { db with offers := db.offers ++ [db.armedRow repId o] }

def closeOffer (db : Db) (offerId : Nat) (saleRef : String) : Db where
  offers := db.offers.map (Offer.close offerId saleRef db.nowMs)
  spiffs := db.spiffs
  nowMs := db.nowMs

def payOffer (db : Db) (o : Offer) : Db :=
  if db.spiffs.any (·.offerId = o.id) then db
  else { db with spiffs := db.spiffs ++
    [{ offerId := o.id, repId := o.repId, amountCents := o.amountCents
       reason := momentumReason, createdAtMs := db.nowMs }] }

end Db

def armMomentumOffer (z : Zone) (cfg : MomentumConfig) (db : Db) (act : Activity) (repId : Int) :
    List Db :=
  if !cfg.enabled then []
  else
    let once := db.expireStaleOffers
    let db := once.expireStaleOffers
    if (db.liveOffer repId).isSome then [once, db]
    else
      match evaluateMomentum (db.buildSignals z cfg act repId) db.nowMs cfg with
      | .error _ => [once, db]
      | .ok o =>
        match db.insertOffer repId o with
        | none => [once, db]
        | some armed => [once, db, armed, armed.expireStaleOffers]

def convertMomentumOffer (db : Db) (repId : Int) (saleRef : String) : List Db :=
  let once := db.expireStaleOffers
  let db := once.expireStaleOffers
  match db.liveOffer repId with
  | none => [once, db]
  | some o =>
    let closed := db.closeOffer o.id saleRef
    [once, db, closed, closed.payOffer o]

inductive Call where
  | armMomentumOffer (act : Activity) (repId : Int)
  | convertMomentumOffer (repId : Int) (saleRef : String)
  | expireStaleOffers

def Call.commits (z : Zone) (cfg : MomentumConfig) (db : Db) : Call → List Db
  | .armMomentumOffer act repId => Momentum.armMomentumOffer z cfg db act repId
  | .convertMomentumOffer repId saleRef => Momentum.convertMomentumOffer db repId saleRef
  | .expireStaleOffers => [db.expireStaleOffers]

/-- A call some time after the one before. A crash stops it after a number of writes. -/
structure Action where
  waitMs : Nat := 0
  call : Call
  crashedAfter : Option Nat := none

def Db.wait (db : Db) (ms : Nat) : Db := { db with nowMs := db.nowMs + ms }

def step (z : Zone) (cfg : MomentumConfig) (db : Db) (a : Action) : Db :=
  let db := db.wait a.waitMs
  let commits := a.call.commits z cfg db
  ((a.crashedAfter.elim commits commits.take).getLast?).getD db

end HomefrontFiber.Momentum

/-!
## What the writes do to the offers

An offer keeps everything but its status, and a status other than live is final. Expiry takes no
converted cents away and a conversion adds the amount of its offer.
-/

namespace HomefrontFiber.Momentum

open List

variable {db : Db} {o o' : Offer} {z : Zone} {cfg : MomentumConfig}

namespace Offer

theorem expireAt_eq (nowMs : Int) (o : Offer) :
    o.expireAt nowMs = { o with status := (o.expireAt nowMs).status } := by
  unfold expireAt
  split <;> rfl

theorem close_eq (offerId : Nat) (saleRef : String) (nowMs : Int) (o : Offer) :
    o.close offerId saleRef nowMs = { o with status := (o.close offerId saleRef nowMs).status } := by
  unfold close
  split <;> rfl

@[simp] theorem expireAt_id (nowMs : Int) (o : Offer) : (o.expireAt nowMs).id = o.id := by
  rw [expireAt_eq]

@[simp] theorem expireAt_repId (nowMs : Int) (o : Offer) : (o.expireAt nowMs).repId = o.repId := by
  rw [expireAt_eq]

@[simp] theorem expireAt_armedAtMs (nowMs : Int) (o : Offer) :
    (o.expireAt nowMs).armedAtMs = o.armedAtMs := by
  rw [expireAt_eq]

@[simp] theorem expireAt_expiresAtMs (nowMs : Int) (o : Offer) :
    (o.expireAt nowMs).expiresAtMs = o.expiresAtMs := by
  rw [expireAt_eq]

@[simp] theorem expireAt_amountCents (nowMs : Int) (o : Offer) :
    (o.expireAt nowMs).amountCents = o.amountCents := by
  rw [expireAt_eq]

variable {offerId : Nat} {saleRef : String} {nowMs : Int}

@[simp] theorem close_id : (o.close offerId saleRef nowMs).id = o.id := by rw [close_eq]

@[simp] theorem close_repId : (o.close offerId saleRef nowMs).repId = o.repId := by rw [close_eq]

@[simp] theorem close_armedAtMs : (o.close offerId saleRef nowMs).armedAtMs = o.armedAtMs := by
  rw [close_eq]

@[simp] theorem close_expiresAtMs : (o.close offerId saleRef nowMs).expiresAtMs = o.expiresAtMs := by
  rw [close_eq]

@[simp] theorem close_amountCents : (o.close offerId saleRef nowMs).amountCents = o.amountCents := by
  rw [close_eq]

theorem expireAt_of_not_live (h : o.status ≠ .live) : o.expireAt nowMs = o := by
  unfold expireAt
  rw [if_neg fun hexpired => h hexpired.1]

theorem expireAt_live (h : (o.expireAt nowMs).status = .live) :
    o.status = .live ∧ nowMs < o.expiresAtMs := by
  unfold expireAt at h
  split at h
  · cases h
  · rename_i hstays
    exact ⟨h, lt_of_not_ge fun hle => hstays ⟨h, hle⟩⟩

theorem expireAt_converted_iff {ref : String} {t : Int} :
    (o.expireAt nowMs).status = .converted ref t ↔ o.status = .converted ref t := by
  unfold expireAt
  split
  · rename_i hexpired
    rw [hexpired.1]
    exact iff_of_false nofun nofun
  · exact Iff.rfl

theorem close_of_ne (h : o.id ≠ offerId) : o.close offerId saleRef nowMs = o := by
  unfold close
  rw [if_neg fun hclosed => h hclosed.1]

theorem close_self (h : o.status = .live) :
    o.close o.id saleRef nowMs = { o with status := .converted saleRef nowMs } := by
  unfold close
  rw [if_pos ⟨rfl, h⟩]

theorem close_of_not_live (h : o.status ≠ .live) : o.close offerId saleRef nowMs = o := by
  unfold close
  rw [if_neg fun hclosed => h hclosed.2]

theorem close_live (h : (o.close offerId saleRef nowMs).status = .live) :
    o.status = .live ∧ o.id ≠ offerId := by
  unfold close at h
  split at h
  · cases h
  · rename_i hstays
    exact ⟨h, fun hid => hstays ⟨hid, h⟩⟩

theorem isConverted_iff : o.isConverted = true ↔ ∃ ref t, o.status = .converted ref t := by
  unfold isConverted
  cases o.status <;> simp

theorem convertedIn_iff {p : Int → Bool} :
    o.convertedIn p = true ↔ ∃ ref t, o.status = .converted ref t ∧ p t = true := by
  unfold convertedIn
  cases o.status <;> simp

theorem convertedIn_expireAt (p : Int → Bool) : (o.expireAt nowMs).convertedIn p = o.convertedIn p := by
  rw [Bool.eq_iff_iff, convertedIn_iff, convertedIn_iff]
  simp only [expireAt_converted_iff]

end Offer

theorem convertedCents_eq (db : Db) (p : Int → Bool) (repId : Option Int) :
    db.convertedCents p repId = (db.offers.map fun o =>
      if o.convertedIn p && repId.all (o.repId = ·) then o.amountCents else 0).sum :=
  sum_map_filter _ _ _

theorem convertedCents_expire (db : Db) (p : Int → Bool) (repId : Option Int) :
    db.expireStaleOffers.convertedCents p repId = db.convertedCents p repId := by
  rw [convertedCents_eq, convertedCents_eq]
  unfold Db.expireStaleOffers
  rw [map_map]
  congr 2
  funext o
  simp only [Function.comp_apply, Offer.convertedIn_expireAt, Offer.expireAt_repId,
    Offer.expireAt_amountCents]

theorem sum_map_update {l : List Offer} (hnd : (l.map Offer.id).Nodup) (ho : o ∈ l)
    {f g : Offer → Int} (hg : ∀ b ∈ l, b.id ≠ o.id → g b = f b) :
    (l.map g).sum = (l.map f).sum + (g o - f o) := by
  induction l with
  | nil => cases ho
  | cons a l ih =>
    obtain ⟨hfresh, hnd⟩ := nodup_cons.mp hnd
    rw [map_cons, map_cons, sum_cons, sum_cons]
    rcases mem_cons.mp ho with rfl | ho
    · have hrest : l.map g = l.map f := by
        apply map_congr_left
        intro b hb
        apply hg b (mem_cons_of_mem _ hb)
        intro hid
        exact hfresh (hid ▸ mem_map_of_mem hb)
      rw [hrest]
      omega
    · have hne : a.id ≠ o.id := fun hid => hfresh (hid ▸ mem_map_of_mem ho)
      rw [hg a mem_cons_self hne, ih hnd ho fun b hb => hg b (mem_cons_of_mem a hb)]
      omega

theorem convertedCents_close (hnum : Numbered Offer.id db.offers) (ho : o ∈ db.offers)
    (hlive : o.status = .live) (saleRef : String) (p : Int → Bool) (repId : Option Int) :
    (db.closeOffer o.id saleRef).convertedCents p repId =
      db.convertedCents p repId +
        if p db.nowMs && repId.all (o.repId = ·) then o.amountCents else 0 := by
  rw [convertedCents_eq, convertedCents_eq]
  unfold Db.closeOffer
  rw [map_map, sum_map_update hnum.nodup ho (f := fun b =>
    if b.convertedIn p && repId.all (b.repId = ·) then b.amountCents else 0)]
  · have hbefore : o.convertedIn p = false := by
      unfold Offer.convertedIn
      rw [hlive]
    have hafter : (o.close o.id saleRef db.nowMs).convertedIn p = p db.nowMs := by
      rw [Offer.close_self hlive]
      rfl
    simp only [Function.comp_apply, hbefore, hafter, Offer.close_repId, Offer.close_amountCents,
      Bool.false_and, Bool.false_eq_true, if_false, sub_zero]
  · intro b _ hne
    rw [Function.comp_apply, Offer.close_of_ne hne]

theorem expire_expire (db : Db) :
    db.expireStaleOffers.expireStaleOffers = db.expireStaleOffers := by
  have hrow : ∀ o : Offer, (o.expireAt db.nowMs).expireAt db.nowMs = o.expireAt db.nowMs := by
    intro o
    by_cases hlive : (o.expireAt db.nowMs).status = .live
    · obtain ⟨hbefore, hopen⟩ := Offer.expireAt_live hlive
      have hstays : o.expireAt db.nowMs = o := if_neg fun h => absurd h.2 (not_le.mpr hopen)
      rw [hstays, hstays]
    · exact Offer.expireAt_of_not_live hlive
  unfold Db.expireStaleOffers
  rw [map_map]
  congr 2
  funext o
  exact hrow o

variable {repId : Int} {new : MomentumOffer} {s : Db}

theorem liveOffer_some (h : db.liveOffer repId = some o) :
    o ∈ db.offers ∧ o.repId = repId ∧ o.status = .live ∧ db.nowMs < o.expiresAtMs := by
  have hmem := mem_reverse.mp (mem_of_find?_eq_some h)
  have hfound := find?_some h
  simp only [Bool.and_eq_true, decide_eq_true_eq] at hfound
  exact ⟨hmem, hfound.1.1, hfound.1.2, hfound.2⟩

/-- The state after a number of writes is one that the call commits, or the one it began in. -/
theorem crashed_mem (db : Db) (commits : List Db) (crashedAfter : Option Nat) :
    ((crashedAfter.elim commits commits.take).getLast?).getD db ∈ db :: commits := by
  cases hlast : (crashedAfter.elim commits commits.take).getLast? with
  | none => exact mem_cons_self
  | some s =>
    apply mem_cons_of_mem
    have hmem := mem_of_getLast? hlast
    cases crashedAfter with
    | none => exact hmem
    | some n => exact mem_of_mem_take hmem

def Db.atCall (db : Db) (a : Action) : Db := (db.wait a.waitMs).expireStaleOffers

theorem insertOffer_some {db' : Db} (h : db.insertOffer repId new = some db') :
    (∀ held ∈ db.offers, held.repId = repId → held.status ≠ .live) ∧
      db' = { db with offers := db.offers ++ [db.armedRow repId new] } := by
  unfold Db.insertOffer at h
  split at h
  · cases h
  · rename_i hfree
    refine ⟨?_, (Option.some.inj h).symm⟩
    simpa using hfree

theorem expire_armed (hdb : db.expireStaleOffers = db) (hopen : db.nowMs < new.expiresAtMs) :
    Db.expireStaleOffers { db with offers := db.offers ++ [db.armedRow repId new] } =
      { db with offers := db.offers ++ [db.armedRow repId new] } := by
  have hrows : db.offers.map (Offer.expireAt db.nowMs) = db.offers := congrArg Db.offers hdb
  have hnew : (db.armedRow repId new).expireAt db.nowMs = db.armedRow repId new :=
    if_neg fun h => absurd h.2 (not_le.mpr hopen)
  unfold Db.expireStaleOffers
  simp only [map_append, map_cons, map_nil, hrows, hnew]

theorem armMomentumOffer_mem {act : Activity}
    (hlength : 0 < cfg.offerMinutes) (h : s ∈ armMomentumOffer z cfg db act repId) :
    s = db.expireStaleOffers ∨ ∃ new,
      (∀ held ∈ db.expireStaleOffers.offers, held.repId = repId → held.status ≠ .live) ∧
      evaluateMomentum (db.expireStaleOffers.buildSignals z cfg act repId)
        db.expireStaleOffers.nowMs cfg = .ok new ∧
      s = { db.expireStaleOffers with
        offers := db.expireStaleOffers.offers ++ [db.expireStaleOffers.armedRow repId new] } := by
  unfold armMomentumOffer at h
  split at h
  · cases h
  · dsimp only at h
    rw [expire_expire] at h
    split at h
    · left
      simpa using h
    · split at h
      · left
        simpa using h
      · rename_i new hnew
        split at h
        · left
          simpa using h
        · rename_i armed harmed
          obtain ⟨hfree, rfl⟩ := insertOffer_some harmed
          have hopen : db.expireStaleOffers.nowMs < new.expiresAtMs := by
            rw [(evaluateMomentum_ok hnew).2.1]
            omega
          rw [expire_armed (expire_expire db) hopen] at h
          simp only [mem_cons, not_mem_nil, or_false] at h
          rcases h with h | h | h | h
          · exact .inl h
          · exact .inl h
          · exact .inr ⟨new, hfree, hnew, h⟩
          · exact .inr ⟨new, hfree, hnew, h⟩

theorem convertMomentumOffer_cases (db : Db) (repId : Int) (saleRef : String)
    (crashedAfter : Option Nat) (h : ((crashedAfter.elim (convertMomentumOffer db repId saleRef)
      (convertMomentumOffer db repId saleRef).take).getLast?).getD db = s) :
    s = db ∨ s = db.expireStaleOffers ∨
      ∃ o, db.expireStaleOffers.liveOffer repId = some o ∧
        (crashedAfter = some 3 ∧ s = db.expireStaleOffers.closeOffer o.id saleRef ∨
          s = (db.expireStaleOffers.closeOffer o.id saleRef).payOffer o) := by
  unfold convertMomentumOffer at h
  dsimp only at h
  rw [expire_expire] at h
  cases hlive : db.expireStaleOffers.liveOffer repId with
  | none =>
    rw [hlive] at h
    have hmem := crashed_mem db [db.expireStaleOffers, db.expireStaleOffers] crashedAfter
    dsimp only at h
    rw [h] at hmem
    simp only [mem_cons, not_mem_nil, or_false] at hmem
    rcases hmem with hmem | hmem | hmem
    · exact .inl hmem
    · exact .inr (.inl hmem)
    · exact .inr (.inl hmem)
  | some o =>
    rw [hlive] at h
    dsimp only at h
    match crashedAfter with
    | none => exact .inr (.inr ⟨o, rfl, .inr h.symm⟩)
    | some 0 => exact .inl h.symm
    | some 1 => exact .inr (.inl h.symm)
    | some 2 => exact .inr (.inl h.symm)
    | some 3 => exact .inr (.inr ⟨o, rfl, .inl ⟨rfl, h.symm⟩⟩)
    | some (n + 4) => exact .inr (.inr ⟨o, rfl, .inr (by simpa using h.symm)⟩)

end HomefrontFiber.Momentum
