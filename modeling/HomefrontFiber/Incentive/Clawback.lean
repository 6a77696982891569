import HomefrontFiber.Incentive.OrderedDelivery

/-!
# A clawback takes what was paid

A cancelled sale reverses each award that its approval caused with a negative row of its own. A run
in which every cancellation finds the awards that it takes back neither void nor reversed by another
event, and in which no reversed award is voided, leaves no recipient of a sale with a negative sum.
-/

namespace HomefrontFiber.Incentive

open List

def voidSpiff (tenantId id : Nat) (book : AwardBook) : AwardBook :=
  { book with
    spiffs := book.spiffs.map fun s =>
      if s.tenantId = tenantId ∧ s.id = id ∧ 0 < s.amountCents then { s with status := .void }
      else s }

inductive DeskAction
  | queue (action : Action)
  | void (tenantId id : Nat)

/-- The queue with a manager who voids awards between its statements. -/
def deskStep (s : System) : DeskAction → System
  | .queue action => step s action
  | .void tenantId id => { s with book := voidSpiff tenantId id s.book }

def ofSale (sale : Nat) (e : DomainEvent) : Bool :=
  e.subjectId = sale && (e.type = .saleCancelled || e.subjectType = .sale && e.type = .saleApproved)

/-- The rows that a sale caused for a recipient and that are not void. -/
def saleRows (s : System) (tenantId repId sale : Nat) : List Spiff :=
  s.book.spiffs.filter fun r =>
    r.tenantId = tenantId && r.repId = repId && r.status ≠ .void &&
      s.events.any fun e => r.sourceEventId = some e.id && ofSale sale e

/-- The row names the award and its own source event as a clawback does. -/
def Reverses (r award : Spiff) : Prop :=
  r.amountCents < 0 ∧ 0 < award.amountCents ∧ r.tenantId = award.tenantId ∧
    ∃ eventId ∈ r.sourceEventId, r.saleRef = some (clawbackRef award.id eventId)

instance (r award : Spiff) : Decidable (Reverses r award) :=
  inferInstanceAs (Decidable (_ ∧ _ ∧ _ ∧ ∃ eventId ∈ r.sourceEventId, _))

def reversalsOf (book : AwardBook) (award : Spiff) : List Spiff :=
  book.spiffs.filter fun r => Reverses r award

structure Bounded (s : System) : Prop where
  balance : ∀ tenantId repId sale, 0 ≤ sumCents (saleRows s tenantId repId sale)
  once : ∀ award ∈ s.book.spiffs, (reversalsOf s.book award).length ≤ 1

def VoidsKept (s t : System) : Prop :=
  ∀ award ∈ s.book.spiffs, award.status = .void →
    (reversalsOf t.book award).length = (reversalsOf s.book award).length

def clawbackCents (book : AwardBook) (event : DomainEvent) (award : Spiff) : Option Int :=
  let campaign := book.campaigns.find? fun c => award.campaignId = some c.id
  let policy := (campaign.map (·.clawbackPolicy)).getD defaultClawback
  evaluateClawback policy award.createdAtMs event.occurredAtMs award.amountCents

/-- The event whose transaction the next statement of a worker commits. -/
def committing (worker : Nat) (weather : Weather) (s : System) : Option DomainEvent :=
  match phaseOf worker s with
  | some (.working event _ _) => if weather.throws then none else some event
  | _ => none

/-- The award is not void, and no other event has reversed it. -/
def Unclaimed (book : AwardBook) (event : DomainEvent) (award : Spiff) : Prop :=
  award.status ≠ .void ∧
    ∀ r ∈ book.spiffs, Reverses r award → r.sourceEventId = some event.id

/-- A cancellation takes back unclaimed awards only, and a manager voids none that is reversed. -/
def ClawsOnce (s : System) : DeskAction → Prop
  | .queue (.resume worker weather) => ∀ event ∈ committing worker weather s,
      event.type = .saleCancelled → ∀ award ∈ priorAwards s.book s.events event,
        (clawbackCents s.book event award).isSome → Unclaimed s.book event award
  | .void tenantId id => ∀ award ∈ s.book.spiffs, award.tenantId = tenantId → award.id = id →
      ∀ r ∈ s.book.spiffs, ¬Reverses r award
  | _ => True

instance (s t : System) : Decidable (VoidsKept s t) :=
  inferInstanceAs (Decidable (∀ award ∈ s.book.spiffs, _ → _))

instance (book : AwardBook) (event : DomainEvent) (award : Spiff) :
    Decidable (Unclaimed book event award) := inferInstanceAs (Decidable (_ ∧ ∀ r ∈ book.spiffs, _ → _))

instance (s : System) : ∀ a : DeskAction, Decidable (ClawsOnce s a)
  | .queue (.resume worker weather) =>
    inferInstanceAs (Decidable (∀ event ∈ committing worker weather s, _ → ∀ award ∈ _, _ → _))
  | .void tenantId id =>
    inferInstanceAs (Decidable (∀ award ∈ s.book.spiffs, award.tenantId = tenantId →
      award.id = id → ∀ r ∈ s.book.spiffs, ¬Reverses r award))
  | .queue (.emit _) | .queue (.begin _ _) | .queue (.crash _) | .queue (.operator _)
  | .queue (.resetCursor _) | .queue (.createCampaign _) | .queue (.setCampaignActive _ _)
  | .queue (.settleSpiff _ _ _) | .queue (.otherSpiff _) => isTrue trivial

theorem clawbackRef_inj {awardId awardId' eventId : Nat}
    (h : clawbackRef awardId eventId = clawbackRef awardId' eventId) : awardId = awardId' := by
  have hdigits : Nat.toDigits 10 awardId = Nat.toDigits 10 awardId' := by
    simpa [clawbackRef] using congrArg String.toList h
  have hread := congrArg (Nat.ofDigitChars 10 · 0) hdigits
  simpa using hread

theorem Reverses.id_eq {r award award' : Spiff} (h : Reverses r award) (h' : Reverses r award') :
    award.id = award'.id := by
  obtain ⟨-, -, -, eventId, hevent, href⟩ := h
  obtain ⟨-, -, -, eventId', hevent', href'⟩ := h'
  obtain rfl := Option.some_inj.mp (hevent.symm.trans hevent')
  exact clawbackRef_inj (Option.some_inj.mp (href.symm.trans href'))

theorem evaluateClawback_some {policy : ClawbackPolicy} {awardedAtMs cancelledAtMs amount cents : Int}
    (h : evaluateClawback policy awardedAtMs cancelledAtMs amount = some cents) (hpos : 0 < amount) :
    cents = amount := by
  have hmax : max 0 amount = amount := by omega
  have hround : (roundDiv (amount * 10000).toNat 10000 : Int) = amount := by
    unfold roundDiv
    omega
  unfold evaluateClawback at h
  dsimp only at h
  rw [hmax] at h
  split at h
  · cases h
  · split at h
    · cases h
    · split at h
      · cases h
      · split at h
        · rw [hround, if_pos hpos] at h
          exact (Option.some_inj.mp h).symm
        · exact (Option.some_inj.mp h).symm

/-- A negative row, the award that it reverses and the events that caused the two. -/
structure Reversal (events : List DomainEvent) (book : AwardBook) (r award : Spiff) : Prop where
  mem : award ∈ book.spiffs
  reverses : Reverses r award
  amount : r.amountCents = -award.amountCents
  repId : r.repId = award.repId
  standing : award.status ≠ .void
  sources : ∃ e ∈ events, r.sourceEventId = some e.id ∧ e.type = .saleCancelled ∧
    ∃ e' ∈ events, award.sourceEventId = some e'.id ∧ e'.subjectType = .sale ∧
      e'.subjectId = e.subjectId ∧ e'.type = .saleApproved

structure Fair (events : List DomainEvent) (book : AwardBook) : Prop where
  logged : Numbered (·.id) events
  numbered : Numbered (·.id) book.spiffs
  sources : ∀ r ∈ book.spiffs, ∀ k ∈ r.sourceEventId, ∃ e ∈ events, e.id = k
  reversals : ∀ r ∈ book.spiffs, r.amountCents < 0 → r.sourceEventId ≠ none →
    ∃ award, Reversal events book r award
  once : book.spiffs.Pairwise fun r r' => ∀ award ∈ book.spiffs, Reverses r award → ¬Reverses r' award

theorem fair_empty : Fair [] AwardBook.empty where
  logged := Numbered.nil
  numbered := Numbered.nil
  sources := fun _ hr => absurd hr not_mem_nil
  reversals := fun _ hr => absurd hr not_mem_nil
  once := List.Pairwise.nil

section Book

variable {events : List DomainEvent} {book : AwardBook} {r award : Spiff}

variable {events' : List DomainEvent} {book' : AwardBook} {event : DomainEvent} {f : Spiff → Spiff}

theorem Reversal.of_subset (h : Reversal events book r award) (hevents : ∀ e ∈ events, e ∈ events')
    (hspiffs : ∀ s ∈ book.spiffs, s ∈ book'.spiffs) : Reversal events' book' r award := by
  obtain ⟨e, he, hsource, htype, e', he', hsource'⟩ := h.sources
  exact ⟨hspiffs award h.mem, h.reverses, h.amount, h.repId, h.standing, e, hevents e he, hsource,
    htype, e', hevents e' he', hsource'⟩

theorem Fair.reversal (h : Fair events book) (hr : r ∈ book.spiffs) (hreverses : Reverses r award) :
    ∃ award' ∈ book.spiffs, award'.id = award.id ∧ Reversal events book r award' := by
  have hsourced : r.sourceEventId ≠ none := by
    obtain ⟨-, -, -, eventId, hevent, -⟩ := hreverses
    intro hnone
    rw [hnone] at hevent
    cases hevent
  obtain ⟨award', hreversal⟩ := h.reversals r hr hreverses.1 hsourced
  exact ⟨award', hreversal.mem, hreversal.reverses.id_eq hreverses, hreversal⟩

/-- A new row keeps a book fair when it reverses an award that no row has reversed, or none. -/
theorem Fair.snoc (h : Fair events book) (hid : r.id = book.spiffs.length + 1)
    (hsource : ∀ k ∈ r.sourceEventId, ∃ e ∈ events, e.id = k)
    (hreversal : r.amountCents < 0 → r.sourceEventId ≠ none → ∃ award, Reversal events book r award)
    (hfirst : ∀ old ∈ book.spiffs, ∀ award ∈ book.spiffs, Reverses old award → ¬Reverses r award) :
    Fair events { book with spiffs := book.spiffs ++ [r] } := by
  have hfresh : ∀ old ∈ book.spiffs, ¬Reverses old r := by
    intro old hold hreverses
    obtain ⟨award, haward, heq, -⟩ := h.reversal hold hreverses
    have hle := h.numbered.le_length haward
    omega
  refine ⟨h.logged, h.numbered.snoc hid, ?_, ?_, ?_⟩
  · intro s hs
    rcases mem_append.mp hs with hold | hnew
    · exact h.sources s hold
    · obtain rfl := mem_singleton.mp hnew
      exact hsource
  · intro s hs hneg hsourced
    have hsub : ∀ s ∈ book.spiffs, s ∈ book.spiffs ++ [r] := fun s => mem_append_left [r]
    rcases mem_append.mp hs with hold | hnew
    · obtain ⟨award, hrev⟩ := h.reversals s hold hneg hsourced
      exact ⟨award, hrev.of_subset (fun _ he => he) hsub⟩
    · obtain rfl := mem_singleton.mp hnew
      obtain ⟨award, hrev⟩ := hreversal hneg hsourced
      exact ⟨award, hrev.of_subset (fun _ he => he) hsub⟩
  · refine pairwise_append.mpr ⟨?_, pairwise_singleton _ r, ?_⟩
    · refine h.once.imp_of_mem ?_
      intro old old' hold _ hpair award haward hreverses
      rcases mem_append.mp haward with haward | hnew
      · exact hpair award haward hreverses
      · obtain rfl := mem_singleton.mp hnew
        exact absurd hreverses (hfresh old hold)
    · intro old hold s hs award haward hreverses
      obtain rfl := mem_singleton.mp hs
      rcases mem_append.mp haward with haward | hnew
      · exact hfirst old hold award haward hreverses
      · obtain rfl := mem_singleton.mp hnew
        exact absurd hreverses (hfresh old hold)

def Untouched (book book' : AwardBook) : Prop :=
  ∀ award ∈ book.spiffs, award.status = .void →
    award ∈ book'.spiffs ∧ reversalsOf book' award = reversalsOf book award

theorem Untouched.refl (book : AwardBook) : Untouched book book := fun _ haward _ => ⟨haward, rfl⟩

theorem Untouched.trans {book'' : AwardBook} (h : Untouched book book')
    (h' : Untouched book' book'') : Untouched book book'' := by
  intro award haward hvoid
  obtain ⟨hmem, heq⟩ := h award haward hvoid
  obtain ⟨hmem', heq'⟩ := h' award hmem hvoid
  exact ⟨hmem', heq'.trans heq⟩

theorem untouched_snoc (hr : ∀ award ∈ book.spiffs, award.status = .void → ¬Reverses r award) :
    Untouched book { book with spiffs := book.spiffs ++ [r] } := by
  intro award haward hvoid
  refine ⟨mem_append_left _ haward, ?_⟩
  have hnot : decide (Reverses r award) = false := by simpa using hr award haward hvoid
  unfold reversalsOf
  rw [filter_append, filter_singleton, hnot, cond_false, append_nil]

theorem Fair.insert (h : Fair events book) {row : SpiffInput}
    (hsource : ∀ k ∈ row.sourceEventId, ∃ e ∈ events, e.id = k)
    (hplain : row.amountCents < 0 → row.sourceEventId = none) :
    Fair events (book.insert row) ∧ Untouched book (book.insert row) := by
  have hnot : ∀ award, ¬Reverses (row.toSpiff (book.spiffs.length + 1)) award := by
    rintro award ⟨hneg, -, -, eventId, hevent, -⟩
    have hnone : (row.toSpiff (book.spiffs.length + 1)).sourceEventId = none := hplain hneg
    rw [hnone] at hevent
    cases hevent
  unfold AwardBook.insert
  split
  · exact ⟨h, Untouched.refl book⟩
  · refine ⟨h.snoc rfl hsource ?_ fun _ _ award _ _ => hnot award, untouched_snoc fun award _ _ => hnot award⟩
    intro hneg hsourced
    exact absurd (hplain hneg) hsourced

def clawbackRow (book : AwardBook) (event : DomainEvent) (nowMs : Int) (award : Spiff)
    (cents : Int) : SpiffInput where
  tenantId := event.tenantId
  repId := award.repId
  saleRef := some (clawbackRef award.id event.id)
  amountCents := -cents
  reason := "Clawback - " ++ award.reason
  status := .approved
  createdAtMs := nowMs
  campaignId := award.campaignId
  sourceEventId := some event.id
  incentiveType := (book.campaigns.find? fun c => award.campaignId = some c.id).map (·.incentiveType)

theorem clawbackOne_eq (event : DomainEvent) (nowMs : Int) (book : AwardBook) (award : Spiff) :
    clawbackOne event nowMs book award = match clawbackCents book event award with
      | none => book
      | some cents => book.insert (clawbackRow book event nowMs award cents) := rfl

structure Prior (events : List DomainEvent) (event : DomainEvent) (award : Spiff) : Prop where
  tenantId : award.tenantId = event.tenantId
  positive : 0 < award.amountCents
  source : ∃ e ∈ events, award.sourceEventId = some e.id ∧ e.subjectType = .sale ∧
    e.subjectId = event.subjectId ∧ e.type = .saleApproved

theorem prior_of_mem (h : award ∈ priorAwards book events event) :
    award ∈ book.spiffs ∧ Prior events event award := by
  obtain ⟨hmem, hmatch⟩ := mem_filter.mp h
  simp only [Bool.and_eq_true, decide_eq_true_eq, any_eq_true] at hmatch
  obtain ⟨⟨htenant, hpos⟩, e, he, ⟨⟨hsource, htype⟩, hsubject⟩, hkind⟩ := hmatch
  exact ⟨hmem, htenant, hpos, e, he, hsource, htype, hsubject, hkind⟩

/-- The clawback of one award leaves a fair book, does not touch the void awards, and reverses no
other award. -/
theorem Fair.clawbackOne (h : Fair events book) (hevent : event ∈ events)
    (htype : event.type = .saleCancelled) (hmem : award ∈ book.spiffs)
    (hprior : Prior events event award)
    (hfree : (clawbackCents book event award).isSome → Unclaimed book event award) (nowMs : Int) :
    Fair events (clawbackOne event nowMs book award) ∧
      Untouched book (clawbackOne event nowMs book award) ∧
      (∀ s ∈ book.spiffs, s ∈ (clawbackOne event nowMs book award).spiffs) ∧
      ∀ r ∈ (clawbackOne event nowMs book award).spiffs, r ∈ book.spiffs ∨ Reverses r award := by
  rw [clawbackOne_eq]
  cases hcents : clawbackCents book event award with
  | none => exact ⟨h, Untouched.refl book, fun _ hs => hs, fun _ hr => Or.inl hr⟩
  | some cents =>
    obtain rfl : cents = award.amountCents := evaluateClawback_some hcents hprior.positive
    obtain ⟨hstanding, hclaimed⟩ := hfree (by rw [hcents]; rfl)
    dsimp only
    unfold AwardBook.insert
    split
    · exact ⟨h, Untouched.refl book, fun _ hs => hs, fun _ hr => Or.inl hr⟩
    · rename_i hrefused
      set r := (clawbackRow book event nowMs award award.amountCents).toSpiff
        (book.spiffs.length + 1) with hr
      have hreverses : Reverses r award := by
        refine ⟨?_, hprior.positive, hprior.tenantId.symm, event.id, rfl, rfl⟩
        exact Int.neg_neg_of_pos hprior.positive
      have hnone : ∀ old ∈ book.spiffs, ¬Reverses old award := by
        intro old hold hreversed
        have hsource := hclaimed old hold hreversed
        obtain ⟨-, -, htenant, eventId, heventId, href⟩ := hreversed
        obtain rfl := Option.some_inj.mp (hsource.symm.trans heventId)
        apply hrefused
        simp only [AwardBook.refused, Bool.and_eq_true, any_eq_true, decide_eq_true_eq]
        exact ⟨rfl, old, hold, htenant.trans hprior.tenantId, href⟩
      have honly : ∀ award' ∈ book.spiffs, Reverses r award' → award' = award := by
        intro award' haward' hreverses'
        exact h.numbered.eq_of_key haward' hmem (hreverses'.id_eq hreverses)
      refine ⟨h.snoc rfl ?_ ?_ ?_, untouched_snoc ?_, fun s => mem_append_left [r], ?_⟩
      · intro k hk
        obtain rfl := Option.some_inj.mp hk
        exact ⟨event, hevent, rfl⟩
      · intro _ _
        exact ⟨award, hmem, hreverses, rfl, rfl, hstanding, event, hevent, rfl, htype, hprior.source⟩
      · intro old hold award' haward' hreversed hreverses'
        obtain rfl := honly award' haward' hreverses'
        exact hnone old hold hreversed
      · intro award' haward' hvoid hreverses'
        obtain rfl := honly award' haward' hreverses'
        exact hstanding hvoid
      · intro s hs
        rcases mem_append.mp hs with hold | hnew
        · exact Or.inl hold
        · obtain rfl := mem_singleton.mp hnew
          exact Or.inr hreverses

theorem Fair.applyClawbacks (h : Fair events book) (hevent : event ∈ events)
    (htype : event.type = .saleCancelled)
    (hfree : ∀ award ∈ priorAwards book events event, (clawbackCents book event award).isSome →
      Unclaimed book event award) (nowMs : Int) :
    Fair events (applyClawbacks events event nowMs book) ∧
      Untouched book (applyClawbacks events event nowMs book) := by
  -- the awards that are still to come are as the transaction found them
  have hfold := foldl_induction (f := Incentive.clawbackOne event nowMs)
    (I := fun rest b => Fair events b ∧ Untouched book b ∧ b.campaigns = book.campaigns ∧
      rest.Nodup ∧ ∀ award ∈ rest, award ∈ b.spiffs ∧ Prior events event award ∧
        ((clawbackCents book event award).isSome → Unclaimed b event award))
    (l := priorAwards book events event) (s := book) ?_ ?_
  · exact ⟨hfold.1, hfold.2.1⟩
  · intro award rest b ⟨hfair, huntouched, hcampaigns, hnodup, hrest⟩
    obtain ⟨hnot, hnodup⟩ := nodup_cons.mp hnodup
    obtain ⟨hmem, hprior, hclaim⟩ := hrest award mem_cons_self
    have hcents : ∀ award, clawbackCents b event award = clawbackCents book event award := by
      intro award
      unfold clawbackCents
      rw [hcampaigns]
    obtain ⟨hfair', huntouched', hkept, hnew⟩ :=
      hfair.clawbackOne hevent htype hmem hprior (hcents award ▸ hclaim) nowMs
    refine ⟨hfair', huntouched.trans huntouched',
      (clawbackOne_campaigns event nowMs b award).trans hcampaigns, hnodup, ?_⟩
    intro other hother
    obtain ⟨hotherMem, hotherPrior, hotherClaim⟩ := hrest other (mem_cons_of_mem award hother)
    refine ⟨hkept other hotherMem, hotherPrior, fun hsome => ?_⟩
    obtain ⟨hstanding, hclaimed⟩ := hotherClaim hsome
    refine ⟨hstanding, fun r hr hreverses => ?_⟩
    rcases hnew r hr with hold | hreverses'
    · exact hclaimed r hold hreverses
    · have heq := hfair.numbered.eq_of_key hotherMem hmem (hreverses.id_eq hreverses')
      exact absurd (heq ▸ hother) hnot
  · refine ⟨h, Untouched.refl book, rfl, ?_, fun award haward => ?_⟩
    · exact (List.Nodup.of_map _ h.numbered.nodup).filter _
    · exact ⟨(prior_of_mem haward).1, (prior_of_mem haward).2, hfree award haward⟩

theorem Fair.awardOne (h : Fair events book) (around : Surroundings)
    (hevent : event ∈ events) (nowMs : Int) (campaign : IncentiveCampaign) :
    Fair events (awardOne around event nowMs book campaign) ∧
      Untouched book (awardOne around event nowMs book campaign) := by
  unfold Incentive.awardOne
  dsimp only
  split
  · exact ⟨h, Untouched.refl book⟩
  · rename_i award haward
    obtain ⟨-, -, -, -, hcaps⟩ := evaluateIncentive_ok haward
    obtain ⟨hpos, -, -⟩ := applyCaps_ok hcaps
    apply h.insert
    · intro k hk
      obtain rfl := Option.some_inj.mp hk
      exact ⟨event, hevent, rfl⟩
    · intro hneg
      exact absurd hneg (Int.not_lt.mpr (Int.le_of_lt hpos))

theorem Fair.processEvent (h : Fair events book) (around : Surroundings)
    (hevent : event ∈ events) (nowMs : Int)
    (hfree : event.type = .saleCancelled → ∀ award ∈ priorAwards book events event,
      (clawbackCents book event award).isSome → Unclaimed book event award) :
    Fair events (processEvent events around event nowMs book) ∧
      Untouched book (processEvent events around event nowMs book) := by
  unfold Incentive.processEvent
  split
  · rename_i htype
    exact h.applyClawbacks hevent htype (hfree htype) nowMs
  · apply foldl_induction (f := Incentive.awardOne around event nowMs)
      (I := fun _ b => Fair events b ∧ Untouched book b)
    · intro campaign _ b ⟨hfair, huntouched⟩
      obtain ⟨hfair', huntouched'⟩ := hfair.awardOne around hevent nowMs campaign
      exact ⟨hfair', huntouched.trans huntouched'⟩
    · exact ⟨h, Untouched.refl book⟩

theorem reverses_relabel (hf : ∀ s, ∃ status, f s = { s with status := status })
    (r award : Spiff) : (Reverses (f r) award ↔ Reverses r award) ∧
      (Reverses r (f award) ↔ Reverses r award) := by
  obtain ⟨status, hr⟩ := hf r
  obtain ⟨status', haward⟩ := hf award
  rw [hr, haward]
  exact ⟨Iff.rfl, Iff.rfl⟩

theorem relabel_ite {c : Prop} [Decidable c] (r : Spiff) (status : SpiffStatus) :
    ∃ status', (if c then { r with status := status } else r) = { r with status := status' } := by
  split
  · exact ⟨status, rfl⟩
  · exact ⟨r.status, rfl⟩

/-- Rows that only change their status keep a book fair as long as no reversed award becomes
void. -/
theorem Fair.relabel (h : Fair events book) (hf : ∀ s, ∃ status, f s = { s with status := status })
    (hstanding : ∀ award ∈ book.spiffs, award.status ≠ .void →
      (∃ r ∈ book.spiffs, Reverses r award) → (f award).status ≠ .void) :
    Fair events { book with spiffs := book.spiffs.map f } := by
  refine ⟨h.logged, h.numbered.map fun s _ => ?_, ?_, ?_, ?_⟩
  · obtain ⟨status, heq⟩ := hf s
    rw [heq]
  · intro r' hr'
    obtain ⟨r, hr, rfl⟩ := mem_map.mp hr'
    obtain ⟨status, heq⟩ := hf r
    rw [heq]
    exact h.sources r hr
  · intro r' hr' hneg hsourced
    obtain ⟨r, hr, rfl⟩ := mem_map.mp hr'
    obtain ⟨status, heq⟩ := hf r
    rw [heq] at hneg hsourced ⊢
    obtain ⟨award, hreversal⟩ := h.reversals r hr hneg hsourced
    have hkept := hstanding award hreversal.mem hreversal.standing ⟨r, hr, hreversal.reverses⟩
    have hmem : f award ∈ book.spiffs.map f := mem_map_of_mem hreversal.mem
    obtain ⟨status', heq'⟩ := hf award
    rw [heq'] at hkept hmem
    exact ⟨_, hmem, hreversal.reverses, hreversal.amount, hreversal.repId, hkept,
      hreversal.sources⟩
  · rw [pairwise_map]
    refine h.once.imp ?_
    intro r r' hpair award' haward' hreverses hreverses'
    obtain ⟨award, haward, rfl⟩ := mem_map.mp haward'
    rw [(reverses_relabel hf r _).1, (reverses_relabel hf r award).2] at hreverses
    rw [(reverses_relabel hf r' _).1, (reverses_relabel hf r' award).2] at hreverses'
    exact hpair award haward hreverses hreverses'

theorem length_reversalsOf_relabel
    (hf : ∀ s, ∃ status, f s = { s with status := status }) (award : Spiff) :
    (reversalsOf { book with spiffs := book.spiffs.map f } award).length =
      (reversalsOf book award).length := by
  have hsame : ((fun r => decide (Reverses r award)) ∘ f) = fun r => decide (Reverses r award) := by
    funext r
    exact decide_eq_decide.mpr (reverses_relabel hf r award).1
  unfold reversalsOf
  rw [filter_map, length_map, hsame]

theorem Fair.log (h : Fair events book)
    (hnumbered : Numbered (·.id) events') (hsub : ∀ e ∈ events, e ∈ events') :
    Fair events' book := by
  refine ⟨hnumbered, h.numbered, ?_, ?_, h.once⟩
  · intro r hr k hk
    obtain ⟨e, he, hid⟩ := h.sources r hr k hk
    exact ⟨e, hsub e he, hid⟩
  · intro r hr hneg hsourced
    obtain ⟨award, hreversal⟩ := h.reversals r hr hneg hsourced
    exact ⟨award, hreversal.of_subset hsub fun _ hs => hs⟩

theorem Fair.campaigns (h : Fair events book) (campaigns : List IncentiveCampaign) :
    Fair events { book with campaigns := campaigns } := by
  refine ⟨h.logged, h.numbered, h.sources, ?_, h.once⟩
  intro r hr hneg hsourced
  obtain ⟨award, hreversal⟩ := h.reversals r hr hneg hsourced
  exact ⟨award, hreversal.of_subset (fun _ he => he) fun _ hs => hs⟩

end Book

section Desk

variable {s : System}

def Held (s : System) : Prop := ∀ w ∈ s.workers, ∀ e ∈ w.2.batch, e ∈ s.events

theorem Held.setPhase (h : Held s) (worker : Nat) (phase : Phase)
    (hphase : ∀ e ∈ phase.batch, e ∈ s.events) : Held (setPhase worker phase s) :=
  forall_setPhase (P := fun p => ∀ e ∈ p.batch, e ∈ s.events) h hphase worker

theorem Held.endDrain (h : Held s) (worker : Nat) : Held (endDrain worker s) :=
  forall_endDrain (P := fun p => ∀ e ∈ p.batch, e ∈ s.events) h worker

theorem mem_events_emit {e : DomainEvent} (he : e ∈ s.events) (input : DomainEvent) :
    e ∈ (emit input s).events := by
  rcases emit_events input s with heq | heq
  · exact heq ▸ he
  · rw [heq]
    exact mem_append_left _ he

theorem Held.emit (h : Held s) (input : DomainEvent) : Held (emit input s) := by
  intro w hw e he
  rw [(emit_frame input s).2.2.2] at hw
  exact mem_events_emit (h w hw e he) input

theorem mem_events_commit {e : DomainEvent} (he : e ∈ s.events) (weather : Weather)
    (event : DomainEvent) : e ∈ (commit weather event s).events := by
  unfold commit
  split
  · apply foldl_induction (I := fun (_ : List DomainEvent) (t : System) => e ∈ t.events)
    · exact fun input _ t ht => mem_events_emit ht input
    · exact he
  · exact he

theorem mem_events_advancePhase {e : DomainEvent} (he : e ∈ s.events) (worker : Nat)
    (weather : Weather) (phase : Phase) : e ∈ (advancePhase worker weather s phase).events := by
  obtain ⟨t, hnext, hkept⟩ := advancePhase_cases worker weather s phase
  have hmem : e ∈ t.events := by
    rcases hkept with hsame | ⟨event, -, -, -, -, rfl⟩
    · exact hsame.1 ▸ he
    · exact mem_events_commit he weather event
  rcases hnext with heq | ⟨next, heq, -⟩ <;> exact heq ▸ hmem

theorem held_advancePhase (h : Held s) {worker : Nat} {phase : Phase}
    (hphase : ∀ e ∈ phase.batch, e ∈ s.events) (weather : Weather) :
    Held (advancePhase worker weather s phase) := by
  intro w hw e he
  apply mem_events_advancePhase
  obtain ⟨t, hnext, hkept⟩ := advancePhase_cases worker weather s phase
  have hworkers : t.workers = s.workers := by
    rcases hkept with hsame | ⟨event, -, -, -, -, rfl⟩
    · exact hsame.2.2.1
    · exact (commit_frame weather event s).2.2
  rcases hnext with hend | ⟨next, hset, hbatch⟩
  · rw [hend, mem_endDrain, hworkers] at hw
    exact h w hw.1 e he
  · rw [hset, mem_setPhase, hworkers] at hw
    rcases hw with rfl | ⟨hw, -⟩
    · exact (hbatch e he).elim (hphase e) id
    · exact h w hw e he

structure Sound (s : System) : Prop where
  logged : Logged s
  held : Held s
  fair : Fair s.events s.book

theorem sound_empty : Sound System.empty :=
  ⟨logged_empty, fun _ hw => absurd hw not_mem_nil, fair_empty⟩

theorem VoidsKept.of_untouched {t : System} (h : Untouched s.book t.book) : VoidsKept s t :=
  fun award haward hvoid => congrArg List.length (h award haward hvoid).2

theorem Sound.queue (h : Sound s) (a : Action) (hclaws : ClawsOnce s (.queue a)) :
    Sound (step s a) ∧ VoidsKept s (step s a) := by
  have hlogged := logged_step s a h.logged
  have hsame : ∀ t : System, Logged t → Held t → (∀ e ∈ s.events, e ∈ t.events) →
      t.book = s.book → Sound t ∧ VoidsKept s t := by
    intro t hlogged hheld hsub hbook
    refine ⟨⟨hlogged, hheld, ?_⟩, VoidsKept.of_untouched ?_⟩
    · rw [hbook]
      exact h.fair.log hlogged.numbered hsub
    · rw [hbook]
      exact Untouched.refl s.book
  cases a with
  | emit input =>
    exact hsame _ hlogged (h.held.emit input) (fun e he => mem_events_emit he input)
      (emit_frame input s).2.2.1
  | begin worker limit =>
    have hcases : step s (.begin worker limit) = s ∨
        step s (.begin worker limit) = setPhase worker (.opened s.cursor limit) s := by
      simp only [step]
      split
      · exact Or.inl rfl
      · exact Or.inr rfl
    rcases hcases with heq | heq
    · rw [heq] at hlogged ⊢
      exact hsame _ hlogged h.held (fun _ he => he) rfl
    · rw [heq] at hlogged ⊢
      apply hsame _ hlogged (h.held.setPhase worker _ ?_) (fun _ he => he) rfl
      exact fun e he => absurd he not_mem_nil
  | resume worker weather =>
    cases hphase : phaseOf worker s with
    | none =>
      have heq : step s (.resume worker weather) = s := by simp only [step, hphase]
      rw [heq] at hlogged ⊢
      exact hsame _ hlogged h.held (fun _ he => he) rfl
    | some phase =>
      have heq : step s (.resume worker weather) = advancePhase worker weather s phase := by
        simp only [step, hphase]
      rw [heq] at hlogged ⊢
      have hbatch : ∀ e ∈ phase.batch, e ∈ s.events := h.held _ (mem_of_phaseOf hphase)
      have hheld : Held (advancePhase worker weather s phase) :=
        held_advancePhase h.held hbatch weather
      have hsub : ∀ e ∈ s.events, e ∈ (advancePhase worker weather s phase).events :=
        fun e he => mem_events_advancePhase he worker weather phase
      rcases book_advancePhase s worker weather phase with hbook | ⟨event, rest, last, rfl, hthrows, hbook⟩
      · exact hsame _ hlogged hheld hsub hbook
      · have hcommitting : committing worker weather s = some event := by
          unfold committing
          rw [hphase]
          rw [hthrows]
          rfl
        obtain ⟨hfair, huntouched⟩ := h.fair.processEvent weather.around
          (hbatch event mem_cons_self) weather.now (hclaws event hcommitting)
        rw [← hbook] at hfair huntouched
        exact ⟨⟨hlogged, hheld, hfair.log hlogged.numbered hsub⟩,
          VoidsKept.of_untouched huntouched⟩
  | crash worker => exact hsame _ hlogged (h.held.endDrain worker) (fun _ he => he) rfl
  | operator input =>
    obtain ⟨hevents, -, hbook, hworkers⟩ := operatorAction_frame input s
    refine hsame _ hlogged ?_ (fun e he => hevents.symm ▸ he) hbook
    intro w hw e he
    exact hevents.symm ▸ h.held w (hworkers ▸ hw) e he
  | resetCursor target => exact hsame _ hlogged h.held (fun _ he => he) rfl
  | createCampaign campaign =>
    have hbook : ∃ campaigns, createCampaign campaign s.book = { s.book with campaigns := campaigns } := by
      unfold createCampaign
      split
      · exact ⟨_, rfl⟩
      · exact ⟨_, rfl⟩
    obtain ⟨campaigns, heq⟩ := hbook
    refine ⟨⟨hlogged, h.held, ?_⟩, VoidsKept.of_untouched ?_⟩
    · have hfair := h.fair.campaigns campaigns
      rw [← heq] at hfair
      exact hfair
    · intro award haward _
      unfold step
      dsimp only
      rw [heq]
      exact ⟨haward, rfl⟩
  | setCampaignActive id active =>
    exact ⟨⟨hlogged, h.held, h.fair.campaigns _⟩,
      VoidsKept.of_untouched fun award haward _ => ⟨haward, rfl⟩⟩
  | settleSpiff tenantId id paid =>
    refine ⟨⟨hlogged, h.held, h.fair.relabel (fun r => relabel_ite r _) ?_⟩,
      fun award _ _ => length_reversalsOf_relabel (fun r => relabel_ite r _) award⟩
    intro award _ hstanding _
    by_cases hrow : award.tenantId = tenantId ∧ award.id = id ∧
        award.status = (if paid then .approved else .earned)
    · rw [if_pos hrow]
      cases paid <;> simp
    · rw [if_neg hrow]
      exact hstanding
  | otherSpiff row =>
    obtain ⟨hfair, huntouched⟩ := @Fair.insert _ _ h.fair { row with campaignId := none, sourceEventId := none }
      (fun k hk => by cases hk) (fun _ => rfl)
    exact ⟨⟨hlogged, h.held, hfair⟩, VoidsKept.of_untouched huntouched⟩

theorem Sound.void (h : Sound s) {tenantId id : Nat}
    (hunreversed : ClawsOnce s (.void tenantId id)) :
    Sound (deskStep s (.void tenantId id)) ∧ VoidsKept s (deskStep s (.void tenantId id)) := by
  have hlogged : Logged (deskStep s (.void tenantId id)) :=
    ⟨h.logged.numbered, h.logged.drawn, h.logged.unknown, h.logged.single⟩
  refine ⟨⟨hlogged, h.held, h.fair.relabel (fun r => relabel_ite r _) ?_⟩,
    fun award _ _ => length_reversalsOf_relabel (fun r => relabel_ite r _) award⟩
  intro award haward hstanding hreversed
  obtain ⟨r, hr, hreverses⟩ := hreversed
  rw [if_neg]
  · exact hstanding
  · intro hrow
    exact hunreversed award haward hrow.1 hrow.2.1 r hr hreverses

theorem Sound.step (h : Sound s) (a : DeskAction) (hclaws : ClawsOnce s a) :
    Sound (deskStep s a) ∧ VoidsKept s (deskStep s a) := by
  cases a with
  | queue action => exact h.queue action hclaws
  | void tenantId id => exact h.void hclaws

/-- The negative rows of a sale reverse positive rows of the same recipient and sale, each another
one. -/
theorem Sound.bounded (h : Sound s) : Bounded s := by
  constructor
  · intro tenantId repId sale
    have hsplit := sum_map_filter_add_not (fun r : Spiff => decide (r.amountCents < 0))
      (saleRows s tenantId repId sale) (·.amountCents)
    unfold sumCents
    rw [← hsplit]
    apply sum_add_sum_nonneg_of_matching (R := Reverses)
    · intro b hb
      have hnot := (mem_filter.mp hb).2
      simpa using hnot
    · intro r hr
      obtain ⟨hrow, hneg⟩ := mem_filter.mp hr
      obtain ⟨hmem, hcols⟩ := mem_filter.mp hrow
      simp only [Bool.and_eq_true, decide_eq_true_eq, any_eq_true] at hcols hneg
      obtain ⟨⟨⟨htenant, hrep⟩, -⟩, e, he, hsource, hsale⟩ := hcols
      have hsourced : r.sourceEventId ≠ none := by
        rw [hsource]
        exact Option.some_ne_none _
      obtain ⟨award, hreversal⟩ := h.fair.reversals r hmem hneg hsourced
      obtain ⟨e₁, he₁, hsource₁, -, e', he', hsource', htype', hsubject', hkind'⟩ := hreversal.sources
      have heq : e = e₁ := by
        apply h.fair.logged.eq_of_key he he₁
        exact Option.some_inj.mp (hsource.symm.trans hsource₁)
      have hsubject : e.subjectId = sale := by
        unfold ofSale at hsale
        simp only [Bool.and_eq_true, decide_eq_true_eq] at hsale
        exact hsale.1
      refine ⟨award, mem_filter.mpr ⟨mem_filter.mpr ⟨hreversal.mem, ?_⟩, ?_⟩,
        hreversal.reverses, ?_⟩
      · simp only [Bool.and_eq_true, decide_eq_true_eq, any_eq_true]
        refine ⟨⟨⟨?_, ?_⟩, hreversal.standing⟩, e', he', hsource', ?_⟩
        · exact hreversal.reverses.2.2.1.symm.trans htenant
        · exact hreversal.repId.symm.trans hrep
        · unfold ofSale
          simp only [Bool.and_eq_true, Bool.or_eq_true, decide_eq_true_eq]
          exact ⟨hsubject'.trans (heq ▸ hsubject), Or.inr ⟨htype', hkind'⟩⟩
      · have hpos := hreversal.reverses.2.1
        simpa using Int.le_of_lt hpos
      · have hamount := hreversal.amount
        omega
    · have hsub := (filter_sublist (p := fun r : Spiff => decide (r.amountCents < 0))
        (l := saleRows s tenantId repId sale)).trans filter_sublist
      refine (h.fair.once.sublist hsub).imp ?_
      intro r r' hpair award haward
      exact hpair award (mem_of_mem_filter (mem_of_mem_filter haward))
  · intro award haward
    apply length_le_one_of_pairwise (h.fair.once.sublist filter_sublist)
    intro r hr r' hr' hpair
    have hreverses : Reverses r award := by simpa using (mem_filter.mp hr).2
    have hreverses' : Reverses r' award := by simpa using (mem_filter.mp hr').2
    exact hpair award haward hreverses hreverses'

end Desk

/-- In every run whose cancellations take back unclaimed awards and whose managers void none that is
reversed, no recipient of a sale is left with a negative sum, no award is reversed twice, and none
that was void is reversed. -/
theorem clawbacks_run (as : List DeskAction) (h : Along deskStep ClawsOnce System.empty as) :
    (∀ t ∈ trace deskStep System.empty as, Bounded t) ∧
      Along deskStep (fun s a => VoidsKept s (deskStep s a)) System.empty as := by
  constructor
  · intro t ht
    have hsound := trace_along (I := Sound) (fun _ a hs ha => (hs.step a ha).1) sound_empty h t ht
    exact hsound.bounded
  · exact h.imp_of_invariant (I := Sound) (fun _ a hs ha => (hs.step a ha).1)
      (fun _ a hs ha => (hs.step a ha).2) sound_empty

/-- Every approved sale pays 75 dollars. -/
def bounty : IncentiveCampaign where
  id := 0
  tenantId := 1
  name := "Launch week"
  incentiveType := .salesGoal
  amountBasis := .flat
  rewardCents := 7500
  percentageBp := 0
  filters := ⟨none, none, none, none, none, none⟩
  startsAtMs := 0
  endsAtMs := dayMs
  maximumRewardsPerUser := 0
  perRepCapCents := 0
  campaignCapCents := 0
  approvalRequired := false
  clawbackPolicy := defaultClawback
  active := true

def cancellation (dedupeKey : String) : DomainEvent :=
  { approval with type := .saleCancelled, dedupeKey := dedupeKey }

def delivered (event : DomainEvent) : List DeskAction := (.emit event :: drains 1 9 0).map .queue

def awarded : List DeskAction := .queue (.createCampaign bounty) :: delivered approval

def cancelledTwice : List DeskAction :=
  awarded ++ delivered (cancellation "first") ++ delivered (cancellation "second")

/-- A second cancellation event of the sale takes its award back once more, and a cancellation takes
an award back that a manager had voided. -/
theorem not_clawbacks_cancelledTwice :
    ¬Bounded (run deskStep System.empty cancelledTwice) ∧
      ¬VoidsKept (run deskStep System.empty (awarded ++ [.void 1 1]))
        (run deskStep System.empty (awarded ++ [.void 1 1] ++ delivered (cancellation "first"))) := by
  constructor
  · intro h
    have hbalance := h.balance 1 3 7
    have hsum : sumCents (saleRows (run deskStep System.empty cancelledTwice) 1 3 7) = -7500 := by
      decide +kernel
    omega
  · decide +kernel

/-- The cursor is rewound after the cancellation and the queue drained again. -/
theorem clawbacks_run_replayed :
    let as := awarded ++ delivered (cancellation "first") ++
      (.resetCursor 0 :: drains 1 17 0).map .queue
    (∀ t ∈ trace deskStep System.empty as, Bounded t) ∧
      Along deskStep (fun s a => VoidsKept s (deskStep s a)) System.empty as :=
  clawbacks_run _ (by decide +kernel)

end HomefrontFiber.Incentive
