import HomefrontFiber.Foundation.Runs
import HomefrontFiber.Incentive.Awards

/-!
# Awards are unique and within their caps

A positive row of a campaign, an event and a recipient carries their reward key as its reference, so
the unique index admits one. An award is trimmed to the room that the counters of its transaction
show, and a clawback only makes room, so a book stays within the caps of its campaigns.
-/

namespace HomefrontFiber.Incentive

open List

def SameRef (s t : Spiff) : Prop := s.saleRef.isSome ∧ s.tenantId = t.tenantId ∧ s.saleRef = t.saleRef

def CampaignWithin (book : AwardBook) (c : IncentiveCampaign) : Prop :=
  (0 < c.campaignCapCents → sumCents (book.campaignRows c.tenantId c.id) ≤ c.campaignCapCents) ∧
    ∀ repId, 0 < c.perRepCapCents →
      sumCents (book.recipientRows c.tenantId c.id repId) ≤ c.perRepCapCents

/-- No campaign has paid more than its caps, to one recipient or in all. -/
def WithinCaps (book : AwardBook) : Prop := ∀ c ∈ book.campaigns, CampaignWithin book c

/-- The positive rows of a campaign for an event and a recipient. -/
def AwardBook.rewardRows (book : AwardBook) (campaignId eventId repId : Nat) : List Spiff :=
  book.spiffs.filter fun s => s.campaignId = some campaignId && s.sourceEventId = some eventId &&
    s.repId = repId && 0 < s.amountCents

def RewardsUnique (book : AwardBook) : Prop :=
  ∀ campaignId eventId repId, (book.rewardRows campaignId eventId repId).length ≤ 1

structure Booked (book : AwardBook) : Prop where
  numbered : Numbered (·.id) book.campaigns
  owned : ∀ s ∈ book.spiffs, ∀ k ∈ s.campaignId,
    ∃ c ∈ book.campaigns, c.id = k ∧ c.tenantId = s.tenantId
  refs : book.spiffs.Pairwise fun s t => ¬SameRef s t
  keyed : ∀ s ∈ book.spiffs, 0 < s.amountCents → ∀ c ∈ s.campaignId, ∀ e ∈ s.sourceEventId,
    s.saleRef = some (rewardKey c e s.repId)
  caps : WithinCaps book

theorem booked_empty : Booked AwardBook.empty where
  numbered := .nil
  owned _ hs := absurd hs not_mem_nil
  refs := List.Pairwise.nil
  keyed _ hs := absurd hs not_mem_nil
  caps _ hc := absurd hc not_mem_nil

theorem sumCents_filter_snoc (p : Spiff → Bool) (rows : List Spiff) (s : Spiff) :
    sumCents ((rows ++ [s]).filter p) =
      sumCents (rows.filter p) + if p s then s.amountCents else 0 := by
  by_cases hp : p s <;> simp [sumCents, hp]

structure Insertable (book : AwardBook) (row : SpiffInput) : Prop where
  owned : ∀ k ∈ row.campaignId, ∃ c ∈ book.campaigns, c.id = k ∧ c.tenantId = row.tenantId
  keyed : 0 < row.amountCents → ∀ c ∈ row.campaignId, ∀ e ∈ row.sourceEventId,
    row.saleRef = some (rewardKey c e row.repId)
  room : ∀ c ∈ book.campaigns, row.campaignId = some c.id →
    (0 < c.campaignCapCents →
      sumCents (book.campaignRows c.tenantId c.id) + row.amountCents ≤ c.campaignCapCents) ∧
    (0 < c.perRepCapCents →
      sumCents (book.recipientRows c.tenantId c.id row.repId) + row.amountCents ≤ c.perRepCapCents)

section Insert

variable {book : AwardBook}

theorem campaignWithin_snoc {s : Spiff} {c : IncentiveCampaign} (h : CampaignWithin book c)
    (hroom : s.campaignId = some c.id →
      (0 < c.campaignCapCents →
        sumCents (book.campaignRows c.tenantId c.id) + s.amountCents ≤ c.campaignCapCents) ∧
      (0 < c.perRepCapCents →
        sumCents (book.recipientRows c.tenantId c.id s.repId) + s.amountCents ≤ c.perRepCapCents)) :
    CampaignWithin { book with spiffs := book.spiffs ++ [s] } c := by
  refine ⟨fun hcap => ?_, fun repId hcap => ?_⟩
  · have hold := h.1 hcap
    rw [AwardBook.campaignRows] at hold ⊢
    rw [sumCents_filter_snoc]
    split
    · rename_i hcounts
      simp only [Bool.and_eq_true, decide_eq_true_eq] at hcounts
      exact (hroom hcounts.1.2).1 hcap
    · omega
  · have hold := h.2 repId hcap
    rw [AwardBook.recipientRows] at hold ⊢
    rw [sumCents_filter_snoc]
    split
    · rename_i hcounts
      simp only [Bool.and_eq_true, decide_eq_true_eq] at hcounts
      obtain ⟨⟨⟨-, hcampaign⟩, rfl⟩, -⟩ := hcounts
      exact (hroom hcampaign).2 hcap
    · omega

theorem Booked.insert (h : Booked book) {row : SpiffInput} (hrow : Insertable book row) :
    Booked (book.insert row) := by
  unfold AwardBook.insert
  split
  · exact h
  · rename_i hrefused
    set s := row.toSpiff (book.spiffs.length + 1) with hs
    refine ⟨h.numbered, ?_, ?_, ?_, ?_⟩
    · intro t ht k hk
      rcases mem_append.mp ht with hold | hnew
      · exact h.owned t hold k hk
      · obtain rfl := mem_singleton.mp hnew
        exact hrow.owned k hk
    · refine pairwise_append.mpr ⟨h.refs, pairwise_singleton _ s, ?_⟩
      intro t ht t' ht' hsame
      obtain rfl := mem_singleton.mp ht'
      apply hrefused
      have hsome : row.saleRef.isSome = true := by
        have := hsame.1
        rw [hsame.2.2] at this
        exact this
      simp only [AwardBook.refused, hsome, Bool.true_and, any_eq_true, Bool.and_eq_true,
        decide_eq_true_eq]
      exact ⟨t, ht, hsame.2.1, hsame.2.2⟩
    · intro t ht
      rcases mem_append.mp ht with hold | hnew
      · exact h.keyed t hold
      · obtain rfl := mem_singleton.mp hnew
        exact hrow.keyed
    · intro c hc
      exact campaignWithin_snoc (h.caps c hc) (hrow.room c hc)

theorem insert_campaigns (book : AwardBook) (row : SpiffInput) :
    (book.insert row).campaigns = book.campaigns := by
  unfold AwardBook.insert
  split <;> rfl

end Insert

theorem Booked.campaign_eq {book : AwardBook} (h : Booked book) {c c' : IncentiveCampaign}
    (hc : c ∈ book.campaigns) (hc' : c' ∈ book.campaigns) (hid : c.id = c'.id) : c = c' :=
  h.numbered.eq_of_key hc hc' hid

theorem booked_awardOne {book : AwardBook} (h : Booked book) (around : Surroundings)
    (event : DomainEvent) (nowMs : Int) {campaign : IncentiveCampaign}
    (hc : campaign ∈ book.campaigns) (htenant : campaign.tenantId = event.tenantId) :
    Booked (awardOne around event nowMs book campaign) := by
  unfold awardOne
  simp only []
  split
  · exact h
  · rename_i award haward
    obtain ⟨hrecipient, hid, hkey, -, hcaps⟩ := evaluateIncentive_ok haward
    simp only [hrecipient] at hcaps
    obtain ⟨-, hrep, hall⟩ := applyCaps_ok hcaps
    refine h.insert ⟨?_, ?_, ?_⟩
    · intro k hk
      obtain rfl : award.campaignId = k := Option.some.inj hk
      exact ⟨campaign, hc, hid.symm, htenant⟩
    · intro _ k hk e he
      obtain rfl : award.campaignId = k := Option.some.inj hk
      obtain rfl : event.id = e := Option.some.inj he
      simp only [awardRow, hkey, hid]
      rfl
    · intro c hcmem hcid
      obtain rfl : campaign = c := by
        have hid' : award.campaignId = c.id := Option.some.inj hcid
        exact h.campaign_eq hc hcmem (hid.symm.trans hid')
      simp only [awardRow, htenant]
      refine ⟨fun hcap => ?_, fun hcap => ?_⟩
      · have hroom := hall hcap
        simp only [countersFor] at hroom
        omega
      · have hroom := hrep hcap
        simp only [countersFor] at hroom
        omega

theorem booked_clawbackOne {book : AwardBook} (h : Booked book) (event : DomainEvent) (nowMs : Int)
    {award : Spiff} (howned : ∀ k ∈ award.campaignId,
      ∃ c ∈ book.campaigns, c.id = k ∧ c.tenantId = event.tenantId) :
    Booked (clawbackOne event nowMs book award) := by
  unfold clawbackOne
  simp only []
  split
  · exact h
  · rename_i cents hcents
    have hpos : 0 ≤ cents := by
      unfold evaluateClawback at hcents
      simp only [] at hcents
      split at hcents
      · simp at hcents
      split at hcents
      · simp at hcents
      split at hcents
      · simp at hcents
      split at hcents
      · split at hcents
        · cases hcents
          omega
        · simp at hcents
      · cases hcents
        omega
    refine h.insert ⟨howned, ?_, ?_⟩
    · intro hamount
      simp only at hamount
      omega
    · intro c hc _
      obtain ⟨hall, hrep⟩ := h.caps c hc
      refine ⟨fun hcap => ?_, fun hcap => ?_⟩
      · have := hall hcap
        simp only
        omega
      · have := hrep award.repId hcap
        simp only
        omega

theorem awardOne_campaigns (around : Surroundings) (event : DomainEvent) (nowMs : Int)
    (book : AwardBook) (campaign : IncentiveCampaign) :
    (awardOne around event nowMs book campaign).campaigns = book.campaigns := by
  unfold awardOne
  simp only []
  split
  · rfl
  · exact insert_campaigns _ _

theorem clawbackOne_campaigns (event : DomainEvent) (nowMs : Int) (book : AwardBook)
    (award : Spiff) : (clawbackOne event nowMs book award).campaigns = book.campaigns := by
  unfold clawbackOne
  simp only []
  split
  · rfl
  · exact insert_campaigns _ _

theorem booked_processEvent {book : AwardBook} (h : Booked book) (events : List DomainEvent)
    (around : Surroundings) (event : DomainEvent) (nowMs : Int) :
    Booked (processEvent events around event nowMs book) := by
  unfold processEvent
  split
  · have hprior : ∀ award ∈ priorAwards book events event,
        ∀ k ∈ award.campaignId, ∃ c ∈ book.campaigns, c.id = k ∧ c.tenantId = event.tenantId := by
      intro award haward k hk
      obtain ⟨hmem, hmatch⟩ := mem_filter.mp haward
      simp only [Bool.and_eq_true, decide_eq_true_eq] at hmatch
      obtain ⟨c, hc, hid, htenant⟩ := h.owned award hmem k hk
      exact ⟨c, hc, hid, htenant.trans hmatch.1.1⟩
    refine (foldl_induction (I := fun rest b => Booked b ∧ b.campaigns = book.campaigns ∧
      ∀ award ∈ rest, ∀ k ∈ award.campaignId,
        ∃ c ∈ book.campaigns, c.id = k ∧ c.tenantId = event.tenantId) ?_ ⟨h, rfl, hprior⟩).1
    intro award rest b ⟨hb, hcampaigns, hrest⟩
    refine ⟨?_, (clawbackOne_campaigns event nowMs b award).trans hcampaigns,
      fun a ha => hrest a (mem_cons_of_mem _ ha)⟩
    exact booked_clawbackOne hb event nowMs (hcampaigns ▸ hrest award mem_cons_self)
  · have hlive : ∀ c ∈ campaignsFor book event.tenantId event.type,
        c ∈ book.campaigns ∧ c.tenantId = event.tenantId := by
      intro c hc
      obtain ⟨hmem, hmatch⟩ := mem_filter.mp hc
      simp only [Bool.and_eq_true, decide_eq_true_eq] at hmatch
      exact ⟨hmem, hmatch.1⟩
    refine (foldl_induction (I := fun rest b => Booked b ∧ b.campaigns = book.campaigns ∧
      ∀ c ∈ rest, c ∈ book.campaigns ∧ c.tenantId = event.tenantId) ?_ ⟨h, rfl, hlive⟩).1
    intro c rest b ⟨hb, hcampaigns, hrest⟩
    obtain ⟨hmem, htenant⟩ := hrest c mem_cons_self
    refine ⟨booked_awardOne hb around event nowMs (hcampaigns.symm ▸ hmem) htenant,
      (awardOne_campaigns around event nowMs b c).trans hcampaigns,
      fun c' hc' => hrest c' (mem_cons_of_mem _ hc')⟩

theorem sumCents_filter_map {p : Spiff → Bool} {f : Spiff → Spiff} {rows : List Spiff}
    (hp : ∀ s ∈ rows, p (f s) = p s) (hf : ∀ s, (f s).amountCents = s.amountCents) :
    sumCents ((rows.map f).filter p) = sumCents (rows.filter p) := by
  induction rows with
  | nil => rfl
  | cons s rows ih =>
    have hs := hp s mem_cons_self
    have hrest := ih fun t ht => hp t (mem_cons_of_mem _ ht)
    simp only [sumCents] at hrest ⊢
    by_cases h : p s
    · simp [h, hs, hf, hrest]
    · simp [h, hs, hrest]

theorem Booked.relabel {book : AwardBook} (h : Booked book) {f : Spiff → Spiff}
    (hf : ∀ s, f s = s ∨ ∃ status, s.status ≠ .void ∧ status ≠ SpiffStatus.void ∧
      f s = { s with status := status }) :
    Booked { book with spiffs := book.spiffs.map f } := by
  have hsame : ∀ s, (f s).tenantId = s.tenantId ∧ (f s).repId = s.repId ∧
      (f s).saleRef = s.saleRef ∧ (f s).amountCents = s.amountCents ∧
      (f s).campaignId = s.campaignId ∧ (f s).sourceEventId = s.sourceEventId ∧
      ((f s).status = .void ↔ s.status = .void) := by
    intro s
    rcases hf s with heq | ⟨status, hbefore, hafter, heq⟩
    · simp [heq]
    · simp [heq, hbefore, hafter]
  refine ⟨h.numbered, ?_, ?_, ?_, ?_⟩
  · intro t ht k hk
    obtain ⟨s, hs, rfl⟩ := mem_map.mp ht
    obtain ⟨htenant, -, -, -, hcampaign, -, -⟩ := hsame s
    rw [hcampaign] at hk
    rw [htenant]
    exact h.owned s hs k hk
  · rw [pairwise_map]
    refine h.refs.imp ?_
    intro s t hne hst
    obtain ⟨htenant, -, href, -⟩ := hsame s
    obtain ⟨htenant', -, href', -⟩ := hsame t
    rw [SameRef, htenant, htenant', href, href'] at hst
    exact hne hst
  · intro t ht
    obtain ⟨s, hs, rfl⟩ := mem_map.mp ht
    obtain ⟨-, hrep, href, hamount, hcampaign, hevent, -⟩ := hsame s
    rw [hrep, href, hamount, hcampaign, hevent]
    exact h.keyed s hs
  · intro c hc
    refine ⟨fun hcap => ?_, fun repId hcap => ?_⟩
    · rw [AwardBook.campaignRows, sumCents_filter_map (fun s _ => ?_) fun s => (hsame s).2.2.2.1]
      · exact (h.caps c hc).1 hcap
      · obtain ⟨htenant, -, -, -, hcampaign, -, hvoid⟩ := hsame s
        simp only [htenant, hcampaign, ne_eq, hvoid]
    · rw [AwardBook.recipientRows, sumCents_filter_map (fun s _ => ?_) fun s => (hsame s).2.2.2.1]
      · exact (h.caps c hc).2 repId hcap
      · obtain ⟨htenant, hrep, -, -, hcampaign, -, hvoid⟩ := hsame s
        simp only [htenant, hrep, hcampaign, ne_eq, hvoid]

theorem booked_settleSpiff {book : AwardBook} (h : Booked book) (tenantId id : Nat) (paid : Bool) :
    Booked (settleSpiff tenantId id paid book) := by
  refine h.relabel fun s => ?_
  by_cases hs : s.tenantId = tenantId ∧ s.id = id ∧
      s.status = (if paid then SpiffStatus.approved else .earned)
  · refine .inr ⟨if paid then .paid else .approved, ?_, ?_, if_pos hs⟩
    · rw [hs.2.2]
      cases paid <;> simp
    · cases paid <;> simp
  · exact .inl (if_neg hs)

theorem booked_otherSpiff {book : AwardBook} (h : Booked book) (row : SpiffInput) :
    Booked (otherSpiff row book) := by
  refine h.insert ⟨?_, ?_, ?_⟩
  · intro k hk
    simp at hk
  · intro _ k hk
    simp at hk
  · intro c _ hc
    simp at hc

theorem booked_setCampaignActive {book : AwardBook} (h : Booked book) (id : Nat) (active : Bool) :
    Booked (setCampaignActive id active book) := by
  set f : IncentiveCampaign → IncentiveCampaign := fun c =>
    if c.id = id then { c with active := active } else c with hf
  have hsame : ∀ c, (f c).id = c.id ∧ (f c).tenantId = c.tenantId ∧
      (f c).campaignCapCents = c.campaignCapCents ∧ (f c).perRepCapCents = c.perRepCapCents := by
    intro c
    simp only [hf]
    split <;> simp
  refine ⟨h.numbered.map fun c _ => (hsame c).1, ?_, h.refs, h.keyed, ?_⟩
  · intro s hs k hk
    obtain ⟨c, hc, hid, htenant⟩ := h.owned s hs k hk
    exact ⟨f c, mem_map_of_mem hc, (hsame c).1.trans hid, (hsame c).2.1.trans htenant⟩
  · intro c' hc'
    obtain ⟨c, hc, rfl⟩ := mem_map.mp hc'
    obtain ⟨hid, htenant, hcap, hrepCap⟩ := hsame c
    have hwithin := h.caps c hc
    unfold CampaignWithin at hwithin ⊢
    rw [hid, htenant, hcap, hrepCap]
    exact hwithin

theorem booked_createCampaign {book : AwardBook} (h : Booked book) (c : IncentiveCampaign) :
    Booked (createCampaign c book) := by
  unfold createCampaign
  split
  · refine ⟨h.numbered.snoc rfl, ?_, h.refs, h.keyed, ?_⟩
    · intro s hs k hk
      obtain ⟨c', hc', hid, htenant⟩ := h.owned s hs k hk
      exact ⟨c', mem_append_left _ hc', hid, htenant⟩
    · intro c' hc'
      rcases mem_append.mp hc' with hold | hnew
      · exact h.caps c' hold
      · obtain rfl := mem_singleton.mp hnew
        -- no row names a campaign that did not exist
        have hnone : ∀ s ∈ book.spiffs, s.campaignId ≠ some (book.campaigns.length + 1) := by
          intro s hs hid
          obtain ⟨c', hc', hid', -⟩ := h.owned s hs _ hid
          have hle := h.numbered.le_length hc'
          omega
        have hall : ∀ tenantId, book.campaignRows tenantId (book.campaigns.length + 1) = [] := by
          intro tenantId
          refine filter_eq_nil_iff.mpr fun s hs => ?_
          simp [hnone s hs]
        have hrep : ∀ tenantId repId,
            book.recipientRows tenantId (book.campaigns.length + 1) repId = [] := by
          intro tenantId repId
          refine filter_eq_nil_iff.mpr fun s hs => ?_
          simp [hnone s hs]
        refine ⟨fun hcap => ?_, fun repId hcap => ?_⟩
        · have hzero := hall c.tenantId
          simp only [AwardBook.campaignRows] at hzero ⊢
          rw [hzero]
          exact Int.le_of_lt hcap
        · have hzero := hrep c.tenantId repId
          simp only [AwardBook.recipientRows] at hzero ⊢
          rw [hzero]
          exact Int.le_of_lt hcap
  · exact h

theorem length_le_one_of_pairwise {α : Type} {R : α → α → Prop} {l : List α} (h : l.Pairwise R)
    (hnot : ∀ a ∈ l, ∀ b ∈ l, ¬R a b) : l.length ≤ 1 := by
  match l with
  | [] => exact Nat.zero_le 1
  | [_] => exact Nat.le_refl 1
  | a :: b :: rest =>
    have hab : R a b := rel_of_pairwise_cons h mem_cons_self
    exact absurd hab (hnot a mem_cons_self b (mem_cons_of_mem _ mem_cons_self))

theorem Booked.rewardsUnique {book : AwardBook} (h : Booked book) : RewardsUnique book := by
  intro campaignId eventId repId
  refine length_le_one_of_pairwise (h.refs.sublist filter_sublist) ?_
  intro s hs t ht hne
  have hrow : ∀ s ∈ book.rewardRows campaignId eventId repId, s ∈ book.spiffs ∧
      s.campaignId = some campaignId ∧ s.saleRef = some (rewardKey campaignId eventId repId) := by
    intro s hs
    obtain ⟨hmem, hmatch⟩ := mem_filter.mp hs
    simp only [Bool.and_eq_true, decide_eq_true_eq] at hmatch
    obtain ⟨⟨⟨hcampaign, hevent⟩, rfl⟩, hpos⟩ := hmatch
    exact ⟨hmem, hcampaign, h.keyed s hmem hpos _ hcampaign _ hevent⟩
  obtain ⟨hsmem, hscampaign, hsref⟩ := hrow s hs
  obtain ⟨htmem, htcampaign, htref⟩ := hrow t ht
  obtain ⟨c, hc, hcid, hctenant⟩ := h.owned s hsmem _ hscampaign
  obtain ⟨c', hc', hcid', hctenant'⟩ := h.owned t htmem _ htcampaign
  obtain rfl : c = c' := h.campaign_eq hc hc' (hcid.trans hcid'.symm)
  exact hne ⟨by simp [hsref], hctenant.symm.trans hctenant', hsref.trans htref.symm⟩

end HomefrontFiber.Incentive
