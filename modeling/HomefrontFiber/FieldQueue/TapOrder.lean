import HomefrontFiber.FieldQueue.Notes

/-!
# The order in which knocks of one door are sent

The pending lane keeps the order of the taps, and every flush walks it from the front. But each item
carries its own due time, and the walk passes over an item that is not due. So a knock is sent
behind the earlier ones of its door only while no walk passes over one of them.
-/

namespace HomefrontFiber.FieldQueue

open Knocking List Option

def QueuedKnock.card (item : QueuedKnock) : String × Int := (item.clientId, item.leadId)

def cards (items : List QueuedKnock) : List (String × Int) := items.map QueuedKnock.card

variable {items : List QueuedKnock} {i idx : Nat} {item : QueuedKnock} {env : Ambient} {e : Event}

theorem cards_set {item' : QueuedKnock}
    (hi : items[i]? = some item) (hcard : item'.card = item.card) :
    cards (items.set i item') = cards items := map_set hi hcard

theorem cards_setEvidence (clientId : String) (evidence : Evidence) (items : List QueuedKnock) :
    cards (setEvidence clientId evidence items) = cards items :=
  map_setEvidence (fun _ => rfl) clientId items

theorem cards_setLastNote {leadId : Int} {notes : Text} {items' : List QueuedKnock}
    {clientId : String} (h : setLastNote leadId notes items = some (items', clientId)) :
    cards items' = cards items := map_setLastNote (fun _ => rfl) h

theorem pair_sublist_asymm {α : Type*} {a b : α} {l : List α} (hnd : l.Nodup)
    (hab : [a, b].Sublist l) (hba : [b, a].Sublist l) : False := by
  induction l with
  | nil => simp at hab
  | cons c l ih =>
    obtain ⟨hc, hnd⟩ := nodup_cons.mp hnd
    cases hab with
    | cons _ hab =>
      cases hba with
      | cons _ hba => exact ih hnd hab hba
      | cons_cons _ _ => exact hc (hab.subset (by simp))
    | cons_cons _ hab =>
      cases hba with
      | cons _ hba => exact hc (hba.subset (by simp))
      | cons_cons _ hba => exact hc (singleton_sublist.mp hba)

/-- The card at a position has no card of its lead before it. -/
def InTurn (tapped : List (String × Int)) (i : Nat) : Prop :=
  ∃ card, tapped[i]? = some card ∧ ∀ earlier ∈ tapped.take i, earlier.2 ≠ card.2

theorem InTurn.append {tapped : List (String × Int)} (h : InTurn tapped i)
    (more : List (String × Int)) : InTurn (tapped ++ more) i := by
  obtain ⟨card, hcard, hfirst⟩ := h
  have hlt : i < tapped.length := (List.getElem?_eq_some_iff.mp hcard).1
  refine ⟨card, ?_, ?_⟩
  · rw [getElem?_append_left hlt]
    exact hcard
  · rw [take_append_of_le_length hlt.le]
    exact hfirst

/-- What a walk from `idx` on sends next has no item of its lead before it. -/
def NextInTurn (now : Int) (idx : Nat) (items : List QueuedKnock) : Prop :=
  ∀ p ∈ nextDue now idx (items.drop idx), ∀ earlier ∈ items.take p.1, earlier.leadId ≠ p.2.leadId

instance (now : Int) (idx : Nat) (items : List QueuedKnock) :
    Decidable (NextInTurn now idx items) :=
  inferInstanceAs (Decidable (∀ p ∈ nextDue now idx (items.drop idx), _))

theorem NextInTurn.inTurn {now : Int} (h : NextInTurn now idx items)
    (hdue : nextDue now idx (items.drop idx) = some (i, item)) : InTurn (cards items) i := by
  refine ⟨item.card, ?_, ?_⟩
  · simp [cards, nextDue_drop hdue]
  · intro earlier hearlier
    rw [cards, ← map_take] at hearlier
    obtain ⟨item', hitem', rfl⟩ := mem_map.mp hearlier
    exact h (i, item) hdue item' hitem'

/-- A lane in the order of the taps, nothing parked, and the awaited POST in its turn. -/
structure Lined (staged : List (String × Int)) (q : Queue) : Prop where
  order : (cards q.pending).Sublist staged
  parked : q.dead = []
  turn : ∀ f ∈ q.flight, InTurn (cards q.pending) f.idx

section Lined

variable {staged : List (String × Int)} {q q' : Queue}

theorem Lined.edit (h : Lined staged q) (hcards : cards q'.pending = cards q.pending)
    (hdead : q'.dead = q.dead) (hflight : q'.flight = q.flight) : Lined staged q' where
  order := hcards ▸ h.order
  parked := hdead.trans h.parked
  turn f hf := hcards ▸ h.turn f (hflight ▸ hf)

theorem Lined.land (h : Lined staged q) (hcards : (cards q'.pending).Sublist (cards q.pending))
    (hdead : q'.dead = []) (hflight : q'.flight = none) : Lined staged q' where
  order := hcards.trans h.order
  parked := hdead
  turn f hf := by simp [hflight] at hf

theorem lined_flushFrom {w : World}
    (horder : (cards q.pending).Sublist staged) (hdead : q.dead = [])
    (hnext : NextInTurn env.now idx q.pending) :
    ∀ q' ∈ (flushFrom env idx w q).queue, Lined staged q' := by
  unfold flushFrom
  split
  · intro q' hq'
    cases hq'
    exact ⟨horder, hdead, by simp⟩
  · rename_i i item hdue
    intro q' hq'
    cases hq'
    refine ⟨horder, hdead, ?_⟩
    intro f hf
    cases hf
    exact hnext.inTurn hdue

theorem sweep_unparked (h : q.dead = []) (env : Ambient) (w : World) :
    sweep env w q = (q, []) := by
  apply sweep_of_nil
  unfold sweepTargets
  split
  · rfl
  · simp [h]

end Lined

/-- The walk that an event resumes passes over no item of the lead that it sends next. -/
def WalksInTurn (w : World) : Event → Prop
  | .flush env => ∀ q ∈ w.queue, q.flight = none → canCapture w q = true → env.online = true →
      NextInTurn env.now 0 q.pending
  | .answered _ env => ∀ q ∈ w.queue, ∀ p ∈ awaited q, hasArrived w p.1.seq = true →
      currentRun w q p.1.lease = true → NextInTurn env.now p.1.idx (q.pending.eraseIdx p.1.idx)
  | .failed message env => ∀ q ∈ w.queue, ∀ p ∈ awaited q, currentRun w q p.1.lease = true →
      classifyKnockFailure (some message) = .terminal →
      NextInTurn env.now p.1.idx (q.pending.eraseIdx p.1.idx)
  | _ => True

def ParksNothing (w : World) : Event → Prop
  | .failed message env => ∀ q ∈ w.queue, ∀ p ∈ awaited q, currentRun w q p.1.lease = true →
      parks message env q p.2 = false
  | _ => True

/-- New knocks have new ids, none is parked, and no walk passes over a knock that is backing off to
a later one of its door. -/
def KeepsTapOrder (w : World) (e : Event) : Prop := Fresh w e ∧ ParksNothing w e ∧ WalksInTurn w e

instance decidableWalksInTurn (w : World) : ∀ e, Decidable (WalksInTurn w e)
  | .flush env => inferInstanceAs (Decidable (∀ q ∈ w.queue, q.flight = none →
      canCapture w q = true → env.online = true → NextInTurn env.now 0 q.pending))
  | .answered _ env => inferInstanceAs (Decidable (∀ q ∈ w.queue, ∀ p ∈ awaited q,
      hasArrived w p.1.seq = true → currentRun w q p.1.lease = true →
      NextInTurn env.now p.1.idx (q.pending.eraseIdx p.1.idx)))
  | .failed message env => inferInstanceAs (Decidable (∀ q ∈ w.queue, ∀ p ∈ awaited q,
      currentRun w q p.1.lease = true → classifyKnockFailure (some message) = .terminal →
      NextInTurn env.now p.1.idx (q.pending.eraseIdx p.1.idx)))
  | .stage _ _ | .enrich _ _ | .lose _ | .arrive _ | .updateNote _ _ | .patchAnswered _ _
  | .retryDead _ _ | .autoSweep _ | .suspend | .resume | .changeLease _ | .load => .isTrue trivial

instance decidableParksNothing (w : World) : ∀ e, Decidable (ParksNothing w e)
  | .failed message env => inferInstanceAs (Decidable (∀ q ∈ w.queue, ∀ p ∈ awaited q,
      currentRun w q p.1.lease = true → parks message env q p.2 = false))
  | .stage _ _ | .enrich _ _ | .lose _ | .arrive _ | .flush _ | .answered _ _ | .updateNote _ _
  | .patchAnswered _ _ | .retryDead _ _ | .autoSweep _ | .suspend | .resume | .changeLease _
  | .load => .isTrue trivial

instance (w : World) (e : Event) : Decidable (KeepsTapOrder w e) :=
  inferInstanceAs (Decidable (Fresh w e ∧ ParksNothing w e ∧ WalksInTurn w e))

section Open

variable {w : World} {q : Queue}

theorem flushFrom_staged (env : Ambient) (idx : Nat) (w : World) (q : Queue) :
    (flushFrom env idx w q).staged = w.staged := by
  obtain ⟨flight, sent, wire, h⟩ := flushFrom_eq env idx w q
  rw [h]

theorem startFlush_staged (env : Ambient) (w : World) (q : Queue) :
    (startFlush env w q).staged = w.staged := by
  obtain ⟨flight, sent, wire, h⟩ := startFlush_eq env w q
  rw [h]

theorem answered_staged (knockId : Option Nat) (env : Ambient) (w : World) (q : Queue)
    (f : Flight) (item : QueuedKnock) : (answered knockId env w q f item).staged = w.staged := by
  by_cases hrun : currentRun w q f.lease = true
  · rw [answered_of_run hrun, flushFrom_staged]
  · rw [answered_of_not_run hrun]

theorem failed_staged (message : Text) (env : Ambient) (w : World) (q : Queue) (f : Flight)
    (item : QueuedKnock) : (failed message env w q f item).staged = w.staged := by
  rcases failed_cases message env w q f item with h | ⟨since, item', until_, -, -, -, h⟩ |
    ⟨-, -, h⟩ | ⟨-, -, since, burst, h⟩ <;> rw [h]
  · rfl
  · rw [flushFrom_staged]
  · rw [flushFrom_staged]

theorem updateNote_staged (leadId : Int) (notes : Text) (w : World) (q : Queue) :
    (updateNote leadId notes w q).staged = w.staged := by
  unfold updateNote
  split
  · rfl
  · split
    · rfl
    · split <;> rfl

theorem lined_startFlush (h : Lined w.staged q)
    (hnext : q.flight = none → canCapture w q = true → env.online = true →
      NextInTurn env.now 0 q.pending) :
    ∀ q' ∈ (startFlush env w q).queue, Lined w.staged q' := by
  unfold startFlush
  split
  · intro q' hq'
    cases hq'
    exact h
  · rename_i hopen
    simp only [Bool.or_eq_true, not_or, Bool.not_eq_true', Bool.not_eq_false,
      Bool.not_eq_true] at hopen
    obtain ⟨⟨hflight, hcapture⟩, honline⟩ := hopen
    have hidle : q.flight = none := by simpa using hflight
    exact lined_flushFrom h.order h.parked (hnext hidle hcapture honline)

theorem cards_eraseIdx_sublist (q : Queue) (i : Nat) :
    (cards (q.pending.eraseIdx i)).Sublist (cards q.pending) :=
  (eraseIdx_sublist q.pending i).map QueuedKnock.card

theorem lined_answered (h : Lined w.staged q) {f : Flight} (hnext : currentRun w q f.lease = true →
      NextInTurn env.now f.idx (q.pending.eraseIdx f.idx)) (knockId : Option Nat) :
    ∀ q' ∈ (answered knockId env w q f item).queue, Lined w.staged q' := by
  by_cases hrun : currentRun w q f.lease = true
  · have hdead : (acceptedQueue knockId q f item).dead = [] := h.parked
    rw [answered_of_run hrun, sweep_unparked hdead]
    exact lined_flushFrom ((cards_eraseIdx_sublist q f.idx).trans h.order) hdead (hnext hrun)
  · rw [answered_of_not_run hrun]
    intro q' hq'
    cases hq'
    exact h.land (.refl _) h.parked rfl

theorem lined_failed (h : Lined w.staged q) {f : Flight}
    {message : Text} (hitem : q.pending[f.idx]? = some item)
    (hparks : currentRun w q f.lease = true → parks message env q item = false)
    (hnext : currentRun w q f.lease = true → classifyKnockFailure (some message) = .terminal →
      NextInTurn env.now f.idx (q.pending.eraseIdx f.idx)) :
    ∀ q' ∈ (failed message env w q f item).queue, Lined w.staged q' := by
  rcases failed_cases message env w q f item with hf | ⟨since, item', until_, hid, hlead, -, hf⟩ |
    ⟨hrun, hterminal, hf⟩ | ⟨hrun, hpark, -⟩
  · rw [hf]
    intro q' hq'
    cases hq'
    exact h.land (.refl _) h.parked rfl
  · rw [hf]
    intro q' hq'
    cases hq'
    have hcards : cards (q.pending.set f.idx { item' with nextAttemptAt := until_ }) =
        cards q.pending := cards_set hitem (Prod.ext hid hlead)
    exact h.land (hcards ▸ List.Sublist.refl _) h.parked rfl
  · rw [hf]
    exact lined_flushFrom ((cards_eraseIdx_sublist q f.idx).trans h.order) h.parked
      (hnext hrun hterminal)
  · rw [hparks hrun] at hpark
    exact absurd hpark Bool.false_ne_true

theorem lined_stage (h : Lined w.staged q) (hq : w.queue = some q) (input : EnqueueInput)
    (clientId : String) :
    ∀ q' ∈ (stage input clientId w q).queue, Lined (stage input clientId w q).staged q' := by
  unfold stage
  split
  · intro q' hq'
    obtain rfl := some.inj (hq.symm.trans hq')
    exact h
  · intro q' hq'
    cases hq'
    have hcards : cards (q.pending ++ [newItem input clientId]) =
        cards q.pending ++ [(clientId, input.leadId)] := map_append
    refine ⟨?_, h.parked, ?_⟩
    · rw [hcards]
      exact h.order.append (.refl _)
    · intro f hf
      rw [hcards]
      exact (h.turn f hf).append _

theorem lined_updateNote (h : Lined w.staged q) (hq : w.queue = some q) (leadId : Int)
    (notes : Text) : ∀ q' ∈ (updateNote leadId notes w q).queue, Lined w.staged q' := by
  have hsame : ∀ q' ∈ w.queue, Lined w.staged q' := by
    intro q' hq'
    obtain rfl := some.inj (hq.symm.trans hq')
    exact h
  unfold updateNote
  split
  · exact hsame
  · split
    · rename_i pending clientId hset
      intro q' hq'
      cases hq'
      exact h.edit (cards_setLastNote hset) rfl rfl
    · split <;> exact hsame

theorem retryDead_unparked (h : q.dead = []) (clientId : Option String) (env : Ambient)
    (w : World) : retryDead clientId env w q = w := by
  have htargets : retryTargets clientId q = [] := by
    cases clientId <;> simp [retryTargets, h]
  simp [retryDead, htargets]

theorem autoSweep_unparked (h : q.dead = []) (env : Ambient) (w : World) :
    autoSweep env w q = w := by
  simp [autoSweep, sweep_unparked h]

theorem lined_performOpen (h : Lined w.staged q) (hq : w.queue = some q)
    (hparks : ParksNothing w e) (hwalk : WalksInTurn w e) :
    ∀ q' ∈ (performOpen w q e).queue, Lined (performOpen w q e).staged q' := by
  have hsame : ∀ q' ∈ w.queue, Lined w.staged q' := by
    intro q' hq'
    obtain rfl := some.inj (hq.symm.trans hq')
    exact h
  cases e with
  | stage input clientId => exact lined_stage h hq input clientId
  | enrich clientId evidence =>
    simp only [performOpen, enrich]
    split
    · intro q' hq'
      cases hq'
      exact h.edit (cards_setEvidence clientId evidence q.pending) rfl rfl
    · exact hsame
  | flush env =>
    simp only [performOpen, startFlush_staged]
    exact lined_startFlush h (hwalk q hq)
  | answered knockId env =>
    simp only [performOpen]
    split
    · exact hsame
    · rename_i f item hitem
      split
      · rename_i harrived
        rw [answered_staged]
        exact lined_answered h (hwalk q hq (f, item) hitem harrived) knockId
      · exact hsame
  | failed message env =>
    simp only [performOpen]
    split
    · exact hsame
    · rename_i f item hitem
      rw [failed_staged]
      exact lined_failed h (awaited_eq_some hitem).2 (hparks q hq (f, item) hitem)
        (hwalk q hq (f, item) hitem)
  | updateNote leadId notes =>
    simp only [performOpen, updateNote_staged]
    exact lined_updateNote h hq leadId notes
  | patchAnswered seq ok =>
    have hqueue : (performOpen w q (.patchAnswered seq ok)).queue = w.queue ∧
        (performOpen w q (.patchAnswered seq ok)).staged = w.staged := by
      simp only [performOpen, patchAnswered]
      split
      · split <;> exact ⟨rfl, rfl⟩
      · exact ⟨rfl, rfl⟩
    rw [hqueue.1, hqueue.2]
    exact hsame
  | retryDead clientId env =>
    simp only [performOpen, retryDead_unparked h.parked]
    exact hsame
  | autoSweep env =>
    simp only [performOpen, autoSweep_unparked h.parked]
    exact hsame
  | suspend =>
    intro q' hq'
    cases hq'
    exact h.land (.refl _) h.parked rfl
  | resume =>
    simp only [performOpen, resume]
    split
    · exact hsame
    · intro q' hq'
      cases hq'
      exact h.land (.refl _) h.parked rfl
  | arrive _ | lose _ | changeLease _ | load => exact hsame

end Open

/-- What storage keeps of a run is in the order of the taps with nothing parked. -/
structure TapOrdered (w : World) : Prop where
  safe : Safe w
  order : (cards w.stored.pending).Sublist w.staged
  parked : w.stored.dead = []
  lined : ∀ q ∈ w.queue, Lined w.staged q

theorem tapOrdered_empty (lease : Option Nat) : TapOrdered (World.empty lease) where
  safe := safe_empty lease
  order := nil_sublist _
  parked := rfl
  lined q hq := by simp [World.empty] at hq

theorem lined_load {w : World} (horder : (cards w.stored.pending).Sublist w.staged)
    (hparked : w.stored.dead = []) : ∀ q ∈ (load w).queue, Lined w.staged q := by
  intro q hq
  cases hq
  have hlane : ∀ items : List QueuedKnock,
      (cards ((items.map triagePending).filterMap Triage.toPending)).Sublist (cards items) ∧
        (items.map triagePending).filterMap Triage.toDead = [] := by
    intro items
    induction items with
    | nil => exact ⟨.refl _, rfl⟩
    | cons item rest ih =>
      by_cases hdrop : item.undeliverable = true
      · simp only [map_cons, triagePending, hdrop, if_true, filterMap_cons,
          Triage.toPending, Triage.toDead]
        exact ⟨ih.1.cons _, ih.2⟩
      · simp only [map_cons, triagePending, hdrop, if_false, filterMap_cons,
          Triage.toPending, Triage.toDead, Bool.false_eq_true]
        exact ⟨ih.1.cons_cons _, ih.2⟩
  refine ⟨?_, ?_, by simp⟩
  · simpa [hparked] using (hlane w.stored.pending).1.trans horder
  · simpa [hparked] using (hlane w.stored.pending).2

theorem lined_perform {w : World} (h : TapOrdered w) (hcond : KeepsTapOrder w e) :
    ∀ q ∈ (perform w e).queue, Lined (perform w e).staged q := by
  by_cases he : e.isOpen = true
  · obtain hq | ⟨q, hq⟩ := w.queue.eq_none_or_eq_some
    · rw [perform_closed hq he]
      exact h.lined
    · have hparks : ParksNothing w.idle e := by
        cases e <;> exact hcond.2.1
      have hwalk : WalksInTurn w.idle e := by
        cases e <;> exact hcond.2.2
      rw [perform_open hq he]
      exact lined_performOpen (w := w.idle) (h.lined q hq) hq hparks hwalk
  · cases e with
    | arrive i =>
      simp only [perform]
      split <;> exact h.lined
    | lose i => exact h.lined
    | changeLease lease => exact h.lined
    | load => exact lined_load (w := w.idle) h.order h.parked
    | stage | enrich | flush | answered | failed | updateNote | patchAnswered | retryDead | autoSweep
    | suspend | resume => exact absurd rfl he

theorem tapOrdered_complete (w : World) (e : Event) (h : TapOrdered w)
    (hcond : KeepsTapOrder w e) : TapOrdered (complete w e) := by
  have hsafe := safe_complete h.safe hcond.1
  have hlined : ∀ q ∈ (complete w e).queue, Lined (complete w e).staged q := lined_perform h hcond
  obtain hq | ⟨q, hq⟩ := (complete w e).queue.eq_none_or_eq_some
  · have hnone : (perform w e).queue = none := hq
    obtain ⟨hwrites, hstored, hstaged⟩ := perform_of_none hnone
    have hkept : (complete w e).stored = w.stored := by
      simp only [complete, hwrites, foldl_nil]
    have hstaged : (complete w e).staged = w.staged := hstaged
    refine ⟨hsafe, ?_, ?_, hlined⟩
    · rw [hkept, hstaged]
      exact h.order
    · rw [hkept]
      exact h.parked
  · have hsync := hsafe.synced q hq
    refine ⟨hsafe, ?_, ?_, hlined⟩
    · rw [hsync]
      exact (hlined q hq).order
    · rw [hsync]
      exact (hlined q hq).parked

/-- Every knock that was staged before an item on its lead was accepted or resolved. -/
def EarlierSettled (w : World) (item : QueuedKnock) : Prop :=
  ∀ knock ∈ w.staged, knock.2 = item.leadId → [knock, item.card].Sublist w.staged →
    knock.1 ∈ w.accepted ∨ knock.1 ∈ w.resolved

instance (w : World) (item : QueuedKnock) : Decidable (EarlierSettled w item) :=
  inferInstanceAs (Decidable (∀ knock ∈ w.staged, knock.2 = item.leadId →
    [knock, item.card].Sublist w.staged → knock.1 ∈ w.accepted ∨ knock.1 ∈ w.resolved))

/-- A POST is awaited only when the knocks before it on its lead are settled. -/
def TapOrder (w : World) : Prop := ∀ q ∈ w.queue, ∀ p ∈ awaited q, EarlierSettled w p.2

instance (w : World) : Decidable (TapOrder w) :=
  inferInstanceAs (Decidable (∀ q ∈ w.queue, ∀ p ∈ awaited q, EarlierSettled w p.2))

theorem TapOrdered.tapOrder {w : World} (h : TapOrdered w) : TapOrder w := by
  rintro q hq ⟨f, item⟩ hitem ⟨c, leadId⟩ hmem hlead hbefore
  obtain rfl : leadId = item.leadId := hlead
  obtain ⟨hflight, hi⟩ := awaited_eq_some hitem
  have hlined := h.lined q hq
  have hknown : c ∈ w.stagedIds := mem_map_of_mem hmem
  rcases h.safe.kept c hknown with hlane | hsettled
  · exfalso
    rw [h.safe.synced q hq] at hlane
    have hline : (c, item.leadId) ∈ cards q.pending := by
      have hpending : c ∈ clientIds q.pending := by
        simpa [Storage.clientIds, Queue.lanes, hlined.parked] using hlane
      obtain ⟨item', hitem', rfl⟩ := mem_map.mp hpending
      have hcard : item'.card ∈ cards q.pending := mem_map_of_mem hitem'
      have hlead : item'.leadId = item.leadId :=
        staged_lead h.safe.fresh (hlined.order.subset hcard) hmem
      exact hlead ▸ hcard
    have hsplit : cards q.pending =
        (cards q.pending).take f.idx ++ item.card :: (cards q.pending).drop (f.idx + 1) := by
      have hget : (cards q.pending)[f.idx]? = some item.card := by simp [cards, hi]
      obtain ⟨hlt, hget⟩ := List.getElem?_eq_some_iff.mp hget
      rw [← hget, getElem_cons_drop, take_append_drop]
    have hnd : w.staged.Nodup := List.Nodup.of_map _ h.safe.fresh
    obtain ⟨card, hcard, hfirst⟩ := hlined.turn f hflight
    obtain rfl : item.card = card := by simpa [cards, hi] using hcard
    rw [hsplit] at hline
    rcases mem_append.mp hline with hearlier | hrest
    · exact hfirst _ hearlier rfl
    · rcases mem_cons.mp hrest with hself | hlater
      · rw [hself] at hbefore
        exact absurd (hnd.sublist hbefore) (by simp)
      · have hafter : [item.card, (c, item.leadId)].Sublist (cards q.pending) := by
          rw [hsplit]
          exact ((singleton_sublist.mpr hlater).cons_cons _).trans
            (sublist_append_right _ _)
        exact pair_sublist_asymm hnd hbefore (hafter.trans hlined.order)
  · exact hsettled

/-- In every run that parks nothing and whose walks pass over no knock of the door they send next,
the knocks of a door are sent in the order of the taps. -/
theorem tapOrder_run (lease : Option Nat) (es : List Event)
    (h : Along complete KeepsTapOrder (World.empty lease) es) :
    TapOrder (run complete (World.empty lease) es) :=
  (run_invariant tapOrdered_complete (tapOrdered_empty lease) h).tapOrder

/-- Two taps on door 5, and the first POST meets a server error. -/
def twoTaps : List Event :=
  [.load,
    .stage ⟨5, 1, .notHome, [], none, none, none, ⟨none, none, none, none, none, none, none⟩⟩
      "knock-1",
    .stage ⟨5, 1, .sold, [], none, none, none, ⟨none, none, none, none, none, none, none⟩⟩
      "knock-2",
    .flush ⟨0, true⟩, .failed ['5', '0', '3', ':'] ⟨0, true⟩]

/-- The first knock backs off, and the next flush passes over it and sends the second one. -/
theorem not_tapOrder_backedOff :
    Along complete (fun w e => Fresh w e ∧ ParksNothing w e) (World.empty (some 0))
      (twoTaps ++ [.flush ⟨1000, true⟩]) ∧
    ¬ TapOrder (run complete (World.empty (some 0)) (twoTaps ++ [.flush ⟨1000, true⟩])) := by
  decide +kernel

/-- A flush that waits for the first knock sends the two in order. -/
theorem tapOrder_run_twoTaps :
    TapOrder (run complete (World.empty (some 0)) (twoTaps ++
      [.flush ⟨4000, true⟩, .arrive 1, .answered (some 1) ⟨5000, true⟩])) :=
  tapOrder_run (some 0) _ (by decide +kernel)

end HomefrontFiber.FieldQueue
