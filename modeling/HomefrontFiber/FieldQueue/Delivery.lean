import HomefrontFiber.FieldQueue.Queue

/-!
# What an event of the queue comes to

The ids of a lane survive every edit of its items. Equations and case lemmas for the events: a flush changes no lane before its next response, a sweep
either finds nothing or moves its targets, an answered POST removes its item, and a failed one ends
in one of four ways.
-/

variable {i : Nat} {item : QueuedKnock}

namespace HomefrontFiber.FieldQueue

open Knocking List

def clientIds (items : List QueuedKnock) : List String := items.map (·.clientId)

@[simp] theorem clientIds_nil : clientIds [] = [] := rfl

@[simp] theorem clientIds_cons (item : QueuedKnock) (items : List QueuedKnock) :
    clientIds (item :: items) = item.clientId :: clientIds items := rfl

@[simp] theorem clientIds_append (items items' : List QueuedKnock) :
    clientIds (items ++ items') = clientIds items ++ clientIds items' := map_append

theorem clientIds_map {f : QueuedKnock → QueuedKnock} (hf : ∀ item, (f item).clientId = item.clientId)
    (items : List QueuedKnock) : clientIds (items.map f) = clientIds items := by
  simp [clientIds, Function.comp_def, hf]

variable {leadId : Int} {notes : Text} {clientId : String} {env : Ambient} {e : Event}

section Edits

variable {β : Type} {f : QueuedKnock → β} {items items' : List QueuedKnock}

theorem map_set {item' : QueuedKnock} (hi : items[i]? = some item)
    (hf : f item' = f item) : (items.set i item').map f = items.map f := by
  obtain ⟨hlt, rfl⟩ := List.getElem?_eq_some_iff.mp hi
  have hget : (items.map f).get ⟨i, by simpa using hlt⟩ = f item' := by simp [hf]
  rw [List.map_set, ← hget]
  exact set_getElem_self _

theorem map_setEvidence {evidence : Evidence}
    (hf : ∀ item : QueuedKnock, f { item with evidence := evidence } = f item) (clientId : String)
    (items : List QueuedKnock) : (setEvidence clientId evidence items).map f = items.map f := by
  induction items with
  | nil => rfl
  | cons head rest ih =>
    by_cases hid : head.clientId = clientId
    · rw [setEvidence, if_pos hid, map_cons, map_cons, hf]
    · rw [setEvidence, if_neg hid, map_cons, map_cons, ih]

theorem map_setLastNote (hf : ∀ item : QueuedKnock, f { item with notes := some notes } = f item)
    (h : setLastNote leadId notes items = some (items', clientId)) :
    items'.map f = items.map f := by
  induction items generalizing items' with
  | nil => simp [setLastNote] at h
  | cons head rest ih =>
    simp only [setLastNote] at h
    split at h
    · rename_i rest' id hrest
      obtain ⟨rfl, rfl⟩ : head :: rest' = items' ∧ id = clientId := by simpa using h
      simp [ih hrest]
    · split at h
      · obtain ⟨rfl, -⟩ := by simpa using h
        rw [map_cons, map_cons, hf]
      · simp at h

end Edits

theorem clientIds_set {items : List QueuedKnock} {i : Nat} {item item' : QueuedKnock}
    (hi : items[i]? = some item) (hid : item'.clientId = item.clientId) :
    clientIds (items.set i item') = clientIds items := map_set hi hid

theorem clientIds_setEvidence (clientId : String) (evidence : Evidence) (items : List QueuedKnock) :
    clientIds (setEvidence clientId evidence items) = clientIds items :=
  map_setEvidence (fun _ => rfl) clientId items

theorem clientIds_setLastNote {items items' : List QueuedKnock}
    (h : setLastNote leadId notes items = some (items', clientId)) :
    clientIds items' = clientIds items := map_setLastNote (fun _ => rfl) h

theorem flushFrom_eq (env : Ambient) (idx : Nat) (w : World) (q : Queue) :
    ∃ flight sent wire, flushFrom env idx w q =
      { w with queue := some { q with flight := flight }, sent := sent, wire := wire } := by
  unfold flushFrom
  split
  · exact ⟨none, w.sent, w.wire, rfl⟩
  · exact ⟨_, _, _, rfl⟩

theorem startFlush_eq (env : Ambient) (w : World) (q : Queue) :
    ∃ flight sent wire, startFlush env w q =
      { w with queue := some { q with flight := flight }, sent := sent, wire := wire } := by
  unfold startFlush
  split
  · exact ⟨q.flight, w.sent, w.wire, rfl⟩
  · exact flushFrom_eq env 0 w q

theorem startFlush_writes (env : Ambient) (w : World) (q : Queue) :
    (startFlush env w q).writes = w.writes := by
  obtain ⟨flight, sent, wire, h⟩ := startFlush_eq env w q
  rw [h]

theorem flushFrom_writes (env : Ambient) (idx : Nat) (w : World) (q : Queue) :
    (flushFrom env idx w q).writes = w.writes := by
  obtain ⟨flight, sent, wire, h⟩ := flushFrom_eq env idx w q
  rw [h]

def sweptQueue (env : Ambient) (w : World) (q : Queue) : Queue :=
  { q with
    pending := q.pending ++ (sweepTargets env w q).map swept
    dead := q.dead.filter fun item => !isAutoRetryableDeadKnock item
    lastAutoSweepAt := env.now }

theorem sweep_of_nil {w : World} {q : Queue} (h : sweepTargets env w q = []) :
    sweep env w q = (q, []) := if_pos h

theorem sweep_of_ne_nil {w : World} {q : Queue} (h : sweepTargets env w q ≠ []) :
    sweep env w q = (sweptQueue env w q,
      [.pending (sweptQueue env w q).pending, .dead (sweptQueue env w q).dead]) := if_neg h

theorem sweepTargets_eq {w : World} {q : Queue} (h : sweepTargets env w q ≠ []) :
    sweepTargets env w q = q.dead.filter isAutoRetryableDeadKnock := by
  unfold sweepTargets at h ⊢
  split at h
  · exact absurd rfl h
  · rename_i hopen
    rw [if_neg hopen]

def acceptedQueue (knockId : Option Nat) (q : Queue) (f : Flight) (item : QueuedKnock) : Queue :=
  { q with
    pending := q.pending.eraseIdx f.idx
    recentSaves := rememberSave q.recentSaves item.leadId { clientId := item.clientId, knockId } }

theorem answered_of_run {w : World} {q : Queue} {f : Flight} (h : currentRun w q f.lease = true)
    (knockId : Option Nat) (env : Ambient) (item : QueuedKnock) :
    answered knockId env w q f item = flushFrom env f.idx
      { w with
        writes := .pending (q.pending.eraseIdx f.idx) ::
          (sweep env w (acceptedQueue knockId q f item)).2
        accepted := w.accepted ++ [item.clientId] }
      (sweep env w (acceptedQueue knockId q f item)).1 := if_pos h

theorem answered_of_not_run {w : World} {q : Queue} {f : Flight}
    (h : ¬currentRun w q f.lease = true) (knockId : Option Nat) (env : Ambient)
    (item : QueuedKnock) : answered knockId env w q f item =
      { w with queue := some { q with flight := none } } := if_neg h

theorem sweepTargets_acceptedQueue (env : Ambient) (w : World) (q : Queue) (knockId : Option Nat)
    (f : Flight) (item : QueuedKnock) :
    sweepTargets env w (acceptedQueue knockId q f item) = sweepTargets env w q := rfl

theorem failed_cases (message : Text) (env : Ambient) (w : World) (q : Queue) (f : Flight)
    (item : QueuedKnock) :
    failed message env w q f item = { w with queue := some { q with flight := none } } ∨
    (∃ since item' until_, item'.clientId = item.clientId ∧ item'.leadId = item.leadId ∧
      item'.notes = item.notes ∧ failed message env w q f item =
        backOff w { q with lastTransientFailureAt := since } f.idx item' until_) ∨
    (currentRun w q f.lease ∧ classifyKnockFailure (some message) = .terminal ∧
      failed message env w q f item = flushFrom env f.idx
        { w with
          writes := [.pending (q.pending.eraseIdx f.idx)]
          resolved := w.resolved ++ [item.clientId] }
        { q with pending := q.pending.eraseIdx f.idx }) ∨
    (currentRun w q f.lease ∧ parks message env q item ∧ ∃ since burst,
      failed message env w q f item = flushFrom env f.idx
        { w with
          writes := [.pending (q.pending.eraseIdx f.idx),
            .dead (q.dead ++ [failedItem message burst item])] }
        { q with
          pending := q.pending.eraseIdx f.idx
          dead := q.dead ++ [failedItem message burst item]
          lastTransientFailureAt := since }) := by
  let kind := classifyKnockFailure (some message)
  let burst := isLikelyRestartBurst403 kind q.lastTransientFailureAt env.now
  let since := if kind = .retryable then env.now else q.lastTransientFailureAt
  by_cases hrun : currentRun w q f.lease = true
  · have hrun' : ¬(!currentRun w q f.lease) = true := by simp [hrun]
    by_cases hauth : kind = .auth
    · refine .inr (.inl ⟨q.lastTransientFailureAt, { item with lastError := some message },
        env.now + retryDelayMs 1, rfl, rfl, rfl, ?_⟩)
      exact (if_neg hrun').trans (if_pos hauth)
    by_cases hterminal : kind = .terminal
    · refine .inr (.inr (.inl ⟨hrun, hterminal, ?_⟩))
      exact (if_neg hrun').trans ((if_neg hauth).trans (if_pos hterminal))
    by_cases hparks : parks message env q item = true
    · refine .inr (.inr (.inr ⟨hrun, hparks, since, burst, ?_⟩))
      exact (if_neg hrun').trans
        ((if_neg hauth).trans ((if_neg hterminal).trans (if_pos hparks)))
    · refine .inr (.inl ⟨since, failedItem message burst item,
        env.now + retryDelayMs (failedItem message burst item).attempts, rfl, rfl, rfl, ?_⟩)
      exact (if_neg hrun').trans
        ((if_neg hauth).trans ((if_neg hterminal).trans (if_neg hparks)))
  · have hrun' : (!currentRun w q f.lease) = true := by simp [hrun]
    exact .inl (if_pos hrun')

theorem awaited_eq_some {q : Queue} {f : Flight} (h : awaited q = some (f, item)) :
    q.flight = some f ∧ q.pending[f.idx]? = some item := by
  simp only [awaited, Option.bind_eq_some_iff, Option.map_eq_some_iff, Prod.mk.injEq] at h
  obtain ⟨f', hf, item', hitem, rfl, rfl⟩ := h
  exact ⟨hf, hitem⟩

def Event.isOpen : Event → Bool
  | .arrive _ | .lose _ | .changeLease _ | .load => false
  | _ => true

def World.idle (w : World) : World := { w with writes := [] }

theorem perform_open {w : World} {q : Queue} (hq : w.queue = some q)
    (he : e.isOpen = true) : perform w e = performOpen w.idle q e := by
  have helim : w.queue.elim w.idle (fun q => performOpen w.idle q e) = performOpen w.idle q e := by
    rw [hq]
    rfl
  cases e <;> first | exact helim | exact absurd he Bool.false_ne_true

theorem perform_closed {w : World} (hq : w.queue = none) (he : e.isOpen = true) :
    perform w e = w.idle := by
  have helim : w.queue.elim w.idle (fun q => performOpen w.idle q e) = w.idle := by
    rw [hq]
    rfl
  cases e <;> first | exact helim | exact absurd he Bool.false_ne_true

end HomefrontFiber.FieldQueue

/-!
## What the server has accepted it has received

Requests are numbered in the order in which they are sent. The flight of a flush stays aimed at the
item whose POST it awaits: until the response, no event moves that item. So an accepted knock is one
whose POST the server received.
-/

namespace HomefrontFiber.FieldQueue

open Knocking List

/-- What the server has received, then what is still on the wire. -/
def World.requests (w : World) : List Request := w.received ++ w.wire

def Numbered (w : World) : Prop := ∀ r ∈ w.requests, r.seq < w.sent

/-- The awaited POST was sent for the item at the position of the flight. -/
def Aimed (w : World) (q : Queue) : Prop :=
  ∀ f ∈ q.flight, f.seq < w.sent ∧ ∃ item, q.pending[f.idx]? = some item ∧
    ∀ r ∈ w.requests, r.seq = f.seq → r.clientId = item.clientId

def Credited (w : World) : Prop := ∀ c ∈ w.accepted, ∃ r ∈ w.received, r.clientId = c

structure Posted (w : World) : Prop where
  numbered : Numbered w
  aimed : ∀ q ∈ w.queue, Aimed w q
  accepted : Credited w

theorem posted_empty (lease : Option Nat) : Posted (World.empty lease) where
  numbered r hr := absurd hr not_mem_nil
  aimed q hq := by simp [World.empty] at hq
  accepted c hc := absurd hc not_mem_nil

theorem Aimed.of_no_flight {w : World} {q : Queue} (h : q.flight = none) : Aimed w q := by
  intro f hf
  simp [h] at hf

variable {w' : World} {q' : Queue} {j idx : Nat}

theorem Aimed.mono {w : World} {q : Queue} (h : Aimed w q) (hf : q'.flight = q.flight)
    (hids : clientIds q.pending <+: clientIds q'.pending) (hsent : w.sent ≤ w'.sent)
    (hreq : ∀ r ∈ w'.requests, r ∈ w.requests ∨ r.seq = w.sent) : Aimed w' q' := by
  intro f hflight
  obtain ⟨hlt, item, hitem, hid⟩ := h f (hf ▸ hflight)
  obtain ⟨rest, hrest⟩ := hids
  have hlen : f.idx < (clientIds q.pending).length := by
    simpa [clientIds] using List.getElem?_eq_some_iff.mp hitem |>.1
  have hsame : (clientIds q'.pending)[f.idx]? = some item.clientId := by
    rw [← hrest, getElem?_append_left hlen]
    simp [clientIds, hitem]
  simp only [clientIds, getElem?_map, Option.map_eq_some_iff] at hsame
  obtain ⟨item', hitem', hid'⟩ := hsame
  refine ⟨by omega, item', hitem', ?_⟩
  intro r hr hseq
  rcases hreq r hr with hold | hnew
  · rw [hid', hid r hold hseq]
  · omega

theorem nextDue_spec {now : Int} {items : List QueuedKnock}
    (h : nextDue now i items = some (j, item)) : i ≤ j ∧ items[j - i]? = some item := by
  induction items generalizing i with
  | nil => simp [nextDue] at h
  | cons head rest ih =>
    simp only [nextDue] at h
    split at h
    · obtain ⟨rfl, rfl⟩ : i = j ∧ head = item := by simpa using h
      simp
    · obtain ⟨hle, hitem⟩ := ih h
      have hj : j - i = (j - (i + 1)) + 1 := by omega
      exact ⟨by omega, by rw [hj]; exact hitem⟩

theorem nextDue_drop {now : Int} {items : List QueuedKnock}
    (h : nextDue now idx (items.drop idx) = some (j, item)) : items[j]? = some item := by
  obtain ⟨hle, hitem⟩ := nextDue_spec h
  rw [getElem?_drop] at hitem
  rwa [Nat.add_sub_cancel' hle] at hitem

theorem dispatch_posted {w : World} (hn : Numbered w) (hc : Credited w) {q : Queue}
    (hitem : q.pending[idx]? = some item) :
    Posted (dispatch w q idx item) := by
  have hreq : ∀ r ∈ (dispatch w q idx item).requests,
      r ∈ w.requests ∨ r = ⟨w.sent, item.clientId, item.notes⟩ := by
    intro r hr
    simpa [dispatch, World.requests, or_assoc] using hr
  refine ⟨?_, ?_, hc⟩
  · intro r hr
    rcases hreq r hr with hold | rfl
    · exact Nat.lt_succ_of_lt (hn r hold)
    · exact Nat.lt_succ_self w.sent
  · intro q' hq' f hf
    cases hq'
    cases hf
    refine ⟨Nat.lt_succ_self w.sent, item, hitem, ?_⟩
    intro r hr hseq
    rcases hreq r hr with hold | rfl
    · exact absurd hseq (Nat.ne_of_lt (hn r hold))
    · rfl

theorem flushFrom_posted {w : World} (hn : Numbered w) (hc : Credited w) (env : Ambient)
    (idx : Nat) (q : Queue) : Posted (flushFrom env idx w q) := by
  unfold flushFrom
  split
  · refine ⟨hn, ?_, hc⟩
    intro q' hq'
    cases hq'
    exact .of_no_flight rfl
  · rename_i i item hdue
    exact dispatch_posted hn hc (nextDue_drop hdue)

theorem startFlush_posted {w : World} {q : Queue} (h : Posted { w with queue := some q })
    (env : Ambient) : Posted (startFlush env w q) := by
  unfold startFlush
  split
  · exact h
  · exact flushFrom_posted h.numbered h.accepted env 0 q

/-- An edit of the queue that keeps the flight and only adds ids at the end of the line. -/
theorem Posted.edit {w : World} {q : Queue} (h : Posted w) (hq : w.queue = some q)
    (hq' : w'.queue = some q') (hf : q'.flight = q.flight)
    (hids : clientIds q.pending <+: clientIds q'.pending) (hsent : w'.sent = w.sent)
    (hreceived : w'.received = w.received) (hwire : w'.wire = w.wire)
    (haccepted : w'.accepted = w.accepted) : Posted w' := by
  have hreq : w'.requests = w.requests := by rw [World.requests, hreceived, hwire, World.requests]
  refine ⟨?_, ?_, ?_⟩
  · intro r hr
    rw [hsent]
    exact h.numbered r (hreq ▸ hr)
  · intro q'' hq''
    obtain rfl : q' = q'' := Option.some.inj (hq'.symm.trans hq'')
    refine (h.aimed q hq).mono hf hids (Nat.le_of_eq hsent.symm) ?_
    intro r hr
    exact .inl (hreq ▸ hr)
  · rw [Credited, haccepted, hreceived]
    exact h.accepted

theorem Posted.land {w : World} (h : Posted w) (hq' : w'.queue = some q')
    (hf : q'.flight = none) (hsent : w'.sent = w.sent) (hreceived : w'.received = w.received)
    (hwire : w'.wire = w.wire) (haccepted : w'.accepted = w.accepted) : Posted w' := by
  have hreq : w'.requests = w.requests := by rw [World.requests, hreceived, hwire, World.requests]
  refine ⟨?_, ?_, ?_⟩
  · intro r hr
    rw [hsent]
    exact h.numbered r (hreq ▸ hr)
  · intro q'' hq''
    obtain rfl : q' = q'' := Option.some.inj (hq'.symm.trans hq'')
    exact .of_no_flight hf
  · rw [Credited, haccepted, hreceived]
    exact h.accepted

theorem Posted.send {w : World} (h : Posted w) (r : Request) (hr : r.seq = w.sent)
    (hq : w'.queue = w.queue) (hsent : w'.sent = w.sent + 1) (hreceived : w'.received = w.received)
    (hwire : w'.wire = w.wire ++ [r]) (haccepted : w'.accepted = w.accepted) : Posted w' := by
  have hreq : ∀ r' ∈ w'.requests, r' ∈ w.requests ∨ r' = r := by
    intro r' hr'
    simpa [World.requests, hreceived, hwire, or_assoc] using hr'
  refine ⟨?_, ?_, ?_⟩
  · intro r' hr'
    rw [hsent]
    rcases hreq r' hr' with hold | rfl
    · exact Nat.lt_succ_of_lt (h.numbered r' hold)
    · omega
  · intro q hq'
    refine (h.aimed q (hq ▸ hq')).mono rfl (prefix_refl _) (by omega) ?_
    intro r' hr'
    rcases hreq r' hr' with hold | rfl
    · exact .inl hold
    · exact .inr hr
  · rw [Credited, haccepted, hreceived]
    exact h.accepted

theorem sweep_ids (env : Ambient) (w : World) (q : Queue) :
    (sweep env w q).1.flight = q.flight ∧
      clientIds q.pending <+: clientIds (sweep env w q).1.pending := by
  by_cases h : sweepTargets env w q = []
  · rw [sweep_of_nil h]
    exact ⟨rfl, prefix_refl _⟩
  · rw [sweep_of_ne_nil h]
    exact ⟨rfl, by simp [sweptQueue]⟩

section Open

variable {w : World} {q : Queue}

theorem answered_posted (h : Posted w) {f : Flight}
    (hitem : awaited q = some (f, item)) (hq : w.queue = some q) (harrived : hasArrived w f.seq = true)
    (knockId : Option Nat) (env : Ambient) : Posted (answered knockId env w q f item) := by
  by_cases hrun : currentRun w q f.lease = true
  · rw [answered_of_run hrun]
    apply flushFrom_posted
    · exact h.numbered
    · intro c hc
      rcases mem_append.mp hc with hold | hnew
      · exact h.accepted c hold
      · obtain rfl := mem_singleton.mp hnew
        obtain ⟨hflight, hi⟩ := awaited_eq_some hitem
        obtain ⟨-, item', hi', hid⟩ := h.aimed q hq f hflight
        obtain rfl : item' = item := Option.some.inj (hi'.symm.trans hi)
        obtain ⟨r, hr, hseq⟩ : ∃ r ∈ w.received, r.seq = f.seq := by
          simpa [hasArrived] using harrived
        exact ⟨r, hr, hid r (mem_append_left _ hr) hseq⟩
  · rw [answered_of_not_run hrun]
    exact h.land rfl rfl rfl rfl rfl rfl

theorem failed_posted (h : Posted w) (message : Text) (env : Ambient) (f : Flight)
    (item : QueuedKnock) : Posted (failed message env w q f item) := by
  rcases failed_cases message env w q f item with hf | ⟨since, item', until_, -, -, -, hf⟩ |
    ⟨-, -, hf⟩ | ⟨-, -, since, burst, hf⟩ <;> rw [hf]
  · exact h.land rfl rfl rfl rfl rfl rfl
  · exact h.land rfl rfl rfl rfl rfl rfl
  · apply flushFrom_posted
    · exact h.numbered
    · exact h.accepted
  · apply flushFrom_posted
    · exact h.numbered
    · exact h.accepted

theorem updateNote_posted (h : Posted w) (hq : w.queue = some q) (leadId : Int) (notes : Text) :
    Posted (updateNote leadId notes w q) := by
  unfold updateNote
  split
  · exact ⟨h.numbered, h.aimed, h.accepted⟩
  · split
    · rename_i pending clientId hlast
      have hids : clientIds q.pending <+: clientIds pending :=
        ⟨[], by rw [append_nil, clientIds_setLastNote hlast]⟩
      exact h.edit hq rfl rfl hids rfl rfl rfl rfl
    · split
      · exact ⟨h.numbered, h.aimed, h.accepted⟩
      · exact h.send _ rfl rfl rfl rfl rfl rfl

theorem performOpen_posted (h : Posted w) (hq : w.queue = some q) (e : Event) :
    Posted (performOpen w q e) := by
  have hsame : Posted { w with queue := some q } := by rwa [← hq]
  cases e with
  | stage input clientId =>
    simp only [performOpen, stage]
    split
    · exact h
    · exact h.edit hq rfl rfl (by simp) rfl rfl rfl rfl
  | enrich clientId evidence =>
    simp only [performOpen, enrich]
    split
    · exact h.edit hq rfl rfl (by simp [clientIds_setEvidence]) rfl rfl rfl rfl
    · exact h
  | flush env => exact startFlush_posted hsame env
  | answered knockId env =>
    simp only [performOpen]
    split
    · exact h
    · rename_i f item hitem
      split
      · rename_i harrived
        exact answered_posted h hitem hq harrived knockId env
      · exact h
  | failed message env =>
    simp only [performOpen]
    split
    · exact h
    · exact failed_posted h message env _ _
  | updateNote leadId notes => exact updateNote_posted h hq leadId notes
  | patchAnswered seq ok =>
    simp only [performOpen, patchAnswered]
    split
    · split
      · exact h
      · exact ⟨h.numbered, h.aimed, h.accepted⟩
    · exact h
  | retryDead clientId env =>
    simp only [performOpen, retryDead]
    split
    · exact h
    · apply startFlush_posted
      exact h.edit hq rfl rfl (by simp) rfl rfl rfl rfl
  | autoSweep env =>
    simp only [performOpen, autoSweep]
    split
    · exact h
    · obtain ⟨hf, hids⟩ := sweep_ids env w q
      apply startFlush_posted
      exact h.edit hq rfl hf hids rfl rfl rfl rfl
  | suspend => exact h.land rfl rfl rfl rfl rfl rfl
  | resume =>
    simp only [performOpen, resume]
    split
    · exact h
    · exact h.land rfl rfl rfl rfl rfl rfl
  | arrive _ | lose _ | changeLease _ | load => exact h

/-- During an event of an open page nothing arrives, and the page stays open. -/
structure StaysOpen (w w' : World) : Prop where
  received : w'.received = w.received
  open_ : w'.queue.isSome = true

theorem startFlush_open (w : World) (q : Queue) (env : Ambient) :
    StaysOpen w (startFlush env w q) := by
  obtain ⟨flight, sent, wire, h⟩ := startFlush_eq env w q
  rw [h]
  exact ⟨rfl, rfl⟩

theorem flushFrom_open (w : World) (q : Queue) (env : Ambient) (idx : Nat) :
    StaysOpen w (flushFrom env idx w q) := by
  obtain ⟨flight, sent, wire, h⟩ := flushFrom_eq env idx w q
  rw [h]
  exact ⟨rfl, rfl⟩

theorem performOpen_open (hq : w.queue = some q) (e : Event) : StaysOpen w (performOpen w q e) := by
  have hsame : StaysOpen w w := ⟨rfl, by simp [hq]⟩
  cases e with
  | stage input clientId =>
    simp only [performOpen, stage]
    split
    · exact hsame
    · exact ⟨rfl, rfl⟩
  | enrich clientId evidence =>
    simp only [performOpen, enrich]
    split
    · exact ⟨rfl, rfl⟩
    · exact hsame
  | flush env => exact startFlush_open w q env
  | answered knockId env =>
    simp only [performOpen]
    split
    · exact hsame
    · split
      · rename_i f item _ _
        by_cases hrun : currentRun w q f.lease = true
        · rw [answered_of_run hrun]
          exact ⟨(flushFrom_open _ _ env f.idx).received, (flushFrom_open _ _ env f.idx).open_⟩
        · rw [answered_of_not_run hrun]
          exact ⟨rfl, rfl⟩
      · exact hsame
  | failed message env =>
    simp only [performOpen]
    split
    · exact hsame
    · rename_i f item _
      rcases failed_cases message env w q f item with h | ⟨since, item', until_, -, -, -, h⟩ |
        ⟨-, -, h⟩ | ⟨-, -, since, burst, h⟩ <;> rw [h]
      · exact ⟨rfl, rfl⟩
      · exact ⟨rfl, rfl⟩
      · exact ⟨(flushFrom_open _ _ env f.idx).received, (flushFrom_open _ _ env f.idx).open_⟩
      · exact ⟨(flushFrom_open _ _ env f.idx).received, (flushFrom_open _ _ env f.idx).open_⟩
  | updateNote leadId notes =>
    simp only [performOpen, updateNote]
    split
    · exact ⟨rfl, hsame.open_⟩
    · split
      · exact ⟨rfl, rfl⟩
      · split <;> exact ⟨rfl, hsame.open_⟩
  | patchAnswered seq ok =>
    simp only [performOpen, patchAnswered]
    split
    · split
      · exact hsame
      · exact ⟨rfl, hsame.open_⟩
    · exact hsame
  | retryDead clientId env =>
    simp only [performOpen, retryDead]
    split
    · exact hsame
    · exact ⟨(startFlush_open _ _ env).received, (startFlush_open _ _ env).open_⟩
  | autoSweep env =>
    simp only [performOpen, autoSweep]
    split
    · exact hsame
    · exact ⟨(startFlush_open _ _ env).received, (startFlush_open _ _ env).open_⟩
  | suspend => exact ⟨rfl, rfl⟩
  | resume =>
    simp only [performOpen, resume]
    split
    · exact hsame
    · exact ⟨rfl, rfl⟩
  | arrive _ | lose _ | changeLease _ | load => exact hsame

end Open

theorem Posted.of_requests {w : World} (h : Posted w) (hq : w'.queue = w.queue)
    (hsent : w'.sent = w.sent) (hreq : ∀ r ∈ w'.requests, r ∈ w.requests)
    (hreceived : w.received ⊆ w'.received) (haccepted : w'.accepted = w.accepted) : Posted w' := by
  refine ⟨?_, ?_, ?_⟩
  · intro r hr
    rw [hsent]
    exact h.numbered r (hreq r hr)
  · intro q hq'
    exact (h.aimed q (hq ▸ hq')).mono rfl (prefix_refl _) (Nat.le_of_eq hsent.symm)
      fun r hr => .inl (hreq r hr)
  · intro c hc
    obtain ⟨r, hr, hid⟩ := h.accepted c (haccepted ▸ hc)
    exact ⟨r, hreceived hr, hid⟩

theorem perform_posted {w : World} (h : Posted w) (e : Event) : Posted (perform w e) := by
  have hidle : Posted w.idle := ⟨h.numbered, h.aimed, h.accepted⟩
  by_cases he : e.isOpen = true
  · obtain hq | ⟨q, hq⟩ := w.queue.eq_none_or_eq_some
    · rw [perform_closed hq he]
      exact hidle
    · rw [perform_open hq he]
      exact performOpen_posted hidle hq e
  · cases e with
    | arrive i =>
      simp only [perform]
      split
      · exact hidle
      · rename_i r hr
        have hmem : r ∈ w.wire := mem_of_getElem? hr
        refine h.of_requests rfl rfl ?_ (subset_append_left _ _) rfl
        intro r' hr'
        simp only [World.requests, mem_append, mem_singleton] at hr' ⊢
        rcases hr' with (hold | rfl) | hwire
        · exact .inl hold
        · exact .inr hmem
        · exact .inr (mem_of_mem_eraseIdx hwire)
    | lose i =>
      refine h.of_requests rfl rfl ?_ (List.Subset.refl _) rfl
      intro r' hr'
      simp only [perform, World.requests, mem_append] at hr' ⊢
      rcases hr' with hold | hwire
      · exact .inl hold
      · exact .inr (mem_of_mem_eraseIdx hwire)
    | changeLease lease => exact ⟨h.numbered, h.aimed, h.accepted⟩
    | load => exact h.land rfl rfl rfl rfl rfl rfl
    | stage | enrich | flush | answered | failed | updateNote | patchAnswered | retryDead | autoSweep
    | suspend | resume => exact absurd rfl he

theorem perform_accepted_received {w : World} (h : Posted w) (e : Event) :
    ∀ c ∈ (perform w e).accepted, ∃ r ∈ w.received, r.clientId = c := by
  by_cases he : e.isOpen = true
  · obtain hq | ⟨q, hq⟩ := w.queue.eq_none_or_eq_some
    · rw [perform_closed hq he]
      exact h.accepted
    · have hcredited := (perform_posted h e).accepted
      rw [Credited, perform_open hq he, (performOpen_open (w := w.idle) hq e).received] at hcredited
      rw [perform_open hq he]
      exact hcredited
  · cases e with
    | arrive i =>
      simp only [perform]
      split <;> exact h.accepted
    | lose _ | changeLease _ | load => exact h.accepted
    | stage | enrich | flush | answered | failed | updateNote | patchAnswered | retryDead | autoSweep
    | suspend | resume => exact absurd rfl he

theorem posted_step (w : World) (a : Action) (h : Posted w) : Posted (step w a) := by
  cases a with
  | run e =>
    have hw := perform_posted h e
    exact ⟨hw.numbered, hw.aimed, hw.accepted⟩
  | crash e k =>
    refine ⟨h.numbered, ?_, ?_⟩
    · intro q hq
      simp [step, die] at hq
    · intro c hc
      by_cases hzero : k = 0
      · have hold : c ∈ w.accepted := by simpa [step, die, hzero] using hc
        exact h.accepted c hold
      · have hnew : c ∈ (perform w e).accepted := by simpa [step, die, hzero] using hc
        exact perform_accepted_received h e c hnew

theorem accepted_received (lease : Option Nat) (as : List Action) :
    Credited (run step (World.empty lease) as) :=
  (run_invariant_all (I := Posted) posted_step as (posted_empty lease)).accepted

end HomefrontFiber.FieldQueue
