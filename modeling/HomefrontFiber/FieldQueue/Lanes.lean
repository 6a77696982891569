import Mathlib.Data.List.Perm.Basic
import HomefrontFiber.FieldQueue.Delivery

/-!
# No knock is lost between the lanes

Every knock that was staged is, after a reload, in one of the lanes of the queue, unless the server
accepted it or it was resolved, and no client id stands twice in the lanes. A move between the lanes
is two writes, the pending lane first. A page that dies between the two has lost a knock that was
being parked, and has doubled one that was being retried.
-/

namespace HomefrontFiber.FieldQueue

open Knocking List

def Storage.clientIds (s : Storage) : List String :=
  FieldQueue.clientIds s.pending ++ FieldQueue.clientIds s.dead

def Queue.lanes (q : Queue) : Storage := { pending := q.pending, dead := q.dead }

def World.stagedIds (w : World) : List String := w.staged.map (·.1)

variable {i k : Nat} {q' : Queue} {w' : World} {new added : List String} {f : Flight} {e : Event}

theorem clientIds_eraseIdx {items : List QueuedKnock} {item : QueuedKnock}
    (hi : items[i]? = some item) :
    (clientIds (items.eraseIdx i) ++ [item.clientId]).Perm (clientIds items) := by
  induction items generalizing i with
  | nil => simp at hi
  | cons head rest ih =>
    cases i with
    | zero =>
      have hhead : head = item := by simpa using hi
      subst hhead
      exact perm_append_singleton head.clientId (clientIds rest)
    | succ i =>
      have hrest : rest[i]? = some item := by simpa using hi
      exact (ih hrest).cons head.clientId

theorem find?_toList_append_eraseP (p : QueuedKnock → Bool) (items : List QueuedKnock) :
    ((items.find? p).toList ++ items.eraseP p).Perm items := by
  induction items with
  | nil => exact .nil
  | cons head rest ih =>
    by_cases hp : p head
    · simp [hp]
    · simp only [find?_cons, hp, eraseP_cons, cond_false]
      exact perm_middle.trans (ih.cons head)

theorem retry_perm (clientId : Option String) (q : Queue) :
    (retryTargets clientId q ++ retryRest clientId q).Perm q.dead := by
  cases clientId with
  | none => simp [retryTargets, retryRest]
  | some id => exact find?_toList_append_eraseP _ q.dead

theorem retry_ids {clientId : Option String} {q : Queue}
    (hpending : q'.pending = q.pending ++ (retryTargets clientId q).map retried)
    (hdead : q'.dead = retryRest clientId q) : q.lanes.clientIds.Perm q'.lanes.clientIds := by
  have hperm := (retry_perm clientId q).map (·.clientId)
  rw [map_append] at hperm
  simp only [Queue.lanes, Storage.clientIds, hpending, hdead, clientIds_append, append_assoc]
  rw [clientIds_map (f := retried) (fun item => rfl)]
  exact (hperm.append_left _).symm

def Triage.item : Triage → QueuedKnock
  | .pending item => item
  | .dead item => item
  | .drop item => item

theorem triagePending_clientId (item : QueuedKnock) :
    (triagePending item).item.clientId = item.clientId := by
  unfold triagePending
  split <;> rfl

theorem triageDead_clientId (item : QueuedKnock) :
    (triageDead item).item.clientId = item.clientId := by
  unfold triageDead
  split
  · rfl
  · split <;> rfl

theorem triaged_perm (triaged : List Triage) :
    (clientIds (triaged.filterMap Triage.toPending) ++
      clientIds (triaged.filterMap Triage.toDead) ++
      clientIds (triaged.filterMap Triage.toDropped)).Perm
      (triaged.map (·.item.clientId)) := by
  induction triaged with
  | nil => exact .nil
  | cons head rest ih =>
    cases head with
    | pending item => exact ih.cons item.clientId
    | dead item =>
      simp only [filterMap_cons, Triage.toPending, Triage.toDead, Triage.toDropped,
        clientIds_cons, map_cons, append_assoc, cons_append]
      rw [append_assoc] at ih
      exact perm_middle.trans (ih.cons item.clientId)
    | drop item =>
      simp only [filterMap_cons, Triage.toPending, Triage.toDead, Triage.toDropped,
        clientIds_cons, map_cons]
      exact perm_middle.trans (ih.cons item.clientId)

/-- The ids in storage have changed by what was staged and what was settled. -/
structure Accounted (w w' : World) (stored : Storage) (added gone : List String) : Prop where
  staged : w'.stagedIds = w.stagedIds ++ added
  balance : (stored.clientIds ++ gone).Perm (w.stored.clientIds ++ added)
  settled : ∀ c ∈ gone, c ∈ w'.accepted ∨ c ∈ w'.resolved
  accepted : w.accepted ⊆ w'.accepted
  resolved : w.resolved ⊆ w'.resolved

def Event.staging : Event → List String
  | .stage _ clientId => [clientId]
  | _ => []

/-- After its last write an event has stored what it left in memory, and the ids are accounted
for. At most the ids `new` have come. -/
structure Serves (w w' : World) (new : List String) : Prop where
  lanes : ∀ q' ∈ w'.queue, w'.writes.foldl Storage.apply w.stored = q'.lanes
  accounted : ∃ added gone, added.Sublist new ∧
    Accounted w w' (w'.writes.foldl Storage.apply w.stored) added gone

theorem Accounted.refl {w w' : World} (hs : w'.staged = w.staged) (ha : w'.accepted = w.accepted)
    (hr : w'.resolved = w.resolved) {stored : Storage}
    (hperm : stored.clientIds.Perm w.stored.clientIds) : Accounted w w' stored [] [] where
  staged := by simp [World.stagedIds, hs]
  balance := by simpa using hperm
  settled c hc := absurd hc not_mem_nil
  accepted := by simp [ha]
  resolved := by simp [hr]

theorem Serves.of_perm {w : World} (hq : w'.queue = some q')
    (hl : w'.writes.foldl Storage.apply w.stored = q'.lanes)
    (hperm : q'.lanes.clientIds.Perm w.stored.clientIds) (hs : w'.staged = w.staged)
    (ha : w'.accepted = w.accepted) (hr : w'.resolved = w.resolved) : Serves w w' new where
  lanes q hq' := by
    obtain rfl : q' = q := by simpa [hq] using hq'
    exact hl
  accounted := ⟨[], [], nil_sublist new, .refl hs ha hr (hl ▸ hperm)⟩

theorem Serves.of_same {w : World} (hq : ∀ q' ∈ w'.queue, w.stored = q'.lanes)
    (hw : w'.writes = []) (hs : w'.staged = w.staged) (ha : w'.accepted = w.accepted)
    (hr : w'.resolved = w.resolved) : Serves w w' new where
  lanes q' hq' := by simpa [hw] using hq q' hq'
  accounted := ⟨[], [], nil_sublist new, .refl hs ha hr (by simp [hw])⟩

theorem sweep_perm (env : Ambient) (w : World) (q : Queue) :
    (sweep env w q).1.lanes.clientIds.Perm q.lanes.clientIds := by
  by_cases h : sweepTargets env w q = []
  · rw [sweep_of_nil h]
  · have hdead : (clientIds (sweepTargets env w q) ++
        clientIds (q.dead.filter fun item => !isAutoRetryableDeadKnock item)).Perm
        (clientIds q.dead) := by
      rw [sweepTargets_eq h, ← clientIds_append]
      exact (filter_append_perm isAutoRetryableDeadKnock q.dead).map _
    rw [sweep_of_ne_nil h]
    simp only [sweptQueue, Queue.lanes, Storage.clientIds, clientIds_append, append_assoc]
    rw [clientIds_map (f := swept) (fun item => rfl)]
    exact hdead.append_left _

theorem sweep_writes {env : Ambient} {w : World} {q : Queue} {s : Storage} (hs : s = q.lanes) :
    (sweep env w q).2.foldl Storage.apply s = (sweep env w q).1.lanes := by
  by_cases h : sweepTargets env w q = []
  · rw [sweep_of_nil h]
    exact hs
  · rw [sweep_of_ne_nil h]
    rfl

section Open

variable {w : World} {q : Queue}

theorem serves_stage (hq : w.queue = some q) (hl : w.stored = q.lanes) (hw : w.writes = [])
    (input : EnqueueInput) (clientId : String) : Serves w (stage input clientId w q) [clientId] := by
  unfold stage
  split
  · exact .of_same (by simp [hq, hl]) hw rfl rfl rfl
  · refine ⟨fun q' hq' => ?_, [clientId], [], List.Sublist.refl _, ?_⟩
    · obtain rfl := by simpa using hq'
      simp [Storage.apply, hl, Queue.lanes]
    · refine ⟨by simp [World.stagedIds], ?_, by simp, by simp, by simp⟩
      simp only [foldl_cons, foldl_nil, Storage.apply, Storage.clientIds, hl, Queue.lanes,
        clientIds_append, append_assoc, append_nil]
      exact List.Perm.append_left _ perm_append_comm

theorem serves_enrich (hq : w.queue = some q) (hl : w.stored = q.lanes) (hw : w.writes = [])
    (clientId : String) (evidence : Evidence) : Serves w (enrich clientId evidence w q) [] := by
  unfold enrich
  split
  · refine .of_perm rfl ?_ ?_ rfl rfl rfl
    · simp [Storage.apply, hl, Queue.lanes]
    · simp [hl, Queue.lanes, Storage.clientIds, clientIds_setEvidence]
  · exact .of_same (by simp [hq, hl]) hw rfl rfl rfl

theorem serves_flush (hl : w.stored = q.lanes) (hw : w.writes = []) (env : Ambient) :
    Serves w (startFlush env w q) [] := by
  obtain ⟨flight, sent, wire, h⟩ := startFlush_eq env w q
  rw [h]
  exact .of_same (by simp [hl, Queue.lanes]) hw rfl rfl rfl

theorem erased_perm {item : QueuedKnock} (hi : q.pending[i]? = some item) :
    ((clientIds (q.pending.eraseIdx i) ++ clientIds q.dead) ++ [item.clientId]).Perm
      q.lanes.clientIds := by
  refine .trans ?_ ((clientIds_eraseIdx hi).append_right (clientIds q.dead))
  rw [append_assoc, append_assoc]
  exact List.Perm.append_left _ perm_append_comm

theorem serves_answered (hl : w.stored = q.lanes) (hw : w.writes = [])
    {item : QueuedKnock} (hi : q.pending[f.idx]? = some item) (knockId : Option Nat)
    (env : Ambient) : Serves w (answered knockId env w q f item) [] := by
  by_cases hrun : currentRun w q f.lease = true
  · have hwritten : (Write.pending (q.pending.eraseIdx f.idx) ::
        (sweep env w (acceptedQueue knockId q f item)).2).foldl Storage.apply w.stored =
        (sweep env w (acceptedQueue knockId q f item)).1.lanes :=
      sweep_writes (by simp [Storage.apply, hl, acceptedQueue, Queue.lanes])
    rw [answered_of_run hrun]
    obtain ⟨flight, sent, wire, h⟩ := flushFrom_eq env f.idx
      { w with
        writes := .pending (q.pending.eraseIdx f.idx) ::
          (sweep env w (acceptedQueue knockId q f item)).2
        accepted := w.accepted ++ [item.clientId] }
      (sweep env w (acceptedQueue knockId q f item)).1
    rw [h]
    refine ⟨fun q' hq' => ?_, [], [item.clientId], nil_sublist _, by simp [World.stagedIds], ?_,
      by simp, by simp, by simp⟩
    · cases hq'
      exact hwritten
    · have hswept := sweep_perm env w (acceptedQueue knockId q f item)
      rw [hwritten, append_nil, hl]
      exact (hswept.append_right [item.clientId]).trans (erased_perm hi)
  · rw [answered_of_not_run hrun]
    exact .of_same (by simp [hl, Queue.lanes]) hw rfl rfl rfl

theorem serves_backOff (hl : w.stored = q.lanes) {idx : Nat} {item item' : QueuedKnock}
    (hi : q.pending[idx]? = some item) (hid : item'.clientId = item.clientId) (since until_ : Int) :
    Serves w (backOff w { q with lastTransientFailureAt := since } idx item' until_) [] := by
  have hset := @clientIds_set _ _ _ { item' with nextAttemptAt := until_ } hi hid
  refine .of_perm rfl ?_ ?_ rfl rfl rfl
  · simp [backOff, Storage.apply, hl, Queue.lanes]
  · simp [Queue.lanes, Storage.clientIds, hl, hset]

theorem serves_failed (hl : w.stored = q.lanes) (hw : w.writes = [])
    {item : QueuedKnock} (hi : q.pending[f.idx]? = some item) (message : Text) (env : Ambient) :
    Serves w (failed message env w q f item) [] := by
  rcases failed_cases message env w q f item with h | ⟨since, item', until_, hid, -, -, h⟩ |
    ⟨-, -, h⟩ | ⟨-, -, since, burst, h⟩ <;> rw [h]
  · exact .of_same (by simp [hl, Queue.lanes]) hw rfl rfl rfl
  · exact serves_backOff hl hi hid since until_
  · obtain ⟨flight, sent, wire, h⟩ := flushFrom_eq env f.idx
      { w with
        writes := [.pending (q.pending.eraseIdx f.idx)]
        resolved := w.resolved ++ [item.clientId] } { q with pending := q.pending.eraseIdx f.idx }
    rw [h]
    refine ⟨fun q' hq' => ?_, [], [item.clientId], nil_sublist _, by simp [World.stagedIds], ?_,
      by simp, by simp, by simp⟩
    · obtain rfl := by simpa using hq'
      simp [Storage.apply, hl, Queue.lanes]
    · rw [hl, append_nil]
      exact erased_perm hi
  · obtain ⟨flight, sent, wire, h⟩ := flushFrom_eq env f.idx
      { w with
        writes := [.pending (q.pending.eraseIdx f.idx),
          .dead (q.dead ++ [failedItem message burst item])] }
      { q with
        pending := q.pending.eraseIdx f.idx
        dead := q.dead ++ [failedItem message burst item]
        lastTransientFailureAt := since }
    rw [h]
    refine .of_perm rfl ?_ ?_ rfl rfl rfl
    · simp [Storage.apply, Queue.lanes]
    · rw [hl]
      refine .trans ?_ (erased_perm hi)
      simp [Storage.clientIds, Queue.lanes, failedItem]

theorem serves_updateNote (hq : w.queue = some q) (hl : w.stored = q.lanes) (hw : w.writes = [])
    (leadId : Int) (notes : Text) : Serves w (updateNote leadId notes w q) [] := by
  have hsame : ∀ q' ∈ w.queue, w.stored = q'.lanes := by simp [hq, hl]
  unfold updateNote
  split
  · exact .of_same hsame hw rfl rfl rfl
  · split
    · rename_i pending clientId hlast
      refine .of_perm rfl ?_ ?_ rfl rfl rfl
      · simp [Storage.apply, hl, Queue.lanes]
      · simp [hl, Queue.lanes, Storage.clientIds, clientIds_setLastNote hlast]
    · split <;> exact .of_same hsame hw rfl rfl rfl

theorem serves_patchAnswered (hq : w.queue = some q) (hl : w.stored = q.lanes)
    (hw : w.writes = []) (seq : Nat) (ok : Bool) : Serves w (patchAnswered seq ok w q) [] := by
  have hsame : ∀ q' ∈ w.queue, w.stored = q'.lanes := by simp [hq, hl]
  unfold patchAnswered
  split <;> exact .of_same hsame hw rfl rfl rfl

theorem serves_retryDead (hq : w.queue = some q) (hl : w.stored = q.lanes) (hw : w.writes = [])
    (clientId : Option String) (env : Ambient) : Serves w (retryDead clientId env w q) [] := by
  unfold retryDead
  simp only []
  split
  · exact .of_same (by simp [hq, hl]) hw rfl rfl rfl
  · set q' : Queue :=
      { q with
        pending := q.pending ++ (retryTargets clientId q).map retried
        dead := retryRest clientId q } with hq'
    obtain ⟨flight, sent, wire, h⟩ := startFlush_eq env
      { w with writes := [.pending q'.pending, .dead q'.dead] } q'
    rw [h]
    refine .of_perm rfl ?_ ?_ rfl rfl rfl
    · simp [Storage.apply, Queue.lanes]
    · rw [hl]
      exact (retry_ids rfl rfl).symm

theorem serves_autoSweep (hq : w.queue = some q) (hl : w.stored = q.lanes) (hw : w.writes = [])
    (env : Ambient) : Serves w (autoSweep env w q) [] := by
  unfold autoSweep
  simp only []
  split
  · exact .of_same (by simp [hq, hl]) hw rfl rfl rfl
  · obtain ⟨flight, sent, wire, h⟩ := startFlush_eq env { w with writes := (sweep env w q).2 }
      (sweep env w q).1
    rw [h]
    refine .of_perm rfl (sweep_writes hl) ?_ rfl rfl rfl
    rw [hl]
    exact sweep_perm env w q

theorem performOpen_serves (hq : w.queue = some q) (hl : w.stored = q.lanes) (hw : w.writes = [])
    (e : Event) : Serves w (performOpen w q e) e.staging := by
  have hsame : Serves w w e.staging := .of_same (by simp [hq, hl]) hw rfl rfl rfl
  cases e with
  | stage input clientId => exact serves_stage hq hl hw input clientId
  | enrich clientId evidence => exact serves_enrich hq hl hw clientId evidence
  | flush env => exact serves_flush hl hw env
  | answered knockId env =>
    simp only [performOpen]
    split
    · exact hsame
    · rename_i f item h
      split
      · exact serves_answered hl hw (awaited_eq_some h).2 knockId env
      · exact hsame
  | failed message env =>
    simp only [performOpen]
    split
    · exact hsame
    · rename_i f item h
      exact serves_failed hl hw (awaited_eq_some h).2 message env
  | updateNote leadId notes => exact serves_updateNote hq hl hw leadId notes
  | patchAnswered seq ok =>
    simp only [performOpen]
    split
    · exact serves_patchAnswered hq hl hw seq ok
    · exact hsame
  | retryDead clientId env => exact serves_retryDead hq hl hw clientId env
  | autoSweep env => exact serves_autoSweep hq hl hw env
  | suspend => exact .of_same (by simp [performOpen, suspend, hl, Queue.lanes]) hw rfl rfl rfl
  | resume =>
    simp only [performOpen, resume]
    split
    · exact hsame
    · exact .of_same (by simp [hl, Queue.lanes]) hw rfl rfl rfl
  | arrive _ | lose _ | changeLease _ | load => exact hsame

end Open

theorem clientIds_triagePending (items : List QueuedKnock) :
    (items.map triagePending).map (·.item.clientId) = clientIds items := by
  simp [clientIds, Function.comp_def, triagePending_clientId]

theorem clientIds_triageDead (items : List QueuedKnock) :
    (items.map triageDead).map (·.item.clientId) = clientIds items := by
  simp [clientIds, Function.comp_def, triageDead_clientId]

theorem load_serves (w : World) : Serves w (load w) [] := by
  have hperm := triaged_perm (w.stored.pending.map triagePending ++ w.stored.dead.map triageDead)
  rw [map_append, clientIds_triagePending, clientIds_triageDead] at hperm
  refine ⟨fun q' hq' => ?_, [], _, nil_sublist _, by simp [World.stagedIds, load], ?_,
    fun c hc => .inr (mem_append_right w.resolved hc), fun c hc => hc,
    fun c hc => mem_append_left _ hc⟩
  · cases hq'
    rfl
  · rw [append_nil]
    exact hperm

theorem Serves.of_idle {w : World} (h : Serves w.idle w' new) : Serves w w' new := by
  obtain ⟨added, gone, hnew, hacc⟩ := h.accounted
  exact ⟨h.lanes, added, gone, hnew, hacc.staged, hacc.balance, hacc.settled, hacc.accepted, hacc.resolved⟩

/-- In every state where memory and storage agree, an event that runs to its end serves. -/
theorem perform_serves {w : World} (hsync : ∀ q ∈ w.queue, w.stored = q.lanes) (e : Event) :
    Serves w (perform w e) e.staging := by
  have hidle : ∀ {w' : World}, w'.queue = w.queue → w'.writes = [] → w'.staged = w.staged →
      w'.accepted = w.accepted → w'.resolved = w.resolved → Serves w w' e.staging := by
    intro w' hq hw hs ha hr
    exact .of_same (by rwa [hq]) hw hs ha hr
  by_cases he : e.isOpen = true
  · obtain hq | ⟨q, hq⟩ := w.queue.eq_none_or_eq_some
    · rw [perform_closed hq he]
      exact hidle rfl rfl rfl rfl rfl
    · rw [perform_open hq he]
      exact .of_idle (performOpen_serves (w := w.idle) hq (hsync q hq) rfl e)
  · cases e with
    | arrive i =>
      simp only [perform]
      split <;> exact hidle rfl rfl rfl rfl rfl
    | lose i => exact hidle rfl rfl rfl rfl rfl
    | changeLease lease => exact hidle rfl rfl rfl rfl rfl
    | load => exact .of_idle (load_serves w.idle)
    | stage | enrich | flush | answered | failed | updateNote | patchAnswered | retryDead | autoSweep
    | suspend | resume => exact absurd rfl he

def movesOpen (w : World) (q : Queue) : Event → Bool
  | .answered _ env =>
    match awaited q with
    | none => false
    | some (f, _) => hasArrived w f.seq && currentRun w q f.lease && sweepTargets env w q ≠ []
  | .failed message env =>
    match awaited q with
    | none => false
    | some (f, item) => currentRun w q f.lease && parks message env q item
  | .retryDead clientId _ => canCapture w q && retryTargets clientId q ≠ []
  | .autoSweep env => sweepTargets env w q ≠ []
  | _ => false

/-- An event moves an item from one lane to the other. A reload moves the dead items that the
triage puts back into delivery. -/
def movesLanes (w : World) : Event → Bool
  | .load => w.stored.dead.any fun item => (triageDead item).toPending.isSome
  | e => w.queue.any fun q => movesOpen w q e

/-- The number of writes after which an event that moves an item has made the first of the two
writes of the move. The removal of an accepted item precedes the sweep that it triggers. -/
def Event.firstHalf : Event → Nat
  | .answered _ _ => 2
  | _ => 1

def Fresh (w : World) (e : Event) : Prop := ∀ c ∈ e.staging, c ∉ w.stagedIds

instance (w : World) (e : Event) : Decidable (Fresh w e) :=
  inferInstanceAs (Decidable (∀ c ∈ e.staging, c ∉ w.stagedIds))

/-- New knocks have new ids, and no crash falls between the two writes of a move. -/
def CutsNoMove (w : World) : Action → Prop
  | .run e => Fresh w e
  | .crash e k => Fresh w e ∧ (movesLanes w e = true → k ≠ e.firstHalf)

instance decidableCutsNoMove (w : World) : ∀ a, Decidable (CutsNoMove w a)
  | .run e => inferInstanceAs (Decidable (Fresh w e))
  | .crash e k => inferInstanceAs
      (Decidable (Fresh w e ∧ (movesLanes w e = true → k ≠ e.firstHalf)))

theorem movesOpen_idle (w : World) (q : Queue) (e : Event) :
    movesOpen w.idle q e = movesOpen w q e := by
  cases e <;> rfl

theorem movesLanes_open {w : World} {q : Queue} (hq : w.queue = some q)
    (he : e.isOpen = true) : movesLanes w e = movesOpen w q e := by
  have hany : w.queue.any (fun q => movesOpen w q e) = movesOpen w q e := by
    rw [hq]
    rfl
  cases e <;> first | exact hany | exact absurd he Bool.false_ne_true

theorem toDead_triagePending (items : List QueuedKnock) :
    (items.map triagePending).filterMap Triage.toDead = [] := by
  simp only [filterMap_eq_nil_iff, mem_map]
  rintro _ ⟨item, -, rfl⟩
  unfold triagePending
  split <;> rfl

theorem load_cut {w : World} (h : movesLanes w .load = false) :
    ∃ gone, Accounted w (load w) (((load w).writes.take 1).foldl Storage.apply w.stored) [] gone := by
  have hnone : (w.stored.dead.map triageDead).filterMap Triage.toPending = [] := by
    simpa [movesLanes, filterMap_eq_nil_iff] using h
  have hperm := triaged_perm (w.stored.pending.map triagePending)
  rw [clientIds_triagePending, toDead_triagePending, clientIds_nil, append_nil] at hperm
  refine ⟨clientIds ((w.stored.pending.map triagePending).filterMap Triage.toDropped),
    by simp [World.stagedIds, load], ?_, ?_, fun c hc => hc, fun c hc => mem_append_left _ hc⟩
  · simp only [load, take_succ_cons, take_zero, foldl_cons, foldl_nil,
      Storage.apply, Storage.clientIds, filterMap_append, hnone, append_nil]
    refine .trans ?_ (hperm.append_right (clientIds w.stored.dead))
    rw [append_assoc, append_assoc]
    exact List.Perm.append_left _ perm_append_comm
  · intro c hc
    refine .inr (mem_append_right _ ?_)
    rw [filterMap_append, map_append]
    exact mem_append_left _ hc

/-- An event of an open page makes at most one write, or the two of a move, or the removal of the
accepted item and the two of the sweep after it. -/
theorem performOpen_writes {w : World} {q : Queue} (hw : w.writes = []) (e : Event) :
    (performOpen w q e).writes.length ≤ 1 ∨
    (movesOpen w q e = true ∧ e.firstHalf = 1 ∧ (performOpen w q e).writes.length = 2) ∨
    (∃ f item, (∃ knockId env, e = .answered knockId env) ∧ awaited q = some (f, item) ∧
      currentRun w q f.lease = true ∧ movesOpen w q e = true ∧
      (performOpen w q e).writes.length = 3) := by
  have hnone : w.writes.length ≤ 1 := by simp [hw]
  cases e with
  | stage input clientId =>
    left
    simp only [performOpen, stage]
    split
    · exact hnone
    · exact Nat.le_refl 1
  | enrich clientId evidence =>
    left
    simp only [performOpen, enrich]
    split
    · exact Nat.le_refl 1
    · exact hnone
  | flush env =>
    left
    rw [performOpen, startFlush_writes]
    exact hnone
  | answered knockId env =>
    cases hawaited : awaited q with
    | none =>
      left
      simpa [performOpen, hawaited] using hnone
    | some p =>
      obtain ⟨f, item⟩ := p
      by_cases harrived : hasArrived w f.seq = true
      · have hperform : performOpen w q (.answered knockId env) = answered knockId env w q f item := by
          simp [performOpen, hawaited, harrived]
        rw [hperform]
        by_cases hrun : currentRun w q f.lease = true
        · rw [answered_of_run hrun, flushFrom_writes]
          have hsame := sweepTargets_acceptedQueue env w q knockId f item
          by_cases htargets : sweepTargets env w q = []
          · left
            rw [sweep_of_nil (hsame.trans htargets)]
            exact Nat.le_refl 1
          · have hmoves : movesOpen w q (.answered knockId env) = true := by
              simp [movesOpen, hawaited, harrived, hrun, htargets]
            refine .inr (.inr ⟨f, item, ⟨knockId, env, rfl⟩, rfl, hrun, hmoves, ?_⟩)
            rw [sweep_of_ne_nil (hsame ▸ htargets)]
            rfl
        · left
          rw [answered_of_not_run hrun]
          exact hnone
      · left
        simpa [performOpen, hawaited, harrived] using hnone
  | failed message env =>
    cases hawaited : awaited q with
    | none =>
      left
      simpa [performOpen, hawaited] using hnone
    | some p =>
      obtain ⟨f, item⟩ := p
      have hperform : performOpen w q (.failed message env) = failed message env w q f item := by
        simp [performOpen, hawaited]
      rw [hperform]
      rcases failed_cases message env w q f item with h | ⟨since, item', until_, -, -, -, h⟩ |
        ⟨-, -, h⟩ | ⟨hrun, hparks, since, burst, h⟩ <;> rw [h]
      · exact .inl hnone
      · exact .inl (Nat.le_refl 1)
      · rw [flushFrom_writes]
        exact .inl (Nat.le_refl 1)
      · rw [flushFrom_writes]
        exact .inr (.inl ⟨by simp [movesOpen, hawaited, hrun, hparks], rfl, rfl⟩)
  | updateNote leadId notes =>
    left
    simp only [performOpen, updateNote]
    split
    · exact hnone
    · split
      · exact Nat.le_refl 1
      · split <;> exact hnone
  | patchAnswered seq ok =>
    left
    simp only [performOpen, patchAnswered]
    split
    · split <;> exact hnone
    · exact hnone
  | retryDead clientId env =>
    simp only [performOpen, retryDead]
    split
    · exact .inl hnone
    · rename_i hopen
      refine .inr (.inl ⟨?_, rfl, ?_⟩)
      · simpa [movesOpen] using hopen
      · rw [startFlush_writes]
        rfl
  | autoSweep env =>
    by_cases htargets : sweepTargets env w q = []
    · left
      simp only [performOpen, autoSweep, sweep_of_nil htargets, if_true]
      exact hnone
    · refine .inr (.inl ⟨by simp [movesOpen, htargets], rfl, ?_⟩)
      simp [performOpen, autoSweep, sweep_of_ne_nil htargets, startFlush_writes]
  | suspend => exact .inl hnone
  | resume =>
    left
    simp only [performOpen, resume]
    split <;> exact hnone
  | arrive _ | lose _ | changeLease _ | load => exact .inl hnone

theorem answered_cut {w : World} {q : Queue} (hl : w.stored = q.lanes)
    {item : QueuedKnock} (hi : q.pending[f.idx]? = some item)
    (hrun : currentRun w q f.lease = true) (knockId : Option Nat) (env : Ambient) :
    Accounted w (answered knockId env w q f item)
      (((answered knockId env w q f item).writes.take 1).foldl Storage.apply w.stored) []
      [item.clientId] := by
  rw [answered_of_run hrun]
  obtain ⟨flight, sent, wire, h⟩ := flushFrom_eq env f.idx
    { w with
      writes := .pending (q.pending.eraseIdx f.idx) ::
        (sweep env w (acceptedQueue knockId q f item)).2
      accepted := w.accepted ++ [item.clientId] }
    (sweep env w (acceptedQueue knockId q f item)).1
  rw [h]
  refine ⟨by simp [World.stagedIds], ?_, by simp, by simp, by simp⟩
  rw [hl, append_nil]
  exact erased_perm hi

/-- An event that dies after some of its writes, but not between the two of a move, has accounted
for every id. -/
theorem perform_cut {w : World} (hsync : ∀ q ∈ w.queue, w.stored = q.lanes)
    (hpos : 0 < k) (hlt : k < (perform w e).writes.length)
    (hcut : movesLanes w e = true → k ≠ e.firstHalf) :
    ∃ gone, Accounted w (perform w e) (((perform w e).writes.take k).foldl Storage.apply w.stored)
      [] gone := by
  by_cases he : e.isOpen = true
  · obtain hq | ⟨q, hq⟩ := w.queue.eq_none_or_eq_some
    · rw [perform_closed hq he] at hlt
      exact absurd hlt (Nat.not_lt_zero k)
    · have hmoves : movesOpen w.idle q e = true → movesLanes w e = true := by
        rw [movesOpen_idle, movesLanes_open hq he]
        exact id
      rw [perform_open hq he] at hlt ⊢
      rcases performOpen_writes (w := w.idle) (q := q) rfl e with h | ⟨hmove, hhalf, h⟩ |
        ⟨f, item, ⟨knockId, env, rfl⟩, hawaited, hrun, hmove, h⟩
      · omega
      · have := hcut (hmoves hmove)
        omega
      · have hk : k = 1 := by
          have hne : k ≠ 2 := hcut (hmoves hmove)
          omega
        have harrived : hasArrived w.idle f.seq = true := by
          simp only [movesOpen, hawaited, Bool.and_eq_true] at hmove
          exact hmove.1.1
        have hperform : performOpen w.idle q (.answered knockId env) =
            answered knockId env w.idle q f item := by
          simp [performOpen, hawaited, harrived]
        have hacc := answered_cut (w := w.idle) (hsync q hq) (awaited_eq_some hawaited).2 hrun
          knockId env
        rw [hperform, hk]
        exact ⟨_, hacc.staged, hacc.balance, hacc.settled, hacc.accepted, hacc.resolved⟩
  · cases e with
    | arrive i =>
      have hnone : (perform w (.arrive i)).writes = [] := by
        simp only [perform]
        split <;> rfl
      simp [hnone] at hlt
    | lose i => exact absurd hlt (Nat.not_lt_zero k)
    | changeLease lease => exact absurd hlt (Nat.not_lt_zero k)
    | load =>
      have hk : k = 1 := by
        have htwo : k < 2 := hlt
        omega
      have hstays : movesLanes w .load = false := by
        by_contra hmove
        exact hcut (by simpa using hmove) hk
      obtain ⟨gone, hacc⟩ := load_cut (w := w.idle) hstays
      rw [hk]
      exact ⟨gone, hacc.staged, hacc.balance, hacc.settled, hacc.accepted, hacc.resolved⟩
    | stage | enrich | flush | answered | failed | updateNote | patchAnswered | retryDead | autoSweep
    | suspend | resume => exact absurd rfl he

/-- Memory agrees with storage, and every staged id is in a lane or settled. -/
structure Safe (w : World) : Prop where
  synced : ∀ q ∈ w.queue, w.stored = q.lanes
  fresh : w.stagedIds.Nodup
  distinct : w.stored.clientIds.Nodup
  known : ∀ c ∈ w.stored.clientIds, c ∈ w.stagedIds
  kept : ∀ c ∈ w.stagedIds, c ∈ w.stored.clientIds ∨ c ∈ w.accepted ∨ c ∈ w.resolved

theorem safe_empty (lease : Option Nat) : Safe (World.empty lease) where
  synced q hq := by simp [World.empty] at hq
  fresh := nodup_nil
  distinct := nodup_nil
  known c hc := absurd hc not_mem_nil
  kept c hc := absurd hc not_mem_nil

theorem Safe.of_accounted {w v : World} (h : Safe w) {gone : List String}
    (hacc : Accounted w w' v.stored added gone) (hadded : (w.stagedIds ++ added).Nodup)
    (hsync : ∀ q ∈ v.queue, v.stored = q.lanes) (hs : v.staged = w'.staged)
    (ha : v.accepted = w'.accepted) (hr : v.resolved = w'.resolved) : Safe v := by
  have hids : v.stagedIds = w.stagedIds ++ added := by
    rw [← hacc.staged, World.stagedIds, hs]
    rfl
  have hbefore : (w.stored.clientIds ++ added).Nodup := by
    refine List.Nodup.append h.distinct (List.Nodup.of_append_right hadded) ?_
    intro c hc hnew
    exact (disjoint_of_nodup_append hadded) (h.known c hc) hnew
  have hafter : (v.stored.clientIds ++ gone).Nodup := hacc.balance.nodup_iff.mpr hbefore
  refine ⟨hsync, hids ▸ hadded, List.Nodup.of_append_left hafter, ?_, ?_⟩
  · intro c hc
    have hmem := hacc.balance.subset (mem_append_left gone hc)
    rw [hids]
    rcases mem_append.mp hmem with hold | hnew
    · exact mem_append_left added (h.known c hold)
    · exact mem_append_right _ hnew
  · intro c hc
    rw [ha, hr]
    have hstored : c ∈ w.stored.clientIds ++ added →
        c ∈ v.stored.clientIds ∨ c ∈ w'.accepted ∨ c ∈ w'.resolved := by
      intro hmem
      rcases mem_append.mp (hacc.balance.symm.subset hmem) with hstays | hgone
      · exact .inl hstays
      · exact .inr (hacc.settled c hgone)
    rw [hids] at hc
    rcases mem_append.mp hc with hold | hnew
    · rcases h.kept c hold with hlane | haccepted | hresolved
      · exact hstored (mem_append_left added hlane)
      · exact .inr (.inl (hacc.accepted haccepted))
      · exact .inr (.inr (hacc.resolved hresolved))
    · exact hstored (mem_append_right _ hnew)

theorem Fresh.nodup {w : World} (h : Fresh w e) (hw : w.stagedIds.Nodup)
    (hadded : added.Sublist e.staging) : (w.stagedIds ++ added).Nodup := by
  have hstaging : e.staging.Nodup := by
    cases e <;> simp [Event.staging]
  refine List.Nodup.append hw (hstaging.sublist hadded) ?_
  intro c hold hnew
  exact h c (hadded.subset hnew) hold

theorem safe_complete {w : World} (h : Safe w) (hfresh : Fresh w e) : Safe (complete w e) := by
  have hserves := perform_serves h.synced e
  obtain ⟨added, gone, hadded, hacc⟩ := hserves.accounted
  exact h.of_accounted (v := complete w e) hacc (hfresh.nodup h.fresh hadded) hserves.lanes rfl rfl
    rfl

theorem safe_die {w : World} (h : Safe w) (hfresh : Fresh w e)
    (hcut : movesLanes w e = true → k ≠ e.firstHalf) : Safe (die w e k) := by
  have hsync : ∀ q ∈ (die w e k).queue, (die w e k).stored = q.lanes := by simp [die]
  by_cases hzero : k = 0
  · subst hzero
    have hacc : Accounted w w (die w e 0).stored [] [] := .refl rfl rfl rfl (.refl _)
    exact h.of_accounted hacc (by simpa using h.fresh) hsync rfl rfl rfl
  have hhistory : (if k = 0 then w else perform w e) = perform w e := if_neg hzero
  have hs : (die w e k).staged = (perform w e).staged := by simp only [die, hhistory]
  have ha : (die w e k).accepted = (perform w e).accepted := by simp only [die, hhistory]
  have hr : (die w e k).resolved = (perform w e).resolved := by simp only [die, hhistory]
  by_cases hlt : k < (perform w e).writes.length
  · obtain ⟨gone, hacc⟩ := perform_cut h.synced (Nat.pos_of_ne_zero hzero) hlt hcut
    exact h.of_accounted (v := die w e k) hacc (by simpa using h.fresh) hsync hs ha hr
  · obtain ⟨added, gone, hadded, hacc⟩ := (perform_serves h.synced e).accounted
    have hall : (die w e k).stored = (perform w e).writes.foldl Storage.apply w.stored := by
      simp only [die]
      rw [take_of_length_le (Nat.le_of_not_lt hlt)]
    exact h.of_accounted (hall ▸ hacc) (hfresh.nodup h.fresh hadded) hsync hs ha hr

theorem safe_step (w : World) (a : Action) (h : Safe w) (hcond : CutsNoMove w a) :
    Safe (step w a) := by
  cases a with
  | run e => exact safe_complete h hcond
  | crash e k => exact safe_die h hcond.1 hcond.2

def World.lanes (w : World) : List String := w.queue.elim [] fun q => q.lanes.clientIds

/-- After a reload every staged knock is in a lane, unless the server received and accepted its
POST or it was resolved. -/
def NothingLost (w : World) : Prop :=
  ∀ c ∈ w.stagedIds, c ∈ (complete w .load).lanes ∨
    (c ∈ w.accepted ∧ ∃ r ∈ w.received, r.clientId = c) ∨ c ∈ (complete w .load).resolved

def IdsDistinct (w : World) : Prop := w.lanes.Nodup

instance (w : World) : Decidable (NothingLost w) :=
  inferInstanceAs (Decidable (∀ c ∈ w.stagedIds, _))

instance (w : World) : Decidable (IdsDistinct w) := inferInstanceAs (Decidable w.lanes.Nodup)

theorem Safe.idsDistinct {w : World} (h : Safe w) : IdsDistinct w := by
  obtain hq | ⟨q, hq⟩ := w.queue.eq_none_or_eq_some
  · simp [IdsDistinct, World.lanes, hq]
  · have hlanes : w.lanes = w.stored.clientIds := by
      rw [h.synced q hq]
      simp [World.lanes, hq]
    rw [IdsDistinct, hlanes]
    exact h.distinct

theorem Safe.nothingLost {w : World} (h : Safe w) (hc : Credited w) : NothingLost w := by
  have hload : Safe (complete w .load) := safe_complete h (by simp [Fresh, Event.staging])
  have hlanes : (complete w .load).lanes = (complete w .load).stored.clientIds := rfl
  intro c hstaged
  rw [hlanes]
  rcases hload.kept c hstaged with hlane | haccepted | hresolved
  · exact .inl hlane
  · exact .inr (.inl ⟨haccepted, hc c haccepted⟩)
  · exact .inr (.inr hresolved)

/-- In every run without a crash between the two writes of a move no knock is lost and no id is
doubled. -/
theorem noKnockLost_run (lease : Option Nat) (as : List Action)
    (h : Along step CutsNoMove (World.empty lease) as) :
    NothingLost (run step (World.empty lease) as) ∧
      IdsDistinct (run step (World.empty lease) as) := by
  have hsafe : Safe (run step (World.empty lease) as) :=
    run_invariant safe_step (safe_empty lease) h
  exact ⟨hsafe.nothingLost (accepted_received lease as), hsafe.idsDistinct⟩

/-- A knock on door 5 that every POST of the first eight minutes finds forbidden. -/
def forbiddenKnock : List Action :=
  [.run .load,
    .run (.stage ⟨5, 1, .sold, [], none, none, none, ⟨none, none, none, none, none, none, none⟩⟩
      "knock-1")] ++
  (List.range 7).flatMap fun minute =>
    [.run (.flush ⟨60000 * minute, true⟩),
      .run (.failed ['4', '0', '3', ':'] ⟨60000 * minute, true⟩)]

def parkingPost : List Action := [.run (.flush ⟨420000, true⟩)]

/-- The page reloads and dies while the knock is parked, between the removal from the pending lane
and the entry in the dead lane. It dies while the parked knock is retried, and reloads: the knock is
in both lanes. -/
theorem not_noKnockLost_crashBetweenWrites :
    ¬ NothingLost (run step (World.empty (some 0)) (forbiddenKnock ++ parkingPost ++
      [.crash (.failed ['4', '0', '3', ':'] ⟨420000, true⟩) 1])) ∧
    ¬ IdsDistinct (run step (World.empty (some 0)) (forbiddenKnock ++ parkingPost ++
      [.run (.failed ['4', '0', '3', ':'] ⟨420000, true⟩),
        .crash (.retryDead none ⟨480000, true⟩) 1, .run .load])) := by
  decide +kernel

/-- A crash after both writes of the parking loses nothing. -/
theorem noKnockLost_run_parked :
    NothingLost (run step (World.empty (some 0)) (forbiddenKnock ++ parkingPost ++
      [.crash (.failed ['4', '0', '3', ':'] ⟨420000, true⟩) 2])) ∧
    IdsDistinct (run step (World.empty (some 0)) (forbiddenKnock ++ parkingPost ++
      [.crash (.failed ['4', '0', '3', ':'] ⟨420000, true⟩) 2])) :=
  noKnockLost_run (some 0) _ (by decide +kernel)

end HomefrontFiber.FieldQueue
