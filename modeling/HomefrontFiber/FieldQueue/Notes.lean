import HomefrontFiber.FieldQueue.Lanes

/-!
# No acknowledged note is lost

`updateNote` edits a knock that still waits, or patches the one that was saved last for its lead.
Once it has been acknowledged and the knock has left the queue by an accepted POST, the last note
that the server received for the knock is the acknowledged one.
-/

namespace HomefrontFiber.FieldQueue

open Knocking List

def Storage.items (s : Storage) : List QueuedKnock := s.pending ++ s.dead

theorem Storage.clientIds_eq (s : Storage) : s.clientIds = FieldQueue.clientIds s.items :=
  (clientIds_append s.pending s.dead).symm

variable {c clientId : String} {leadId : Int} {p : Promise} {notes : Text} {idx i : Nat}
  {item item' : QueuedKnock} {q' : Queue} {f : Flight} {saved : Saved} {e : Event}

theorem Storage.mem_clientIds {s : Storage} :
    c ∈ s.clientIds ↔ ∃ item ∈ s.items, item.clientId = c := by
  rw [s.clientIds_eq, FieldQueue.clientIds, mem_map]

def World.held (w : World) : Storage := w.queue.elim w.stored Queue.lanes

theorem World.held_of_some {w : World} {q : Queue} (hq : w.queue = some q) : w.held = q.lanes := by
  simp [World.held, hq]

def World.requestsFor (w : World) (c : String) : List Request :=
  w.requests.filter (·.clientId = c)

def World.lastNote (w : World) (c : String) : Option (Option Text) :=
  (w.received.filter (·.clientId = c)).getLast?.map (·.notes)

/-- The server has the note, and no request for the knock is still on its way. -/
structure Settled (w : World) (c : String) (notes : Text) : Prop where
  quiet : ∀ r ∈ w.wire, r.clientId ≠ c
  last : w.lastNote c = some (some notes)

def PromiseKept (w : World) (leadId : Int) : Promise → Prop
  | .none => True
  | .awaiting seq c notes =>
    (c, leadId) ∈ w.staged ∧ c ∉ w.held.clientIds ∧ seq < w.sent ∧
      (∀ r ∈ w.requests, r.seq = seq → r.clientId = c ∧ r.notes = some notes) ∧
      ∀ r ∈ w.requests, r.clientId = c → r.seq ≤ seq
  | .acknowledged c notes =>
    (c, leadId) ∈ w.staged ∧ (∀ item ∈ w.held.items, item.clientId = c → item.notes = some notes) ∧
      (c ∉ w.held.clientIds → c ∉ w.resolved → Settled w c notes)

theorem PromiseKept.congr {w w' : World} (h : PromiseKept w leadId p)
    (hheld : w'.held = w.held) (hstaged : w'.staged = w.staged) (hresolved : w'.resolved = w.resolved)
    (hreceived : w'.received = w.received) (hwire : w'.wire = w.wire) (hsent : w'.sent = w.sent) :
    PromiseKept w' leadId p := by
  have hrequests : w'.requests = w.requests := by
    rw [World.requests, hreceived, hwire, World.requests]
  cases p with
  | none => trivial
  | awaiting seq c notes =>
    simp only [PromiseKept, hheld, hstaged, hsent, hrequests]
    exact h
  | acknowledged c notes =>
    obtain ⟨hs, hitems, hsettled⟩ := h
    simp only [PromiseKept, hheld, hstaged, hresolved]
    refine ⟨hs, hitems, fun hc hr => ?_⟩
    obtain ⟨hquiet, hlast⟩ := hsettled hc hr
    exact ⟨hwire ▸ hquiet, by rw [World.lastNote, hreceived]; exact hlast⟩

structure Noted (w : World) : Prop where
  carded : ∀ item ∈ w.held.items, (item.clientId, item.leadId) ∈ w.staged
  saved : ∀ q ∈ w.queue, ∀ s ∈ q.recentSaves,
    (s.2.clientId, s.1) ∈ w.staged ∧ s.2.clientId ∉ w.held.clientIds
  ordered : ∀ c, (w.requestsFor c).Pairwise (·.seq < ·.seq)
  newest : ∀ q ∈ w.queue, ∀ f ∈ q.flight, ∀ item, q.pending[f.idx]? = some item →
    ∀ r ∈ w.requests, r.clientId = item.clientId → r.seq ≤ f.seq
  promised : ∀ leadId, PromiseKept w leadId (w.promises leadId)

theorem noted_empty (lease : Option Nat) : Noted (World.empty lease) where
  carded item hitem := by simp [World.empty, World.held, Storage.items] at hitem
  saved q hq := by simp [World.empty] at hq
  ordered c := List.Pairwise.nil
  newest q hq := by simp [World.empty] at hq
  promised leadId := trivial

theorem getLast?_of_greatest {rs : List Request} (hrs : rs.Pairwise (·.seq < ·.seq)) {r : Request}
    (hr : r ∈ rs) (hmax : ∀ r' ∈ rs, r'.seq ≤ r.seq) : rs.getLast? = some r := by
  induction rs with
  | nil => exact absurd hr not_mem_nil
  | cons head rest ih =>
    obtain ⟨hhead, hrest⟩ := pairwise_cons.mp hrs
    cases rest with
    | nil =>
      obtain rfl := mem_singleton.mp hr
      rfl
    | cons next rest =>
      rw [getLast?_cons_cons]
      have hnext : head.seq < next.seq := hhead next mem_cons_self
      have hle : next.seq ≤ r.seq := hmax next (mem_cons_of_mem _ mem_cons_self)
      have hmem : r ∈ next :: rest := by
        rcases mem_cons.mp hr with rfl | hmem
        · omega
        · exact hmem
      exact ih hrest hmem fun r' hr' => hmax r' (mem_cons_of_mem _ hr')

theorem settled_of_newest {w : World} {r : Request}
    (hordered : (w.requestsFor c).Pairwise (·.seq < ·.seq)) (hr : r ∈ w.received)
    (hc : r.clientId = c) (hnotes : r.notes = some notes)
    (hmax : ∀ r' ∈ w.requests, r'.clientId = c → r'.seq ≤ r.seq) : Settled w c notes := by
  have hsplit : w.requestsFor c =
      w.received.filter (·.clientId = c) ++ w.wire.filter (·.clientId = c) := filter_append ..
  rw [hsplit, pairwise_append] at hordered
  obtain ⟨hreceived, -, hacross⟩ := hordered
  have hmem : r ∈ w.received.filter (·.clientId = c) :=
    mem_filter.mpr ⟨hr, decide_eq_true hc⟩
  refine ⟨?_, ?_⟩
  · intro r' hwire hc'
    have hlater : r.seq < r'.seq :=
      hacross r hmem r' (mem_filter.mpr ⟨hwire, decide_eq_true hc'⟩)
    have hle : r'.seq ≤ r.seq := hmax r' (mem_append_right _ hwire) hc'
    omega
  · have hlast : (w.received.filter (·.clientId = c)).getLast? = some r := by
      refine getLast?_of_greatest hreceived hmem ?_
      intro r' hr'
      obtain ⟨hr', hc'⟩ := mem_filter.mp hr'
      exact hmax r' (mem_append_left _ hr') (of_decide_eq_true hc')
    rw [World.lastNote, hlast, Option.map_some, hnotes]

structure Sends (w w' : World) (r : Request) : Prop where
  held : w'.held = w.held
  staged : w'.staged = w.staged
  resolved : w'.resolved = w.resolved
  received : w'.received = w.received
  wire : w'.wire = w.wire ++ [r]
  seq : r.seq = w.sent
  sent : w'.sent = w.sent + 1

section Sends

variable {w w' : World} {r : Request}

theorem Sends.mem_requests (hs : Sends w w' r) {r' : Request} :
    r' ∈ w'.requests ↔ r' ∈ w.requests ∨ r' = r := by
  simp [World.requests, hs.received, hs.wire, or_assoc]

theorem Sends.ordered (hs : Sends w w' r) (hn : Numbered w)
    (h : (w.requestsFor c).Pairwise (·.seq < ·.seq)) :
    (w'.requestsFor c).Pairwise (·.seq < ·.seq) := by
  have hrequests : w'.requests = w.requests ++ [r] := by
    rw [World.requests, hs.received, hs.wire, World.requests, append_assoc]
  rw [World.requestsFor, hrequests, filter_append]
  refine pairwise_append.mpr ⟨h, ?_, ?_⟩
  · exact (pairwise_singleton _ r).sublist filter_sublist
  · intro r₁ h₁ r₂ h₂
    obtain rfl : r₂ = r := mem_singleton.mp (mem_of_mem_filter h₂)
    have hlt : r₁.seq < w.sent := hn r₁ (mem_of_mem_filter h₁)
    rw [hs.seq]
    exact hlt

def Promise.knock : Promise → Option String
  | .none => Option.none
  | .awaiting _ c _ => some c
  | .acknowledged c _ => some c

theorem Sends.promiseKept (hs : Sends w w' r)
    (hr : ∀ c ∈ p.knock, r.clientId = c → c ∈ w.held.clientIds) (h : PromiseKept w leadId p) :
    PromiseKept w' leadId p := by
  cases p with
  | none => trivial
  | awaiting seq c notes =>
    obtain ⟨hstaged, hheld, hlt, hown, hmax⟩ := h
    refine ⟨by rwa [hs.staged], by rwa [hs.held], by rw [hs.sent]; omega, ?_, ?_⟩
    · intro r' hr' hseq
      rcases hs.mem_requests.mp hr' with hold | rfl
      · exact hown r' hold hseq
      · have := hs.seq
        omega
    · intro r' hr' hc
      rcases hs.mem_requests.mp hr' with hold | rfl
      · exact hmax r' hold hc
      · exact absurd (hr c rfl hc) hheld
  | acknowledged c notes =>
    obtain ⟨hstaged, hitems, hsettled⟩ := h
    refine ⟨by rwa [hs.staged], by rwa [hs.held], ?_⟩
    intro hheld hresolved
    rw [hs.held] at hheld
    rw [hs.resolved] at hresolved
    obtain ⟨hquiet, hlast⟩ := hsettled hheld hresolved
    refine ⟨?_, by rwa [World.lastNote, hs.received]⟩
    intro r' hr'
    rw [hs.wire] at hr'
    rcases mem_append.mp hr' with hold | hnew
    · exact hquiet r' hold
    · obtain rfl := mem_singleton.mp hnew
      exact fun hc => hheld (hr c rfl hc)

end Sends

theorem noted_dispatch {w : World} {q : Queue}
    (h : Noted { w with queue := some q }) (hn : Numbered w)
    (hitem : q.pending[idx]? = some item) : Noted (dispatch w q idx item) := by
  have hs : Sends { w with queue := some q } (dispatch w q idx item)
      ⟨w.sent, item.clientId, item.notes⟩ := ⟨rfl, rfl, rfl, rfl, rfl, rfl, rfl⟩
  have hheld : item.clientId ∈ q.lanes.clientIds := by
    refine Storage.mem_clientIds.mpr ⟨item, ?_, rfl⟩
    exact mem_append_left _ (mem_of_getElem? hitem)
  refine ⟨h.carded, ?_, fun c => hs.ordered hn (h.ordered c), ?_, ?_⟩
  · intro q' hq'
    cases hq'
    exact h.saved q rfl
  · intro q' hq' f hf item' hitem' r hr hc
    cases hq'
    cases hf
    rcases hs.mem_requests.mp hr with hold | rfl
    · exact Nat.le_of_lt (hn r hold)
    · exact Nat.le_refl _
  · intro leadId
    refine hs.promiseKept ?_ (h.promised leadId)
    intro c _ hc
    exact hc ▸ hheld

theorem noted_arrive {w : World} (h : Noted w) {r : Request} (hr : w.wire[i]? = some r)
    (hfirst : ∀ r' ∈ w.wire.take i, r'.clientId ≠ r.clientId) :
    Noted { w with wire := w.wire.eraseIdx i, received := w.received ++ [r] } := by
  set w' : World := { w with wire := w.wire.eraseIdx i, received := w.received ++ [r] } with hw'
  obtain ⟨hi, hri⟩ := List.getElem?_eq_some_iff.mp hr
  have hwire : w.wire = w.wire.take i ++ r :: w.wire.drop (i + 1) := by
    rw [← hri, getElem_cons_drop, take_append_drop]
  have herase : w'.wire = w.wire.take i ++ w.wire.drop (i + 1) :=
    eraseIdx_eq_take_drop_succ w.wire i
  have hfor : ∀ c, w'.requestsFor c = w.requestsFor c := by
    intro c
    have hnew : w'.requests = w.received ++ r :: (w.wire.take i ++ w.wire.drop (i + 1)) := by
      rw [World.requests, herase, hw']
      simp
    have hold : w.requests = w.received ++ (w.wire.take i ++ r :: w.wire.drop (i + 1)) := by
      rw [World.requests, ← hwire]
    rw [World.requestsFor, World.requestsFor, hnew, hold]
    simp only [filter_append, filter_cons]
    by_cases hc : r.clientId = c
    · have hnone : (w.wire.take i).filter (·.clientId = c) = [] := by
        refine filter_eq_nil_iff.mpr ?_
        intro r' hr'
        simpa [← hc] using hfirst r' hr'
      simp [hc, hnone]
    · simp [hc]
  have hmem : ∀ {r'}, r' ∈ w'.requests ↔ r' ∈ w.requests := by
    intro r'
    have := congrArg (fun rs => r' ∈ rs) (hfor r'.clientId)
    simpa [World.requestsFor] using this
  refine ⟨h.carded, h.saved, fun c => (hfor c).symm ▸ h.ordered c, ?_, ?_⟩
  · intro q hq f hf item hitem r' hr'
    exact h.newest q hq f hf item hitem r' (hmem.mp hr')
  · intro leadId
    have hkept := h.promised leadId
    change PromiseKept w' leadId (w.promises leadId)
    cases hp : w.promises leadId with
    | none => trivial
    | awaiting seq c notes =>
      rw [hp] at hkept
      obtain ⟨hstaged, hheld, hlt, hown, hmax⟩ := hkept
      exact ⟨hstaged, hheld, hlt, fun r' hr' => hown r' (hmem.mp hr'),
        fun r' hr' => hmax r' (hmem.mp hr')⟩
    | acknowledged c notes =>
      rw [hp] at hkept
      obtain ⟨hstaged, hitems, hsettled⟩ := hkept
      refine ⟨hstaged, hitems, ?_⟩
      intro hheld hresolved
      obtain ⟨hquiet, hlast⟩ := hsettled hheld hresolved
      have hother : r.clientId ≠ c := hquiet r (mem_of_getElem? hr)
      refine ⟨fun r' hr' => hquiet r' (mem_of_mem_eraseIdx hr'), ?_⟩
      rw [← hlast]
      simp [World.lastNote, hw', hother]

theorem noted_lose {w : World} (h : Noted w) (i : Nat) :
    Noted { w with wire := w.wire.eraseIdx i } := by
  have hsub : ({ w with wire := w.wire.eraseIdx i } : World).requests.Sublist w.requests :=
    (eraseIdx_sublist w.wire i).append_left w.received
  refine ⟨h.carded, h.saved, fun c => (h.ordered c).sublist (hsub.filter _), ?_, ?_⟩
  · intro q hq f hf item hitem r hr
    exact h.newest q hq f hf item hitem r (hsub.subset hr)
  · intro leadId
    have hkept := h.promised leadId
    change PromiseKept _ leadId (w.promises leadId)
    cases hp : w.promises leadId with
    | none => trivial
    | awaiting seq c notes =>
      rw [hp] at hkept
      obtain ⟨hstaged, hheld, hlt, hown, hmax⟩ := hkept
      exact ⟨hstaged, hheld, hlt, fun r hr => hown r (hsub.subset hr),
        fun r hr => hmax r (hsub.subset hr)⟩
    | acknowledged c notes =>
      rw [hp] at hkept
      obtain ⟨hstaged, hitems, hsettled⟩ := hkept
      refine ⟨hstaged, hitems, ?_⟩
      intro hheld hresolved
      obtain ⟨hquiet, hlast⟩ := hsettled hheld hresolved
      exact ⟨fun r hr => hquiet r (mem_of_mem_eraseIdx hr), hlast⟩

/-- The knock, its lead and its note stay. What changes is how it is to be delivered. -/
structure SameCard (item item' : QueuedKnock) : Prop where
  clientId : item'.clientId = item.clientId
  leadId : item'.leadId = item.leadId
  notes : item'.notes = item.notes

theorem SameCard.refl (item : QueuedKnock) : SameCard item item := ⟨rfl, rfl, rfl⟩

/-- A change of the queue beside the network. An item that leaves the lanes is resolved or leaves
its note with the server. -/
structure LaneEdit (w w' : World) : Prop where
  origin : ∀ item' ∈ w'.held.items, (∃ item ∈ w.held.items, SameCard item item') ∨
    (item'.clientId ∉ w.stagedIds ∧ (item'.clientId, item'.leadId) ∈ w'.staged)
  staged : w.staged ⊆ w'.staged
  leaves : ∀ c ∈ w.held.clientIds, c ∈ w'.held.clientIds ∨ c ∈ w'.resolved ∨
    ∀ notes, (∀ item ∈ w.held.items, item.clientId = c → item.notes = some notes) →
      Settled w c notes
  resolved : w.resolved ⊆ w'.resolved
  received : w'.received = w.received
  wire : w'.wire = w.wire
  sent : w'.sent = w.sent
  promises : ∀ leadId, w'.promises leadId = w.promises leadId ∨ w'.promises leadId = .none
  saved : ∀ q' ∈ w'.queue, ∀ s ∈ q'.recentSaves, (∃ q ∈ w.queue, s ∈ q.recentSaves) ∨
    ((s.2.clientId, s.1) ∈ w'.staged ∧ s.2.clientId ∉ w'.held.clientIds)
  flight : ∀ q' ∈ w'.queue, q'.flight = none ∨
    ∃ q ∈ w.queue, q'.flight = q.flight ∧ clientIds q.pending <+: clientIds q'.pending

theorem mem_stagedIds {w : World} (h : (c, leadId) ∈ w.staged) :
    c ∈ w.stagedIds := mem_map.mpr ⟨(c, leadId), h, rfl⟩

section Edit

variable {w w' : World}

theorem LaneEdit.requests (he : LaneEdit w w') : w'.requests = w.requests := by
  rw [World.requests, he.received, he.wire, World.requests]

theorem LaneEdit.stays_out (he : LaneEdit w w')
    (hstaged : (c, leadId) ∈ w.staged) (hout : c ∉ w.held.clientIds) : c ∉ w'.held.clientIds := by
  intro hin
  obtain ⟨item', hitem', rfl⟩ := Storage.mem_clientIds.mp hin
  rcases he.origin item' hitem' with ⟨item, hitem, hcard⟩ | ⟨hnew, -⟩
  · exact hout (Storage.mem_clientIds.mpr ⟨item, hitem, hcard.clientId.symm⟩)
  · exact hnew (mem_stagedIds hstaged)

theorem LaneEdit.promiseKept (he : LaneEdit w w')
    (h : PromiseKept w leadId p) : PromiseKept w' leadId p := by
  cases p with
  | none => trivial
  | awaiting seq c notes =>
    obtain ⟨hstaged, hheld, hlt, hown, hmax⟩ := h
    rw [← he.requests] at hown hmax
    exact ⟨he.staged hstaged, he.stays_out hstaged hheld, he.sent ▸ hlt, hown, hmax⟩
  | acknowledged c notes =>
    obtain ⟨hstaged, hitems, hsettled⟩ := h
    refine ⟨he.staged hstaged, ?_, ?_⟩
    · intro item' hitem' hc
      rcases he.origin item' hitem' with ⟨item, hitem, hcard⟩ | ⟨hnew, -⟩
      · rw [hcard.notes]
        exact hitems item hitem (hcard.clientId.symm.trans hc)
      · exact absurd (mem_stagedIds hstaged) (hc ▸ hnew)
    · intro hheld' hresolved'
      have hbefore : Settled w c notes := by
        by_cases hheld : c ∈ w.held.clientIds
        · rcases he.leaves c hheld with hstays | hresolved | hdelivered
          · exact absurd hstays hheld'
          · exact absurd hresolved hresolved'
          · exact hdelivered notes hitems
        · exact hsettled hheld fun hresolved => hresolved' (he.resolved hresolved)
      exact ⟨he.wire ▸ hbefore.quiet, by rw [World.lastNote, he.received]; exact hbefore.last⟩

theorem item_at_flight {q : Queue}
    (hids : clientIds q.pending <+: clientIds q'.pending) (hitem : q.pending[f.idx]? = some item)
    (hitem' : q'.pending[f.idx]? = some item') : item'.clientId = item.clientId := by
  obtain ⟨rest, hrest⟩ := hids
  have hlen : f.idx < (clientIds q.pending).length := by
    simpa [clientIds] using (List.getElem?_eq_some_iff.mp hitem).1
  have hsame : (clientIds q'.pending)[f.idx]? = some item.clientId := by
    rw [← hrest, getElem?_append_left hlen]
    simp [clientIds, hitem]
  simpa [clientIds, hitem'] using hsame

theorem Noted.edit (h : Noted w) (hp : Posted w) (he : LaneEdit w w') : Noted w' where
  carded := by
    intro item' hitem'
    rcases he.origin item' hitem' with ⟨item, hitem, hcard⟩ | ⟨-, hnew⟩
    · rw [hcard.clientId, hcard.leadId]
      exact he.staged (h.carded item hitem)
    · exact hnew
  saved := by
    intro q' hq' s hs
    rcases he.saved q' hq' s hs with ⟨q, hq, hs⟩ | hnew
    · obtain ⟨hstaged, hout⟩ := h.saved q hq s hs
      exact ⟨he.staged hstaged, he.stays_out hstaged hout⟩
    · exact hnew
  ordered c := by
    rw [World.requestsFor, he.requests]
    exact h.ordered c
  newest := by
    intro q' hq' f hf item' hitem' r hr hc
    rcases he.flight q' hq' with hnone | ⟨q, hq, hsame, hids⟩
    · simp [hnone] at hf
    · have hfq : f ∈ q.flight := hsame ▸ hf
      obtain ⟨-, item, hitem, -⟩ := hp.aimed q hq f hfq
      rw [item_at_flight hids hitem hitem'] at hc
      exact h.newest q hq f hfq item hitem r (he.requests ▸ hr) hc
  promised leadId := by
    rcases he.promises leadId with hsame | hnone
    · rw [hsame]
      exact he.promiseKept (h.promised leadId)
    · rw [hnone]
      trivial

end Edit

theorem noted_flushFrom {w : World} {q : Queue}
    (h : Noted { w with queue := some { q with flight := none } }) (hn : Numbered w)
    (env : Ambient) (idx : Nat) : Noted (flushFrom env idx w q) := by
  unfold flushFrom
  split
  · exact h
  · rename_i i item hdue
    exact noted_dispatch (q := { q with flight := none }) h hn (nextDue_drop hdue)

theorem Noted.land {w : World} {q : Queue} (h : Noted { w with queue := some q })
    (hl : q'.lanes = q.lanes) (hs : q'.recentSaves = q.recentSaves) (hf : q'.flight = none) :
    Noted { w with queue := some q' } := by
  have hheld : ({ w with queue := some q' } : World).held =
      ({ w with queue := some q } : World).held := hl
  refine ⟨?_, ?_, h.ordered, ?_, fun leadId => ?_⟩
  · rw [hheld]
    exact h.carded
  · intro q'' hq'' s hs'
    cases hq''
    rw [hheld]
    exact h.saved q rfl s (hs ▸ hs')
  · intro q'' hq'' f hf'
    cases hq''
    simp [hf] at hf'
  · exact (h.promised leadId).congr hheld rfl rfl rfl rfl rfl

theorem noted_startFlush {w : World} {q : Queue} (h : Noted { w with queue := some q })
    (hn : Numbered w) (env : Ambient) : Noted (startFlush env w q) := by
  unfold startFlush
  split
  · exact h
  · exact noted_flushFrom (h.land rfl rfl rfl) hn env 0

theorem LaneEdit.of_relabel {w w' : World} {q : Queue} (hq : w.queue = some q)
    (hq' : w'.queue = some q')
    (hcards : ∀ item' ∈ q'.lanes.items, ∃ item ∈ q.lanes.items, SameCard item item')
    (hids : q.lanes.clientIds ⊆ q'.lanes.clientIds) (hsaves : q'.recentSaves = q.recentSaves)
    (hflight : q'.flight = none ∨
      (q'.flight = q.flight ∧ clientIds q.pending <+: clientIds q'.pending))
    (hstaged : w'.staged = w.staged) (hresolved : w'.resolved = w.resolved)
    (hreceived : w'.received = w.received) (hwire : w'.wire = w.wire) (hsent : w'.sent = w.sent)
    (hpromises : w'.promises = w.promises) : LaneEdit w w' where
  origin item' hitem' := by
    rw [World.held_of_some hq'] at hitem'
    rw [World.held_of_some hq]
    exact .inl (hcards item' hitem')
  staged := by rw [hstaged]; exact List.Subset.refl _
  leaves c hc := by
    rw [World.held_of_some hq] at hc
    rw [World.held_of_some hq']
    exact .inl (hids hc)
  resolved := by rw [hresolved]; exact List.Subset.refl _
  received := hreceived
  wire := hwire
  sent := hsent
  promises leadId := .inl (by rw [hpromises])
  saved q'' hq'' s hs := by
    obtain rfl : q' = q'' := Option.some.inj (hq'.symm.trans hq'')
    exact .inl ⟨q, hq, hsaves ▸ hs⟩
  flight q'' hq'' := by
    obtain rfl : q' = q'' := Option.some.inj (hq'.symm.trans hq'')
    exact hflight.imp id fun h => ⟨q, hq, h⟩

theorem setEvidence_cards {evidence : Evidence} {items : List QueuedKnock} :
    ∀ item' ∈ setEvidence clientId evidence items, ∃ item ∈ items, SameCard item item' := by
  induction items with
  | nil => exact fun item' hitem' => absurd hitem' not_mem_nil
  | cons head rest ih =>
    intro item' hitem'
    simp only [setEvidence] at hitem'
    split at hitem'
    · rcases mem_cons.mp hitem' with rfl | hrest
      · exact ⟨head, mem_cons_self, rfl, rfl, rfl⟩
      · exact ⟨item', mem_cons_of_mem _ hrest, .refl item'⟩
    · rcases mem_cons.mp hitem' with rfl | hrest
      · exact ⟨item', mem_cons_self, .refl item'⟩
      · obtain ⟨item, hitem, hcard⟩ := ih item' hrest
        exact ⟨item, mem_cons_of_mem _ hitem, hcard⟩

theorem sweep_cards {env : Ambient} {w : World} {q : Queue} :
    ∀ item' ∈ (sweep env w q).1.lanes.items, ∃ item ∈ q.lanes.items, SameCard item item' := by
  intro item' hitem'
  by_cases h : sweepTargets env w q = []
  · rw [sweep_of_nil h] at hitem'
    exact ⟨item', hitem', .refl item'⟩
  · rw [sweep_of_ne_nil h] at hitem'
    simp only [sweptQueue, Queue.lanes, Storage.items, mem_append, mem_map,
      mem_filter] at hitem' ⊢
    rcases hitem' with (hpending | ⟨item, hitem, rfl⟩) | ⟨hdead, -⟩
    · exact ⟨item', .inl hpending, .refl item'⟩
    · rw [sweepTargets_eq h] at hitem
      exact ⟨item, .inr (mem_of_mem_filter hitem), rfl, rfl, rfl⟩
    · exact ⟨item', .inr hdead, .refl item'⟩

theorem retry_cards {clientId : Option String} {q : Queue}
    (hpending : q'.pending = q.pending ++ (retryTargets clientId q).map retried)
    (hdead : q'.dead = retryRest clientId q) :
    ∀ item' ∈ q'.lanes.items, ∃ item ∈ q.lanes.items, SameCard item item' := by
  intro item' hitem'
  have hold : ∀ item, item ∈ retryTargets clientId q ∨ item ∈ retryRest clientId q →
      item ∈ q.dead := by
    intro item hitem
    exact (retry_perm clientId q).subset (mem_append.mpr hitem)
  simp only [Queue.lanes, Storage.items, hpending, hdead, mem_append, mem_map]
    at hitem' ⊢
  rcases hitem' with (hpending | ⟨item, hitem, rfl⟩) | hrest
  · exact ⟨item', .inl hpending, .refl item'⟩
  · exact ⟨item, .inr (hold item (.inl hitem)), rfl, rfl, rfl⟩
  · exact ⟨item', .inr (hold item' (.inr hrest)), .refl item'⟩

theorem mem_rememberSave {saves : List (Int × Saved)}
    {s : Int × Saved} (h : s ∈ rememberSave saves leadId saved) : s ∈ saves ∨ s = (leadId, saved) := by
  have hall := mem_of_mem_drop h
  rcases mem_append.mp hall with hold | hnew
  · exact .inl (mem_of_mem_filter hold)
  · exact .inr (mem_singleton.mp hnew)

theorem sweep_recentSaves (env : Ambient) (w : World) (q : Queue) :
    (sweep env w q).1.recentSaves = q.recentSaves := by
  by_cases h : sweepTargets env w q = []
  · rw [sweep_of_nil h]
  · rw [sweep_of_ne_nil h]
    rfl

theorem erased_cards {q : Queue} {dead : List QueuedKnock}
    (hdead : ∀ item' ∈ dead, ∃ item ∈ q.lanes.items, SameCard item item') :
    ∀ item' ∈ q.pending.eraseIdx i ++ dead, ∃ item ∈ q.lanes.items, SameCard item item' := by
  intro item' hitem'
  rcases mem_append.mp hitem' with hpending | hdead'
  · exact ⟨item', mem_append_left _ (mem_of_mem_eraseIdx hpending), .refl item'⟩
  · exact hdead item' hdead'

theorem dead_cards (q : Queue) : ∀ item' ∈ q.dead, ∃ item ∈ q.lanes.items, SameCard item item' :=
  fun item' hitem' => ⟨item', mem_append_right _ hitem', .refl item'⟩

section Open

variable {w : World} {q : Queue}

theorem settled_of_accepted (h : Noted w) (hp : Posted w) (hq : w.queue = some q)
    (hitem : awaited q = some (f, item)) (harrived : hasArrived w f.seq = true)
    (hposted : ∀ r ∈ w.received, r.seq = f.seq → r.notes = item.notes)
    (hnotes : item.notes = some notes) : Settled w item.clientId notes := by
  obtain ⟨hf, hi⟩ := awaited_eq_some hitem
  obtain ⟨-, item', hi', hid⟩ := hp.aimed q hq f hf
  obtain rfl : item' = item := Option.some.inj (hi'.symm.trans hi)
  obtain ⟨r, hr, hseq⟩ : ∃ r ∈ w.received, r.seq = f.seq := by
    simpa [hasArrived] using harrived
  refine settled_of_newest (h.ordered item'.clientId) hr (hid r (mem_append_left _ hr) hseq)
    ((hposted r hr hseq).trans hnotes) ?_
  intro r' hr' hc
  rw [hseq]
  exact h.newest q hq f hf item' hi r' hr' hc

theorem noted_answered (h : Noted w) (hp : Posted w) (hq : w.queue = some q)
    (hdistinct : q.lanes.clientIds.Nodup)
    (hitem : awaited q = some (f, item)) (harrived : hasArrived w f.seq = true)
    (hposted : currentRun w q f.lease = true →
      ∀ r ∈ w.received, r.seq = f.seq → r.notes = item.notes) (knockId : Option Nat)
    (env : Ambient) : Noted (answered knockId env w q f item) := by
  have hi := (awaited_eq_some hitem).2
  by_cases hrun : currentRun w q f.lease = true
  · rw [answered_of_run hrun]
    apply noted_flushFrom
    · refine h.edit hp ?_
      set q' : Queue := { (sweep env w (acceptedQueue knockId q f item)).1 with flight := none }
        with hq'
      have hkeeps : (q'.lanes.clientIds ++ [item.clientId]).Perm q.lanes.clientIds :=
        ((sweep_perm env w (acceptedQueue knockId q f item)).append_right _).trans (erased_perm hi)
      have hout : item.clientId ∉ q'.lanes.clientIds := by
        have hnodup := hkeeps.nodup_iff.mpr hdistinct
        intro hin
        exact (disjoint_of_nodup_append hnodup) hin (mem_singleton.mpr rfl)
      refine ⟨?_, List.Subset.refl _, ?_, List.Subset.refl _, rfl, rfl, rfl, fun _ => .inl rfl, ?_, ?_⟩
      · intro item' hitem'
        obtain ⟨item₁, hitem₁, hcard₁⟩ := sweep_cards item' hitem'
        obtain ⟨item₂, hitem₂, hcard₂⟩ := erased_cards (dead_cards q) item₁ hitem₁
        rw [World.held_of_some hq]
        exact .inl ⟨item₂, hitem₂, hcard₁.clientId.trans hcard₂.clientId,
          hcard₁.leadId.trans hcard₂.leadId, hcard₁.notes.trans hcard₂.notes⟩
      · intro c hc
        rw [World.held_of_some hq] at hc
        rcases mem_append.mp (hkeeps.symm.subset hc) with hstays | hgone
        · exact .inl hstays
        · obtain rfl := mem_singleton.mp hgone
          refine .inr (.inr fun notes hnotes => ?_)
          have hin : item ∈ w.held.items := by
            rw [World.held_of_some hq]
            exact mem_append_left _ (mem_of_getElem? hi)
          exact settled_of_accepted h hp hq hitem harrived (hposted hrun) (hnotes item hin rfl)
      · intro q'' hq'' s hs
        cases hq''
        have hs' : s ∈ (acceptedQueue knockId q f item).recentSaves := by
          rw [← sweep_recentSaves env w]
          exact hs
        rcases mem_rememberSave hs' with hold | rfl
        · exact .inl ⟨q, hq, hold⟩
        · refine .inr ⟨h.carded item ?_, hout⟩
          rw [World.held_of_some hq]
          exact mem_append_left _ (mem_of_getElem? hi)
      · intro q'' hq''
        cases hq''
        exact .inl rfl
    · exact hp.numbered
  · rw [answered_of_not_run hrun]
    rw [show w = { w with queue := some q } from by rw [← hq]] at h
    exact h.land rfl rfl rfl

theorem backOff_edit (hq : w.queue = some q)
    (hi : q.pending[idx]? = some item) (hcard : SameCard item item') (since until_ : Int) :
    LaneEdit w (backOff w { q with lastTransientFailureAt := since } idx item' until_) := by
  refine .of_relabel hq rfl ?_ ?_ rfl (.inl rfl) rfl rfl rfl rfl rfl rfl
  · intro item'' hitem''
    rcases mem_append.mp hitem'' with hpending | hdead
    · rcases mem_or_eq_of_mem_set hpending with hold | rfl
      · exact ⟨item'', mem_append_left _ hold, .refl item''⟩
      · exact ⟨item, mem_append_left _ (mem_of_getElem? hi), hcard.clientId,
          hcard.leadId, hcard.notes⟩
    · exact dead_cards q item'' hdead
  · have hset := @clientIds_set _ _ _ { item' with nextAttemptAt := until_ } hi hcard.clientId
    simp [Queue.lanes, Storage.clientIds, hset]

theorem noted_failed (h : Noted w) (hp : Posted w) (hq : w.queue = some q)
    (hi : q.pending[f.idx]? = some item) (message : Text) (env : Ambient) :
    Noted (failed message env w q f item) := by
  rcases failed_cases message env w q f item with hf | ⟨since, item', until_, hid, hlead, hnotes, hf⟩ |
    ⟨-, -, hf⟩ | ⟨-, -, since, burst, hf⟩ <;> rw [hf]
  · rw [show w = { w with queue := some q } from by rw [← hq]] at h
    exact h.land rfl rfl rfl
  · exact h.edit hp (backOff_edit hq hi ⟨hid, hlead, hnotes⟩ since until_)
  · apply noted_flushFrom
    · refine h.edit hp ⟨?_, List.Subset.refl _, ?_, subset_append_left _ _, rfl, rfl, rfl,
        fun _ => .inl rfl, ?_, ?_⟩
      · intro item' hitem'
        rw [World.held_of_some hq]
        exact .inl (erased_cards (dead_cards q) item' hitem')
      · intro c hc
        rw [World.held_of_some hq] at hc
        rcases mem_append.mp ((erased_perm hi).symm.subset hc) with hstays | hgone
        · exact .inl hstays
        · exact .inr (.inl (mem_append_right _ hgone))
      · intro q' hq' s hs
        cases hq'
        exact .inl ⟨q, hq, hs⟩
      · intro q' hq'
        cases hq'
        exact .inl rfl
    · exact hp.numbered
  · apply noted_flushFrom
    · refine h.edit hp (.of_relabel hq rfl ?_ ?_ rfl (.inl rfl) rfl rfl rfl rfl rfl rfl)
      · refine erased_cards ?_
        intro item' hitem'
        rcases mem_append.mp hitem' with hold | hnew
        · exact dead_cards q item' hold
        · obtain rfl := mem_singleton.mp hnew
          exact ⟨item, mem_append_left _ (mem_of_getElem? hi), rfl, rfl, rfl⟩
      · intro c hc
        have hmem := (erased_perm hi).symm.subset hc
        simpa [Queue.lanes, Storage.clientIds, failedItem, or_assoc] using hmem
    · exact hp.numbered

theorem noted_stage (h : Noted w) (hp : Posted w) (hq : w.queue = some q) (input : EnqueueInput)
    (hnew : clientId ∉ w.stagedIds) :
    Noted (stage input clientId w q) := by
  unfold stage
  split
  · exact h
  · refine h.edit hp ⟨?_, subset_append_left _ _, ?_, List.Subset.refl _, rfl, rfl, rfl,
      fun _ => .inl rfl, ?_, ?_⟩
    · intro item' hitem'
      rw [World.held_of_some hq]
      rcases mem_append.mp hitem' with hpending | hdead
      · rcases mem_append.mp hpending with hold | hitem
        · exact .inl ⟨item', mem_append_left _ hold, .refl item'⟩
        · obtain rfl := mem_singleton.mp hitem
          exact .inr ⟨hnew, mem_append_right _ (mem_singleton.mpr rfl)⟩
      · exact .inl (dead_cards q item' hdead)
    · intro c hc
      rw [World.held_of_some hq] at hc
      left
      rw [World.held_of_some rfl]
      simp only [Queue.lanes, Storage.clientIds, clientIds_append, mem_append] at hc ⊢
      exact hc.imp .inl id
    · intro q' hq' s hs
      cases hq'
      exact .inl ⟨q, hq, hs⟩
    · intro q' hq'
      cases hq'
      exact .inr ⟨q, hq, rfl, by simp⟩

theorem noted_enrich (h : Noted w) (hp : Posted w) (hq : w.queue = some q) (clientId : String)
    (evidence : Evidence) : Noted (enrich clientId evidence w q) := by
  unfold enrich
  split
  · refine h.edit hp (.of_relabel hq rfl ?_ ?_ rfl (.inr ⟨rfl, ?_⟩) rfl rfl rfl rfl rfl rfl)
    · intro item' hitem'
      rcases mem_append.mp hitem' with hpending | hdead
      · obtain ⟨item, hitem, hcard⟩ := setEvidence_cards item' hpending
        exact ⟨item, mem_append_left _ hitem, hcard⟩
      · exact dead_cards q item' hdead
    · simp [Queue.lanes, Storage.clientIds, clientIds_setEvidence]
    · simp [clientIds_setEvidence]
  · exact h

theorem setLastNote_spec {items items' : List QueuedKnock}
    (h : setLastNote leadId notes items = some (items', c)) :
    ∃ before item after, items = before ++ item :: after ∧ item.leadId = leadId ∧
      item.clientId = c ∧ items' = before ++ { item with notes := some notes } :: after := by
  induction items generalizing items' with
  | nil => simp [setLastNote] at h
  | cons head rest ih =>
    simp only [setLastNote] at h
    split at h
    · rename_i rest' id hrest
      obtain ⟨rfl, rfl⟩ : head :: rest' = items' ∧ id = c := by simpa using h
      obtain ⟨before, item, after, rfl, hlead, hid, rfl⟩ := ih hrest
      exact ⟨head :: before, item, after, rfl, hlead, hid, rfl⟩
    · split at h
      · rename_i hlead
        obtain ⟨rfl, rfl⟩ : { head with notes := some notes } :: rest = items' ∧
          head.clientId = c := by simpa using h
        exact ⟨[], head, rest, rfl, hlead, rfl, rfl⟩
      · simp at h

theorem staged_lead (hfresh : w.stagedIds.Nodup) {leadId' : Int}
    (h : (c, leadId) ∈ w.staged) (h' : (c, leadId') ∈ w.staged) : leadId = leadId' := by
  have hinj := inj_on_of_nodup_map hfresh h h' rfl
  exact (Prod.mk.inj hinj).2

theorem noted_merged (h : Noted w) (hp : Posted w) (hfresh : w.stagedIds.Nodup)
    (hq : w.queue = some q) (hdistinct : q.lanes.clientIds.Nodup) {pending : List QueuedKnock}
    (hlast : setLastNote leadId notes q.pending = some (pending, c)) (ws : List Write) :
    Noted { w with
      queue := some { q with pending := pending }
      writes := ws
      promises := Function.update w.promises leadId (.acknowledged c notes) } := by
  have hids := clientIds_setLastNote hlast
  obtain ⟨before, item, after, hpending, rfl, rfl, rfl⟩ := setLastNote_spec hlast
  have hitem : item ∈ q.lanes.items := by
    refine mem_append_left _ ?_
    rw [Queue.lanes, hpending]
    exact mem_append_right _ mem_cons_self
  have hheld : w.held = q.lanes := World.held_of_some hq
  have hstaged : (item.clientId, item.leadId) ∈ w.staged := h.carded item (hheld ▸ hitem)
  set q' : Queue := { q with pending := before ++ { item with notes := some notes } :: after } with hq'
  have hids' : q'.lanes.clientIds = q.lanes.clientIds := by
    simp only [hq', Queue.lanes, Storage.clientIds, hids]
  -- the ids are distinct, so no other item carries the id of the edited one
  have hother : ∀ item' ∈ q'.lanes.items, item' = { item with notes := some notes } ∨
      (item' ∈ q.lanes.items ∧ item'.clientId ≠ item.clientId) := by
    intro item' hitem'
    rw [Storage.clientIds_eq, Storage.items, Queue.lanes, hpending] at hdistinct
    simp only [clientIds, map_append, map_cons, append_assoc, cons_append] at hdistinct
    rw [nodup_middle, nodup_cons] at hdistinct
    simp only [mem_append, mem_map, not_or, not_exists, not_and] at hdistinct
    obtain ⟨⟨hbefore, hafter, hdead⟩, -⟩ := hdistinct
    simp only [hq', Queue.lanes, Storage.items, hpending, mem_append, mem_cons] at hitem' ⊢
    rcases hitem' with (hb | rfl | ha) | hd
    · exact .inr ⟨.inl (.inl hb), hbefore item' hb⟩
    · exact .inl rfl
    · exact .inr ⟨.inl (.inr (.inr ha)), hafter item' ha⟩
    · exact .inr ⟨.inr hd, hdead item' hd⟩
  refine ⟨?_, ?_, h.ordered, ?_, ?_⟩
  · intro item' hitem'
    rcases hother item' hitem' with rfl | ⟨hold, -⟩
    · exact hstaged
    · exact h.carded item' (hheld ▸ hold)
  · intro q'' hq'' s hs
    cases hq''
    obtain ⟨hs', hout⟩ := h.saved q hq s hs
    refine ⟨hs', ?_⟩
    rw [World.held_of_some rfl, hids', ← hheld]
    exact hout
  · intro q'' hq'' f hf item'' hitem'' r hr hc
    cases hq''
    obtain ⟨-, item', hitem', -⟩ := hp.aimed q hq f hf
    have hprefix : clientIds q.pending <+: clientIds q'.pending :=
      ⟨[], by rw [append_nil, hq', hids]⟩
    rw [item_at_flight hprefix hitem' hitem''] at hc
    exact h.newest q hq f hf item' hitem' r hr hc
  · intro leadId'
    by_cases hlead : leadId' = item.leadId
    · subst hlead
      simp only [Function.update_self]
      refine ⟨hstaged, ?_, ?_⟩
      · intro item' hitem' hc
        rcases hother item' hitem' with rfl | ⟨-, hne⟩
        · rfl
        · exact absurd hc hne
      · intro hout
        refine absurd ?_ hout
        rw [World.held_of_some rfl, hids']
        exact Storage.mem_clientIds.mpr ⟨item, hitem, rfl⟩
    · simp only [Function.update_of_ne hlead]
      have hkept := h.promised leadId'
      cases hpr : w.promises leadId' with
      | none => trivial
      | awaiting seq c' notes' =>
        rw [hpr] at hkept
        obtain ⟨hs', hout, hrest⟩ := hkept
        refine ⟨hs', ?_, hrest⟩
        rw [World.held_of_some rfl, hids', ← hheld]
        exact hout
      | acknowledged c' notes' =>
        rw [hpr] at hkept
        obtain ⟨hs', hitems, hsettled⟩ := hkept
        refine ⟨hs', ?_, ?_⟩
        · intro item' hitem' hc
          rcases hother item' hitem' with rfl | ⟨hold, -⟩
          · subst hc
            exact absurd (staged_lead hfresh hs' hstaged) hlead
          · exact hitems item' (hheld ▸ hold) hc
        · intro hout hresolved
          rw [World.held_of_some rfl, hids', ← hheld] at hout
          obtain ⟨hquiet, hlast⟩ := hsettled hout hresolved
          exact ⟨hquiet, hlast⟩

/-- A call of `updateNote` that reports `not-found`. -/
theorem Noted.withdraw (h : Noted w) (leadId : Int) :
    Noted { w with promises := Function.update w.promises leadId .none } := by
  refine ⟨h.carded, h.saved, h.ordered, h.newest, ?_⟩
  intro leadId'
  by_cases hlead : leadId' = leadId
  · subst hlead
    simp only [Function.update_self]
    trivial
  · simp only [Function.update_of_ne hlead]
    exact (h.promised leadId').congr rfl rfl rfl rfl rfl rfl

theorem noted_patch (h : Noted w) (hp : Posted w) (hfresh : w.stagedIds.Nodup)
    (hq : w.queue = some q) (notes : Text)
    (hs : (leadId, saved) ∈ q.recentSaves) (calls : List PatchCall) :
    Noted { w with
      sent := w.sent + 1
      wire := w.wire ++ [{ seq := w.sent, clientId := saved.clientId, notes := some notes }]
      patches := calls
      promises := Function.update w.promises leadId (.awaiting w.sent saved.clientId notes) } := by
  obtain ⟨hstaged, hout⟩ := h.saved q hq _ hs
  have hsends : Sends w { w with
      sent := w.sent + 1
      wire := w.wire ++ [{ seq := w.sent, clientId := saved.clientId, notes := some notes }]
      patches := calls
      promises := Function.update w.promises leadId (.awaiting w.sent saved.clientId notes) }
      ⟨w.sent, saved.clientId, some notes⟩ := ⟨rfl, rfl, rfl, rfl, rfl, rfl, rfl⟩
  refine ⟨h.carded, h.saved, fun c => hsends.ordered hp.numbered (h.ordered c), ?_, ?_⟩
  · intro q' hq' f hf item hitem r hr hc
    rcases hsends.mem_requests.mp hr with hold | rfl
    · exact h.newest q' hq' f hf item hitem r hold hc
    · refine absurd ?_ hout
      have hheld : w.held = q'.lanes := World.held_of_some hq'
      rw [hheld]
      exact Storage.mem_clientIds.mpr
        ⟨item, mem_append_left _ (mem_of_getElem? hitem), hc.symm⟩
  · intro leadId'
    by_cases hlead : leadId' = leadId
    · subst hlead
      simp only [Function.update_self]
      refine ⟨hstaged, hout, Nat.lt_succ_self w.sent, ?_, ?_⟩
      · intro r hr hseq
        rcases hsends.mem_requests.mp hr with hold | rfl
        · exact absurd hseq (Nat.ne_of_lt (hp.numbered r hold))
        · exact ⟨rfl, rfl⟩
      · intro r hr _
        rcases hsends.mem_requests.mp hr with hold | rfl
        · exact Nat.le_of_lt (hp.numbered r hold)
        · exact Nat.le_refl _
    · simp only [Function.update_of_ne hlead]
      have hkept := h.promised leadId'
      refine hsends.promiseKept ?_ hkept
      intro c hc hid
      subst hid
      cases hpr : w.promises leadId' with
      | none => simp [hpr, Promise.knock] at hc
      | awaiting seq c' notes' =>
        obtain rfl : c' = saved.clientId := by simpa [hpr, Promise.knock] using hc
        rw [hpr] at hkept
        exact absurd (staged_lead hfresh hkept.1 hstaged) hlead
      | acknowledged c' notes' =>
        obtain rfl : c' = saved.clientId := by simpa [hpr, Promise.knock] using hc
        rw [hpr] at hkept
        exact absurd (staged_lead hfresh hkept.1 hstaged) hlead

theorem noted_updateNote (h : Noted w) (hp : Posted w) (hfresh : w.stagedIds.Nodup)
    (hq : w.queue = some q) (hdistinct : q.lanes.clientIds.Nodup) (leadId : Int) (notes : Text) :
    Noted (updateNote leadId notes w q) := by
  unfold updateNote
  split
  · exact h.withdraw leadId
  · split
    · rename_i pending c hlast
      exact noted_merged h hp hfresh hq hdistinct hlast _
    · split
      · exact h.withdraw leadId
      · rename_i saved hsaved
        have hs : (leadId, saved) ∈ q.recentSaves := by
          obtain ⟨hfound, -⟩ := Option.filter_eq_some_iff.mp hsaved
          simp only [savedFor, Option.map_eq_some_iff, Prod.exists] at hfound
          obtain ⟨leadId', saved', hfind, rfl⟩ := hfound
          have hlead : leadId' = leadId := by simpa using find?_some hfind
          exact hlead ▸ mem_of_find?_eq_some hfind
        exact noted_patch h hp hfresh hq notes hs _

theorem noted_patchAnswered (h : Noted w) {seq : Nat} {ok : Bool}
    (harrived : ok = true → hasArrived w seq = true) : Noted (patchAnswered seq ok w q) := by
  unfold patchAnswered
  split
  · exact h
  · rename_i call hcall
    refine ⟨h.carded, h.saved, h.ordered, h.newest, ?_⟩
    intro leadId
    have hkept := h.promised leadId
    by_cases hlead : leadId = call.leadId
    · subst hlead
      simp only [Function.update_self]
      cases hpr : w.promises call.leadId with
      | none => trivial
      | acknowledged c notes =>
        rw [hpr] at hkept
        exact hkept.congr rfl rfl rfl rfl rfl rfl
      | awaiting seq' c notes =>
        rw [hpr] at hkept
        simp only [settlePromise]
        split
        · rename_i hseq
          subst hseq
          split
          · rename_i hok
            obtain ⟨hstaged, hout, -, hown, hmax⟩ := hkept
            obtain ⟨r, hr, hrseq⟩ : ∃ r ∈ w.received, r.seq = seq' := by
              have hok' : ok = true := by
                simp only [Bool.and_eq_true] at hok
                exact hok.1
              simpa [hasArrived] using harrived hok'
            obtain ⟨hc, hnotes⟩ := hown r (mem_append_left _ hr) hrseq
            have hsettled := settled_of_newest (h.ordered c) hr hc hnotes (hrseq.symm ▸ hmax)
            refine ⟨hstaged, ?_, fun _ _ => ⟨hsettled.quiet, hsettled.last⟩⟩
            intro item hitem hid
            exact absurd (Storage.mem_clientIds.mpr ⟨item, hitem, hid⟩) hout
          · trivial
        · exact PromiseKept.congr (p := .awaiting seq' c notes) hkept rfl rfl rfl rfl rfl rfl
    · simp only [Function.update_of_ne hlead]
      exact hkept.congr rfl rfl rfl rfl rfl rfl

theorem noted_retryDead (h : Noted w) (hp : Posted w) (hq : w.queue = some q)
    (clientId : Option String) (env : Ambient) : Noted (retryDead clientId env w q) := by
  unfold retryDead
  simp only []
  split
  · exact h
  · apply noted_startFlush
    · exact h.edit hp (.of_relabel hq rfl (retry_cards rfl rfl) (retry_ids rfl rfl).subset rfl
        (.inr ⟨rfl, by simp⟩) rfl rfl rfl rfl rfl rfl)
    · exact hp.numbered

theorem noted_autoSweep (h : Noted w) (hp : Posted w) (hq : w.queue = some q) (env : Ambient) :
    Noted (autoSweep env w q) := by
  unfold autoSweep
  simp only []
  split
  · exact h
  · apply noted_startFlush
    · exact h.edit hp (.of_relabel hq rfl sweep_cards (sweep_perm env w q).symm.subset
        (sweep_recentSaves env w q) (.inr (sweep_ids env w q)) rfl rfl rfl rfl rfl rfl)
    · exact hp.numbered

/-- The items that a reload keeps are those it found, and those it leaves out are resolved. -/
theorem load_edit (hsync : ∀ q ∈ w.queue, w.stored = q.lanes) : LaneEdit w (load w) := by
  have hheld : w.held = w.stored := by
    obtain hq | ⟨q, hq⟩ := w.queue.eq_none_or_eq_some
    · simp [World.held, hq]
    · rw [World.held_of_some hq, hsync q hq]
  have hperm := triaged_perm (w.stored.pending.map triagePending ++ w.stored.dead.map triageDead)
  rw [map_append, clientIds_triagePending, clientIds_triageDead] at hperm
  refine ⟨?_, List.Subset.refl _, ?_, subset_append_left _ _, rfl, rfl, rfl, ?_, ?_, ?_⟩
  · intro item' hitem'
    left
    rw [hheld]
    have htriaged : ∃ t ∈ w.stored.pending.map triagePending ++ w.stored.dead.map triageDead,
        t.item = item' := by
      rcases mem_append.mp hitem' with hpending | hdead
      · obtain ⟨t, ht, heq⟩ := mem_filterMap.mp hpending
        refine ⟨t, ht, ?_⟩
        cases t <;> simp_all [Triage.toPending, Triage.item]
      · obtain ⟨t, ht, heq⟩ := mem_filterMap.mp hdead
        refine ⟨t, ht, ?_⟩
        cases t <;> simp_all [Triage.toDead, Triage.item]
    obtain ⟨t, ht, rfl⟩ := htriaged
    rcases mem_append.mp ht with hpending | hdead
    · obtain ⟨item, hitem, rfl⟩ := mem_map.mp hpending
      refine ⟨item, mem_append_left _ hitem, ?_⟩
      unfold triagePending
      split <;> exact .refl item
    · obtain ⟨item, hitem, rfl⟩ := mem_map.mp hdead
      refine ⟨item, mem_append_right _ hitem, ?_⟩
      unfold triageDead
      split
      · exact .refl item
      · split <;> exact ⟨rfl, rfl, rfl⟩
  · intro c hc
    rw [hheld] at hc
    rcases mem_append.mp (hperm.symm.subset hc) with hstays | hgone
    · exact .inl hstays
    · exact .inr (.inl (mem_append_right _ hgone))
  · intro leadId
    simp only [load]
    cases w.promises leadId <;> simp
  · intro q' hq' s hs
    cases hq'
    exact absurd hs not_mem_nil
  · intro q' hq'
    cases hq'
    exact .inl rfl

end Open

/-- No earlier request for the same knock is still on the wire. -/
def InOrder (w : World) : Event → Prop
  | .arrive i => ∀ r ∈ w.wire[i]?, ∀ r' ∈ w.wire.take i, r'.clientId ≠ r.clientId
  | _ => True

/-- A POST that is accepted carried the note that its item has now. -/
def Undisturbed (w : World) : Event → Prop
  | .answered _ _ => ∀ q ∈ w.queue, ∀ p ∈ awaited q, currentRun w q p.1.lease = true →
      ∀ r ∈ w.received, r.seq = p.1.seq → r.notes = p.2.notes
  | _ => True

/-- New knocks have new ids, requests for one knock arrive in order, and no edit reached the item
of a POST that is accepted while the POST was in flight. -/
def KeepsNotes (w : World) (e : Event) : Prop := Fresh w e ∧ InOrder w e ∧ Undisturbed w e

instance decidableInOrder (w : World) : ∀ e, Decidable (InOrder w e)
  | .arrive i => inferInstanceAs
      (Decidable (∀ r ∈ w.wire[i]?, ∀ r' ∈ w.wire.take i, r'.clientId ≠ r.clientId))
  | .stage _ _ | .enrich _ _ | .flush _ | .lose _ | .answered _ _ | .failed _ _ | .updateNote _ _
  | .patchAnswered _ _ | .retryDead _ _ | .autoSweep _ | .suspend | .resume | .changeLease _
  | .load => .isTrue trivial

instance decidableUndisturbed (w : World) : ∀ e, Decidable (Undisturbed w e)
  | .answered _ _ => inferInstanceAs (Decidable (∀ q ∈ w.queue, ∀ p ∈ awaited q,
      currentRun w q p.1.lease = true → ∀ r ∈ w.received, r.seq = p.1.seq → r.notes = p.2.notes))
  | .stage _ _ | .enrich _ _ | .flush _ | .lose _ | .arrive _ | .failed _ _ | .updateNote _ _
  | .patchAnswered _ _ | .retryDead _ _ | .autoSweep _ | .suspend | .resume | .changeLease _
  | .load => .isTrue trivial

instance (w : World) (e : Event) : Decidable (KeepsNotes w e) :=
  inferInstanceAs (Decidable (Fresh w e ∧ InOrder w e ∧ Undisturbed w e))

/-- The state of a queue whose page never dies within an event. -/
structure Steady (w : World) : Prop where
  safe : Safe w
  posted : Posted w
  noted : Noted w

theorem noted_performOpen {w : World} {q : Queue} (h : Noted w) (hp : Posted w)
    (hfresh : w.stagedIds.Nodup) (hq : w.queue = some q) (hdistinct : q.lanes.clientIds.Nodup)
    (hcond : KeepsNotes w e) : Noted (performOpen w q e) := by
  have hsame : Noted { w with queue := some q } := by rwa [← hq]
  cases e with
  | stage input clientId =>
    exact noted_stage h hp hq input (hcond.1 clientId (mem_singleton.mpr rfl))
  | enrich clientId evidence => exact noted_enrich h hp hq clientId evidence
  | flush env => exact noted_startFlush hsame hp.numbered env
  | answered knockId env =>
    simp only [performOpen]
    split
    · exact h
    · rename_i f item hitem
      split
      · rename_i harrived
        have hposted := hcond.2.2 q hq (f, item) hitem
        exact noted_answered h hp hq hdistinct hitem harrived hposted knockId env
      · exact h
  | failed message env =>
    simp only [performOpen]
    split
    · exact h
    · rename_i f item hitem
      exact noted_failed h hp hq (awaited_eq_some hitem).2 message env
  | updateNote leadId notes => exact noted_updateNote h hp hfresh hq hdistinct leadId notes
  | patchAnswered seq ok =>
    simp only [performOpen]
    split
    · rename_i hok
      refine noted_patchAnswered h fun h' => ?_
      simpa [h'] using hok
    · exact h
  | retryDead clientId env => exact noted_retryDead h hp hq clientId env
  | autoSweep env => exact noted_autoSweep h hp hq env
  | suspend => exact hsame.land rfl rfl rfl
  | resume =>
    simp only [performOpen, resume]
    split
    · exact h
    · exact hsame.land rfl rfl rfl
  | arrive _ | lose _ | changeLease _ | load => exact h

theorem Noted.written {w : World} {stored : Storage} (h : Noted w)
    (hstored : w.queue = none → stored = w.stored) : Noted { w with stored := stored, writes := [] } := by
  have hheld : ({ w with stored := stored, writes := [] } : World).held = w.held := by
    cases hq : w.queue with
    | none => simp [World.held, hq, hstored hq]
    | some q => simp [World.held, hq]
  refine ⟨?_, ?_, h.ordered, h.newest, fun leadId => ?_⟩
  · rw [hheld]
    exact h.carded
  · rw [hheld]
    exact h.saved
  · exact (h.promised leadId).congr hheld rfl rfl rfl rfl rfl

theorem noted_perform {w : World} (hs : Safe w) (hp : Posted w) (h : Noted w)
    (hcond : KeepsNotes w e) : Noted (perform w e) := by
  have hidle : Noted w.idle := ⟨h.carded, h.saved, h.ordered, h.newest, fun leadId =>
    (h.promised leadId).congr rfl rfl rfl rfl rfl rfl⟩
  have hpidle : Posted w.idle := ⟨hp.numbered, hp.aimed, hp.accepted⟩
  by_cases he : e.isOpen = true
  · obtain hq | ⟨q, hq⟩ := w.queue.eq_none_or_eq_some
    · rw [perform_closed hq he]
      exact hidle
    · have hdistinct : q.lanes.clientIds.Nodup := hs.synced q hq ▸ hs.distinct
      have hcond' : KeepsNotes w.idle e := by
        cases e <;> exact hcond
      rw [perform_open hq he]
      exact noted_performOpen hidle hpidle hs.fresh hq hdistinct hcond'
  · cases e with
    | arrive i =>
      simp only [perform]
      split
      · exact hidle
      · rename_i r hr
        exact noted_arrive hidle hr (hcond.2.1 r hr)
    | lose i => exact noted_lose hidle i
    | changeLease lease =>
      exact ⟨h.carded, h.saved, h.ordered, h.newest, fun leadId =>
        (h.promised leadId).congr rfl rfl rfl rfl rfl rfl⟩
    | load => exact hidle.edit hpidle (load_edit hs.synced)
    | stage | enrich | flush | answered | failed | updateNote | patchAnswered | retryDead | autoSweep
    | suspend | resume => exact absurd rfl he

theorem perform_of_none {w : World} (h : (perform w e).queue = none) :
    (perform w e).writes = [] ∧ (perform w e).stored = w.stored ∧
      (perform w e).staged = w.staged := by
  by_cases he : e.isOpen = true
  · obtain hq | ⟨q, hq⟩ := w.queue.eq_none_or_eq_some
    · rw [perform_closed hq he]
      exact ⟨rfl, rfl, rfl⟩
    · rw [perform_open hq he] at h
      have hopen := (performOpen_open (w := w.idle) hq e).open_
      simp [h] at hopen
  · cases e with
    | arrive i =>
      simp only [perform]
      split <;> exact ⟨rfl, rfl, rfl⟩
    | lose i => exact ⟨rfl, rfl, rfl⟩
    | changeLease lease => exact ⟨rfl, rfl, rfl⟩
    | load => simp [perform, load] at h
    | stage | enrich | flush | answered | failed | updateNote | patchAnswered | retryDead | autoSweep
    | suspend | resume => exact absurd rfl he

theorem steady_complete (w : World) (e : Event) (h : Steady w) (hcond : KeepsNotes w e) :
    Steady (complete w e) := by
  refine ⟨safe_complete h.safe hcond.1, posted_step w (.run e) h.posted, ?_⟩
  refine (noted_perform h.safe h.posted h.noted hcond).written ?_
  intro hnone
  obtain ⟨hwrites, hstored, -⟩ := perform_of_none hnone
  rw [hwrites, hstored]
  rfl

/-- When the last call of `updateNote` for a lead was acknowledged, and its knock has left the queue
unresolved with no request for it on the wire, the server has the note. -/
def NoteKept (w : World) : Prop :=
  ∀ leadId c notes, w.promises leadId = .acknowledged c notes → c ∉ w.held.clientIds →
    c ∉ w.resolved → (∀ r ∈ w.wire, r.clientId ≠ c) → w.lastNote c = some (some notes)

theorem noteKept_run (lease : Option Nat) (es : List Event)
    (h : Along complete KeepsNotes (World.empty lease) es) :
    NoteKept (run complete (World.empty lease) es) := by
  have hsteady : Steady (run complete (World.empty lease) es) :=
    run_invariant steady_complete ⟨safe_empty lease, posted_empty lease, noted_empty lease⟩ h
  intro leadId c notes hpromise hheld hresolved _
  have hkept := hsteady.noted.promised leadId
  rw [hpromise] at hkept
  exact (hkept.2.2 hheld hresolved).last

def stagedKnock : List Event :=
  [.load, .stage ⟨5, 1, .sold, [], none, none, none, ⟨none, none, none, none, none, none, none⟩⟩
    "knock-1"]

/-- The note is edited while the POST of the knock is in flight. The edit is merged into the item
that the accepted POST then removes. -/
theorem not_noteKept_editInFlight :
    ¬ NoteKept (run complete (World.empty (some 0)) (stagedKnock ++
      [.flush ⟨0, true⟩, .updateNote 5 ['l', 'a', 't', 'e'], .arrive 0,
        .answered (some 1) ⟨0, true⟩])) := by
  intro h
  have hlast := h 5 "knock-1" ['l', 'a', 't', 'e'] (by decide +kernel) (by decide +kernel)
    (by decide +kernel) (by decide +kernel)
  revert hlast
  decide +kernel

/-- An edit before the POST and a PATCH after the save. -/
theorem noteKept_run_patched :
    NoteKept (run complete (World.empty (some 0)) (stagedKnock ++
      [.updateNote 5 ['e', 'a', 'r', 'l', 'y'], .flush ⟨0, true⟩, .arrive 0,
        .answered (some 1) ⟨0, true⟩, .updateNote 5 ['l', 'a', 't', 'e'], .arrive 0,
        .patchAnswered 1 true])) :=
  noteKept_run (some 0) _ (by decide +kernel)

end HomefrontFiber.FieldQueue
