import Mathlib.Algebra.Order.Field.Basic
import Mathlib.Data.List.Pairwise
import Mathlib.Tactic.NormNum
import HomefrontFiber.Outreach.Send

/-!
# The outreach caps under concurrent sends

The gate reads its counters before the provider is called, and a queued row has no `sent_at`: the
daily limit and the cooldown do not see a send that still waits. The limit of a case counts queued
rows and holds whatever runs at the same time; the other two hold when no send is let through on a
counter that a waiting send will change.
-/

namespace HomefrontFiber.Outreach

open List

def OutreachCall.live (c : OutreachCall) : Bool := !c.answered || c.acceptedAt.isSome

def OutreachCall.goesTo (tenantId : Nat) (channel : ContactChannel) (destination : String)
    (c : OutreachCall) : Bool :=
  decide (c.tenantId = tenantId) && decide (c.channel = channel) &&
    decide (c.destination = destination)

def OutreachCall.isFor (tenantId caseId : Nat) (c : OutreachCall) : Bool :=
  decide (c.tenantId = tenantId) && decide (c.caseId = caseId)

/-- Whether the provider took the message of a call within the day from an instant on. -/
def OutreachCall.acceptedWithin (from_ : Int) (c : OutreachCall) : Bool :=
  c.acceptedAt.any fun a => decide (from_ ≤ a) && decide (a ≤ from_ + 86400000)

/-- The three caps, over all messages that the provider took. -/
structure CapsHold (env : Env) (s : System) : Prop where
  daily : ∀ tenantId channel destination from_,
    s.calls.countP (fun c => c.goesTo tenantId channel destination && c.acceptedWithin from_) ≤
      (env.caps tenantId).maxPerDestinationPerDay
  total : ∀ tenantId caseId,
    s.calls.countP (fun c => c.isFor tenantId caseId && c.acceptedAt.isSome) ≤
      (env.caps tenantId).maxPerCaseTotal
  spaced : ∀ c ∈ s.calls, ∀ c' ∈ s.calls, c.outreachId ≠ c'.outreachId →
    c.tenantId = c'.tenantId → c.caseId = c'.caseId →
      ∀ a ∈ c.acceptedAt, ∀ a' ∈ c'.acceptedAt,
        ((env.caps c.tenantId).minHoursBetweenOutreach : Int) * 3600000 ≤ |a - a'|

def OutreachRow.waitsFor (tenantId : Nat) (recipientHash : String) (r : OutreachRow) : Bool :=
  decide (r.tenantId = tenantId) && decide (r.recipientHash = some recipientHash) &&
    decide (r.status = .queued)

/-- A send that passes the gate finds room on the day with the queued rows counted as sent, and no
queued row of its case, unless no pause between messages is asked for. -/
def System.CountsWaiting (env : Env) (s : System) (c : SendCall) : Prop :=
  s.Passes env c →
    (∀ hash ∈ s.recipientHash env c,
      s.db.outreach.countP (·.waitsFor c.tenantId hash) +
        s.db.outreach.countP (·.countsToday c.tenantId hash s.now) <
          (env.caps c.tenantId).maxPerDestinationPerDay) ∧
    ((env.caps c.tenantId).minHoursBetweenOutreach = 0 ∨
      ∀ r ∈ s.db.outreach, r.countsForCase c.tenantId c.caseId = true → r.status ≠ .queued)

def Traffic.CountsWaiting (env : Env) (s : System) : Traffic → Prop
  | .send c => s.CountsWaiting env c
  | .tick _ | .accept _ | .answer _ _ _ | .delivered _ _ => True

/-- The states of a run from an empty table, when every send counts the waiting ones. -/
inductive CountingRun (env : Env) : System → Prop
  | start {s : System} (houtreach : s.db.outreach = []) (hcalls : s.calls = []) :
      CountingRun env s
  | step {s : System} (h : CountingRun env s) (t : Traffic) (ht : t.CountsWaiting env s) :
      CountingRun env (s.traffic env t)

inductive OutreachCall.Evolves (now : Int) (c : OutreachCall) : OutreachCall → Prop
  | same : Evolves now c c
  | accepted (hunanswered : c.answered = false) (hfresh : c.acceptedAt = none) :
      Evolves now c { c with acceptedAt := some now }
  | answered (hunanswered : c.answered = false) : Evolves now c { c with answered := true }

namespace OutreachCall.Evolves

variable {now : Int} {c c' : OutreachCall}

theorem fields (h : c.Evolves now c') : c'.outreachId = c.outreachId ∧ c'.tenantId = c.tenantId ∧
    c'.caseId = c.caseId ∧ c'.channel = c.channel ∧ c'.destination = c.destination ∧
    c'.startedAt = c.startedAt := by
  cases h <;> exact ⟨rfl, rfl, rfl, rfl, rfl, rfl⟩

theorem live (h : c.Evolves now c') (hlive : c'.live = true) : c.live = true := by
  cases h with
  | same => exact hlive
  | accepted hunanswered => simp [OutreachCall.live, hunanswered]
  | answered hunanswered => simp [OutreachCall.live, hunanswered]

theorem acceptedAt (h : c.Evolves now c') {a : Int} (ha : a ∈ c.acceptedAt) :
    a ∈ c'.acceptedAt := by
  cases h with
  | same => exact ha
  | accepted _ hfresh =>
    rw [hfresh] at ha
    cases ha
  | answered => exact ha

theorem acceptedAt_or (h : c.Evolves now c') {a : Int} (ha : a ∈ c'.acceptedAt) :
    a ∈ c.acceptedAt ∨ (a = now ∧ c.answered = false ∧ c.acceptedAt = none) := by
  cases h with
  | same => exact .inl ha
  | accepted hunanswered hfresh => exact .inr ⟨(Option.some.inj ha).symm, hunanswered, hfresh⟩
  | answered => exact .inl ha

end OutreachCall.Evolves

/-- What the calls of a day can hold: those that the provider took on it, and those that still
wait and began before its end. -/
def OutreachCall.inPlay (tenantId : Nat) (channel : ContactChannel) (destination : String)
    (from_ : Int) (c : OutreachCall) : Bool :=
  c.goesTo tenantId channel destination &&
    match c.acceptedAt with
    | some a => decide (from_ ≤ a) && decide (a ≤ from_ + 86400000)
    | none => !c.answered && decide (c.startedAt ≤ from_ + 86400000)

variable {tenantId : Nat} {channel : ContactChannel} {destination : String} {from_ : Int}
  {g : OutreachCall → OutreachCall} {f : OutreachRow → OutreachRow} {added : List OutreachRow}

theorem OutreachCall.Evolves.inPlay {now : Int} {c c' : OutreachCall} (h : c.Evolves now c')
    (hstarted : c.startedAt ≤ now) (hplay : c'.inPlay tenantId channel destination from_ = true) :
    c.inPlay tenantId channel destination from_ = true := by
  cases h with
  | same => exact hplay
  | accepted hunanswered hfresh =>
    simp only [OutreachCall.inPlay, goesTo, Bool.and_eq_true, decide_eq_true_eq] at hplay
    obtain ⟨hto, -, hend⟩ := hplay
    simp only [OutreachCall.inPlay, goesTo, hfresh, hunanswered, Bool.and_eq_true,
      decide_eq_true_eq, Bool.not_false, true_and]
    exact ⟨hto, le_trans hstarted hend⟩
  | answered hunanswered =>
    cases haccepted : c.acceptedAt with
    | none => simp [OutreachCall.inPlay, haccepted] at hplay
    | some a =>
      simp only [OutreachCall.inPlay, haccepted] at hplay ⊢
      exact hplay

structure Linked (env : Env) (hashKey : Option String) (c : OutreachCall) (r : OutreachRow) :
    Prop where
  id : r.id = c.outreachId
  tenantId : r.tenantId = c.tenantId
  caseId : r.caseId = c.caseId
  recipientHash : r.recipientHash =
    some (hashDestination env.crypto hashKey c.tenantId c.channel c.destination)
  waiting : c.answered = false → r.status = .queued
  counted : c.live = true → r.status = .queued ∨ (r.status = .sent ∨ r.status = .delivered) ∧
    ∃ a ∈ c.acceptedAt, ∃ t ∈ r.sentAt, a ≤ t

structure Consistent (env : Env) (s : System) : Prop where
  numbered : Numbered (·.id) s.db.outreach
  calls_nodup : (s.calls.map (·.outreachId)).Nodup
  linked : ∀ c ∈ s.calls, ∃ r ∈ s.db.outreach, Linked env s.hashKey c r
  queued_bare : ∀ r ∈ s.db.outreach, r.status = .queued → r.providerMessageId = none
  started : ∀ c ∈ s.calls, c.startedAt ≤ s.now
  accepted : ∀ c ∈ s.calls, ∀ a ∈ c.acceptedAt, c.startedAt ≤ a ∧ a ≤ s.now

/-- A step that queues no message: calls evolve, rows change with them, and a refused send may add
a blocked row. -/
structure Moves (env : Env) (s s' : System) (g : OutreachCall → OutreachCall)
    (f : OutreachRow → OutreachRow) (added : List OutreachRow) : Prop where
  hashKey : s'.hashKey = s.hashKey
  now : s.now ≤ s'.now
  calls : s'.calls = s.calls.map g
  evolves : ∀ c ∈ s.calls, c.Evolves s.now (g c)
  rows : s'.db.outreach = s.db.outreach.map f ++ added
  row_id : ∀ r ∈ s.db.outreach, (f r).id = r.id
  linked : ∀ c ∈ s.calls, ∀ r ∈ s.db.outreach, Linked env s.hashKey c r →
    Linked env s.hashKey (g c) (f r)
  queued_bare : ∀ r ∈ s.db.outreach, (f r).status = .queued → (f r).providerMessageId = none
  added : added = [] ∨ ∃ r, added = [r] ∧ r.id = s.db.nextOutreachId ∧ r.status = .blocked

variable {env : Env} {s s' : System}

theorem Consistent.moves (h : Consistent env s) (hm : Moves env s s' g f added) :
    Consistent env s' := by
  have hrows := h.numbered.map hm.row_id
  constructor
  · rw [hm.rows]
    rcases hm.added with hnil | ⟨r, hone, hid, -⟩
    · rw [hnil, append_nil]
      exact hrows
    · rw [hone]
      apply hrows.snoc
      rw [hid, length_map]
      rfl
  · rw [hm.calls, map_map]
    have hids : s.calls.map ((·.outreachId) ∘ g) = s.calls.map (·.outreachId) :=
      map_congr_left fun c hc => (hm.evolves c hc).fields.1
    exact hids ▸ h.calls_nodup
  · intro c' hc'
    rw [hm.calls] at hc'
    obtain ⟨c, hc, rfl⟩ := mem_map.mp hc'
    obtain ⟨r, hr, hlinked⟩ := h.linked c hc
    rw [hm.rows, hm.hashKey]
    exact ⟨f r, mem_append_left _ (mem_map_of_mem hr), hm.linked c hc r hr hlinked⟩
  · intro r hr hqueued
    rw [hm.rows, mem_append] at hr
    rcases hr with hr | hr
    · obtain ⟨r₀, hr₀, rfl⟩ := mem_map.mp hr
      exact hm.queued_bare r₀ hr₀ hqueued
    · rcases hm.added with hnil | ⟨x, hone, -, hblocked⟩
      · rw [hnil] at hr
        cases hr
      · rw [hone, mem_singleton] at hr
        rw [hr, hblocked] at hqueued
        cases hqueued
  · intro c' hc'
    rw [hm.calls] at hc'
    obtain ⟨c, hc, rfl⟩ := mem_map.mp hc'
    rw [(hm.evolves c hc).fields.2.2.2.2.2]
    exact (h.started c hc).trans hm.now
  · intro c' hc' a ha
    rw [hm.calls] at hc'
    obtain ⟨c, hc, rfl⟩ := mem_map.mp hc'
    rw [(hm.evolves c hc).fields.2.2.2.2.2]
    rcases (hm.evolves c hc).acceptedAt_or ha with ha | ⟨rfl, -, -⟩
    · obtain ⟨hstart, hnow⟩ := h.accepted c hc a ha
      exact ⟨hstart, hnow.trans hm.now⟩
    · exact ⟨h.started c hc, hm.now⟩

theorem Consistent.call_unique (h : Consistent env s) {c c' : OutreachCall} (hc : c ∈ s.calls)
    (hc' : c' ∈ s.calls) (hid : c.outreachId = c'.outreachId) : c = c' :=
  inj_on_of_nodup_map h.calls_nodup hc hc' hid

theorem System.mem_of_inFlight {id : Nat} {c : OutreachCall} (h : s.inFlight id = some c) :
    c ∈ s.calls ∧ c.outreachId = id ∧ c.answered = false := by
  unfold System.inFlight at h
  have hc := find?_some h
  simp only [Bool.and_eq_true, decide_eq_true_eq, Bool.not_eq_true'] at hc
  exact ⟨mem_of_find?_eq_some h, hc.1, hc.2⟩

theorem Consistent.still (h : Consistent env s) (s' : System) (hkey : s'.hashKey = s.hashKey)
    (hnow : s.now ≤ s'.now) (hcalls : s'.calls = s.calls)
    (hrows : s'.db.outreach = s.db.outreach ++ added)
    (hadded : added = [] ∨ ∃ r, added = [r] ∧ r.id = s.db.nextOutreachId ∧ r.status = .blocked) :
    Moves env s s' id id added where
  hashKey := hkey
  now := hnow
  calls := by rw [hcalls, map_id]
  evolves := fun _ _ => .same
  rows := by rw [hrows, map_id]
  row_id := fun _ _ => rfl
  linked := fun _ _ _ _ hlinked => hlinked
  queued_bare := h.queued_bare
  added := hadded

theorem Consistent.update (h : Consistent env s) {id : Nat} {c : OutreachCall}
    (hc : s.inFlight id = some c) (hcalls : s'.calls = s.updateCall id g)
    (hkey : s'.hashKey = s.hashKey) (hnow : s'.now = s.now)
    (hrows : s'.db.outreach = s.db.outreach.map fun r => if r.id = id then f r else r)
    (hevolves : c.Evolves s.now (g c))
    (hlinked : ∀ r ∈ s.db.outreach, Linked env s.hashKey c r → Linked env s.hashKey (g c) (f r))
    (hid : ∀ r, (f r).id = r.id)
    (hbare : ∀ r ∈ s.db.outreach, (f r).status = .queued → (f r).providerMessageId = none) :
    Moves env s s' (fun c => if c.outreachId = id then g c else c)
      (fun r => if r.id = id then f r else r) [] := by
  obtain ⟨hmem, hcid, -⟩ := System.mem_of_inFlight hc
  have hone : ∀ c' ∈ s.calls, c'.outreachId = id → c' = c := fun c' hc' hid' =>
    h.call_unique hc' hmem (hid'.trans hcid.symm)
  refine ⟨hkey, hnow.ge, hcalls, ?_, ?_, ?_, ?_, ?_, .inl rfl⟩
  · intro c' hc'
    by_cases hid' : c'.outreachId = id
    · rw [if_pos hid', hone c' hc' hid']
      exact hevolves
    · rw [if_neg hid']
      exact .same
  · rw [hrows, append_nil]
  · intro r _
    split
    · exact hid r
    · rfl
  · intro c' hc' r hr hl
    by_cases hid' : c'.outreachId = id
    · have hrow : r.id = id := hl.id.trans hid'
      rw [if_pos hid', if_pos hrow, hone c' hc' hid']
      exact hlinked r hr (hone c' hc' hid' ▸ hl)
    · have hrow : r.id ≠ id := fun heq => hid' (hl.id.symm.trans heq)
      rw [if_neg hid', if_neg hrow]
      exact hl
  · intro r hr
    split
    · exact hbare r hr
    · exact h.queued_bare r hr

theorem Consistent.accept_moves (h : Consistent env s) (id : Nat) :
    ∃ g f added, Moves env s (s.accept id) g f added := by
  unfold System.accept
  cases hc : s.inFlight id with
  | none => exact ⟨_, _, _, h.still s rfl le_rfl rfl (append_nil _).symm (.inl rfl)⟩
  | some c =>
    dsimp only
    split
    · exact ⟨_, _, _, h.still s rfl le_rfl rfl (append_nil _).symm (.inl rfl)⟩
    · rename_i hfresh
      obtain ⟨-, -, hunanswered⟩ := System.mem_of_inFlight hc
      have hevolves : c.Evolves s.now { c with acceptedAt := some s.now } :=
        .accepted hunanswered (by simpa using hfresh)
      refine ⟨_, _, _, h.update hc rfl rfl rfl ?_ hevolves ?_ (fun _ => rfl) h.queued_bare⟩
      · simp
      · intro r _ hl
        exact ⟨hl.id, hl.tenantId, hl.caseId, hl.recipientHash, hl.waiting,
          fun _ => .inl (hl.waiting hunanswered)⟩

theorem Consistent.answer_moves (h : Consistent env s) (id : Nat)
    (providerMessageId safeError : String) :
    ∃ g f added, Moves env s (s.answer id providerMessageId safeError) g f added := by
  unfold System.answer
  cases hc : s.inFlight id with
  | none => exact ⟨_, _, _, h.still s rfl le_rfl rfl (append_nil _).symm (.inl rfl)⟩
  | some c =>
    obtain ⟨hmem, hcid, hunanswered⟩ := System.mem_of_inFlight hc
    have hevolves : c.Evolves s.now { c with answered := true } := .answered hunanswered
    dsimp only
    cases haccepted : c.acceptedAt with
    | none =>
      -- The provider did not take the message: its row fails and no longer counts.
      let failed : OutreachRow → OutreachRow := fun r => { r with
        status := .failed
        failedAt := some s.now
        failureDetail := some (String.ofList (safeError.toList.take 300)) }
      have hfailed : ∀ r ∈ s.db.outreach, Linked env s.hashKey c r →
          Linked env s.hashKey { c with answered := true } (failed r) := by
        intro r _ hl
        refine ⟨hl.id, hl.tenantId, hl.caseId, hl.recipientHash, (fun hno => nomatch hno), ?_⟩
        intro hlive
        simp [OutreachCall.live, haccepted] at hlive
      exact ⟨_, _, _, h.update hc (f := failed) rfl rfl rfl rfl hevolves hfailed (fun _ => rfl)
        fun _ _ hqueued => nomatch hqueued⟩
    | some a =>
      have ha : a ≤ s.now := (h.accepted c hmem a haccepted).2
      cases hmark : s.db.markOutreachSent id providerMessageId s.now with
      | none =>
        -- The table refuses the provider's id: the row stays queued.
        have hrows : s.db.outreach = s.db.outreach.map fun r => if r.id = id then r else r := by
          simp
        have hstays : ∀ r ∈ s.db.outreach, Linked env s.hashKey c r →
            Linked env s.hashKey { c with answered := true } r := fun r _ hl =>
          ⟨hl.id, hl.tenantId, hl.caseId, hl.recipientHash, (fun hno => nomatch hno),
            fun _ => .inl (hl.waiting hunanswered)⟩
        exact ⟨_, _, _, h.update hc (f := fun r => r) rfl rfl rfl hrows hevolves hstays
          (fun _ => rfl) h.queued_bare⟩
      | some db =>
        let sent : OutreachRow → OutreachRow := fun r => { r with
          status := .sent
          sentAt := some s.now
          providerMessageId := some providerMessageId }
        have hdb : db = s.db.updateOutreach id sent := by
          unfold OutreachDb.markOutreachSent at hmark
          split at hmark
          · cases hmark
          · exact (Option.some.inj hmark).symm
        have hsent : ∀ r ∈ s.db.outreach, Linked env s.hashKey c r →
            Linked env s.hashKey { c with answered := true } (sent r) := fun r _ hl =>
          ⟨hl.id, hl.tenantId, hl.caseId, hl.recipientHash, (fun hno => nomatch hno),
            fun _ => .inr ⟨.inl rfl, a, haccepted, s.now, rfl, ha⟩⟩
        rw [hdb]
        exact ⟨_, _, _, h.update hc (f := sent) rfl rfl rfl rfl hevolves hsent (fun _ => rfl)
          fun _ _ hqueued => nomatch hqueued⟩

theorem Consistent.delivered_moves (h : Consistent env s) (tenantId : Nat)
    (providerMessageId : String) :
    ∃ g f added, Moves env s (s.traffic env (.delivered tenantId providerMessageId)) g f added := by
  let f : OutreachRow → OutreachRow := fun r =>
    if r.tenantId = tenantId ∧ r.providerMessageId = some providerMessageId ∧
        (r.status = .sent ∨ r.status = .queued) then
      { r with status := .delivered, deliveredAt := some s.now }
    else r
  have hrow : ∀ r ∈ s.db.outreach, f r = r ∨
      r.status = .sent ∧ f r = { r with status := .delivered, deliveredAt := some s.now } := by
    intro r hr
    by_cases hmatch : r.tenantId = tenantId ∧ r.providerMessageId = some providerMessageId ∧
        (r.status = .sent ∨ r.status = .queued)
    · right
      refine ⟨hmatch.2.2.resolve_right fun hqueued => ?_, if_pos hmatch⟩
      have hbare := h.queued_bare r hr hqueued
      rw [hmatch.2.1] at hbare
      cases hbare
    · exact .inl (if_neg hmatch)
  refine ⟨id, f, [], rfl, le_rfl, (map_id _).symm, fun _ _ => .same,
    (append_nil _).symm, ?_, ?_, ?_, .inl rfl⟩
  · intro r hr
    rcases hrow r hr with hsame | ⟨-, hdelivered⟩
    · rw [hsame]
    · rw [hdelivered]
  · intro c _ r hr hl
    rcases hrow r hr with hsame | ⟨hsent, hdelivered⟩
    · rw [hsame]
      exact hl
    · rw [hdelivered]
      refine ⟨hl.id, hl.tenantId, hl.caseId, hl.recipientHash, ?_, ?_⟩
      · intro hunanswered
        have hqueued := hl.waiting hunanswered
        rw [hsent] at hqueued
        cases hqueued
      · intro hlive
        rcases hl.counted hlive with hqueued | ⟨-, htimes⟩
        · rw [hsent] at hqueued
          cases hqueued
        · exact .inr ⟨.inr rfl, htimes⟩
  · intro r hr hqueued
    rcases hrow r hr with hsame | ⟨-, hdelivered⟩
    · rw [hsame] at hqueued ⊢
      exact h.queued_bare r hr hqueued
    · rw [hdelivered] at hqueued
      cases hqueued

theorem Consistent.traffic_cases (h : Consistent env s) (t : Traffic) :
    (∃ c destination, t = .send c ∧ s.Passes env c ∧ c.destination = some destination ∧
      s.traffic env t =
        s.queue env c destination (renderTemplate env c.tenantId c.template)) ∨
    ∃ g f added, Moves env s (s.traffic env t) g f added := by
  cases t with
  | tick ms =>
    right
    have hnow : s.now ≤ s.now + ms := by omega
    have hmoves : Moves env s { s with now := s.now + ms } id id [] :=
      h.still { s with now := s.now + ms } rfl hnow rfl (append_nil _).symm (.inl rfl)
    exact ⟨_, _, _, hmoves⟩
  | send c =>
    rcases s.sendOutreach_cases env c with
      ⟨hpasses, destination, hdest, hqueue⟩ | ⟨-, hsame | ⟨body, hash, reasons, hblocked⟩⟩
    · exact .inl ⟨c, destination, rfl, hpasses, hdest, hqueue⟩
    · right
      have hstep : s.traffic env (.send c) = s := hsame
      rw [hstep]
      exact ⟨_, _, _, h.still s rfl le_rfl rfl (append_nil _).symm (.inl rfl)⟩
    · right
      have hstep : s.traffic env (.send c) = s.recordBlocked c body hash reasons := hblocked
      have hrow : ∃ r, (s.recordBlocked c body hash reasons).db.outreach = s.db.outreach ++ [r] ∧
          r.id = s.db.nextOutreachId ∧ r.status = .blocked := ⟨_, rfl, rfl, rfl⟩
      obtain ⟨r, hrows, hid, hstatus⟩ := hrow
      have hmoves : Moves env s (s.recordBlocked c body hash reasons) id id [r] :=
        h.still (s.recordBlocked c body hash reasons) rfl le_rfl rfl hrows (.inr ⟨r, rfl, hid, hstatus⟩)
      rw [hstep]
      exact ⟨_, _, _, hmoves⟩
  | accept id => exact .inr (h.accept_moves id)
  | answer id providerMessageId safeError =>
    exact .inr (h.answer_moves id providerMessageId safeError)
  | delivered tenantId providerMessageId =>
    exact .inr (h.delivered_moves tenantId providerMessageId)

theorem Consistent.queue (h : Consistent env s) {c : SendCall}
    (hdest : c.destination = some destination) (rendered : Rendered) :
    Consistent env (s.queue env c destination rendered) := by
  have hbelow : ∀ x ∈ s.calls, x.outreachId ≠ s.db.nextOutreachId := by
    intro x hx hid
    obtain ⟨r, hr, hl⟩ := h.linked x hx
    have hle := h.numbered.le_length hr
    rw [hl.id, hid] at hle
    exact Nat.not_succ_le_self _ hle
  have hhash : s.recipientHash env c = some (s.hash env c.tenantId c.channel destination) := by
    unfold System.recipientHash
    rw [hdest]
    rfl
  constructor
  · exact h.numbered.snoc rfl
  · show ((s.calls ++ [s.call env c destination rendered.links]).map (·.outreachId)).Nodup
    rw [map_append, map_singleton, nodup_append]
    refine ⟨h.calls_nodup, nodup_singleton _, ?_⟩
    intro id hid id' hid'
    obtain ⟨x, hx, rfl⟩ := mem_map.mp hid
    rw [mem_singleton.mp hid']
    exact hbelow x hx
  · intro x hx
    rcases mem_append.mp hx with hx | hx
    · obtain ⟨r, hr, hl⟩ := h.linked x hx
      exact ⟨r, mem_append_left _ hr, hl⟩
    · rw [mem_singleton.mp hx]
      refine ⟨_, mem_append_right _ (mem_singleton_self _), ?_⟩
      exact ⟨rfl, rfl, rfl, hhash, fun _ => rfl, fun _ => .inl rfl⟩
  · intro r hr hqueued
    rcases mem_append.mp hr with hr | hr
    · exact h.queued_bare r hr hqueued
    · rw [mem_singleton.mp hr]
      rfl
  · intro x hx
    rcases mem_append.mp hx with hx | hx
    · exact h.started x hx
    · rw [mem_singleton.mp hx]
      exact le_rfl
  · intro x hx a ha
    rcases mem_append.mp hx with hx | hx
    · exact h.accepted x hx a ha
    · rw [mem_singleton.mp hx] at ha
      cases ha

/-- Of two calls of a case, the second began a pause after the provider took the first. -/
def Spaced (env : Env) (c c' : OutreachCall) : Prop :=
  c.tenantId = c'.tenantId → c.caseId = c'.caseId → c.live = true → c'.live = true →
    (env.caps c.tenantId).minHoursBetweenOutreach = 0 ∨
      ∃ a ∈ c.acceptedAt,
        a + ((env.caps c.tenantId).minHoursBetweenOutreach : Int) * 3600000 ≤ c'.startedAt

structure Capped (env : Env) (s : System) : Prop where
  daily : ∀ tenantId channel destination from_,
    s.calls.countP (·.inPlay tenantId channel destination from_) ≤
      (env.caps tenantId).maxPerDestinationPerDay
  total : ∀ tenantId caseId, s.calls.countP (fun c => c.isFor tenantId caseId && c.live) ≤
    (env.caps tenantId).maxPerCaseTotal
  spaced : s.calls.Pairwise (Spaced env)

theorem Capped.moves (h : Capped env s) (hc : Consistent env s) (hm : Moves env s s' g f added) :
    Capped env s' := by
  constructor
  · intro tenantId channel destination from_
    rw [hm.calls]
    refine (countP_map_le fun c hmem hplay => ?_).trans (h.daily tenantId channel destination from_)
    exact (hm.evolves c hmem).inPlay (hc.started c hmem) hplay
  · intro tenantId caseId
    rw [hm.calls]
    refine (countP_map_le fun c hmem hlive => ?_).trans (h.total tenantId caseId)
    obtain ⟨-, htenant, hcase, -⟩ := (hm.evolves c hmem).fields
    simp only [Bool.and_eq_true, OutreachCall.isFor, htenant, hcase] at hlive ⊢
    exact ⟨hlive.1, (hm.evolves c hmem).live hlive.2⟩
  · rw [hm.calls, pairwise_map]
    apply h.spaced.imp_of_mem
    intro c c' hmem hmem' hspaced htenant hcase hlive hlive'
    obtain ⟨-, ht, hca, -⟩ := (hm.evolves c hmem).fields
    obtain ⟨-, ht', hca', -, -, hstart'⟩ := (hm.evolves c' hmem').fields
    rw [ht, ht'] at htenant
    rw [hca, hca'] at hcase
    rw [ht, hstart']
    rcases hspaced htenant hcase ((hm.evolves c hmem).live hlive)
        ((hm.evolves c' hmem').live hlive') with hzero | ⟨a, ha, hle⟩
    · exact .inl hzero
    · exact .inr ⟨a, (hm.evolves c hmem).acceptedAt ha, hle⟩

theorem OutreachCall.live_of_inPlay {c : OutreachCall}
    (h : c.inPlay tenantId channel destination from_ = true) :
    c.goesTo tenantId channel destination = true ∧ c.live = true ∧
      ∀ a ∈ c.acceptedAt, from_ ≤ a := by
  unfold OutreachCall.inPlay at h
  rw [Bool.and_eq_true] at h
  refine ⟨h.1, ?_⟩
  unfold OutreachCall.live
  cases haccepted : c.acceptedAt with
  | none =>
    rw [haccepted] at h
    simp only [Bool.and_eq_true] at h
    exact ⟨by simp [h.2.1], fun a ha => nomatch ha⟩
  | some a =>
    rw [haccepted] at h
    simp only [Bool.and_eq_true, decide_eq_true_eq] at h
    exact ⟨by simp, fun a' ha' => Option.some.inj ha' ▸ h.2.1⟩

/-- What a destination has in play on a day that is not over is on rows that wait or count today. -/
theorem Consistent.inPlay_le (h : Consistent env s) (tenantId : Nat) (channel : ContactChannel)
    (destination : String) (hday : s.now ≤ from_ + 86400000) :
    s.calls.countP (·.inPlay tenantId channel destination from_) ≤
      s.db.outreach.countP (·.waitsFor tenantId (s.hash env tenantId channel destination)) +
        s.db.outreach.countP
          (·.countsToday tenantId (s.hash env tenantId channel destination) s.now) := by
  refine le_trans (countP_le_countP_of_key OutreachCall.outreachId OutreachRow.id h.calls_nodup ?_)
    (countP_or_le _ _ _)
  intro c hc hplay
  obtain ⟨hto, hlive, hfrom⟩ := OutreachCall.live_of_inPlay hplay
  simp only [OutreachCall.goesTo, Bool.and_eq_true, decide_eq_true_eq] at hto
  obtain ⟨⟨rfl, rfl⟩, rfl⟩ := hto
  obtain ⟨r, hr, hl⟩ := h.linked c hc
  refine ⟨r, hr, hl.id, ?_⟩
  rw [Bool.or_eq_true]
  rcases hl.counted hlive with hqueued | ⟨hstatus, a, ha, t, ht, hle⟩
  · left
    simp [OutreachRow.waitsFor, hl.tenantId, hl.recipientHash, hqueued, System.hash]
  · right
    have hsince : s.now ≤ t + 86400000 := by
      have := hfrom a ha
      omega
    have hcounts : r.status.counts = true := by
      rcases hstatus with hst | hst
      · rw [hst]
        rfl
      · rw [hst]
        rfl
    simp [OutreachRow.countsToday, hl.tenantId, hl.recipientHash, hcounts, Option.mem_def.mp ht,
      hsince, System.hash]

theorem Linked.countsForCase {hashKey : Option String} {c : OutreachCall} {r : OutreachRow}
    (h : Linked env hashKey c r) (hlive : c.live = true) :
    r.countsForCase c.tenantId c.caseId = true := by
  have hcounts : r.status.counts = true := by
    rcases h.counted hlive with hst | ⟨hst | hst, -⟩
    · rw [hst]
      rfl
    · rw [hst]
      rfl
    · rw [hst]
      rfl
  simp [OutreachRow.countsForCase, h.tenantId, h.caseId, hcounts]

theorem Consistent.live_le (h : Consistent env s) (tenantId caseId : Nat) :
    s.calls.countP (fun c => c.isFor tenantId caseId && c.live) ≤
      s.db.outreach.countP (·.countsForCase tenantId caseId) := by
  refine countP_le_countP_of_key OutreachCall.outreachId OutreachRow.id h.calls_nodup ?_
  intro c hc hlive
  simp only [Bool.and_eq_true, OutreachCall.isFor, decide_eq_true_eq] at hlive
  obtain ⟨⟨rfl, rfl⟩, hlive⟩ := hlive
  obtain ⟨r, hr, hl⟩ := h.linked c hc
  exact ⟨r, hr, hl.id, hl.countsForCase hlive⟩

theorem pause_of_counter {rows : List Int} {now t : Int} {hours : Nat} (ht : t ∈ rows)
    (hcooldown : ∀ h ∈ rows.max?.map fun last => ((now - last : Int) : Rat) / 3600000,
      (hours : Rat) ≤ h) :
    t + (hours : Int) * 3600000 ≤ now := by
  cases hmax : rows.max? with
  | none =>
    rw [max?_eq_none_iff.mp hmax] at ht
    cases ht
  | some last =>
    have hle : t ≤ last := (max?_eq_some_iff.mp hmax).2 t ht
    have hpause : (hours : Rat) ≤ ((now - last : Int) : Rat) / 3600000 :=
      hcooldown _ (by rw [hmax]; rfl)
    rw [le_div_iff₀ (by norm_num)] at hpause
    have hint : (hours : Int) * 3600000 ≤ now - last := by exact_mod_cast hpause
    omega

theorem Capped.queue (h : Capped env s) (hc : Consistent env s) {c : SendCall}
    (hdest : c.destination = some destination) (hpasses : s.Passes env c)
    (hcounts : s.CountsWaiting env c) (rendered : Rendered) :
    Capped env (s.queue env c destination rendered) := by
  have hadmitted := admitted_of_allowed hpasses.2.2.2
  obtain ⟨hroom, hpause⟩ := hcounts hpasses
  have hhash : s.hash env c.tenantId c.channel destination ∈ s.recipientHash env c := by
    unfold System.recipientHash
    rw [hdest]
    rfl
  let new := s.call env c destination rendered.links
  constructor
  · intro tenantId channel address from_
    show (s.calls ++ [new]).countP (·.inPlay tenantId channel address from_) ≤ _
    rw [countP_append, countP_singleton]
    split
    · rename_i hplay
      -- The day is not over, so everything that it has in play is on a row that the send saw.
      have hplay' : (decide (c.tenantId = tenantId) && decide (c.channel = channel) &&
          decide (destination = address) && decide (s.now ≤ from_ + 86400000)) = true := hplay
      simp only [Bool.and_eq_true, decide_eq_true_eq] at hplay'
      obtain ⟨⟨⟨rfl, rfl⟩, rfl⟩, hday⟩ := hplay'
      have hle := hc.inPlay_le c.tenantId c.channel destination hday
      have hlt := hroom _ hhash
      exact Nat.succ_le_of_lt (lt_of_le_of_lt hle hlt)
    · exact h.daily tenantId channel address from_
  · intro tenantId caseId
    show (s.calls ++ [new]).countP (fun c => c.isFor tenantId caseId && c.live) ≤ _
    rw [countP_append, countP_singleton]
    split
    · rename_i hfor
      simp only [OutreachCall.isFor, Bool.and_eq_true, decide_eq_true_eq] at hfor
      obtain ⟨⟨rfl, rfl⟩, -⟩ := hfor
      have hle := hc.live_le c.tenantId c.caseId
      exact Nat.succ_le_of_lt (lt_of_le_of_lt hle hadmitted.total)
    · exact h.total tenantId caseId
  · show (s.calls ++ [new]).Pairwise (Spaced env)
    rw [pairwise_append]
    refine ⟨h.spaced, pairwise_singleton _ _, ?_⟩
    intro x hx y hy htenant hcase hlive _
    rw [mem_singleton.mp hy] at htenant hcase ⊢
    have hxt : x.tenantId = c.tenantId := htenant
    have hxc : x.caseId = c.caseId := hcase
    rcases hpause with hzero | hnone
    · left
      rw [hxt]
      exact hzero
    · right
      obtain ⟨r, hr, hl⟩ := hc.linked x hx
      have hcountsFor := hl.countsForCase hlive
      rw [hxt, hxc] at hcountsFor
      obtain ⟨-, a, ha, t, ht, hle⟩ := (hl.counted hlive).resolve_left (hnone r hr hcountsFor)
      have hmem : t ∈ (s.db.outreach.filter (·.countsForCase c.tenantId c.caseId)).filterMap
          (·.sentAt) := mem_filterMap.mpr ⟨r, mem_filter.mpr ⟨hr, hcountsFor⟩, ht⟩
      have hover : t + ((env.caps c.tenantId).minHoursBetweenOutreach : Int) * 3600000 ≤ s.now :=
        pause_of_counter hmem hadmitted.cooldown
      refine ⟨a, ha, ?_⟩
      rw [hxt]
      exact le_trans (by omega) hover

theorem Capped.holds (h : Capped env s) (hc : Consistent env s) : CapsHold env s := by
  constructor
  · intro tenantId channel destination from_
    refine (countP_mono_left fun c _ hwithin => ?_).trans
      (h.daily tenantId channel destination from_)
    rw [Bool.and_eq_true] at hwithin
    obtain ⟨hto, hwithin⟩ := hwithin
    unfold OutreachCall.acceptedWithin at hwithin
    cases haccepted : c.acceptedAt with
    | none =>
      rw [haccepted] at hwithin
      cases hwithin
    | some a =>
      rw [haccepted] at hwithin
      simp only [OutreachCall.inPlay, haccepted, hto, Bool.true_and]
      exact hwithin
  · intro tenantId caseId
    refine (countP_mono_left fun c _ haccepted => ?_).trans (h.total tenantId caseId)
    simp only [Bool.and_eq_true] at haccepted ⊢
    exact ⟨haccepted.1, by simp [OutreachCall.live, haccepted.2]⟩
  · let R : OutreachCall → OutreachCall → Prop := fun c c' =>
      c.tenantId = c'.tenantId → c.caseId = c'.caseId →
        ∀ a ∈ c.acceptedAt, ∀ a' ∈ c'.acceptedAt,
          ((env.caps c.tenantId).minHoursBetweenOutreach : Int) * 3600000 ≤ |a - a'|
    have hsymm : Std.Symm R := ⟨by
      intro c c' hR htenant hcase a ha a' ha'
      have hle := hR htenant.symm hcase.symm a' ha' a ha
      rw [htenant, abs_sub_comm]
      exact hle⟩
    have hpairs : s.calls.Pairwise R := by
      apply h.spaced.imp_of_mem
      intro c c' _ hmem' hspaced htenant hcase a ha a' ha'
      have hlive : c.live = true := by simp [OutreachCall.live, Option.mem_def.mp ha]
      have hlive' : c'.live = true := by simp [OutreachCall.live, Option.mem_def.mp ha']
      rcases hspaced htenant hcase hlive hlive' with hzero | ⟨a₀, ha₀, hle⟩
      · rw [hzero]
        simp
      · have hsame : a₀ = a := Option.some.inj (ha₀.symm.trans ha)
        have hstart := (hc.accepted c' hmem' a' ha').1
        rw [abs_sub_comm]
        exact le_trans (by omega) (le_abs_self _)
    intro c hmem c' hmem' hne
    exact hpairs.forall hmem hmem' fun heq => hne (congrArg OutreachCall.outreachId heq)

theorem CountingRun.capped (h : CountingRun env s) : Consistent env s ∧ Capped env s := by
  induction h with
  | @start s houtreach hcalls =>
    constructor
    · constructor
      · rw [houtreach]
        exact Numbered.nil
      all_goals simp [hcalls, houtreach]
    · constructor
      all_goals simp [hcalls]
  | @step s h t ht ih =>
    obtain ⟨hc, hcapped⟩ := ih
    rcases hc.traffic_cases t with
      ⟨c, destination, rfl, hpasses, hdest, hqueue⟩ | ⟨g, f, added, hmoves⟩
    · rw [hqueue]
      exact ⟨hc.queue hdest _, hcapped.queue hc hdest hpasses ht _⟩
    · exact ⟨hc.moves hmoves, hcapped.moves hc hmoves⟩

/-- Where no send is let through on a counter that a waiting send will change, the caps hold over
every interleaving. -/
theorem CountingRun.capsHold (h : CountingRun env s) : CapsHold env s :=
  h.capped.2.holds h.capped.1

def defaultEnv : Env where
  crypto := { sha256Hex := id, hmacSha256Hex := fun key text => key ++ text }
  sign := none
  publicBaseUrl := none
  encodeToken := fun _ => ""
  caps := fun _ => DEFAULT_MESSAGING_CAPS

def quietSystem : System where
  db := { outreach := [], suppressions := [] }
  hashKey := none
  now := 0
  calls := []

def textCall : SendCall where
  tenantId := 1
  caseId := 1
  channel := .sms
  purpose := .transactionalServiceUpdate
  contextFound := true
  automated := false
  automatedSequencesEnabled := false
  recoveryMessagingEnabled := true
  template := [.words "Your install is Thursday. Reply STOP to opt out."]
  templateApproved := true
  subjectOk := true
  destination := some "+17045550142"
  messagingApproved := true
  consentPolicyConfigured := true
  identityResolved := true
  doNotKnock := false
  consentStatus := .granted
  consentBasis := some .expressWritten
  senderConfigured := true
  companyMailingAddress := none
  recipientLocalHour := some 12
  quietHours := { startHour := 9, endHour := 20 }

theorem capsHold_oneText : CapsHold defaultEnv
    ((quietSystem.traffic defaultEnv (.send textCall)).traffic defaultEnv (.accept 1)) := by
  have hstart : CountingRun defaultEnv quietSystem := .start rfl rfl
  have hcounts : quietSystem.CountsWaiting defaultEnv textCall := by
    intro _
    constructor
    · intro hash _
      exact Nat.zero_lt_one
    · right
      intro r hr
      cases hr
  exact CountingRun.capsHold (.step (.step hstart (.send textCall) hcounts) (.accept 1) trivial)

/-- Two texts to one customer that wait for the provider at the same time are both taken. -/
theorem not_capsHold_twoTexts : ¬CapsHold defaultEnv
    ([.send textCall, .send textCall, .accept 1, .accept 2].foldl (System.traffic defaultEnv)
      quietSystem) := by
  intro h
  have hdaily := h.daily 1 .sms "+17045550142" 0
  revert hdaily
  decide +kernel

end HomefrontFiber.Outreach
