import HomefrontFiber.ProviderQueue.Queue

/-!
# Whose cancellation it is

A queued item carries the deadline and the abort predicate of the request that made it. A step that
goes over the queue rejects the item for these alone, and the callers that share it go with it. As
long as no such step finds the first requester gone while a caller that shares its item is still
there, every caller is rejected for a reason of its own or gets what the task gave.
-/

namespace HomefrontFiber.ProviderQueue

open List

variable {V E : Type} (o : QueueOptions V) (s : Surroundings)

/-- Before reading `n`, the caller's own predicate stayed false and its own deadline did not pass. -/
def Caller.Live (c : Caller V E) (n : Nat) : Prop :=
  ∀ m < n, c.since ≤ m →
    c.abort.any (s.aborts m) = false ∧ c.deadlineAt.all (fun d => s.clock m < d) = true

def Pending.fires (item : Pending) (m : Nat) : Bool :=
  item.deadlineAt ≤ s.clock m || item.abort.any (s.aborts m)

variable {o s} {q : Queue V E} {c : Caller V E} {item : Pending}

variable {n n' m reads sequence : Nat} {pending : List Pending} {running : List (Running V E)}
  {k : String} {deadlineAt : Int}

theorem Caller.Live.earlier (h : c.Live s n') (hle : n ≤ n') : c.Live s n :=
  fun m hm => h m (lt_of_lt_of_le hm hle)

theorem Caller.not_live (hm : m < n) (hsince : c.since ≤ m)
    (h : c.abort.any (s.aborts m) = true ∨ c.deadlineAt.any (· ≤ s.clock m) = true) :
    ¬ c.Live s n := by
  intro hlive
  obtain ⟨habort, hdeadline⟩ := hlive m hm hsince
  rcases h with h | h
  · rw [habort] at h
    cases h
  · cases hd : c.deadlineAt with
    | none => rw [hd] at h; cases h
    | some d =>
      rw [hd] at h hdeadline
      exact absurd (of_decide_eq_true h) (not_le.mpr (of_decide_eq_true hdeadline))

variable (o s) in
/-- A caller of an item whose task has given `settled`, at reading `n`. -/
def Caller.Follows (settled : Option (Outcome V E)) (n : Nat) (c : Caller V E) : Prop :=
  c.outcome = settled.map (Outcome.clone o) ∨ c.outcome = some .admission ∧ ¬ c.Live s n

theorem Caller.Follows.later {settled : Option (Outcome V E)}
    (h : c.Follows o s settled n) (hle : n ≤ n') : c.Follows o s settled n' :=
  h.imp id fun h => ⟨h.1, fun hlive => h.2 (hlive.earlier hle)⟩

def Pending.face (item : Pending) : Nat × Int × Option Nat :=
  (item.sequence, item.deadlineAt, item.abort)

variable (o s) in
/-- A rejected caller was turned away or gone by itself, and the callers of a task have its result. -/
structure Fair (q : Queue V E) : Prop where
  own : ∀ c ∈ q.callers, c.outcome = some .admission → c.turnedAway = true ∨ ¬ c.Live s q.reads
  task : ∀ r ∈ q.running, ∀ c ∈ q.callers, c.entry = some r.sequence →
    c.Follows o s r.settled q.reads

variable (o s) in
/-- What the queue says of one caller. -/
structure CallerOk (reads sequence : Nat) (pending : List Pending) (running : List (Running V E))
    (c : Caller V E) : Prop where
  since : c.since ≤ reads
  own : c.outcome = some .admission → c.turnedAway = true ∨ ¬ c.Live s reads
  entry : ∀ n, c.entry = some n → n < sequence
  queued : ∀ item ∈ pending, c.entry = some item.sequence → c.Follows o s none reads ∧
    (c.shares = false → c.deadlineAt = some item.deadlineAt ∧ c.abort = item.abort)
  task : ∀ r ∈ running, c.entry = some r.sequence → c.Follows o s r.settled reads

def Queue.numbers (q : Queue V E) : List Nat :=
  q.pending.map Pending.sequence ++ q.running.map Running.sequence

variable (o s) in
/-- One item for each number, and every caller of an item unsettled unless it has gone by itself. -/
structure Sound (q : Queue V E) : Prop where
  numbers : q.numbers.Nodup
  below : ∀ n ∈ q.numbers, n < q.sequence
  given : ∀ r ∈ q.running, r.settled ≠ some .admission
  tracked : ∀ k e, q.inFlight.get? k = some e → e.sequence < q.sequence
  callers : ∀ c ∈ q.callers, CallerOk o s q.reads q.sequence q.pending q.running c

theorem sound_empty : Sound o s ({} : Queue V E) where
  numbers := nodup_nil
  below _ hn := absurd hn not_mem_nil
  given _ hr := absurd hr not_mem_nil
  tracked _ _ he := nomatch he
  callers _ hc := absurd hc not_mem_nil

theorem Sound.fair (h : Sound o s q) : Fair o s q where
  own c hc := (h.callers c hc).own
  task r hr c hc := (h.callers c hc).task r hr

theorem CallerOk.keep {reads' sequence' : Nat} {pending' : List Pending}
    {running' : List (Running V E)} (h : CallerOk o s reads sequence pending running c)
    (hreads : reads ≤ reads') (hsequence : sequence ≤ sequence')
    (hpending : ∀ item ∈ pending', ∃ item' ∈ pending, item'.face = item.face)
    (hrunning : ∀ r ∈ running', r ∈ running) :
    CallerOk o s reads' sequence' pending' running' c where
  since := le_trans h.since hreads
  own hout := (h.own hout).imp id fun hdead hlive => hdead (hlive.earlier hreads)
  entry n hn := lt_of_lt_of_le (h.entry n hn) hsequence
  queued item hmem hentry := by
    obtain ⟨item', hmem', hface⟩ := hpending item hmem
    obtain ⟨hsame, hdeadline, habort⟩ : item'.sequence = item.sequence ∧
        item'.deadlineAt = item.deadlineAt ∧ item'.abort = item.abort := by
      simpa [Pending.face] using hface
    obtain ⟨hfollows, hfirst⟩ := h.queued item' hmem' (hsame ▸ hentry)
    rw [← hdeadline, ← habort]
    exact ⟨hfollows.later hreads, hfirst⟩
  task r hr hentry := (h.task r (hrunning r hr) hentry).later hreads

/-- A caller that has gone by itself is rejected. -/
theorem CallerOk.settle (h : CallerOk o s reads sequence pending running c)
    {outcome : Option (Outcome V E)} {timer : Bool} (hout : outcome = c.outcome ∨
      c.outcome = none ∧ outcome = some .admission ∧ ¬ c.Live s reads) :
    CallerOk o s reads sequence pending running { c with outcome := outcome, timer := timer } := by
  obtain rfl | ⟨-, rfl, hdead⟩ := hout
  · exact ⟨h.since, h.own, h.entry, h.queued, h.task⟩
  · exact ⟨h.since, fun _ => .inr hdead, h.entry,
      fun item hitem hn => ⟨.inr ⟨rfl, hdead⟩, (h.queued item hitem hn).2⟩,
      fun _ _ _ => .inr ⟨rfl, hdead⟩⟩

namespace Sound

/-- Nothing but the readings, the order and the priorities of the queue changes, and items leave. -/
theorem keep (h : Sound o s q) (q' : Queue V E) (hreads : q.reads ≤ q'.reads)
    (hcallers : q'.callers = q.callers) (hrunning : q'.running.Sublist q.running)
    (hsequence : q'.sequence = q.sequence)
    (hpending : (q'.pending.map Pending.face).Subperm (q.pending.map Pending.face))
    (htracked : ∀ k e, q'.inFlight.get? k = some e →
      ∃ k' e', q.inFlight.get? k' = some e' ∧ e'.sequence = e.sequence) : Sound o s q' := by
  have hitem : ∀ item ∈ q'.pending, ∃ item' ∈ q.pending, item'.face = item.face :=
    fun item hitem => mem_map.mp (hpending.subset (mem_map_of_mem hitem))
  obtain ⟨l, hperm, hsub⟩ := hpending
  have hnumbers : (l.map Prod.fst ++ q'.running.map Running.sequence).Perm q'.numbers := by
    have hmap := hperm.map Prod.fst
    rw [map_map] at hmap
    exact hmap.append_right _
  have hkept : (l.map Prod.fst ++ q'.running.map Running.sequence).Sublist q.numbers := by
    have hmap := hsub.map Prod.fst
    rw [map_map] at hmap
    exact hmap.append (hrunning.map _)
  constructor
  · exact hnumbers.nodup_iff.mp (h.numbers.sublist hkept)
  · rw [hsequence]
    exact fun n hn => h.below n (hkept.subset (hnumbers.mem_iff.mpr hn))
  · exact fun r hr => h.given r (hrunning.subset hr)
  · intro k e he
    obtain ⟨k', e', he', hsame⟩ := htracked k e he
    rw [hsequence, ← hsame]
    exact h.tracked k' e' he'
  · intro c hc
    rw [hcallers] at hc
    exact (h.callers c hc).keep hreads hsequence.ge hitem fun r hr => hrunning.subset hr

/-- Nothing changes but the readings and the bookkeeping of the timers. -/
theorem idle (h : Sound o s q) (q' : Queue V E) (hreads : q.reads ≤ q'.reads)
    (hcallers : q'.callers = q.callers) (hrunning : q'.running = q.running)
    (hsequence : q'.sequence = q.sequence) (hpending : q'.pending = q.pending)
    (hinFlight : q'.inFlight = q.inFlight) : Sound o s q' :=
  h.keep q' hreads hcallers (hrunning ▸ List.Sublist.refl _) hsequence
    (hpending ▸ List.Subperm.refl _) fun k e he => ⟨k, e, hinFlight ▸ he, rfl⟩

theorem read (h : Sound o s q) : Sound o s q.read := h.idle _ (Nat.le_succ _) rfl rfl rfl rfl rfl

/-- Some callers are rejected that have gone by themselves, and timers stop. -/
theorem reject (h : Sound o s q) {callers : List (Caller V E)}
    (hcallers : ∀ c' ∈ callers, ∃ c ∈ q.callers, ∃ outcome timer,
      c' = { c with outcome := outcome, timer := timer } ∧ (outcome = c.outcome ∨
        c.outcome = none ∧ outcome = some .admission ∧ ¬ c.Live s q.reads)) :
    Sound o s { q with callers := callers } where
  numbers := h.numbers
  below := h.below
  given := h.given
  tracked := h.tracked
  callers c' hc' := by
    obtain ⟨c, hc, outcome, timer, rfl, hout⟩ := hcallers c' hc'
    exact (h.callers c hc).settle hout

theorem tracked_delete {m : InsertionMap String InFlight} {key : String} {e : InFlight}
    (he : (m.delete key).get? k = some e) :
    ∃ k' e', m.get? k' = some e' ∧ e'.sequence = e.sequence := by
  rw [InsertionMap.get?_delete] at he
  split at he
  · cases he
  · exact ⟨k, e, he, rfl⟩

theorem rejectItem (h : Sound o s q)
    (hgone : ∀ c ∈ q.callers, c.entry = some item.sequence → c.outcome = none →
      ¬ c.Live s q.reads) : Sound o s (q.rejectItem o item) := by
  have hreject : Sound o s (q.settleEntry o item.sequence .admission) := by
    apply h.reject
    intro c' hc'
    obtain ⟨c, hc, rfl⟩ := mem_map.mp hc'
    by_cases hentry : c.entry = some item.sequence
    · rw [if_pos hentry]
      unfold Caller.settle
      cases hout : c.outcome with
      | none => exact ⟨c, hc, _, _, rfl, .inr ⟨hout, rfl, hgone c hc hentry hout⟩⟩
      | some _ => exact ⟨c, hc, c.outcome, c.timer, by simp, .inl rfl⟩
    · rw [if_neg hentry]
      exact ⟨c, hc, c.outcome, c.timer, rfl, .inl rfl⟩
  exact hreject.keep (q.rejectItem o item) le_rfl rfl (List.Sublist.refl _) rfl
    (List.Subperm.refl _) fun _ _ he => tracked_delete he

theorem ne_of_pending (h : Sound o s q) (hitem : item ∈ q.pending)
    {r : Running V E} (hr : r ∈ q.running) : item.sequence ≠ r.sequence :=
  (nodup_append.mp h.numbers).2.2 _ (mem_map_of_mem hitem) _ (mem_map_of_mem hr)

/-- A new promise, which follows nothing or an item of the queue. -/
theorem join (h : Sound o s q) (c : Caller V E) (hsince : c.since ≤ q.reads)
    (hown : c.outcome = some .admission → c.turnedAway = true ∨ ¬ c.Live s q.reads)
    (hentry : ∀ n, c.entry = some n → n < q.sequence ∧ c.shares = true ∧
      c.outcome = ((q.running.find? (·.sequence = n)).bind Running.settled).map (Outcome.clone o)) :
    Sound o s { q with callers := q.callers ++ [c] } where
  numbers := h.numbers
  below := h.below
  given := h.given
  tracked := h.tracked
  callers c' hc' := by
    rcases mem_append.mp hc' with hc' | hc'
    · exact h.callers c' hc'
    · rw [mem_singleton.mp hc']
      refine ⟨hsince, hown, fun n hn => (hentry n hn).1, fun item hitem hn => ⟨.inl ?_, ?_⟩,
        fun r hr hn => .inl ?_⟩
      · have hfind : q.running.find? (·.sequence = item.sequence) = none := by
          rw [find?_eq_none]
          exact fun r hr hsame => h.ne_of_pending hitem hr (of_decide_eq_true hsame).symm
        rw [(hentry _ hn).2.2, hfind]
        rfl
      · rw [(hentry _ hn).2.1]
        exact fun h => nomatch h
      · have hfind : q.running.find? (·.sequence = r.sequence) = some r :=
          find?_key (nodup_append.mp h.numbers).2.1 hr
        rw [(hentry _ hn).2.2, hfind]
        rfl

/-- The task of an item gives a result of its own. -/
theorem result (h : Sound o s q) {r : Running V E} (hr : r ∈ q.running) (hopen : r.settled = none)
    {outcome : Outcome V E} (hout : outcome ≠ .admission) :
    Sound o s ({ q with running := q.running.map fun r' : Running V E =>
      if r'.sequence = r.sequence then { r' with settled := some outcome } else r' }.settleEntry o
        r.sequence outcome) := by
  have hclone : some (outcome.clone o) ≠ some .admission := by
    cases outcome with
    | admission => exact absurd rfl hout
    | value | failed => exact fun h => nomatch h
  have hsequences : (q.running.map fun r' : Running V E =>
      if r'.sequence = r.sequence then { r' with settled := some outcome } else r').map
        Running.sequence = q.running.map Running.sequence := by
    rw [map_map]
    apply map_congr_left
    intro r' _
    dsimp only [Function.comp_apply]
    split <;> rfl
  have hnumbers := h.numbers
  have hbelow := h.below
  unfold Queue.numbers at hnumbers hbelow
  rw [← hsequences] at hnumbers hbelow
  refine ⟨hnumbers, hbelow, ?_, h.tracked, ?_⟩
  · intro r' hr'
    obtain ⟨r₀, hr₀, rfl⟩ := mem_map.mp hr'
    split
    · exact fun hsettled => hout (Option.some.inj hsettled)
    · exact h.given r₀ hr₀
  · intro c' hc'
    obtain ⟨c, hc, rfl⟩ := mem_map.mp hc'
    obtain ⟨hsince, hown, hentry, hqueued, htask⟩ := h.callers c hc
    by_cases hc : c.entry = some r.sequence
    · rw [if_pos hc]
      -- the promise follows the task: it settles now, or it has gone by itself
      have hdone : (c.settle o outcome).since = c.since ∧ (c.settle o outcome).entry = c.entry ∧
          ((c.settle o outcome).outcome = some .admission → c.outcome = some .admission ∧
            c.settle o outcome = c) ∧
          (c.settle o outcome).Follows o s (some outcome) q.reads := by
        unfold Caller.settle
        rcases htask r hr hc with hnone | hgone
        · rw [hopen] at hnone
          rw [if_pos (by simp [show c.outcome = none from hnone])]
          exact ⟨rfl, rfl, fun h => absurd h hclone, .inl rfl⟩
        · rw [if_neg (by simp [hgone.1])]
          exact ⟨rfl, rfl, fun h => ⟨h, rfl⟩, .inr hgone⟩
      obtain ⟨hsince', hentry', hadmission, hfollows⟩ := hdone
      refine ⟨hsince' ▸ hsince, fun hout' => ?_, fun n hn => hentry n (hentry' ▸ hn),
        fun item hitem hn => ?_, fun r' hr' hn => ?_⟩
      · rw [(hadmission hout').2]
        exact hown (hadmission hout').1
      · exact absurd (Option.some.inj ((hentry' ▸ hn).symm.trans hc)) (h.ne_of_pending hitem hr)
      · obtain ⟨r₀, hr₀, rfl⟩ := mem_map.mp hr'
        by_cases hsame : r₀.sequence = r.sequence
        · rw [if_pos hsame]
          exact hfollows
        · rw [if_neg hsame, hentry', hc] at hn
          exact absurd (Option.some.inj hn).symm hsame
    · rw [if_neg hc]
      refine ⟨hsince, hown, hentry, hqueued, fun r' hr' hn => ?_⟩
      obtain ⟨r₀, hr₀, rfl⟩ := mem_map.mp hr'
      by_cases hsame : r₀.sequence = r.sequence
      · rw [if_pos hsame] at hn
        exact absurd (hsame ▸ hn) hc
      · rw [if_neg hsame] at hn ⊢
        exact htask r₀ hr₀ hn

/-- The first item of the queue becomes a task. -/
theorem start (h : Sound o s q) {rest : List Pending} (hpending : q.pending = item :: rest) :
    Sound o s (Queue.start s { q with pending := rest } item) := by
  have hrest : ∀ x ∈ rest, x ∈ q.pending := by
    rw [hpending]
    exact fun x hx => mem_cons_of_mem _ hx
  have hnumbers : (Queue.start s { q with pending := rest } item).numbers.Perm q.numbers := by
    unfold Queue.numbers Queue.start Queue.read
    rw [hpending, map_append, map_singleton, ← append_assoc]
    exact perm_append_singleton _ _
  refine ⟨hnumbers.nodup_iff.mpr h.numbers, fun n hn => h.below n (hnumbers.mem_iff.mp hn), ?_, ?_,
    ?_⟩
  · intro r hr
    rcases mem_append.mp hr with hr | hr
    · exact h.given r hr
    · rw [mem_singleton.mp hr]
      exact fun hsettled => by cases hsettled
  · intro k e he
    unfold Queue.start at he
    cases htracked : q.inFlight.get? item.key with
    | none =>
      rw [htracked] at he
      exact h.tracked k e he
    | some tracked =>
      rw [htracked] at he
      dsimp only at he
      rw [InsertionMap.get?_set] at he
      split at he
      · rw [← Option.some.inj he]
        exact h.tracked item.key tracked htracked
      · exact h.tracked k e he
  · intro c hc
    have hlater := (h.callers c hc).keep (Nat.le_succ _) le_rfl
      (fun x hx => ⟨x, hrest x hx, rfl⟩) fun r hr => hr
    refine { hlater with task := fun r hr hn => ?_ }
    rcases mem_append.mp hr with hr | hr
    · exact hlater.task r hr hn
    · rw [mem_singleton.mp hr] at hn ⊢
      exact ((h.callers c hc).queued item (hpending ▸ mem_cons_self) hn).1.later
        (Nat.le_succ _)

end Sound

variable (s) in
/-- At no reading from `lo` on and before `hi` has the first requester of an item gone while a caller
that shares it, and has no answer, is there. -/
def SparedIn (items : List Pending) (callers : List (Caller V E)) (lo hi : Nat) : Prop :=
  ∀ item ∈ items, ∀ m < hi, lo ≤ m → item.fires s m = true → ∀ c ∈ callers, c.shares = true →
    c.entry = some item.sequence → c.outcome = none → ¬ c.Live s (m + 1)

theorem Sound.gone (h : Sound o s q) {hi : Nat} (hitem : item ∈ q.pending)
    (hspared : SparedIn s q.pending q.callers q.reads hi) (hlo : q.reads ≤ m) (hhi : m < hi)
    (hfires : item.fires s m = true) : ∀ c ∈ q.callers, c.entry = some item.sequence →
      c.outcome = none → ¬ c.Live s (m + 1) := by
  intro c hc hentry hout
  cases hshares : c.shares with
  | true => exact hspared item hitem m hhi hlo hfires c hc hshares hentry hout
  | false =>
    obtain ⟨hdeadline, habort⟩ := ((h.callers c hc).queued item hitem hentry).2 hshares
    apply Caller.not_live (Nat.lt_succ_self m) (le_trans (h.callers c hc).since hlo)
    rw [habort, hdeadline]
    exact (Bool.or_eq_true _ _ |>.mp hfires).symm

theorem Queue.mem_of_settleEntry {outcome : Outcome V E}
    (hc : c ∈ (q.settleEntry o n outcome).callers) (hout : c.outcome = none) : c ∈ q.callers := by
  obtain ⟨c', hc', rfl⟩ := mem_map.mp hc
  by_cases hentry : c'.entry = some n
  · rw [if_pos hentry] at hout ⊢
    unfold Caller.settle at hout ⊢
    split at hout
    · cases hout
    · rename_i hsettled
      rw [if_neg hsettled]
      exact hc'
  · rw [if_neg hentry]
    exact hc'

theorem Queue.reads_le_dispatch (l : List Pending) (q : Queue V E) :
    q.reads ≤ (q.dispatch o s l).reads := by
  induction l generalizing q with
  | nil => exact le_rfl
  | cons item rest ih =>
    rw [Queue.dispatch]
    split
    · exact le_rfl
    · split
      · exact Nat.le_succ _
      · dsimp only
        split
        · have hrest := ih (Queue.rejectItem o (Queue.read (Queue.read { q with pending := rest })) item)
          exact Nat.le_trans (Nat.le_add_right q.reads 2) hrest
        · have hrest := ih (Queue.start s (Queue.read (Queue.read { q with pending := rest })) item)
          exact Nat.le_trans (Nat.le_add_right q.reads 3) hrest

theorem Queue.reads_le_pump (q : Queue V E) : q.reads ≤ (q.pump o s).reads := by
  have hsort : q.sortPending.reads = q.reads := by
    unfold Queue.sortPending
    split <;> rfl
  unfold Queue.pump
  split
  · exact le_rfl
  · dsimp only
    split
    · exact le_trans (le_of_eq hsort.symm) (Nat.le_succ _)
    · refine le_trans (le_of_eq hsort.symm) (le_trans (Nat.le_succ _) ?_)
      exact Queue.reads_le_dispatch _ (q.sortPending.read.pruneStarts (q.sortPending.now s))

theorem Sound.dispatch (l : List Pending) (h : Sound o s q) (hpending : q.pending = l)
    (hspared : SparedIn s q.pending q.callers q.reads (q.dispatch o s l).reads) :
    Sound o s (q.dispatch o s l) := by
  induction l generalizing q with
  | nil => exact h
  | cons item rest ih =>
    have hitem : item ∈ q.pending := by
      rw [hpending]
      exact mem_cons_self
    have hleft : Sound o s (Queue.read (Queue.read { q with pending := rest })) := by
      refine h.keep (Queue.read (Queue.read { q with pending := rest }))
        (Nat.le_add_right q.reads 2) rfl (List.Sublist.refl _) rfl ?_ fun k e he => ⟨k, e, he, rfl⟩
      change (rest.map Pending.face).Subperm (q.pending.map Pending.face)
      rw [hpending]
      exact (sublist_cons_self _ _).subperm
    rw [Queue.dispatch] at hspared ⊢
    split at hspared
    · rename_i hfull
      rw [if_pos hfull]
      exact h
    · rename_i hfull
      rw [if_neg hfull]
      split at hspared
      · rename_i hbudget
        rw [if_pos hbudget]
        exact h.read.idle _ le_rfl rfl rfl rfl rfl rfl
      · rename_i hbudget
        rw [if_neg hbudget]
        dsimp only at hspared ⊢
        split at hspared
        · rename_i hexpired
          rw [if_pos hexpired]
          have hmono : q.reads + 2 ≤ _ := Queue.reads_le_dispatch (o := o) (s := s) rest
            (Queue.rejectItem o (Queue.read (Queue.read { q with pending := rest })) item)
          have hgone : ∀ c ∈ q.callers, c.entry = some item.sequence → c.outcome = none →
              ¬ c.Live s (q.reads + 2) := by
            intro c hc hentry hout hlive
            rcases (Bool.or_eq_true _ _).mp hexpired with hlate | haborted
            · exact h.gone hitem hspared le_rfl (by omega)
                ((Bool.or_eq_true _ _).mpr (.inl hlate)) c hc hentry hout
                (hlive.earlier (Nat.le_succ _))
            · exact h.gone hitem hspared (Nat.le_succ _) (by omega)
                ((Bool.or_eq_true _ _).mpr (.inr haborted)) c hc hentry hout hlive
          apply ih (hleft.rejectItem hgone) rfl
          intro x hx m hm hlo hfires c hc hshares hentry hout
          refine hspared x ?_ m hm (le_trans (Nat.le_add_right _ 2) hlo) hfires c ?_ hshares hentry
            hout
          · rw [hpending]
            exact mem_cons_of_mem _ hx
          · exact Queue.mem_of_settleEntry hc hout
        · rename_i hexpired
          rw [if_neg hexpired]
          apply ih (h.read.read.start hpending) rfl
          intro x hx m hm hlo hfires
          refine hspared x ?_ m hm (le_trans (Nat.le_add_right _ 3) hlo) hfires
          rw [hpending]
          exact mem_cons_of_mem _ hx

theorem Sound.sortPending (h : Sound o s q) :
    Sound o s q.sortPending ∧ q.sortPending.pending.Perm q.pending ∧
      q.sortPending.callers = q.callers ∧ q.sortPending.reads = q.reads := by
  unfold Queue.sortPending
  split
  · have hsorted := perm_insertionSort (fun a b : Pending => a.before b = true) q.pending
    exact ⟨h.keep _ le_rfl rfl (List.Sublist.refl _) rfl (hsorted.map _).subperm fun k e he => ⟨k, e, he, rfl⟩,
      hsorted, rfl, rfl⟩
  · exact ⟨h, List.Perm.refl _, rfl, rfl⟩

theorem Sound.pump (h : Sound o s q)
    (hspared : SparedIn s q.pending q.callers q.reads (q.pump o s).reads) :
    Sound o s (q.pump o s) := by
  obtain ⟨hsound, hsorted, hcallers, hreads⟩ := h.sortPending
  unfold Queue.pump at hspared ⊢
  split at hspared
  · rename_i hidle
    rw [if_pos hidle]
    exact h
  · rename_i hidle
    rw [if_neg hidle]
    dsimp only at hspared ⊢
    split at hspared
    · rename_i hpaused
      rw [if_pos hpaused]
      exact hsound.idle _ (Nat.le_succ _) rfl rfl rfl rfl rfl
    · rename_i hpaused
      rw [if_neg hpaused]
      have hpruned : Sound o s (q.sortPending.read.pruneStarts (q.sortPending.now s)) :=
        hsound.idle _ (Nat.le_succ _) rfl rfl rfl rfl rfl
      apply hpruned.dispatch _ rfl
      intro item hitem m hm hlo hfires c hc
      have hlo' : q.sortPending.reads + 1 ≤ m := hlo
      change c ∈ q.sortPending.callers at hc
      rw [hcallers] at hc
      exact hspared item (hsorted.mem_iff.mp hitem) m hm (by omega) hfires c hc

section

variable (h : Sound o s q)
include h

theorem Sound.upgrade (existing : InFlight) (priority : ℚ) :
    Sound o s (q.upgrade existing priority) ∧ (q.upgrade existing priority).inFlight = q.inFlight := by
  unfold Queue.upgrade
  dsimp only
  split
  · refine ⟨h.keep _ le_rfl rfl (List.Sublist.refl _) rfl ?_ fun k e he => ⟨k, e, he, rfl⟩, rfl⟩
    have hfaces : (q.pending.map fun item : Pending =>
        if (item.sequence = existing.sequence && item.priority < priority) = true then
          { item with priority := priority } else item).map Pending.face =
          q.pending.map Pending.face := by
      rw [map_map]
      apply map_congr_left
      intro item _
      dsimp only [Function.comp_apply]
      split <;> rfl
    rw [hfaces]
  · exact ⟨h, rfl⟩

theorem Sound.waitForShared {existing : InFlight}
    (hexisting : q.inFlight.get? k = some existing) (hsince : c.since ≤ q.reads)
    (hopen : c.outcome = none) : Sound o s (q.waitForShared o existing c) := by
  have hcaller : ∀ settled : Option (Outcome V E), ∃ timer,
      settled.elim
          { c with entry := some existing.sequence, shares := true, timer := true }
          (fun outcome => Caller.settle o outcome
            { c with entry := some existing.sequence, shares := true, timer := true }) =
        { c with
          entry := some existing.sequence
          shares := true
          timer
          outcome := settled.map (Outcome.clone o) } := by
    intro settled
    cases settled with
    | none => exact ⟨true, by simp [hopen]⟩
    | some outcome => exact ⟨false, by simp [Caller.settle, hopen]⟩
  obtain ⟨timer, hcaller⟩ := hcaller
    ((q.running.find? (·.sequence = existing.sequence)).bind Running.settled)
  unfold Queue.waitForShared
  dsimp only
  rw [hcaller]
  refine h.join _ hsince ?_ ?_
  · intro hout
    obtain ⟨outcome, hsettled, hclone⟩ := Option.map_eq_some_iff.mp hout
    obtain ⟨r, hr, hgiven⟩ := Option.bind_eq_some_iff.mp hsettled
    have hadmission : outcome = .admission := by
      cases outcome with
      | admission => rfl
      | value | failed => cases hclone
    exact absurd (hadmission ▸ hgiven) (h.given r (mem_of_find?_eq_some hr))
  · intro n hn
    rw [← Option.some.inj hn]
    exact ⟨h.tracked k existing hexisting, rfl, rfl⟩

theorem Sound.enqueue (key : String) (priority : ℚ)
    (hsince : c.since ≤ q.reads) (hopen : c.outcome = none)
    (hdeadline : c.deadlineAt = some deadlineAt) :
    Sound o s (q.enqueue key priority deadlineAt c) := by
  have hnew : ∀ n ∈ q.numbers, n ≠ q.sequence := fun n hn => ne_of_lt (h.below n hn)
  have hnumbers : (q.enqueue key priority deadlineAt c).numbers.Perm (q.sequence :: q.numbers) := by
    unfold Queue.numbers Queue.enqueue
    rw [map_append, map_singleton, append_assoc]
    exact perm_middle
  refine ⟨?_, ?_, h.given, ?_, ?_⟩
  · exact hnumbers.nodup_iff.mpr (nodup_cons.mpr ⟨fun hn => hnew _ hn rfl, h.numbers⟩)
  · intro n hn
    rcases mem_cons.mp (hnumbers.mem_iff.mp hn) with rfl | hn
    · exact Nat.lt_succ_self _
    · exact Nat.lt_succ_of_lt (h.below n hn)
  · intro k e he
    change (q.inFlight.set key { sequence := q.sequence, pending := true }).get? k = some e at he
    rw [InsertionMap.get?_set] at he
    split at he
    · rw [← Option.some.inj he]
      exact Nat.lt_succ_self _
    · exact Nat.lt_succ_of_lt (h.tracked k e he)
  · intro c' hc'
    rcases mem_append.mp hc' with hc' | hc'
    · have hkept := (h.callers c' hc').keep le_rfl (Nat.le_succ _)
        (fun x hx => ⟨x, hx, rfl⟩) fun r hr => hr
      refine { hkept with queued := fun item hitem hn => ?_ }
      rcases mem_append.mp hitem with hitem | hitem
      · exact hkept.queued item hitem hn
      · rw [mem_singleton.mp hitem] at hn
        exact absurd ((h.callers c' hc').entry _ hn) (lt_irrefl _)
    · rw [mem_singleton.mp hc']
      refine ⟨hsince, fun hout => ?_, fun n hn => ?_, fun item hitem hn => ⟨.inl hopen, ?_⟩,
        fun r hr hn => ?_⟩
      · rw [show c.outcome = some .admission from hout] at hopen
        cases hopen
      · rw [← Option.some.inj hn]
        exact Nat.lt_succ_self _
      · rcases mem_append.mp hitem with hitem | hitem
        · exact absurd (Option.some.inj hn).symm
            (hnew _ (mem_append_left _ (mem_map_of_mem hitem)))
        · rw [mem_singleton.mp hitem]
          exact fun _ => ⟨hdeadline, rfl⟩
      · exact absurd (Option.some.inj hn).symm
          (hnew _ (mem_append_right _ (mem_map_of_mem hr)))

theorem Sound.answer (outcome : Outcome V E) (hsince : c.since ≤ q.reads) (hentry : c.entry = none)
    (hown : outcome = .admission → c.turnedAway = true ∨ ¬ c.Live s q.reads) :
    Sound o s (q.answer c outcome) := by
  refine h.join _ hsince (fun hout => hown (Option.some.inj hout)) fun n hn => ?_
  rw [show c.entry = some n from hn] at hentry
  cases hentry

theorem Sound.readCache (key : String) :
    Sound o s (q.readCache s key).2 ∧ (q.readCache s key).2.pending = q.pending ∧
      (q.readCache s key).2.callers = q.callers ∧ q.reads ≤ (q.readCache s key).2.reads := by
  unfold Queue.readCache
  split
  · exact ⟨h, rfl, rfl, le_rfl⟩
  · split <;> exact ⟨h.idle _ (Nat.le_succ _) rfl rfl rfl rfl rfl, rfl, rfl, Nat.le_succ _⟩

theorem Sound.requestAdmitted (key : String) (r : RequestOptions)
    {lo : Nat} (hlo : lo ≤ q.reads) (hsince : c.since ≤ q.reads)
    (hopen : c.outcome = none) (hentry : c.entry = none) (hfirst : c.shares = false)
    (hdeadline : c.deadlineAt = some deadlineAt)
    (hspared : SparedIn s q.pending q.callers lo (q.requestAdmitted o s key r deadlineAt c).reads) :
    Sound o s (q.requestAdmitted o s key r deadlineAt c) := by
  obtain ⟨hread, hpending, hcallers, hreads⟩ := h.readCache (o.normalized key)
  unfold Queue.requestAdmitted at hspared ⊢
  dsimp only at hspared ⊢
  generalize hcache : q.readCache s (o.normalized key) = cached at hspared hread hpending hcallers hreads ⊢
  obtain ⟨cached, q'⟩ := cached
  have hsince' : c.since ≤ q'.reads := le_trans hsince hreads
  cases cached with
  | some cached => exact hread.answer _ hsince' hentry fun hout => nomatch hout
  | none =>
    dsimp only at hspared hread hpending hcallers ⊢
    cases hexisting : q'.inFlight.get? (o.normalized key) with
    | some existing =>
      obtain ⟨hupgrade, hinFlight⟩ :=
        hread.upgrade existing (r.priority.getD (providerPriority r.source))
      rw [← hinFlight] at hexisting
      have hsame : (q'.upgrade existing (r.priority.getD (providerPriority r.source))).reads =
          q'.reads := by
        unfold Queue.upgrade
        dsimp only
        split <;> rfl
      exact hupgrade.waitForShared hexisting (hsame ▸ hsince') hopen
    | none =>
      rw [hexisting] at hspared
      dsimp only at hspared ⊢
      split at hspared
      · rename_i hfull
        rw [if_pos hfull]
        exact hread.answer _ hsince' hentry fun _ => .inl rfl
      · rename_i hfull
        rw [if_neg hfull]
        have hqueued := hread.enqueue (o.normalized key)
          (r.priority.getD (providerPriority r.source)) hsince' hopen hdeadline
        have hwatch : ∀ p : Queue V E, Sound o s p → Sound o s p.watchPending := by
          intro p hp
          unfold Queue.watchPending
          split
          · exact hp
          · exact hp.idle _ le_rfl rfl rfl rfl rfl rfl
        have hwatchReads : ∀ p : Queue V E, p.watchPending.reads = p.reads := by
          intro p
          unfold Queue.watchPending
          split <;> rfl
        rw [hwatchReads] at hspared
        apply hwatch _ (hqueued.pump _)
        intro item hitem m hm hlo' hfires c' hc' hshares hn hout
        -- the new item has no caller yet that shares it, and its own shares no other
        rcases mem_append.mp hc' with hc' | hc'
        · rcases mem_append.mp hitem with hitem | hitem
          · exact hspared item (hpending ▸ hitem) m hm (le_trans (le_trans hlo hreads) hlo') hfires
              c' (hcallers ▸ hc') hshares hn hout
          · rw [mem_singleton.mp hitem] at hn
            exact absurd ((hread.callers c' hc').entry _ hn) (lt_irrefl _)
        · rw [mem_singleton.mp hc'] at hshares
          rw [show c.shares = true from hshares] at hfirst
          cases hfirst

theorem Sound.request (key : String) (r : RequestOptions)
    (hspared : SparedIn s q.pending q.callers q.reads (q.request o s key r).reads) :
    Sound o s (q.request o s key r) := by
  unfold Queue.request at hspared ⊢
  dsimp only at hspared ⊢
  split at hspared
  · rename_i haborted
    rw [if_pos haborted]
    refine h.read.answer _ (Nat.le_succ _) rfl fun _ => .inr ?_
    exact Caller.not_live (Nat.lt_succ_self _) le_rfl (.inl haborted)
  · rename_i haborted
    rw [if_neg haborted]
    split at hspared
    · rename_i hlate
      rw [if_pos hlate]
      refine h.read.read.read.answer _ (Nat.le_add_right _ 3) rfl fun _ => .inr ?_
      exact Caller.not_live (Nat.lt_succ_self _) (Nat.le_add_right _ 2)
        (.inr (decide_eq_true hlate))
    · rename_i hlate
      rw [if_neg hlate]
      exact h.read.read.read.requestAdmitted key r (Nat.le_add_right _ 3) (Nat.le_add_right _ 3)
        rfl rfl rfl rfl hspared

end

theorem Sound.taskSettled (h : Sound o s q) (sequence : Nat) (result : Except E V) :
    Sound o s (q.taskSettled o s sequence result) := by
  unfold Queue.taskSettled
  cases hfind : q.running.find? (·.sequence = sequence) with
  | none => exact h
  | some r =>
    obtain ⟨hr, rfl⟩ := mem_of_find?_key hfind
    dsimp only
    split
    · exact h
    · rename_i hopen
      have hopen : r.settled = none := by simpa using hopen
      cases result with
      | error error => exact h.result hr hopen fun h => nomatch h
      | ok value =>
        dsimp only
        split
        · have hcached : Sound o s (q.writeCache o s r.key value) :=
            h.idle _ (Nat.le_succ _) rfl rfl rfl rfl rfl
          exact hcached.result hr hopen fun h => nomatch h
        · exact h.result hr hopen fun h => nomatch h

theorem Sound.finalize (h : Sound o s q) (sequence : Nat)
    (hspared : SparedIn s q.pending q.callers q.reads (q.finalize o s sequence).reads) :
    Sound o s (q.finalize o s sequence) := by
  unfold Queue.finalize at hspared ⊢
  cases hfind : q.running.find? (·.sequence = sequence) with
  | none => exact h
  | some r =>
    rw [hfind] at hspared
    dsimp only at hspared ⊢
    split at hspared
    · rename_i hopen
      rw [if_pos hopen]
      exact h
    · rename_i hopen
      rw [if_neg hopen]
      refine Sound.pump (h.keep _ le_rfl rfl filter_sublist rfl (List.Subperm.refl _) ?_)
        hspared
      exact fun _ _ he => Sound.tracked_delete he

theorem Queue.rejectAll_reads (l : List Pending) (q : Queue V E) :
    (l.foldl (Queue.rejectItem o) q).reads = q.reads := by
  induction l generalizing q with
  | nil => rfl
  | cons item l ih => exact ih (q.rejectItem o item)

theorem Sound.rejectAll (h : Sound o s q) (l : List Pending)
    (hgone : ∀ item ∈ l, ∀ c ∈ q.callers, c.entry = some item.sequence → c.outcome = none →
      ¬ c.Live s q.reads) :
    Sound o s (l.foldl (Queue.rejectItem o) q) ∧
      (l.foldl (Queue.rejectItem o) q).pending = q.pending ∧
      ∀ c ∈ (l.foldl (Queue.rejectItem o) q).callers, c.outcome = none → c ∈ q.callers := by
  induction l generalizing q with
  | nil => exact ⟨h, rfl, fun c hc _ => hc⟩
  | cons item l ih =>
    have hfirst := h.rejectItem (hgone item mem_cons_self)
    obtain ⟨hsound, hpending, hcallers⟩ := ih hfirst fun x hx c hc hentry hout =>
      hgone x (mem_cons_of_mem _ hx) c (Queue.mem_of_settleEntry hc hout) hentry hout
    exact ⟨hsound, hpending,
      fun c hc hout => Queue.mem_of_settleEntry (hcallers c hc hout) hout⟩

theorem Sound.sweep (h : Sound o s q)
    (hspared : SparedIn s q.pending q.callers q.reads (q.sweep o s).reads) :
    Sound o s (q.sweep o s) := by
  unfold Queue.sweep at hspared ⊢
  split at hspared
  · rename_i htimer
    rw [if_pos htimer]
    dsimp only at hspared ⊢
    generalize hkept : q.pending.filter (fun item : Pending =>
      !(item.deadlineAt ≤ q.now s || q.read.aborted s item.abort)) = kept at hspared ⊢
    generalize hl : q.pending.filter (fun item : Pending =>
      item.deadlineAt ≤ q.now s || q.read.aborted s item.abort) = l at hspared ⊢
    have hsublist : kept.Sublist q.pending := by
      rw [← hkept]
      exact filter_sublist
    have hreads : (l.foldl (Queue.rejectItem o) q.read.read).reads = q.reads + 2 :=
      Queue.rejectAll_reads l q.read.read
    have hmono : (l.foldl (Queue.rejectItem o) q.read.read).reads ≤ _ := Queue.reads_le_pump
      (o := o) (s := s) { l.foldl (Queue.rejectItem o) q.read.read with
        pending := kept, expiryTimer := !kept.isEmpty }
    dsimp only at hmono
    obtain ⟨hsound, hpending, hcallers⟩ := h.read.read.rejectAll l (by
      intro item hitem c hc hentry hout hlive
      rw [← hl, mem_filter, Bool.or_eq_true] at hitem
      obtain ⟨hitem, hlate | haborted⟩ := hitem
      · exact h.gone hitem hspared le_rfl (by omega) ((Bool.or_eq_true _ _).mpr (.inl hlate))
          c hc hentry hout (hlive.earlier (Nat.le_succ _))
      · exact h.gone hitem hspared (Nat.le_succ _) (by omega)
          ((Bool.or_eq_true _ _).mpr (.inr haborted)) c hc hentry hout hlive)
    have hpending : (l.foldl (Queue.rejectItem o) q.read.read).pending = q.pending := hpending
    refine Sound.pump (hsound.keep _ le_rfl rfl (List.Sublist.refl _) rfl ?_
      fun k e he => ⟨k, e, he, rfl⟩) ?_
    · rw [hpending]
      exact (hsublist.map _).subperm
    · intro item hitem m hm hlo hfires c hc hshares hentry hout
      have hlo' : q.reads + 2 ≤ m := hreads ▸ hlo
      exact hspared item (hsublist.subset hitem) m hm (by omega) hfires c (hcallers c hc hout)
        hshares hentry hout
  · rename_i htimer
    rw [if_neg htimer]
    exact h

theorem Sound.tick (h : Sound o s q) (i : Nat) : Sound o s (q.tick o s i) := by
  unfold Queue.tick
  cases hget : q.callers[i]? with
  | none => exact h
  | some c =>
    have hc : c ∈ q.callers := mem_of_getElem? hget
    -- one promise of the list changes
    have hset : ∀ c' outcome timer, c' = { c with outcome := outcome, timer := timer } →
        (outcome = c.outcome ∨ c.outcome = none ∧ outcome = some .admission ∧
          ¬ c.Live s q.read.read.reads) →
        Sound o s { q.read.read with callers := q.callers.set i c' } := by
      intro c' outcome timer hc' hout
      apply h.read.read.reject
      intro x hx
      rcases mem_or_eq_of_mem_set hx with hx | rfl
      · exact ⟨x, hx, x.outcome, x.timer, rfl, .inl rfl⟩
      · exact ⟨c, hc, outcome, timer, hc', hout⟩
    dsimp only
    split
    · split
      · rename_i hgone
        have hdead : ¬ c.Live s q.read.read.reads := by
          rcases (Bool.or_eq_true _ _).mp hgone with haborted | hlate
          · have hnow : q.reads < q.reads + 2 := by omega
            exact Caller.not_live hnow (h.callers c hc).since (.inl haborted)
          · have hnow : q.reads + 1 < q.reads + 2 := by omega
            exact Caller.not_live hnow (le_trans (h.callers c hc).since (Nat.le_succ _))
              (.inr ((Bool.and_eq_true _ _).mp hlate).2)
        cases hout : c.outcome with
        | none =>
          exact hset _ (some .admission) false (by simp [Caller.settle, hout, Outcome.clone])
            (.inr ⟨hout, rfl, hdead⟩)
        | some outcome =>
          have hsame : c.settle o .admission = c := by simp [Caller.settle, hout]
          exact hset _ c.outcome c.timer hsame (.inl rfl)
      · split
        · exact hset _ c.outcome false rfl (.inl rfl)
        · exact h.read.read
    · exact h

variable (o s) in
/-- A step that goes over the queue spares the callers that are still there. -/
def Spared (q : Queue V E) : Action V E → Prop
  | a@(.request ..) | a@(.finalize _) | a@.resume | a@.sweep | a@.wake =>
    SparedIn s q.pending q.callers q.reads (step o s q a).reads
  | _ => True

theorem sound_step (q : Queue V E) (a : Action V E) (h : Sound o s q) (hspared : Spared o s q a) :
    Sound o s (step o s q a) := by
  cases a with
  | request key r => exact h.request key r hspared
  | taskSettled sequence result => exact h.taskSettled sequence result
  | finalize sequence => exact h.finalize sequence hspared
  | pauseFor ms => exact h.idle _ (Nat.le_succ _) rfl rfl rfl rfl rfl
  | resume => exact Sound.pump (h.idle _ le_rfl rfl rfl rfl rfl rfl) hspared
  | sweep => exact h.sweep hspared
  | wake =>
    unfold Spared step Queue.wake at hspared
    unfold step Queue.wake
    dsimp only at hspared ⊢
    split at hspared
    · rename_i htimer
      rw [if_pos htimer]
      exact Sound.pump (h.idle _ le_rfl rfl rfl rfl rfl rfl) hspared
    · rename_i htimer
      rw [if_neg htimer]
      exact h
  | tick i => exact h.tick i
  | snapshot => exact h.idle _ (Nat.le_succ _) rfl rfl rfl rfl rfl
  | clearCache => exact h.idle _ le_rfl rfl rfl rfl rfl rfl

/-- In a run whose steps spare the callers that are there, every state is fair. -/
theorem fair_run (o : QueueOptions V) (s : Surroundings) (as : List (Action V E))
    (h : Along (step o s) (Spared o s) {} as) :
    ∀ q ∈ trace (step o s) {} as, Fair o s q :=
  fun q hq => (trace_along sound_step sound_empty h q hq).fair

instance (c : Caller V E) (n : Nat) : Decidable (c.Live s n) := by
  unfold Caller.Live
  infer_instance

set_option synthInstance.maxSize 400 in
instance (items : List Pending) (callers : List (Caller Nat Nat)) (lo hi : Nat) :
    Decidable (SparedIn s items callers lo hi) := by
  unfold SparedIn
  infer_instance

instance (o : QueueOptions Nat) (q : Queue Nat Nat) (a : Action Nat Nat) :
    Decidable (Spared o s q a) := by
  unfold Spared
  cases a <;> infer_instance

def oneAtATime : QueueOptions Nat where
  maxConcurrency := some 1
  cacheTtlMs := none
  normalized := id

/-- Nobody cancels, and from reading 13 on it is ten. -/
def lateMorning : Surroundings where
  clock n := if n < 13 then 0 else 10
  aborts _ _ := false

/-- Another address is being checked. Two callers ask for the same one, the first with a deadline at
five, the second with its own, and the sweep comes. -/
def twoCallers (deadlineAt : Int) : List (Action Nat Nat) :=
  [.request "12 elm" {}, .request "7 oak" { deadlineAt := some 5 },
    .request "7 oak" { deadlineAt := some deadlineAt }, .sweep]

theorem fair_run_bothLate :
    Fair oneAtATime lateMorning (run (step oneAtATime lateMorning) {} (twoCallers 8)) :=
  fair_run oneAtATime lateMorning (twoCallers 8) (by decide +kernel) _ (by simp [twoCallers, trace, run])

theorem not_fair_secondCaller :
    ¬ Fair oneAtATime lateMorning (run (step oneAtATime lateMorning) {} (twoCallers 1000)) := by
  intro h
  have hown : ∀ c ∈ (run (step oneAtATime lateMorning) {} (twoCallers 1000)).callers,
      c.outcome ≠ some .admission ∨ c.turnedAway = true ∨ ¬ c.Live lateMorning 15 := fun c hc =>
    (em (c.outcome = some .admission)).symm.imp id fun hout => h.own c hc hout
  revert hown
  decide +kernel

end HomefrontFiber.ProviderQueue
