import HomefrontFiber.OtpDelivery.Store

/-!
# The invariant of the outbox

`Sound` is the invariant of the store and its workers: an email has one unused code, a row counts
its claims, a settled row is empty and no two workers hold one lease token. Each operation keeps
it.
-/

namespace HomefrontFiber.OtpDelivery

open List

/-- No two unused codes share an email, and ids are given once. -/
structure OneLive (next : Nat) (codes : List OtpCode) : Prop where
  one : codes.Pairwise fun a b => a.used = false → b.used = false → a.email ≠ b.email
  ids : (codes.map (·.id)).Nodup
  below : ∀ c ∈ codes, c.id < next

variable {next : Nat} {codes : List OtpCode}

theorem OneLive.map (h : OneLive next codes) {f : OtpCode → OtpCode}
    (hid : ∀ c, (f c).id = c.id) (hemail : ∀ c, (f c).email = c.email)
    (hused : ∀ c, (f c).used = false → c.used = false) : OneLive next (codes.map f) := by
  constructor
  · rw [pairwise_map]
    apply h.one.imp
    intro a b hab ha hb
    rw [hemail, hemail]
    exact hab (hused a ha) (hused b hb)
  · have hids : (codes.map f).map (·.id) = codes.map (·.id) := by
      rw [map_map]
      exact map_congr_left fun c _ => hid c
    rw [hids]
    exact h.ids
  · intro c hc
    obtain ⟨c, hmem, rfl⟩ := mem_map.mp hc
    rw [hid]
    exact h.below c hmem

theorem OneLive.eq_of_email (h : OneLive next codes) {a b : OtpCode} (ha : a ∈ codes)
    (hb : b ∈ codes) (hua : a.used = false) (hub : b.used = false) (he : a.email = b.email) :
    a = b := by
  have hone : codes.Pairwise fun a b =>
      a.used = false → b.used = false → a.email = b.email → a = b := by
    apply h.one.imp
    intro a b hab hua hub he
    exact absurd he (hab hua hub)
  have hflip : codes.Pairwise fun b a =>
      a.used = false → b.used = false → a.email = b.email → a = b := by
    apply hone.imp
    intro a b hab hub hua he
    exact (hab hua hub he.symm).symm
  exact hone.forall_of_forall_of_flip (fun _ _ _ _ _ => rfl) hflip ha hb hua hub he

theorem OneLive.issue (h : OneLive next codes) (email : Text) (code : Nat) (expires : Int) :
    OneLive (next + 1) ((codes.map fun c => if c.email = email && !c.used then burn c else c) ++
      [{ id := next, email, code, expiresAt := expires }]) := by
  have hmap : OneLive next
      (codes.map fun c => if c.email = email && !c.used then burn c else c) := by
    apply h.map
    · intro c
      split <;> rfl
    · intro c
      split <;> rfl
    · intro c hc
      split at hc
      · cases hc
      · exact hc
  constructor
  · rw [pairwise_append]
    refine ⟨hmap.one, pairwise_singleton _ _, ?_⟩
    intro a ha b hb hua _
    obtain ⟨c, -, rfl⟩ := mem_map.mp ha
    rw [mem_singleton.mp hb]
    split at hua
    · cases hua
    · rename_i hc
      rw [if_neg hc]
      intro he
      exact hc (by simpa [hua] using he)
  · rw [map_append, nodup_append]
    refine ⟨hmap.ids, nodup_singleton _, ?_⟩
    intro a ha b hb
    obtain ⟨c, hc, rfl⟩ := mem_map.mp ha
    rw [map_singleton, mem_singleton] at hb
    have hlt := hmap.below c hc
    dsimp only at hb ⊢
    omega
  · intro c hc
    rcases mem_append.mp hc with hc | hc
    · have hlt := hmap.below c hc
      omega
    · rw [mem_singleton.mp hc]
      exact Nat.lt_succ_self next

theorem OneLive.length_le_one (h : OneLive next codes) (email : Text) (now : Int) :
    (codes.filter fun c => c.email = email && !c.used && now < c.expiresAt).length ≤ 1 := by
  have hone := h.one.filter fun c => c.email = email && !c.used && now < c.expiresAt
  have hall : ∀ c ∈ codes.filter fun c => c.email = email && !c.used && now < c.expiresAt,
      c.email = email ∧ c.used = false := by
    intro c hc
    have hkeep := (mem_filter.mp hc).2
    simp only [Bool.and_eq_true, decide_eq_true_eq, Bool.not_eq_true'] at hkeep
    exact hkeep.1
  generalize codes.filter _ = live at hone hall ⊢
  cases hone with
  | nil => exact Nat.zero_le 1
  | @cons a rest hfirst _ =>
    cases rest with
    | nil => exact le_rfl
    | cons b rest =>
      obtain ⟨hea, hua⟩ := hall a mem_cons_self
      obtain ⟨heb, hub⟩ := hall b (by simp)
      exact absurd (hea.trans heb.symm) (hfirst b mem_cons_self hua hub)

/-- A row is in order for the claims made so far and the lease tokens given so far. -/
structure RowOk (claims : List Nat) (tokens : Nat) (r : DeliveryRow) : Prop where
  settled : r.status.unfinished = false →
    r.payload = none ∧ r.leaseToken = none ∧ r.leaseUntil = none
  leased : r.status = .processing → r.leaseToken.isSome ∧ r.leaseUntil.isSome
  token : ∀ k, r.leaseToken = some k → k < tokens
  counted : claims.count r.id = r.attempts
  few : r.attempts ≤ OTP_DELIVERY_ATTEMPTS

variable {claims : List Nat} {tokens : Nat} {r : DeliveryRow}

theorem RowOk.finish (h : RowOk claims tokens r) (status : DeliveryStatus) (now : Int)
    (hs : status.unfinished = false) : RowOk claims tokens (finish status now r) where
  settled _ := ⟨rfl, rfl, rfl⟩
  leased hp := by
    change status = .processing at hp
    rw [hp] at hs
    cases hs
  token k hk := by cases hk
  counted := h.counted
  few := h.few

theorem RowOk.settleRow (h : RowOk claims tokens r) (job : DeliveryRow) {result : DeliveryStatus}
    (now : Int) (hr : result ≠ .processing) :
    RowOk claims tokens (settleRow job result now r) where
  settled hs := by
    have hne : result ≠ .pending := by
      rintro rfl
      cases hs
    exact ⟨if_neg hne, rfl, rfl⟩
  leased hp := absurd hp hr
  token k hk := by cases hk
  counted := h.counted
  few := h.few

theorem RowOk.retireRow (h : RowOk claims tokens r) (now : Int) :
    RowOk claims tokens (retireRow now r) := by
  apply h.finish
  split <;> rfl

theorem RowOk.claimRow (h : RowOk claims tokens r) (now : Int)
    (hlt : r.attempts < OTP_DELIVERY_ATTEMPTS) :
    RowOk (claims ++ [r.id]) (tokens + 1) (claimRow tokens now r) where
  settled hs := by cases hs
  leased _ := ⟨rfl, rfl⟩
  token k hk := by
    have heq : tokens = k := Option.some.inj hk
    omega
  counted := by
    have hc := h.counted
    simp [OtpDelivery.claimRow, hc]
  few := hlt

theorem RowOk.claim_other (h : RowOk claims tokens r) {id : Nat} (hne : r.id ≠ id) :
    RowOk (claims ++ [id]) (tokens + 1) r where
  settled := h.settled
  leased := h.leased
  token k hk := Nat.lt_succ_of_lt (h.token k hk)
  counted := by
    have hc := h.counted
    rw [count_append, hc, count_singleton, if_neg (by simpa using Ne.symm hne)]
    rfl
  few := h.few

/-- The rows are in order, and every claim was of one of them. -/
structure RowsOk (claims : List Nat) (tokens : Nat) (rows : List DeliveryRow) : Prop where
  ids : (rows.map (·.id)).Nodup
  each : ∀ r ∈ rows, RowOk claims tokens r
  claimed : ∀ id ∈ claims, ∃ r ∈ rows, r.id = id

variable {rows : List DeliveryRow}

theorem RowsOk.eq_of_id (h : RowsOk claims tokens rows) {a b : DeliveryRow} (ha : a ∈ rows)
    (hb : b ∈ rows) (hid : a.id = b.id) : a = b := inj_on_of_nodup_map h.ids ha hb hid

variable {f : DeliveryRow → DeliveryRow} {s : World} {worker : Nat} {p : Phase}

theorem RowsOk.map (h : RowsOk claims tokens rows) {claims' : List Nat} {tokens' : Nat}
    (hid : ∀ r, (f r).id = r.id)
    (hf : ∀ r ∈ rows, RowOk claims tokens r → RowOk claims' tokens' (f r))
    (hclaims : ∀ id ∈ claims', ∃ r ∈ rows, r.id = id) : RowsOk claims' tokens' (rows.map f) := by
  constructor
  · have hids : (rows.map f).map (·.id) = rows.map (·.id) := by
      rw [map_map]
      exact map_congr_left fun r _ => hid r
    rw [hids]
    exact h.ids
  · intro r hr
    obtain ⟨r, hmem, rfl⟩ := mem_map.mp hr
    exact hf r hmem (h.each r hmem)
  · intro id hmem
    obtain ⟨r, hr, rfl⟩ := hclaims id hmem
    exact ⟨f r, mem_map_of_mem hr, hid r⟩

theorem RowsOk.map_if (h : RowsOk claims tokens rows) (p : DeliveryRow → Prop) [DecidablePred p]
    (hid : ∀ r, (f r).id = r.id) (hf : ∀ r, RowOk claims tokens r → RowOk claims tokens (f r)) :
    RowsOk claims tokens (rows.map fun r => if p r then f r else r) := by
  apply h.map
  · intro r
    split
    · exact hid r
    · rfl
  · intro r _ hr
    split
    · exact hf r hr
    · exact hr
  · exact h.claimed

theorem RowsOk.finishes (h : RowsOk claims tokens rows) (p : DeliveryRow → Prop)
    [DecidablePred p] {status : DeliveryStatus} (now : Int) (hs : status.unfinished = false) :
    RowsOk claims tokens (rows.map fun r => if p r then finish status now r else r) :=
  h.map_if p (fun _ => rfl) fun _ hr => hr.finish status now hs

theorem RowsOk.snoc (h : RowsOk claims tokens rows) {r : DeliveryRow}
    (hid : ∀ d ∈ rows, d.id ≠ r.id) (hs : r.status = .pending) (ht : r.leaseToken = none)
    (ha : r.attempts = 0) : RowsOk claims tokens (rows ++ [r]) := by
  have hcount : claims.count r.id = 0 := by
    rw [count_eq_zero]
    intro hmem
    obtain ⟨d, hd, heq⟩ := h.claimed r.id hmem
    exact hid d hd heq
  constructor
  · rw [map_append, nodup_append]
    refine ⟨h.ids, nodup_singleton _, ?_⟩
    intro a hmem b hb
    obtain ⟨d, hd, rfl⟩ := mem_map.mp hmem
    rw [map_singleton, mem_singleton] at hb
    rw [hb]
    exact hid d hd
  · intro d hd
    rcases mem_append.mp hd with hd | hd
    · exact h.each d hd
    · rw [mem_singleton.mp hd]
      constructor
      · intro hdone
        rw [hs] at hdone
        cases hdone
      · intro hproc
        rw [hs] at hproc
        cases hproc
      · intro k hk
        rw [ht] at hk
        cases hk
      · rw [hcount, ha]
      · rw [ha]
        exact Nat.zero_le _
  · intro id hmem
    obtain ⟨d, hd, heq⟩ := h.claimed id hmem
    exact ⟨d, mem_append_left _ hd, heq⟩

theorem candidate_spec {db : OtpDb} {now : Int} (h : candidate db now = some r) :
    r ∈ db.rows ∧ r.attempts < OTP_DELIVERY_ATTEMPTS ∧ r.status.unfinished = true := by
  unfold candidate at h
  obtain ⟨⟨due, d⟩, hhead, rfl⟩ := Option.map_eq_some_iff.mp h
  have hmem := mem_of_mem_head? hhead
  rw [mem_insertionSort] at hmem
  obtain ⟨d', hd', hdue⟩ := mem_filterMap.mp hmem
  obtain ⟨due', hclaim, heq⟩ := Option.map_eq_some_iff.mp hdue
  cases heq
  constructor
  · exact hd'
  · unfold claimDue at hclaim
    split at hclaim
    · cases hclaim
    · rename_i hlive
      simp only [Bool.or_eq_true, decide_eq_true_eq, not_or, not_le] at hlive
      refine ⟨hlive.2, ?_⟩
      split at hclaim
      · rename_i hpending
        rw [hpending]
        rfl
      · rename_i hprocessing
        rw [hprocessing]
        rfl
      · cases hclaim

theorem claimOtpDelivery_cases (db : OtpDb) (now : Int) :
    claimOtpDelivery db now = (db, none) ∨ ∃ r ∈ db.rows, r.attempts < OTP_DELIVERY_ATTEMPTS ∧
      r.status.unfinished = true ∧ claimOtpDelivery db now = ({ db with
        rows := db.rows.map fun row => if row.id = r.id then claimRow db.nextToken now row else row
        nextToken := db.nextToken + 1 }, some (claimRow db.nextToken now r)) := by
  unfold claimOtpDelivery
  split
  · exact .inl rfl
  · rename_i r hcandidate
    obtain ⟨hmem, hlt, hopen⟩ := candidate_spec hcandidate
    exact .inr ⟨r, hmem, hlt, hopen, rfl⟩

theorem RowsOk.claim (h : RowsOk claims tokens rows) (hr : r ∈ rows) (now : Int)
    (hlt : r.attempts < OTP_DELIVERY_ATTEMPTS) :
    RowsOk (claims ++ [r.id]) (tokens + 1)
      (rows.map fun row => if row.id = r.id then claimRow tokens now row else row) := by
  apply h.map
  · intro row
    split <;> rfl
  · intro row hrow hok
    split
    · rename_i hid
      have heq := h.eq_of_id hrow hr hid
      rw [heq] at hok ⊢
      exact hok.claimRow now hlt
    · rename_i hid
      exact hok.claim_other hid
  · intro id hmem
    rcases mem_append.mp hmem with hmem | hmem
    · exact h.claimed id hmem
    · exact ⟨r, hr, (mem_singleton.mp hmem).symm⟩

/-- Each job has a lease token that was given out, and no two workers have one token. -/
structure Held (tokens : Nat) (phase : Nat → Phase) : Prop where
  given : ∀ w job, (phase w).job = some job → ∃ k < tokens, job.leaseToken = some k
  apart : ∀ w w' job job', (phase w).job = some job → (phase w').job = some job' →
    job.leaseToken = job'.leaseToken → w = w'

variable {phase phase' : Nat → Phase}

theorem Held.of_job (h : Held tokens phase)
    (hjob : ∀ w job, (phase' w).job = some job → (phase w).job = some job) :
    Held tokens phase' where
  given w job hw := h.given w job (hjob w job hw)
  apart w w' job job' hw hw' := h.apart w w' job job' (hjob w job hw) (hjob w' job' hw')

theorem Held.setPhase (h : Held tokens s.phase) (hp : p.job = none ∨ p.job = (s.phase worker).job) :
    Held tokens (setPhase s worker p).phase := by
  apply h.of_job
  intro w job hw
  change (if w = worker then p else s.phase w).job = some job at hw
  split at hw
  · rename_i heq
    rcases hp with hp | hp
    · rw [hp] at hw
      cases hw
    · rw [heq, ← hp]
      exact hw
  · exact hw

theorem Held.claim (h : Held tokens s.phase) {job : DeliveryRow}
    (hjob : job.leaseToken = some tokens) :
    Held (tokens + 1) (OtpDelivery.setPhase s worker (.claimed job)).phase := by
  have hcases : ∀ w j, ((OtpDelivery.setPhase s worker (.claimed job)).phase w).job = some j →
      w = worker ∧ j = job ∨ w ≠ worker ∧ (s.phase w).job = some j := by
    intro w j hw
    change (if w = worker then Phase.claimed job else s.phase w).job = some j at hw
    split at hw
    · rename_i heq
      exact .inl ⟨heq, (Option.some.inj hw).symm⟩
    · rename_i hne
      exact .inr ⟨hne, hw⟩
  constructor
  · intro w j hw
    rcases hcases w j hw with ⟨-, rfl⟩ | ⟨-, hw⟩
    · exact ⟨tokens, Nat.lt_succ_self tokens, hjob⟩
    · obtain ⟨k, hk, hj⟩ := h.given w j hw
      exact ⟨k, Nat.lt_succ_of_lt hk, hj⟩
  · intro w w' j j' hw hw' heq
    have hfresh : ∀ v i, (s.phase v).job = some i → i.leaseToken ≠ job.leaseToken := by
      intro v i hv htoken
      obtain ⟨k, hk, hi⟩ := h.given v i hv
      rw [hi, hjob] at htoken
      exact absurd (Option.some.inj htoken) hk.ne
    rcases hcases w j hw with ⟨hweq, rfl⟩ | ⟨-, hold⟩
    · rcases hcases w' j' hw' with ⟨hweq', -⟩ | ⟨-, hold'⟩
      · exact hweq.trans hweq'.symm
      · exact absurd heq.symm (hfresh w' j' hold')
    · rcases hcases w' j' hw' with ⟨-, rfl⟩ | ⟨-, hold'⟩
      · exact absurd heq (hfresh w j hold)
      · exact h.apart w w' j j' hold hold' heq

/-- Every result that a worker settles with is one a row may hold. -/
def Phase.Honest : Phase → Prop
  | .settling _ result => result ≠ .processing
  | _ => True

theorem replyResult_ne (job : DeliveryRow) (reply : Reply) (now : Int) :
    replyResult job reply now ≠ .processing := by
  unfold replyResult
  split
  · exact fun h => nomatch h
  · split
    · exact fun h => nomatch h
    · split
      · exact fun h => nomatch h
      · exact fun h => nomatch h

theorem checked_honest (db : OtpDb) (job : DeliveryRow) (now later : Int) :
    (checked db job now later).Honest ∧ (checked db job now later).job = some job := by
  unfold checked
  split
  · exact ⟨trivial, rfl⟩
  · constructor
    · change (if job.expiresAt ≤ later then DeliveryStatus.expired else .superseded) ≠ .processing
      split
      · exact fun h => nomatch h
      · exact fun h => nomatch h
    · rfl
  · exact ⟨replyResult_ne job _ later, rfl⟩

structure Sound (s : World) : Prop where
  codes : OneLive s.db.nextOtpId s.db.codes
  rows : RowsOk s.claims s.db.nextToken s.db.rows
  held : Held s.db.nextToken s.phase
  honest : ∀ w, (s.phase w).Honest

theorem sound_start (users : List User) : Sound { db := { users } } where
  codes := ⟨List.Pairwise.nil, nodup_nil, fun _ h => absurd h not_mem_nil⟩
  rows := ⟨nodup_nil, fun _ h => absurd h not_mem_nil,
    fun _ h => absurd h not_mem_nil⟩
  held := ⟨fun _ _ h => (nomatch h), fun _ _ _ _ h => (nomatch h)⟩
  honest _ := trivial

theorem Sound.issue (h : Sound s) (owner : User) (id code : Nat) (mailTo : Text)
    (now : Int) : Sound { s with db := issueDurableOtp s.db owner id code mailTo now } := by
  unfold issueDurableOtp
  dsimp only
  split
  · exact h
  · rename_i hvalid
    simp only [Bool.or_eq_true, any_eq_true, not_or, not_exists, not_and,
      decide_eq_true_eq] at hvalid
    constructor
    · exact h.codes.issue _ _ _
    · apply (h.rows.finishes _ now rfl).snoc
      · intro d hd
        obtain ⟨d, hmem, rfl⟩ := mem_map.mp hd
        have hne := hvalid.2 d hmem
        split
        · exact hne
        · exact hne
      · rfl
      · rfl
      · rfl
    · exact h.held
    · exact h.honest

theorem OneLive.burnIf (h : OneLive next codes) (p : OtpCode → Prop) [DecidablePred p] :
    OneLive next (codes.map fun c => if p c then burn c else c) := by
  apply h.map
  · intro c
    split <;> rfl
  · intro c
    split <;> rfl
  · intro c hc
    split at hc
    · cases hc
    · exact hc

theorem Sound.verify (h : Sound s) (email : Text) (code : Nat) (now : Int) :
    Sound { s with db := verifyOtp s.db email code now } := by
  unfold verifyOtp
  dsimp only
  split
  · exact ⟨h.codes.burnIf _, h.rows, h.held, h.honest⟩
  · refine ⟨OneLive.burnIf (h.codes.map ?_ ?_ ?_) _, h.rows, h.held, h.honest⟩
    · intro c
      split <;> rfl
    · intro c
      split <;> rfl
    · intro c hc
      split at hc <;> exact hc

theorem Sound.retire (h : Sound s) (now : Int) :
    Sound { s with db := retireExpiredOtpDeliveries s.db now } where
  codes := h.codes
  rows := h.rows.map_if _ (fun _ => rfl) fun _ hr => hr.retireRow now
  held := h.held
  honest := h.honest

theorem Sound.setPhase (h : Sound s)
    (hjob : p.job = none ∨ p.job = (s.phase worker).job) (hp : p.Honest) :
    Sound (setPhase s worker p) where
  codes := h.codes
  rows := h.rows
  held := h.held.setPhase hjob
  honest w := by
    change (if w = worker then p else s.phase w).Honest
    split
    · exact hp
    · exact h.honest w

theorem Sound.settle (h : Sound s) (worker : Nat) (job : DeliveryRow)
    {result : DeliveryStatus} (now : Int) (hr : result ≠ .processing) :
    Sound { OtpDelivery.setPhase s worker .idle with
      db := settleOtpDelivery s.db job result now } := by
  have hidle : Sound (OtpDelivery.setPhase s worker .idle) := h.setPhase (.inl rfl) trivial
  constructor
  · exact hidle.codes
  · exact hidle.rows.map_if _ (fun _ => rfl) fun _ hok => hok.settleRow job now hr
  · exact hidle.held
  · exact hidle.honest

theorem Sound.claim (h : Sound s) (worker : Nat)
    (hr : r ∈ s.db.rows) (now : Int) (hlt : r.attempts < OTP_DELIVERY_ATTEMPTS) :
    Sound { OtpDelivery.setPhase s worker (.claimed (claimRow s.db.nextToken now r)) with
      db := { s.db with
        rows := s.db.rows.map fun row =>
          if row.id = r.id then claimRow s.db.nextToken now row else row
        nextToken := s.db.nextToken + 1 }
      claims := s.claims ++ [r.id] } where
  codes := h.codes
  rows := h.rows.claim hr now hlt
  held := h.held.claim rfl
  honest w := by
    change (if w = worker then Phase.claimed _ else s.phase w).Honest
    split
    · trivial
    · exact h.honest w

theorem sound_step (s : World) (a : Action) (h : Sound s) : Sound (step s a) := by
  cases a with
  | issue owner id code mailTo now => exact h.issue owner id code mailTo now
  | verify email code now => exact h.verify email code now
  | editUser user => exact ⟨h.codes, h.rows, h.held, h.honest⟩
  | revoke userId bound now =>
    exact ⟨h.codes.burnIf _, h.rows.finishes _ now rfl, h.held, h.honest⟩
  | retire now => exact h.retire now
  | claim worker now =>
    rcases claimOtpDelivery_cases s.db now with hnone | ⟨r, hr, hlt, -, hsome⟩
    · simp only [step, hnone]
      split
      · rename_i hpair
        cases hpair
      · exact h
    · simp only [step, hsome]
      split
      · rename_i heq
        cases heq
        exact h.claim worker hr now hlt
      · exact h
  | check worker now later =>
    simp only [step]
    split
    · rename_i job hphase
      obtain ⟨hhonest, hjob⟩ := checked_honest s.db job now later
      apply h.setPhase (.inr _) hhonest
      rw [hjob, hphase]
      rfl
    · exact h
  | reply worker reply now =>
    simp only [step]
    split
    · rename_i job hphase
      have hhonest : (Phase.settling job (replyResult job reply now)).Honest :=
        replyResult_ne job reply now
      apply h.setPhase (.inr _) hhonest
      rw [hphase]
      rfl
    · exact h
  | settle worker now =>
    simp only [step]
    split
    · rename_i job result hphase
      have hresult := h.honest worker
      rw [hphase] at hresult
      exact h.settle worker job now hresult
    · exact h
  | crash worker => exact h.setPhase (.inl rfl) trivial

end HomefrontFiber.OtpDelivery
