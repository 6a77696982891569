import HomefrontFiber.OtpDelivery.Invariant

/-!
# Codes are delivered while they live

What a single step hands over, settles and leaves alone is read off the invariant. Once the
deadlines and the leases are over, retirement alone empties the outbox, 500 rows at a time.
-/

namespace HomefrontFiber.OtpDelivery

open List

open ComingLedger (trim)

def Alone (s : World) (worker : Nat) (job : DeliveryRow) : Prop :=
  ∀ w job', (s.phase w).job = some job' → job'.leaseToken = job.leaseToken → w = worker

/-- The mail of a job may go out at `now`: the row is processing under the worker's lease, its
code is the one unused and unexpired code of the email, and the owner still has that email and
tenant. -/
def Rightful (s : World) (worker : Nat) (job : DeliveryRow) (now : Int) : Prop :=
  Alone s worker job ∧ ∃ mail, job.payload = some mail ∧
    ∃ d ∈ s.db.rows, d.id = job.id ∧ d.status = .processing ∧ d.leaseToken = job.leaseToken ∧
      liveLease d now = true ∧
    ∃ o ∈ s.db.codes, o.id = d.otpId ∧ o.used = false ∧ now < o.expiresAt ∧
      o.email = lower (trim mail.mailTo) ∧
      (∀ c ∈ s.db.codes, c.used = false → c.email = o.email → c = o) ∧
    ∃ u ∈ s.db.users, u.id = d.userId ∧ lower u.email = o.email ∧ u.active = true ∧
      u.tenantId = d.tenantId

def SettledBy (s : World) (worker : Nat) (now : Int) (d : DeliveryRow) : Prop :=
  ∃ job result, s.phase worker = .settling job result ∧ job.id = d.id ∧ d.status = .processing ∧
    d.leaseToken.isSome ∧ d.leaseToken = job.leaseToken ∧ liveLease d now = true ∧
    Alone s worker job

structure StepRight (s : World) (a : Action) : Prop where
  /-- A worker comes to the provider call by an eligibility check only. -/
  handed : ∀ w job, (step s a).phase w = .sending job → s.phase w = .sending job ∨
    ∃ now later, a = .check w now later ∧ s.phase w = .claimed job ∧ Rightful s w job now
  /-- A settlement changes the row of the worker's live lease only. -/
  settled : ∀ w now, a = .settle w now → ∀ d ∈ s.db.rows, d ∉ (step s a).db.rows →
    SettledBy s w now d
  /-- A row that is over stays as it is. -/
  final : ∀ d ∈ s.db.rows, d.status.unfinished = false → d ∈ (step s a).db.rows

variable {s : World} {w : Nat} {job d r : DeliveryRow} {db : OtpDb} {mail : FrozenDelivery}

theorem Sound.alone (h : Sound s) (hw : (s.phase w).job = some job) : Alone s w job := by
  intro w' job' hw' heq
  exact h.held.apart w' w job' job hw' hw heq

theorem eligibleOtpMail_spec {now : Int} (h : eligibleOtpMail db job now = .mail mail) :
    job.payload = some mail ∧ joins db job mail now = true := by
  unfold eligibleOtpMail at h
  split at h
  · cases h
  · rename_i envelope hpayload
    split at h
    · cases h
    · split at h
      · cases h
      · split at h
        · rename_i hjoins
          cases h
          exact ⟨hpayload, hjoins⟩
        · cases h

theorem Sound.rightful (h : Sound s) {now : Int} (hw : s.phase w = .claimed job)
    (hmail : eligibleOtpMail s.db job now = .mail mail) : Rightful s w job now := by
  obtain ⟨hpayload, hjoins⟩ := eligibleOtpMail_spec hmail
  have halone : Alone s w job := by
    apply h.alone
    rw [hw]
    rfl
  simp only [joins, any_eq_true, Bool.and_eq_true, decide_eq_true_eq,
    Bool.not_eq_true'] at hjoins
  obtain ⟨d, hd, ⟨⟨⟨hid, hstatus⟩, htoken⟩, hlive⟩, o, ho, ⟨⟨⟨hotp, hused⟩, hexp⟩, hemail⟩,
    u, hu, ⟨⟨huid, hmatch⟩, hactive⟩, htenant⟩ := hjoins
  refine ⟨halone, mail, hpayload, d, hd, hid, hstatus, htoken, hlive, o, ho, hotp, hused, hexp,
    hemail, ?_, u, hu, huid, hmatch, hactive, htenant⟩
  intro c hc hcu hce
  exact h.codes.eq_of_email hc ho hcu hused hce

@[simp] theorem setPhase_phase (s : World) (worker w : Nat) (p : Phase) :
    (setPhase s worker p).phase w = if w = worker then p else s.phase w := rfl

theorem checked_sending {job' : DeliveryRow} {now later : Int}
    (h : checked db job now later = .sending job') :
    job' = job ∧ ∃ mail, eligibleOtpMail db job now = .mail mail := by
  unfold checked at h
  split at h
  · rename_i mail hmail
    cases h
    exact ⟨rfl, mail, hmail⟩
  · cases h
  · cases h

theorem Sound.handed (h : Sound s) (a : Action) (w : Nat) (job : DeliveryRow)
    (hw : (step s a).phase w = .sending job) : s.phase w = .sending job ∨
      ∃ now later, a = .check w now later ∧ s.phase w = .claimed job ∧ Rightful s w job now := by
  have hset : ∀ {worker : Nat} {p : Phase},
      (OtpDelivery.setPhase s worker p).phase w = .sending job → (∀ j, p ≠ .sending j) →
        s.phase w = .sending job := by
    intro worker p hphase hp
    rw [setPhase_phase] at hphase
    split at hphase
    · exact absurd hphase (hp job)
    · exact hphase
  cases a with
  | issue owner id code mailTo now => exact .inl hw
  | verify email code now => exact .inl hw
  | editUser user => exact .inl hw
  | revoke userId bound now => exact .inl hw
  | retire now => exact .inl hw
  | claim worker now =>
    simp only [step] at hw
    split at hw
    · exact .inl (hset hw fun _ hj => by cases hj)
    · exact .inl hw
  | check worker now later =>
    simp only [step] at hw
    split at hw
    · rename_i job₀ hclaimed
      rw [setPhase_phase] at hw
      split at hw
      · rename_i heq
        obtain ⟨rfl, mail, hmail⟩ := checked_sending hw
        rw [heq]
        exact .inr ⟨now, later, rfl, hclaimed, h.rightful hclaimed hmail⟩
      · exact .inl hw
    · exact .inl hw
  | reply worker reply now =>
    simp only [step] at hw
    split at hw
    · exact .inl (hset hw fun _ hj => by cases hj)
    · exact .inl hw
  | settle worker now =>
    simp only [step] at hw
    split at hw
    · exact .inl (hset hw fun _ hj => by cases hj)
    · exact .inl hw
  | crash worker => exact .inl (hset hw fun _ hj => by cases hj)

theorem mem_map_of_not {rows : List DeliveryRow} (hd : d ∈ rows)
    (p : DeliveryRow → Prop) [DecidablePred p] (f : DeliveryRow → DeliveryRow) (hp : ¬ p d) :
    d ∈ rows.map fun r => if p r then f r else r :=
  mem_map.mpr ⟨d, hd, if_neg hp⟩

theorem Sound.settled (h : Sound s) (w : Nat) (now : Int)
    (hd : d ∈ s.db.rows) (hgone : d ∉ (step s (.settle w now)).db.rows) :
    SettledBy s w now d := by
  simp only [step] at hgone
  split at hgone
  · rename_i job result hphase
    have hsettles : settles job now d = true := by
      by_contra hno
      exact hgone (mem_map_of_not hd _ _ hno)
    simp only [settles, Bool.and_eq_true, decide_eq_true_eq] at hsettles
    obtain ⟨⟨⟨⟨hid, hstatus⟩, hsome⟩, htoken⟩, hlive⟩ := hsettles
    have halone : Alone s w job := by
      apply h.alone
      rw [hphase]
      rfl
    exact ⟨job, result, hphase, hid.symm, hstatus, hsome, htoken, hlive, halone⟩
  · exact absurd hd hgone

theorem retirable_unfinished {now : Int} (h : retirable now r = true) :
    r.status.unfinished = true := by
  simp only [retirable, Bool.and_eq_true, Bool.or_eq_true, decide_eq_true_eq] at h
  rcases h.1 with hs | ⟨hs, -⟩
  · rw [hs]
    rfl
  · rw [hs]
    rfl

theorem Sound.final (h : Sound s) (a : Action) (hd : d ∈ s.db.rows)
    (hover : d.status.unfinished = false) : d ∈ (step s a).db.rows := by
  have hmine : ∀ userId : Int, ¬ (d.userId = userId && d.status.unfinished) = true := by
    intro userId hmine
    rw [hover, Bool.and_false] at hmine
    cases hmine
  cases a with
  | issue owner id code mailTo now =>
    change d ∈ (issueDurableOtp s.db owner id code mailTo now).rows
    unfold issueDurableOtp
    dsimp only
    split
    · exact hd
    · exact mem_append_left _ (mem_map_of_not hd _ _ (hmine owner.id))
  | verify email code now =>
    change d ∈ (verifyOtp s.db email code now).rows
    unfold verifyOtp
    dsimp only
    split <;> exact hd
  | editUser user => exact hd
  | revoke userId bound now => exact mem_map_of_not hd _ _ (hmine userId)
  | retire now =>
    apply mem_map_of_not hd
    intro hmem
    obtain ⟨r, hr, hid⟩ := mem_map.mp hmem
    obtain ⟨hrow, hret⟩ := mem_filter.mp (mem_of_mem_take hr)
    have heq := h.rows.eq_of_id hrow hd hid
    have hopen := retirable_unfinished hret
    rw [heq, hover] at hopen
    cases hopen
  | claim worker now =>
    rcases claimOtpDelivery_cases s.db now with hnone | ⟨r, hr, -, hopen, hsome⟩
    · simp only [step, hnone]
      split
      · rename_i hpair
        cases hpair
      · exact hd
    · simp only [step, hsome]
      split
      · rename_i heq
        cases heq
        apply mem_map_of_not hd
        intro hid
        rw [← h.rows.eq_of_id hd hr hid, hover] at hopen
        cases hopen
      · exact hd
  | check worker now later =>
    simp only [step]
    split <;> exact hd
  | reply worker reply now =>
    simp only [step]
    split <;> exact hd
  | settle worker now =>
    by_contra hgone
    obtain ⟨job, result, -, -, hstatus, -⟩ := h.settled worker now hd hgone
    rw [hstatus] at hover
    cases hover
  | crash worker => exact hd

theorem Sound.stepRight (h : Sound s) (a : Action) : StepRight s a where
  handed := h.handed a
  settled := by
    rintro w now rfl d hd hgone
    exact h.settled w now hd hgone
  final _ hd hover := h.final a hd hover

/-- An edit that creates no element with a property and takes it from one lowers the count. -/
theorem countP_map_lt {α : Type} {l : List α} {f : α → α} {p : α → Bool}
    (hf : ∀ a ∈ l, p (f a) = true → p a = true) {a : α} (ha : a ∈ l) (hp : p a = true)
    (hfa : p (f a) = false) : (l.map f).countP p < l.countP p := by
  obtain ⟨front, back, rfl⟩ := append_of_mem ha
  have hle : ∀ part : List α, (∀ b ∈ part, p (f b) = true → p b = true) →
      (part.map f).countP p ≤ part.countP p := by
    intro part hpart
    rw [countP_map]
    exact countP_mono_left hpart
  have hfront := hle front fun b hb => hf b (by simp [hb])
  have hback := hle back fun b hb => hf b (by simp [hb])
  rw [map_append, map_cons, countP_append, countP_append,
    countP_cons_of_pos hp, countP_cons_of_neg (by rw [hfa]; exact Bool.false_ne_true)]
  omega

def Ripe (now : Int) (r : DeliveryRow) : Prop :=
  r.expiresAt ≤ now ∧ ∀ ends, r.leaseUntil = some ends → ends ≤ now

theorem RowOk.retirable {claims : List Nat} {tokens : Nat}
    (h : RowOk claims tokens r) {now : Int} (hripe : Ripe now r)
    (hopen : r.status.unfinished = true) : retirable now r = true := by
  obtain ⟨hexp, hlease⟩ := hripe
  simp only [DeliveryStatus.unfinished, Bool.or_eq_true, decide_eq_true_eq] at hopen
  rcases hopen with hs | hs
  · simp [OtpDelivery.retirable, hs, hexp]
  · obtain ⟨ends, hends⟩ := Option.isSome_iff_exists.mp (h.leased hs).2
    have hle := hlease ends hends
    simp [OtpDelivery.retirable, leaseOver, hs, hends, hexp, hle]

theorem retireRow_unfinished (now : Int) (r : DeliveryRow) :
    (retireRow now r).status.unfinished = false := by
  change (if r.expiresAt ≤ now then DeliveryStatus.expired else .failed).unfinished = false
  split <;> rfl

theorem not_retirable_retireRow (now : Int) (r : DeliveryRow) :
    retirable now (retireRow now r) = false := by
  by_contra hne
  have hopen := retirable_unfinished (Bool.eq_true_of_not_eq_false hne)
  rw [retireRow_unfinished] at hopen
  cases hopen

/-- One pass of retirement settles a ripe row or lowers the number of rows that wait for one. -/
theorem Sound.retire_progress (h : Sound s) {now : Int}
    (hr : r ∈ s.db.rows) (hripe : Ripe now r) (hopen : r.status.unfinished = true) :
    (∃ r' ∈ (step s (.retire now)).db.rows, r'.id = r.id ∧ r'.status.unfinished = false) ∨
      r ∈ (step s (.retire now)).db.rows ∧
      (step s (.retire now)).db.rows.countP (retirable now) <
        s.db.rows.countP (retirable now) := by
  have hret := (h.rows.each r hr).retirable hripe hopen
  change (∃ r' ∈ (retireExpiredOtpDeliveries s.db now).rows, _) ∨
    r ∈ (retireExpiredOtpDeliveries s.db now).rows ∧
      (retireExpiredOtpDeliveries s.db now).rows.countP (retirable now) < _
  unfold retireExpiredOtpDeliveries
  generalize hids : ((s.db.rows.filter (retirable now)).take 500).map (·.id) = ids
  by_cases hmem : r.id ∈ ids
  · left
    refine ⟨retireRow now r, mem_map.mpr ⟨r, hr, if_pos hmem⟩, rfl, ?_⟩
    exact retireRow_unfinished now r
  · right
    refine ⟨mem_map_of_not hr _ _ hmem, ?_⟩
    -- the first row of the batch is retired
    have hbatch : (s.db.rows.filter (retirable now)).take 500 ≠ [] := by
      have hin : r ∈ s.db.rows.filter (retirable now) := mem_filter.mpr ⟨hr, hret⟩
      intro hnil
      rcases take_eq_nil_iff.mp hnil with hzero | hempty
      · cases hzero
      · rw [hempty] at hin
        cases hin
    obtain ⟨first, hfirst⟩ := exists_mem_of_ne_nil _ hbatch
    obtain ⟨hrow, hfret⟩ := mem_filter.mp (mem_of_mem_take hfirst)
    have hfid : first.id ∈ ids := by
      rw [← hids]
      exact mem_map_of_mem hfirst
    apply countP_map_lt _ hrow hfret
    · rw [if_pos hfid]
      exact not_retirable_retireRow now first
    · intro d _ hd
      split at hd
      · rw [not_retirable_retireRow] at hd
        cases hd
      · exact hd

theorem Sound.retire_run (h : Sound s) {now : Int} (hr : r ∈ s.db.rows) (hripe : Ripe now r) :
    ∃ n, ∃ r' ∈ (run step s (List.replicate n (.retire now))).db.rows,
      r'.id = r.id ∧ r'.status.unfinished = false := by
  generalize hwait : s.db.rows.countP (retirable now) = wait
  induction wait using Nat.strong_induction_on generalizing s with
  | _ wait ih =>
    cases hopen : r.status.unfinished with
    | false => exact ⟨0, r, hr, rfl, hopen⟩
    | true =>
      rcases h.retire_progress hr hripe hopen with hdone | ⟨hstays, hlt⟩
      · exact ⟨1, hdone⟩
      · rw [hwait] at hlt
        obtain ⟨n, hn⟩ := ih _ hlt (sound_step s (.retire now) h) hstays rfl
        exact ⟨n + 1, hn⟩

/-- In every run of issues, verifications, account edits, retirements and workers that may stop at
any step, an email has one live code, a mail goes out only for a live delivery, a row is claimed
at most five times and settled by the holder of its lease, a row that is over stays empty and as
it is, and retirement settles every other row once its deadline has passed. -/
theorem delivered_while_live (users : List User) (actions : List Action) :
    let s := run step { db := { users } } actions
    (∀ email now,
      (s.db.codes.filter fun c => c.email = email && !c.used && now < c.expiresAt).length ≤ 1) ∧
    (∀ a, StepRight s a) ∧
    (∀ id, s.claims.count id ≤ OTP_DELIVERY_ATTEMPTS) ∧
    (∀ r ∈ s.db.rows, r.status.unfinished = false → r.payload = none) ∧
    (∀ r ∈ s.db.rows, ∀ now, r.expiresAt ≤ now → ∃ later, now ≤ later ∧ ∃ n,
      ∃ r' ∈ (run step s (List.replicate n (.retire later))).db.rows,
        r'.id = r.id ∧ r'.status.unfinished = false) := by
  intro s
  have h : Sound s := run_invariant_all sound_step actions (sound_start users)
  refine ⟨h.codes.length_le_one, h.stepRight, ?_, ?_, ?_⟩
  · intro id
    by_cases hmem : id ∈ s.claims
    · obtain ⟨r, hr, rfl⟩ := h.rows.claimed id hmem
      rw [(h.rows.each r hr).counted]
      exact (h.rows.each r hr).few
    · rw [count_eq_zero_of_not_mem hmem]
      exact Nat.zero_le _
  · intro r hr hover
    exact ((h.rows.each r hr).settled hover).1
  · intro r hr now hexp
    refine ⟨max now (r.leaseUntil.getD now), le_max_left _ _, h.retire_run hr ⟨?_, ?_⟩⟩
    · exact hexp.trans (le_max_left _ _)
    · intro ends hends
      rw [hends]
      exact le_max_right _ _

end HomefrontFiber.OtpDelivery
