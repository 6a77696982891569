import HomefrontFiber.Foundation.Runs
import HomefrontFiber.Identity.Admission

/-!
# Authority over a run

Whatever is done to accounts, factors and logins and in whatever order, a session and a pending
login go by the account as it is, and a login becomes one session at most.
-/

namespace HomefrontFiber.Identity

open List

/-- Which codes a factor accepts is left open, and so is who may change the factors. -/
inductive Action where
  | tick (now : Int)
  | edit (userId : Nat) (e : AccountEdit)
  | directory (tenantId userId generation : Nat) (active deleted : Bool)
  | review (sessionId tenantId userId generation : Nat) (approve : Bool)
  | policy (row : PolicyRow)
  | tenant (tenantId : Nat) (closed : Bool)
  | login (input : VerifiedIdentity)
  | prove (token browser : Nat) (method : HomefrontFactor)
  | changeFactor (token browser : Nat) (method : HomefrontFactor)
  | admission (token browser : Nat)

/-- A conflict rolls its transaction back. -/
def committed (w : World) (r : Except IdentityConflict World) : World := r.toOption.getD w

def step (w : World) : Action → World
  | .tick now => { w with now }
  | .edit userId e => committed w (editAccount w userId e)
  | .directory t u g active deleted =>
    committed w (transitionDirectoryAccount w t u g active deleted)
  | .review s t u g approve => committed w (reviewManagedAccount w s t u g approve)
  | .policy row => committed w (setPolicy w row)
  | .tenant t closed => setTenantClosed w t closed
  | .login input => (continueVerifiedIdentity w input).1
  | .prove t b method => proveFactor w t b method
  | .changeFactor t b method =>
    match readCurrentContinuation w t b with
    | none => w
    | some (proof, _) => advanceMfaAuthority w proof method
  | .admission t b => (admitIdentityContinuation w t b).1

/-- What a session or a login stands on. -/
structure Rights where
  tenantId : Option Nat
  active : Bool
  authEpoch : Nat
  managed : Option Managed
  mfaEnabled : Bool
  factorRevision : Nat

def User.rights (u : User) : Rights :=
  ⟨u.tenantId, u.active, u.authEpoch, u.managed, u.mfaEnabled, u.factorRevision⟩

def rightsOf (w : World) (userId : Nat) : Option Rights := (findUser w userId).map User.rights

/-- The account is active, and if a directory has it, another user approved it as it now is. -/
def Rights.Standing (r : Rights) (userId : Nat) : Prop :=
  r.active = true ∧ ∀ m, r.managed = some m →
    m.directoryActive = true ∧ m.directoryDeleted = false ∧
      m.approvedGeneration = some m.generation ∧ ∃ a, m.approvedBy = some a ∧ a ≠ userId

structure Rights.Admits (r : Rights) (s : Session) (x : SessionAssurance) : Prop where
  standing : r.Standing s.userId
  owner : x.userId = s.userId
  tenantId : x.tenantId = r.tenantId
  authEpoch : x.authEpoch = r.authEpoch
  proved : r.mfaEnabled = true →
    x.mfaMethod.any provedBy = true ∧ x.factorRevision = some r.factorRevision

structure Key where
  token : Nat
  browser : Nat
  userId : Nat
  tenantId : Option Nat
  authEpoch : Nat

def Continuation.key (c : Continuation) : Key :=
  ⟨c.token, c.browser, c.userId, c.tenantId, c.authEpoch⟩

def World.keys (w : World) : List Key := w.continuations.map Continuation.key

def Rights.Carries (r : Rights) (k : Key) : Prop :=
  r.Standing k.userId ∧ r.tenantId = k.tenantId ∧ r.authEpoch = k.authEpoch

def User.Reviewed (u : User) : Prop :=
  ∀ m, u.managed = some m → m.approval = .approved → ∃ a, m.approvedBy = some a ∧ a ≠ u.id

def SessionsStand (w : World) : Prop :=
  ∀ s ∈ w.sessions, ∀ x, s.assurance = some x → ∃ r, rightsOf w s.userId = some r ∧ r.Admits s x

structure Sound (w : World) : Prop where
  reviewed : ∀ id u, findUser w id = some u → u.Reviewed
  sessions : SessionsStand w
  pending : ∀ k ∈ w.keys, k.token < w.fresh ∧ ∃ r, rightsOf w k.userId = some r ∧ r.Carries k
  tokens : ∀ k ∈ w.keys, ∀ k' ∈ w.keys, k'.token = k.token → k' = k
  five : ∀ id, w.keys.countP (·.userId = id) ≤ maxPendingPerUser
  used : ∀ a ∈ w.log, a.token < w.fresh ∧ ∀ k ∈ w.keys, k.token ≠ a.token
  receipts : ∀ r ∈ w.receipts, ⟨r.token, r.browser, r.sessionId⟩ ∈ w.log
  once : (w.log.map (·.token)).Nodup

variable {w w' : World} {u : User} {id j : Nat} {f : User → User}

/-- Nothing is admitted, and what is left of the sessions and logins stands on the same rights. -/
structure Quiet (w w' : World) : Prop where
  reviewed : ∀ id u, findUser w' id = some u → u.Reviewed
  sessions : ∀ s ∈ w'.sessions, s ∈ w.sessions ∧ rightsOf w' s.userId = rightsOf w s.userId
  keys : w'.keys <+ w.keys
  pending : ∀ k ∈ w'.keys, rightsOf w' k.userId = rightsOf w k.userId
  receipts : w'.receipts ⊆ w.receipts
  fresh : w'.fresh = w.fresh
  log : w'.log = w.log

theorem Quiet.sound (q : Quiet w w') (h : Sound w) : Sound w' where
  reviewed := q.reviewed
  sessions s hs x hx := by
    obtain ⟨hmem, hr⟩ := q.sessions s hs
    rw [hr]
    exact h.sessions s hmem x hx
  pending k hk := by
    rw [q.pending k hk, q.fresh]
    exact h.pending k (q.keys.subset hk)
  tokens k hk k' hk' := h.tokens k (q.keys.subset hk) k' (q.keys.subset hk')
  five id := q.keys.countP_le.trans (h.five id)
  used a ha := by
    obtain ⟨hlt, hne⟩ := h.used a (q.log ▸ ha)
    exact ⟨q.fresh ▸ hlt, fun k hk => hne k (q.keys.subset hk)⟩
  receipts r hr := q.log ▸ h.receipts r (q.receipts hr)
  once := q.log ▸ h.once

/-- What an operation keeps: the invariant, and what was admitted. -/
def Keeps (w w' : World) : Prop := Sound w' ∧ w.log ⊆ w'.log

theorem Sound.same (h : Sound w) : Keeps w w := ⟨h, Subset.refl _⟩

theorem Sound.quiet (h : Sound w) (q : Quiet w w') : Keeps w w' :=
  ⟨q.sound h, fun _ ha => q.log.symm ▸ ha⟩

theorem findUser_editUser (hid : ∀ u, (f u).id = u.id) :
    findUser (w.editUser id f) j = (findUser w j).map fun u => if u.id = id then f u else u := by
  apply find?_key_map
  intro u
  split
  · exact hid u
  · rfl

theorem rightsOf_editUser (hid : ∀ u, (f u).id = u.id)
    (hf : j = id → ∀ u, findUser w j = some u → (f u).rights = u.rights) :
    rightsOf (w.editUser id f) j = rightsOf w j := by
  unfold rightsOf
  rw [findUser_editUser hid]
  cases hu : findUser w j with
  | none => rfl
  | some u =>
    have hj : u.id = j := (mem_of_find?_key hu).2
    by_cases hjd : j = id
    · simp [hj, hjd, hf hjd u hu]
    · simp [hj, hjd]

theorem Sound.reviewed_edit (h : Sound w) (hid : ∀ u, (f u).id = u.id)
    (hrev : ∀ u, findUser w id = some u → u.Reviewed → (f u).Reviewed) :
    ∀ j u, findUser (w.editUser id f) j = some u → u.Reviewed := by
  intro j u hu
  rw [findUser_editUser hid, Option.map_eq_some_iff] at hu
  obtain ⟨v, hv, rfl⟩ := hu
  split
  · rename_i hvid
    have hj : v.id = j := (mem_of_find?_key hv).2
    exact hrev v (hvid ▸ hj ▸ hv) (h.reviewed j v hv)
  · exact h.reviewed j v hv

/-- What advances the epoch of an account may change the account, since nothing stands on it. -/
theorem Sound.revoke (h : Sound w) (hid : ∀ u, (f u).id = u.id)
    (hrev : ∀ u, findUser w id = some u → u.Reviewed → (f u).Reviewed) :
    Keeps w ((w.editUser id f).advanceEpoch id) := by
  have hrights : ∀ j, j ≠ id →
      rightsOf ((w.editUser id f).advanceEpoch id) j = rightsOf w j := fun j hj =>
    (rightsOf_editUser (f := User.nextEpoch) (fun _ => rfl) fun heq => absurd heq hj).trans
      (rightsOf_editUser hid fun heq => absurd heq hj)
  refine h.quiet ⟨fun j u hu => ?_, fun s hs => ?_, filter_sublist.map _, fun k hk => ?_,
    filter_subset_self _, rfl, rfl⟩
  · have hu : findUser ((w.editUser id f).editUser id User.nextEpoch) j = some u := hu
    rw [findUser_editUser (f := User.nextEpoch) fun _ => rfl, Option.map_eq_some_iff] at hu
    obtain ⟨v, hv, rfl⟩ := hu
    have hv := h.reviewed_edit hid hrev j v hv
    split <;> exact hv
  · obtain ⟨hs, hne⟩ := mem_filter.mp hs
    exact ⟨hs, hrights _ (by simpa using hne)⟩
  · obtain ⟨c, hc, rfl⟩ := mem_map.mp hk
    exact hrights c.userId (by simpa using (mem_filter.mp hc).2)

/-- A login of a token that is new to the log and to the other logins. -/
theorem Sound.push (h : Sound w) {c : Continuation} {n : Nat} (hn : w.fresh ≤ n)
    (hlt : c.token < n) (hnew : ∀ k ∈ w.keys, k.token ≠ c.token)
    (hlog : ∀ a ∈ w.log, a.token ≠ c.token)
    (hr : ∃ r, rightsOf w c.userId = some r ∧ r.Carries c.key)
    (hfive : w.keys.countP (·.userId = c.userId) < maxPendingPerUser) :
    Keeps w { w with continuations := w.continuations ++ [c], fresh := n } := by
  have hkeys : ({ w with continuations := w.continuations ++ [c], fresh := n } : World).keys =
      w.keys ++ [c.key] := map_append
  refine ⟨⟨h.reviewed, h.sessions, ?_, ?_, ?_, ?_, h.receipts, h.once⟩, Subset.refl _⟩
  · simp only [hkeys, mem_append, mem_singleton]
    rintro k (hk | rfl)
    · exact ⟨(h.pending k hk).1.trans_le hn, (h.pending k hk).2⟩
    · exact ⟨hlt, hr⟩
  · simp only [hkeys, mem_append, mem_singleton]
    rintro k (hk | rfl) k' (hk' | rfl) heq
    · exact h.tokens k hk k' hk' heq
    · exact absurd heq.symm (hnew k hk)
    · exact absurd heq (hnew k' hk')
    · rfl
  · rw [hkeys]
    intro id
    have hle := h.five id
    rw [countP_append, countP_singleton]
    split
    · rename_i hc
      obtain rfl : c.userId = id := of_decide_eq_true hc
      omega
    · exact hle
  · simp only [hkeys, mem_append, mem_singleton]
    intro a ha
    refine ⟨(h.used a ha).1.trans_le hn, ?_⟩
    rintro k (hk | rfl)
    · exact (h.used a ha).2 k hk
    · exact (hlog a ha).symm

theorem proved_of_admission {s : Session} {x : SessionAssurance} {now : Int}
    (hadm : sessionAdmission w (some (accountOf w u)) s now = none) (hx : s.assurance = some x)
    (hm : u.mfaEnabled = true) :
    x.mfaMethod.any provedBy = true ∧ x.factorRevision = some u.factorRevision := by
  have hproved : sessionProved (accountOf w u) s = true := by
    by_contra hno
    unfold sessionAdmission at hadm
    simp only [accountOf] at hadm hno
    grind
  simp only [sessionProved, hx, Option.any_some, Bool.and_eq_true, decide_eq_true_eq] at hproved
  exact ⟨hproved.1.1.1, hproved.1.2⟩

theorem Sound.complete (h : Sound w) {proof : Continuation} (hp : proof ∈ w.continuations)
    (hu : findUser w proof.userId = some u)
    (hadm : sessionAdmission w (some (accountOf w u)) (newSession w u proof) w.now = none) :
    Keeps w (completeAdmission w u proof) := by
  have hkey : proof.key ∈ w.keys := mem_map_of_mem hp
  have hid : u.id = proof.userId := (mem_of_find?_key hu).2
  have hsub : (completeAdmission w u proof).keys <+ w.keys := filter_sublist.map _
  have hleft : ∀ k ∈ (completeAdmission w u proof).keys, k.token ≠ proof.token := by
    intro k hk heq
    obtain ⟨c, hc, rfl⟩ := mem_map.mp hk
    obtain ⟨hc, hne⟩ := mem_filter.mp hc
    have hbrowser : c.browser = proof.browser :=
      congrArg Key.browser (h.tokens _ hkey _ (mem_map_of_mem hc) heq)
    have htoken : c.token = proof.token := heq
    simp [hbrowser, htoken] at hne
  have hlt : w.fresh < (completeAdmission w u proof).fresh := Nat.lt_succ_self _
  refine ⟨⟨h.reviewed, fun s hs x hx => ?_,
    fun k hk => (h.pending k (hsub.subset hk)).imp_left (·.trans hlt),
    fun k hk k' hk' => h.tokens k (hsub.subset hk) k' (hsub.subset hk'),
    fun id => hsub.countP_le.trans (h.five id), fun a ha => ?_, fun r hr => ?_, ?_⟩,
    subset_append_left _ _⟩
  · rcases mem_append.mp hs with hs | hs
    · exact h.sessions s hs x hx
    · obtain rfl := mem_singleton.mp hs
      obtain ⟨-, r, hr, hstand, -⟩ := h.pending _ hkey
      obtain rfl : u.rights = r := by simpa [rightsOf, Continuation.key, hu] using hr
      cases hx
      have huser : (newSession w u proof).userId = proof.userId := hid
      rw [huser]
      exact ⟨u.rights, hr, huser ▸ hstand, rfl, rfl, rfl, proved_of_admission hadm rfl⟩
  · rcases mem_append.mp ha with ha | ha
    · exact ⟨(h.used a ha).1.trans hlt, fun k hk => (h.used a ha).2 k (hsub.subset hk)⟩
    · obtain rfl := mem_singleton.mp ha
      exact ⟨(h.pending _ hkey).1.trans hlt, hleft⟩
  · rcases mem_append.mp hr with hr | hr
    · exact mem_append_left _ (h.receipts r (mem_filter.mp hr).1)
    · exact mem_append_right _ (mem_singleton.mp hr ▸ mem_singleton_self _)
  · have hnew : ∀ a ∈ w.log, a.token ≠ proof.token := fun a ha => ((h.used a ha).2 _ hkey).symm
    simpa [completeAdmission, nodup_append] using ⟨h.once, hnew⟩

theorem Sound.settings (h : Sound w) (now : Int) (policies : List PolicyRow)
    (closedTenants : List Nat) : Keeps w { w with now, policies, closedTenants } :=
  ⟨⟨h.reviewed, h.sessions, h.pending, h.tokens, h.five, h.used, h.receipts, h.once⟩, Subset.refl _⟩

theorem Sound.filterContinuations (h : Sound w) (p : Continuation → Bool) :
    Keeps w { w with continuations := w.continuations.filter p } :=
  h.quiet ⟨h.reviewed, fun _ hs => ⟨hs, rfl⟩, filter_sublist.map _, fun _ _ => rfl,
    Subset.refl _, rfl, rfl⟩

theorem standing_of_admitted {method : PrimaryMethod}
    (hadm : accountAdmission (some (accountOf w u)) method = none) (hr : u.Reviewed) :
    u.rights.Standing u.id := by
  unfold accountAdmission at hadm
  simp only [accountOf] at hadm
  refine ⟨by grind [User.rights], fun m hm => ?_⟩
  have hm : u.managed = some m := hm
  simp only [hm, Option.any_some] at hadm
  have happroved : m.approval = .approved := by grind
  exact ⟨by grind, by grind, by grind, hr m hm happroved⟩

theorem Sound.edit (h : Sound w) (userId : Nat) (e : AccountEdit) :
    Keeps w (committed w (editAccount w userId e)) := by
  unfold editAccount
  split
  · exact h.same
  · rename_i u hu
    split_ifs with hmanaged hmfa hchanges
    · exact h.same
    · exact h.same
    · exact h.revoke (fun _ => rfl) fun _ _ hr => hr
    · have hrights : ∀ j, rightsOf (w.editUser userId e.apply) j = rightsOf w j := fun j =>
        rightsOf_editUser (fun _ => rfl) fun hj v hv => by
          cases hu.symm.trans (hj ▸ hv)
          simp only [AccountEdit.changes, Bool.or_eq_true, decide_eq_true_eq, not_or, not_not,
            ne_eq] at hchanges
          simp [User.rights, AccountEdit.apply, hchanges]
      exact h.quiet ⟨h.reviewed_edit (fun _ => rfl) fun _ _ hr => hr,
        fun s hs => ⟨hs, hrights _⟩, .refl _, fun k _ => hrights _, Subset.refl _, rfl, rfl⟩

theorem Sound.directory (h : Sound w) (tenantId userId generation : Nat) (active deleted : Bool) :
    Keeps w (committed w (transitionDirectoryAccount w tenantId userId generation active deleted)) := by
  unfold transitionDirectoryAccount
  split
  · exact h.same
  · split
    · exact h.same
    · split_ifs
      iterate 4 exact h.same
      refine h.revoke (fun _ => rfl) fun v _ _ m hm ha => ?_
      obtain ⟨_, -, rfl⟩ := Option.map_eq_some_iff.mp hm
      cases ha

theorem Sound.review (h : Sound w) (sessionId tenantId userId generation : Nat) (approve : Bool) :
    Keeps w (committed w (reviewManagedAccount w sessionId tenantId userId generation approve)) := by
  unfold reviewManagedAccount
  split
  · exact h.same
  · split
    · exact h.same
    · split
      · exact h.same
      · dsimp only
        split_ifs with _ _ _ hself
        any_goals exact h.same
        all_goals
          refine h.revoke (fun _ => rfl) fun v hv _ m hm _ => ?_
          obtain ⟨_, -, rfl⟩ := Option.map_eq_some_iff.mp hm
          exact ⟨_, rfl, fun heq => hself (heq.trans (mem_of_find?_key hv).2)⟩

theorem Sound.login (h : Sound w) (input : VerifiedIdentity) :
    Keeps w (continueVerifiedIdentity w input).1 := by
  unfold continueVerifiedIdentity
  split
  · exact h.same
  · rename_i u hu
    split
    · exact h.same
    · rename_i hadm
      dsimp only
      split_ifs with hstale hlabel hfull
      · exact h.same
      · exact h.same
      · exact h.filterContinuations _
      · have hid : u.id = input.userId := (mem_of_find?_key hu).2
        have hstand : u.rights.Standing input.userId :=
          hid ▸ standing_of_admitted hadm (h.reviewed _ u hu)
        have hleft : Sound
            { w with continuations := pendingAfterRestart w input.userId input.browser } :=
          (h.filterContinuations _).1
        simp only [not_or, not_not] at hstale
        refine hleft.push (Nat.le_succ _) (Nat.lt_succ_self _) (fun k hk => (hleft.pending k hk).1.ne)
          (fun a ha => (h.used a ha).1.ne) ⟨u.rights, ?_, hstand, hstale⟩ ?_
        · exact congrArg (Option.map User.rights) hu
        · rw [World.keys, countP_map]
          exact Nat.lt_of_not_le hfull

theorem Sound.admission (h : Sound w) (token browser : Nat) :
    Keeps w (admitIdentityContinuation w token browser).1 := by
  unfold admitIdentityContinuation
  split
  · split <;> exact h.same
  · rename_i proof hproof
    split_ifs
    · exact h.same
    · split
      · exact h.same
      · rename_i u hu
        split
        · exact h.same
        · split
          · exact h.same
          · split
            · exact h.same
            · exact h.same
            · rename_i hadm
              split
              · exact h.same
              · exact h.complete (mem_of_find?_eq_some hproof) hu hadm

theorem mem_of_readCurrentContinuation {token browser : Nat} {proof : Continuation}
    (hread : readCurrentContinuation w token browser = some (proof, u)) :
    proof ∈ w.continuations ∧ findUser w proof.userId = some u := by
  simp only [readCurrentContinuation, Option.bind_eq_bind, Option.bind_eq_some_iff] at hread
  obtain ⟨c, hc, v, hv, hread⟩ := hread
  split_ifs at hread
  cases hread
  exact ⟨mem_of_find?_eq_some hc, hv⟩

theorem Sound.prove (h : Sound w) (token browser : Nat) (method : HomefrontFactor) :
    Keeps w (proveFactor w token browser method) := by
  unfold proveFactor
  split
  · exact h.same
  · have hkeys : ∀ g : Continuation → Continuation, (∀ c, (g c).key = c.key) →
        (w.editContinuation token g).keys = w.keys := by
      intro g hg
      simp only [World.keys, World.editContinuation, map_map]
      refine map_congr_left fun c _ => ?_
      simp only [Function.comp_apply]
      split
      · exact hg c
      · rfl
    refine h.quiet ⟨h.reviewed, fun _ hs => ⟨hs, rfl⟩, ?_, fun _ _ => rfl, Subset.refl _, rfl, rfl⟩
    rw [hkeys]
    exact fun _ => rfl

theorem findUser_revoked (hid : ∀ u, (f u).id = u.id) (hu : findUser w id = some u) :
    findUser ((w.editUser id f).advanceEpoch id) id = some (f u).nextEpoch := by
  have huid : u.id = id := (mem_of_find?_key hu).2
  show findUser ((w.editUser id f).editUser id User.nextEpoch) id = _
  rw [findUser_editUser (f := User.nextEpoch) fun _ => rfl, findUser_editUser hid, hu]
  simp [huid, hid]

theorem Sound.changeFactor (h : Sound w) {proof : Continuation} (hp : proof ∈ w.continuations)
    (hu : findUser w proof.userId = some u) (method : HomefrontFactor) :
    Keeps w (advanceMfaAuthority w proof method) := by
  have hkey : proof.key ∈ w.keys := mem_map_of_mem hp
  obtain ⟨hlt, r, hr, hstand, htenant, -⟩ := h.pending _ hkey
  obtain rfl : u.rights = r := by simpa [rightsOf, Continuation.key, hu] using hr
  have hnext : Sound ((w.editUser proof.userId User.withFactor).advanceEpoch proof.userId) :=
    (h.revoke (f := User.withFactor) (fun _ => rfl) fun _ _ hr => hr).1
  have hfound := findUser_revoked (f := User.withFactor) (fun _ => rfl) hu
  have hleft : ∀ k ∈ ((w.editUser proof.userId User.withFactor).advanceEpoch proof.userId).keys,
      k ∈ w.keys ∧ k.userId ≠ proof.userId := by
    intro k hk
    obtain ⟨c, hc, rfl⟩ := mem_map.mp hk
    obtain ⟨hc, hne⟩ := mem_filter.mp hc
    exact ⟨mem_map_of_mem hc, of_decide_eq_true hne⟩
  simp only [advanceMfaAuthority, hfound, Option.map_some, Option.toList_some]
  refine hnext.push le_rfl hlt (fun k hk heq => ?_)
    (fun a ha heq => (h.used a ha).2 _ hkey heq.symm)
    ⟨u.withFactor.nextEpoch.rights, ?_, hstand, htenant, rfl⟩ ?_
  · obtain ⟨hmem, hne⟩ := hleft k hk
    exact hne (congrArg Key.userId (h.tokens _ hkey k hmem heq))
  · exact congrArg (Option.map User.rights) hfound
  · refine (countP_eq_zero.mpr fun k hk heq => ?_).trans_lt (by decide)
    exact (hleft k hk).2 (of_decide_eq_true heq)

theorem Sound.step (h : Sound w) (a : Action) : Keeps w (step w a) := by
  cases a with
  | tick now => exact h.settings now w.policies w.closedTenants
  | edit userId e => exact h.edit userId e
  | directory t u g active deleted => exact h.directory t u g active deleted
  | review s t u g approve => exact h.review s t u g approve
  | policy row =>
    simp only [Identity.step, setPolicy]
    split_ifs
    · exact h.settings w.now _ w.closedTenants
    · exact h.same
  | tenant t closed => exact h.settings w.now w.policies _
  | login input => exact h.login input
  | prove t b method => exact h.prove t b method
  | changeFactor t b method =>
    simp only [Identity.step]
    split
    · exact h.same
    · rename_i hread
      obtain ⟨hp, hu⟩ := mem_of_readCurrentContinuation hread
      exact h.changeFactor hp hu method
  | admission t b => exact h.admission t b

/-- A world that nobody has signed in to, with its managed accounts as a directory leaves them. -/
structure Opening where
  world : World
  nobody : world.sessions = [] ∧ world.continuations = [] ∧ world.receipts = [] ∧ world.log = []
  unapproved : ∀ u ∈ world.users, ∀ m, u.managed = some m → m.approval ≠ .approved

theorem sound_run (o : Opening) (as : List Action) : Sound (run step o.world as) := by
  refine run_invariant_all (I := Sound) (fun _ a h => (h.step a).1) as ?_
  obtain ⟨hs, hc, hr, hl⟩ := o.nobody
  have hkeys : o.world.keys = [] := by simp [World.keys, hc]
  refine ⟨fun id u hu m hm ha => ?_, ?_, ?_, ?_, ?_, ?_, ?_, ?_⟩
  · exact absurd ha (o.unapproved u (mem_of_find?_eq_some hu) m hm)
  all_goals simp [SessionsStand, hs, hkeys, hr, hl]

/-- In every state of every run, a session with an assurance is of an active account, in its tenant
and its authority epoch; another user has approved the account as it is, if a directory has it; and
if the account has a second factor, the session was proved with its present revision. -/
theorem sessions_stand (o : Opening) (as : List Action) : SessionsStand (run step o.world as) :=
  (sound_run o as).sessions

/-- A pending login goes by its account as it is, too, and a user has at most five. -/
theorem logins_stand (o : Opening) (as : List Action) :
    (∀ k ∈ (run step o.world as).keys,
      ∃ r, rightsOf (run step o.world as) k.userId = some r ∧ r.Carries k) ∧
    ∀ id, (run step o.world as).keys.countP (·.userId = id) ≤ 5 :=
  ⟨fun k hk => ((sound_run o as).pending k hk).2, (sound_run o as).five⟩

/-- The sessions that the answers tell of. -/
def answers : World → List Action → List Admitted
  | _, [] => []
  | w, .admission token browser :: as =>
    let (next, result) := admitIdentityContinuation w token browser
    match result with
    | .authenticated s => ⟨token, browser, s.id⟩ :: answers next as
    | _ => answers next as
  | w, a :: as => answers (step w a) as

theorem mem_log_of_replay (h : Sound w) {token browser : Nat} {s : Session}
    (hs : replay w token browser = some s) : ⟨token, browser, s.id⟩ ∈ w.log := by
  simp only [replay, Option.bind_eq_bind, Option.bind_eq_some_iff] at hs
  obtain ⟨r, hr, s', hs', v, -, hs⟩ := hs
  split_ifs at hs
  cases hs
  have hfound := find?_some hr
  have hsession := find?_some hs'
  simp only [Bool.and_eq_true, decide_eq_true_eq] at hfound hsession
  obtain ⟨⟨⟨rfl, rfl⟩, -⟩, -⟩ := hfound
  exact hsession.1 ▸ h.receipts r (mem_of_find?_eq_some hr)

theorem Sound.answered (h : Sound w) {token browser : Nat} {s : Session} :
    (admitIdentityContinuation w token browser).2 = .authenticated s →
      ⟨token, browser, s.id⟩ ∈ (admitIdentityContinuation w token browser).1.log := by
  unfold admitIdentityContinuation
  split
  · split
    · rename_i hs
      rintro ⟨⟩
      exact mem_log_of_replay h hs
    · rintro ⟨⟩
  · rename_i proof hproof
    repeat' split
    all_goals rintro ⟨⟩
    have hkey := find?_some hproof
    simp only [Bool.and_eq_true, decide_eq_true_eq] at hkey
    exact mem_append_right _ (mem_singleton.mpr (by simp [newSession, hkey]))

theorem answers_logged (h : Sound w) (as : List Action) : answers w as ⊆ (run step w as).log := by
  induction as generalizing w with
  | nil => exact nil_subset _
  | cons a as ih =>
    have hnext := h.step a
    have hlater : (Identity.step w a).log ⊆ (run step (Identity.step w a) as).log :=
      (run_invariant_all (I := Keeps (Identity.step w a))
        (fun _ a hw => ⟨(hw.1.step a).1, Subset.trans hw.2 (hw.1.step a).2⟩) as hnext.1.same).2
    cases a with
    | admission token browser =>
      intro x hx
      simp only [answers] at hx
      split at hx
      · rename_i hs
        rcases mem_cons.mp hx with rfl | hx
        · exact hlater (h.answered hs)
        · exact ih hnext.1 hx
      · exact ih hnext.1 hx
    | _ => exact ih hnext.1

/-- However often its token is presented, and whatever happens in between, a login is answered with
one session, and only in its own browser. -/
theorem answers_alike (o : Opening) (as : List Action) :
    (answers o.world as).Pairwise fun x y => x.token = y.token → x = y := by
  have hinj := inj_on_of_nodup_map (sound_run o as).once
  have hlogged := answers_logged (sound_run o []) as
  exact pairwise_of_forall_mem_list fun x hx y hy => hinj (hlogged hx) (hlogged hy)

end HomefrontFiber.Identity
