import Mathlib.Data.List.Dedup
import HomefrontFiber.Outreach.Caps

/-!
# Opting out

An inbound text reaches an organization through the rows it sent or delivered to the number, looked
up by the hash in its current form alone; an unsubscribe link reaches it through the outreach row
that its token names, and the link in a body names none. A `Watch` keeps, next to the system, whom
a customer has told to stop and not taken back.
-/

namespace HomefrontFiber.Outreach

open List Option

namespace System

variable (env : Env) (s : System)

def textingTenants : List Nat :=
  ((s.db.outreach.filter fun r => decide (r.channel = .sms)).map (·.tenantId)).dedup

def inboundAt (e164 body : String) (db : OutreachDb) (tenantId : Nat) : OutreachDb :=
  let hashes := s.candidates env tenantId .sms e164
  let optOut := (detectOptOut body).isSome
  let recorded := db.recordInboundResponse tenantId (hashes.head?.getD "") optOut s.now
  if recorded.2 = 0 then db
  else match detectOptOut body with
  | some keyword =>
    recorded.1.suppressDestination env.crypto s.hashKey tenantId .sms e164 .optOutReply
      "inbound_sms" (some ("keyword:" ++ keyword)) s.now
  | none =>
    if (detectOptIn body).isSome then recorded.1.liftReplySuppression tenantId hashes s.now
    else recorded.1

def handleInboundSms (from_ body : String) : System :=
  match normalizePhoneE164 from_ with
  | none => s
  | some e164 =>
    { s with db := s.textingTenants.foldl (s.inboundAt env e164 body) s.db }

/-- Honour an unsubscribe. `resolved` is the address that the order of the message has now, when it
can be read; the second result says whether the link was accepted. -/
def processUnsubscribe (token : UnsubscribeToken) (resolved : Option String) : System × Bool :=
  if !env.verifyUnsubscribeToken token || decide (token.outreachId = 0) then (s, false)
  else
    match s.db.outreach.find? fun r =>
      decide (r.id = token.outreachId) && decide (r.tenantId = token.tenantId) with
    | none => (s, false)
    | some row =>
      let suppressed := match resolved, row.recipientHash with
        | some destination, _ =>
          s.db.suppressDestination env.crypto s.hashKey token.tenantId .email destination
            .optOutReply "email_unsubscribe" (some ("outreach:" ++ toString token.outreachId)) s.now
        | none, some hash =>
          s.db.suppressByHash token.tenantId .email hash token.outreachId s.now
        | none, none => s.db
      ({ s with db := suppressed.updateOutreach token.outreachId fun r =>
          { r with optOutDetectedAt := r.optOutDetectedAt.or (some s.now) } }, true)

end System

inductive Action where
  | traffic (t : Traffic)
  | inbound (from_ body : String)
  | unsubscribe (token : UnsubscribeToken) (resolved : Option String)
  | lift (tenantId id : Nat) (reason : String)
  | configureKey (key : String)

def System.act (env : Env) (s : System) : Action → System
  | .traffic t => s.traffic env t
  | .inbound from_ body => s.handleInboundSms env from_ body
  | .unsubscribe token resolved => (s.processUnsubscribe env token resolved).1
  | .lift tenantId id reason => { s with db := s.db.liftSuppression tenantId id reason s.now }
  | .configureKey key =>
    match s.hashKey with
    | none => { s with hashKey := some key }
    | some _ => s

/-- Whether an organization has sent, or is sending, a message to a destination. -/
def System.Messaged (s : System) (tenantId : Nat) (channel : ContactChannel)
    (destination : String) : Prop :=
  ∃ c ∈ s.calls, c.goesTo tenantId channel destination = true ∧ c.live = true

/-- Whether an unsubscribe link stood in a mail that was sent to a destination. -/
def System.Mailed (s : System) (token : UnsubscribeToken) (destination : String) : Prop :=
  ∃ c ∈ s.calls, c.channel = .email ∧ c.acceptedAt.isSome = true ∧ c.destination = destination ∧
    (token ∈ c.bodyLinks ∨ c.headerLink = some token)

structure Watch where
  system : System
  /-- The organizations, channels and destinations of a standing opt-out. -/
  stopped : Nat → ContactChannel → String → Prop

def Action.Stops (s : System) (tenantId : Nat) (channel : ContactChannel) (destination : String) :
    Action → Prop
  | .inbound from_ body => channel = .sms ∧ normalizePhoneE164 from_ = some destination ∧
      (detectOptOut body).isSome = true ∧ s.Messaged tenantId .sms destination
  | .unsubscribe token _ => channel = .email ∧ s.Mailed token destination ∧
      s.Messaged tenantId .email destination
  | .traffic _ | .lift _ _ _ | .configureKey _ => False

/-- Whom an action releases: a START reply from a number with a hash of theirs, or the lift of a
block with one. -/
def Action.Releases (env : Env) (s : System) (tenantId : Nat) (channel : ContactChannel)
    (destination : String) : Action → Prop
  | .inbound from_ body => channel = .sms ∧ detectOptOut body = none ∧
      (detectOptIn body).isSome = true ∧ ∃ e164, normalizePhoneE164 from_ = some e164 ∧
        ∃ hash ∈ s.candidates env tenantId .sms e164,
          hash ∈ s.candidates env tenantId channel destination
  | .lift tenant id _ => tenant = tenantId ∧ ∃ x ∈ s.db.suppressions, x.id = id ∧
      x.tenantId = tenantId ∧ x.channel = channel ∧
        x.destinationHash ∈ s.candidates env tenantId channel destination
  | .traffic _ | .unsubscribe _ _ | .configureKey _ => False

def Watch.act (env : Env) (w : Watch) (a : Action) : Watch where
  system := w.system.act env a
  stopped := fun tenantId channel destination =>
    (w.stopped tenantId channel destination ∧
      ¬a.Releases env w.system tenantId channel destination) ∨
    a.Stops w.system tenantId channel destination

/-- Opt-outs are final, and every mail body carries a link that works. -/
structure StopIsFinal (env : Env) (w : Watch) : Prop where
  silent : ∀ c : SendCall, ∀ destination ∈ c.destination,
    w.stopped c.tenantId c.channel destination → ¬w.system.Passes env c
  bodies : ∀ c ∈ w.system.calls, c.channel = .email →
    ∃ link ∈ c.bodyLinks, ∀ resolved, (w.system.processUnsubscribe env link resolved).2 = true

/-- What an action has to find so that no opt-out is lost: no mail is sent, and a STOP finds, at
every organization that texts the number and has not blocked it, a text that was sent or delivered
under the hash in its current form. -/
def Action.Heard (env : Env) (s : System) : Action → Prop
  | .traffic (.send c) => s.Passes env c → c.channel = .sms
  | .inbound from_ body => (detectOptOut body).isSome = true →
      ∀ e164 ∈ normalizePhoneE164 from_, ∀ tenantId, s.Messaged tenantId .sms e164 →
        s.db.isSuppressed tenantId .sms (s.candidates env tenantId .sms e164) = true ∨
        ∃ r ∈ s.db.outreach, r.channel = .sms ∧
          r.answersTo tenantId (s.hash env tenantId .sms e164) = true
  | .traffic _ | .unsubscribe _ _ | .lift _ _ _ | .configureKey _ => True

/-- The states of a run from an empty outreach table in which every opt-out is heard. -/
inductive HeardRun (env : Env) : Watch → Prop
  | start {w : Watch} (houtreach : w.system.db.outreach = []) (hcalls : w.system.calls = [])
      (hstopped : ∀ tenantId channel destination, ¬w.stopped tenantId channel destination) :
      HeardRun env w
  | step {w : Watch} (h : HeardRun env w) (a : Action) (ha : a.Heard env w.system) :
      HeardRun env (w.act env a)

theorem hash_mem_candidates (crypto : Crypto) (hashKey : Option String) (tenantId : Nat)
    (channel : ContactChannel) (normalized : String) :
    (destinationHashCandidates crypto hashKey tenantId channel normalized).head? =
      some (hashDestination crypto hashKey tenantId channel normalized) := by
  unfold destinationHashCandidates hashDestination
  cases hashKey with
  | none => rfl
  | some key =>
    dsimp only
    split
    · rfl
    · rfl

theorem candidates_configureKey (crypto : Crypto) (key : String) (tenantId : Nat)
    (channel : ContactChannel) (normalized hash : String)
    (h : hash ∈ destinationHashCandidates crypto none tenantId channel normalized) :
    hash ∈ destinationHashCandidates crypto (some key) tenantId channel normalized := by
  have hunkeyed := mem_singleton.mp h
  unfold destinationHashCandidates
  dsimp only
  split
  · rename_i hsame
    rw [hunkeyed, hsame]
    exact mem_singleton_self _
  · rw [hunkeyed]
    exact mem_cons_of_mem _ (mem_singleton_self _)

theorem Suppression.blocks_iff {tenantId : Nat} {channel : ContactChannel} {hashes : List String}
    {x : Suppression} : x.blocks tenantId channel hashes = true ↔
      x.tenantId = tenantId ∧ x.channel = channel ∧ x.liftedAt = none ∧
        x.destinationHash ∈ hashes := by
  simp [Suppression.blocks, and_assoc]

namespace OutreachDb

variable {db : OutreachDb} {tenantId : Nat} {channel : ContactChannel} {hashes : List String}

theorem isSuppressed_iff : db.isSuppressed tenantId channel hashes = true ↔
    ∃ x ∈ db.suppressions, x.blocks tenantId channel hashes = true := by
  unfold isSuppressed
  exact any_eq_true

theorem isSuppressed_mono {hashes' : List String} (hsub : ∀ hash ∈ hashes, hash ∈ hashes')
    (h : db.isSuppressed tenantId channel hashes = true) :
    db.isSuppressed tenantId channel hashes' = true := by
  obtain ⟨x, hx, hblocks⟩ := isSuppressed_iff.mp h
  obtain ⟨htenant, hchannel, hlifted, hhash⟩ := Suppression.blocks_iff.mp hblocks
  exact isSuppressed_iff.mpr
    ⟨x, hx, Suppression.blocks_iff.mpr ⟨htenant, hchannel, hlifted, hsub _ hhash⟩⟩

theorem isSuppressed_map {f : Suppression → Suppression}
    (hf : ∀ x ∈ db.suppressions, x.blocks tenantId channel hashes = true →
      (f x).blocks tenantId channel hashes = true) {db' : OutreachDb}
    (hdb : db'.suppressions = db.suppressions.map f)
    (h : db.isSuppressed tenantId channel hashes = true) :
    db'.isSuppressed tenantId channel hashes = true := by
  obtain ⟨x, hx, hblocks⟩ := isSuppressed_iff.mp h
  apply isSuppressed_iff.mpr
  rw [hdb]
  exact ⟨f x, mem_map_of_mem hx, hf x hx hblocks⟩

theorem isSuppressed_append {db' : OutreachDb} {added : List Suppression}
    (hdb : db'.suppressions = db.suppressions ++ added)
    (h : db.isSuppressed tenantId channel hashes = true) :
    db'.isSuppressed tenantId channel hashes = true := by
  obtain ⟨x, hx, hblocks⟩ := isSuppressed_iff.mp h
  apply isSuppressed_iff.mpr
  rw [hdb]
  exact ⟨x, mem_append_left _ hx, hblocks⟩

theorem isSuppressed_suppressHash (t : Nat) (ch : ContactChannel) (hash : String)
    (reason : SuppressionReason) (source : String) (evidence : Option String) (now : Int)
    (h : db.isSuppressed tenantId channel hashes = true) :
    (db.suppressHash t ch hash reason source evidence now).isSuppressed tenantId channel hashes =
      true := by
  unfold suppressHash
  dsimp only
  split
  · refine isSuppressed_map (fun x _ hblocks => ?_) rfl h
    have hstands := (Suppression.blocks_iff.mp hblocks).2.2.1
    rw [hstands]
    simpa using hblocks
  · exact isSuppressed_append rfl h

theorem isSuppressed_suppressByHash (t : Nat) (ch : ContactChannel) (hash : String)
    (outreachId : Nat) (now : Int) (h : db.isSuppressed tenantId channel hashes = true) :
    (db.suppressByHash t ch hash outreachId now).isSuppressed tenantId channel hashes = true := by
  unfold suppressByHash
  dsimp only
  split
  · refine isSuppressed_map (fun x _ hblocks => ?_) rfl h
    split
    · obtain ⟨htenant, hchannel, -, hhash⟩ := Suppression.blocks_iff.mp hblocks
      exact Suppression.blocks_iff.mpr ⟨htenant, hchannel, rfl, hhash⟩
    · exact hblocks
  · exact isSuppressed_append rfl h

theorem suppressHash_blocks (hash : String) (reason : SuppressionReason) (source : String)
    (evidence : Option String) (now : Int) (hmem : hash ∈ hashes) :
    (db.suppressHash tenantId channel hash reason source evidence now).isSuppressed tenantId
      channel hashes = true := by
  unfold suppressHash
  dsimp only
  split
  · rename_i hany
    obtain ⟨x, hx, hmine⟩ := any_eq_true.mp hany
    have hkey := hmine
    simp only [Bool.and_eq_true, decide_eq_true_eq] at hkey
    obtain ⟨⟨htenant, hchannel⟩, hhash⟩ := hkey
    apply isSuppressed_iff.mpr
    refine ⟨_, mem_map_of_mem hx, ?_⟩
    split
    · exact Suppression.blocks_iff.mpr ⟨htenant, hchannel, rfl, hhash ▸ hmem⟩
    · rename_i hstands
      rw [Bool.and_eq_true, not_and] at hstands
      have hlifted : x.liftedAt = none := by simpa using hstands hmine
      exact Suppression.blocks_iff.mpr ⟨htenant, hchannel, hlifted, hhash ▸ hmem⟩
  · apply isSuppressed_iff.mpr
    refine ⟨_, mem_append_right _ (mem_singleton_self _), ?_⟩
    exact Suppression.blocks_iff.mpr ⟨rfl, rfl, rfl, hmem⟩

theorem suppressHash_outreach (hash : String) (reason : SuppressionReason) (source : String)
    (evidence : Option String) (now : Int) :
    (db.suppressHash tenantId channel hash reason source evidence now).outreach = db.outreach := by
  unfold suppressHash
  dsimp only
  split
  · rfl
  · rfl

end OutreachDb

section Inbound

variable {env : Env} {s : System} {e164 body : String}

theorem System.inboundAt_keeps {db : OutreachDb} {t tenantId : Nat} {channel : ContactChannel}
    {hashes : List String} (h : db.isSuppressed tenantId channel hashes = true)
    (hstart : channel = .sms → detectOptOut body = none → (detectOptIn body).isSome = true →
      ∀ hash ∈ s.candidates env tenantId .sms e164, hash ∉ hashes) :
    (s.inboundAt env e164 body db t).isSuppressed tenantId channel hashes = true := by
  unfold System.inboundAt
  dsimp only
  split
  · exact h
  · cases hout : detectOptOut body with
    | some keyword => exact OutreachDb.isSuppressed_suppressHash _ _ _ _ _ _ _ h
    | none =>
      dsimp only
      split
      · rename_i hin
        refine OutreachDb.isSuppressed_map (fun x _ hblocks => ?_) rfl h
        obtain ⟨htenant, hchannel, -, hhash⟩ := Suppression.blocks_iff.mp hblocks
        split
        · rename_i hlift
          obtain ⟨htenant', hchannel', -, hhash'⟩ := Suppression.blocks_iff.mp hlift.1
          rw [← htenant', htenant] at hhash'
          exact absurd hhash (hstart (hchannel.symm.trans hchannel') hout hin _ hhash')
        · exact hblocks
      · exact h

theorem System.inboundAt_outreach (env : Env) (s : System) (e164 body : String) (db : OutreachDb)
    (t : Nat) :
    (s.inboundAt env e164 body db t).outreach = db.outreach ∨
      (s.inboundAt env e164 body db t).outreach = (db.recordInboundResponse t
        ((s.candidates env t .sms e164).head?.getD "") (detectOptOut body).isSome s.now).1.outreach
        := by
  unfold System.inboundAt
  dsimp only
  split
  · exact .inl rfl
  · right
    split
    · exact OutreachDb.suppressHash_outreach _ _ _ _ _
    · split
      · rfl
      · rfl

theorem System.inboundAt_answers {db : OutreachDb} {t tenantId : Nat} {hash : String}
    (h : ∃ r ∈ db.outreach, r.answersTo tenantId hash = true) :
    ∃ r ∈ (s.inboundAt env e164 body db t).outreach, r.answersTo tenantId hash = true := by
  rcases s.inboundAt_outreach env e164 body db t with hrows | hrows
  · rw [hrows]
    exact h
  · rw [hrows]
    obtain ⟨r, hr, hanswers⟩ := h
    refine ⟨_, mem_map_of_mem hr, ?_⟩
    split
    · exact hanswers
    · exact hanswers

theorem System.inboundAt_stops {db : OutreachDb} {tenantId : Nat}
    (hout : (detectOptOut body).isSome = true)
    (h : ∃ r ∈ db.outreach, r.answersTo tenantId (s.hash env tenantId .sms e164) = true) :
    (s.inboundAt env e164 body db tenantId).isSuppressed tenantId .sms
      (s.candidates env tenantId .sms e164) = true := by
  obtain ⟨r, hr, hanswers⟩ := h
  have hhead : (s.candidates env tenantId .sms e164).head?.getD "" =
      s.hash env tenantId .sms e164 := by
    unfold System.candidates
    rw [hash_mem_candidates]
    rfl
  have htouched : (db.recordInboundResponse tenantId
      ((s.candidates env tenantId .sms e164).head?.getD "") (detectOptOut body).isSome s.now).2 ≠
      0 := by
    rw [hhead]
    exact Nat.pos_iff_ne_zero.mp (countP_pos_iff.mpr ⟨r, hr, hanswers⟩)
  unfold System.inboundAt
  rw [if_neg htouched]
  obtain ⟨keyword, hkeyword⟩ := isSome_iff_exists.mp hout
  rw [hkeyword]
  apply OutreachDb.suppressHash_blocks
  exact mem_of_mem_head? (hash_mem_candidates _ _ _ _ _)

theorem System.foldl_inboundAt_keeps {tenants : List Nat} {db : OutreachDb} {tenantId : Nat}
    {channel : ContactChannel} {hashes : List String}
    (h : db.isSuppressed tenantId channel hashes = true)
    (hstart : channel = .sms → detectOptOut body = none → (detectOptIn body).isSome = true →
      ∀ hash ∈ s.candidates env tenantId .sms e164, hash ∉ hashes) :
    (tenants.foldl (s.inboundAt env e164 body) db).isSuppressed tenantId channel hashes =
      true := by
  induction tenants generalizing db with
  | nil => exact h
  | cons t tenants ih => exact ih (System.inboundAt_keeps h hstart)

theorem System.foldl_inboundAt_stops {tenants : List Nat} {db : OutreachDb} {tenantId : Nat}
    (hout : (detectOptOut body).isSome = true) (hmem : tenantId ∈ tenants)
    (h : ∃ r ∈ db.outreach, r.answersTo tenantId (s.hash env tenantId .sms e164) = true) :
    (tenants.foldl (s.inboundAt env e164 body) db).isSuppressed tenantId .sms
      (s.candidates env tenantId .sms e164) = true := by
  induction tenants generalizing db with
  | nil => cases hmem
  | cons t tenants ih =>
    rw [foldl_cons]
    rcases mem_cons.mp hmem with rfl | hmem
    · apply System.foldl_inboundAt_keeps (System.inboundAt_stops hout h)
      intro _ hnone
      rw [hnone] at hout
      cases hout
    · exact ih hmem (System.inboundAt_answers h)

end Inbound

theorem System.processUnsubscribe_draft {env : Env} {s : System} {token : UnsubscribeToken}
    (h : token.outreachId = 0) (resolved : Option String) :
    s.processUnsubscribe env token resolved = (s, false) := by
  unfold System.processUnsubscribe
  apply if_pos
  simp [h]

section Run

variable {env : Env} {s : System}

theorem System.traffic_frame (s : System) (env : Env) (t : Traffic) :
    (s.traffic env t).hashKey = s.hashKey ∧
      (s.traffic env t).db.suppressions = s.db.suppressions := by
  cases t with
  | tick ms => exact ⟨rfl, rfl⟩
  | send c =>
    rcases s.sendOutreach_cases env c with
      ⟨-, destination, -, hqueue⟩ | ⟨-, hsame | ⟨body, hash, reasons, hblocked⟩⟩
    · show (s.sendOutreach env c).hashKey = _ ∧ (s.sendOutreach env c).db.suppressions = _
      rw [hqueue]
      exact ⟨rfl, rfl⟩
    · show (s.sendOutreach env c).hashKey = _ ∧ (s.sendOutreach env c).db.suppressions = _
      rw [hsame]
      exact ⟨rfl, rfl⟩
    · show (s.sendOutreach env c).hashKey = _ ∧ (s.sendOutreach env c).db.suppressions = _
      rw [hblocked]
      exact ⟨rfl, rfl⟩
  | accept id =>
    show (s.accept id).hashKey = _ ∧ (s.accept id).db.suppressions = _
    unfold System.accept
    split
    · exact ⟨rfl, rfl⟩
    · split
      · exact ⟨rfl, rfl⟩
      · exact ⟨rfl, rfl⟩
  | answer id providerMessageId safeError =>
    show (s.answer id providerMessageId safeError).hashKey = _ ∧
      (s.answer id providerMessageId safeError).db.suppressions = _
    unfold System.answer
    split
    · exact ⟨rfl, rfl⟩
    · refine ⟨rfl, ?_⟩
      split
      · unfold OutreachDb.markOutreachSent
        split
        · rfl
        · rfl
      · rfl
  | delivered tenantId providerMessageId => exact ⟨rfl, rfl⟩

/-- A property of the calls that holds of new ones and does not look at the provider's side. -/
theorem System.traffic_calls {P : OutreachCall → Prop} {t : Traffic}
    (hprovider : ∀ (c : OutreachCall) (acceptedAt : Option Int) (answered : Bool),
      P c → P { c with acceptedAt, answered })
    (hcalls : ∀ c ∈ s.calls, P c)
    (hnew : ∀ c destination, t = .send c → s.Passes env c →
      P (s.call env c destination (renderTemplate env c.tenantId c.template).links)) :
    ∀ c ∈ (s.traffic env t).calls, P c := by
  have hmap : ∀ (id : Nat) (f : OutreachCall → OutreachCall), (∀ c, P c → P (f c)) →
      ∀ c ∈ s.updateCall id f, P c := by
    intro id f hf c hc
    obtain ⟨c₀, hc₀, rfl⟩ := mem_map.mp hc
    split
    · exact hf c₀ (hcalls c₀ hc₀)
    · exact hcalls c₀ hc₀
  cases t with
  | tick ms => exact hcalls
  | send c =>
    rcases s.sendOutreach_cases env c with
      ⟨hpasses, destination, -, hqueue⟩ | ⟨-, hsame | ⟨body, hash, reasons, hblocked⟩⟩
    · show ∀ x ∈ (s.sendOutreach env c).calls, P x
      rw [hqueue]
      intro x hx
      rcases mem_append.mp hx with hx | hx
      · exact hcalls x hx
      · rw [mem_singleton.mp hx]
        exact hnew c destination rfl hpasses
    · show ∀ x ∈ (s.sendOutreach env c).calls, P x
      rw [hsame]
      exact hcalls
    · show ∀ x ∈ (s.sendOutreach env c).calls, P x
      rw [hblocked]
      exact hcalls
  | accept id =>
    show ∀ x ∈ (s.accept id).calls, P x
    unfold System.accept
    split
    · exact hcalls
    · split
      · exact hcalls
      · exact hmap id _ fun c hc => hprovider c (some s.now) c.answered hc
  | answer id providerMessageId safeError =>
    show ∀ x ∈ (s.answer id providerMessageId safeError).calls, P x
    unfold System.answer
    split
    · exact hcalls
    · exact hmap id _ fun c hc => hprovider c c.acceptedAt true hc
  | delivered tenantId providerMessageId => exact hcalls

/-- Whom a customer has stopped is on the block list, under a hash that the gate looks up. -/
structure Silenced (env : Env) (w : Watch) : Prop where
  texts : ∀ c ∈ w.system.calls, c.channel = .sms
  blocked : ∀ tenantId channel destination, w.stopped tenantId channel destination →
    w.system.db.isSuppressed tenantId channel
      (w.system.candidates env tenantId channel destination) = true

variable {w : Watch} {tenantId : Nat} {channel : ContactChannel} {destination : String}

theorem Silenced.of_kept (h : Silenced env w) {a : Action}
    (hcalls : (w.system.act env a).calls = w.system.calls)
    (hkept : ∀ tenantId channel destination,
      ¬a.Releases env w.system tenantId channel destination →
      w.system.db.isSuppressed tenantId channel
        (w.system.candidates env tenantId channel destination) = true →
      (w.system.act env a).db.isSuppressed tenantId channel
        ((w.system.act env a).candidates env tenantId channel destination) = true)
    (hnew : ∀ tenantId channel destination, a.Stops w.system tenantId channel destination →
      (w.system.act env a).db.isSuppressed tenantId channel
        ((w.system.act env a).candidates env tenantId channel destination) = true) :
    Silenced env (w.act env a) where
  texts := by
    show ∀ c ∈ (w.system.act env a).calls, c.channel = .sms
    rw [hcalls]
    exact h.texts
  blocked := by
    rintro tenantId channel destination (⟨hstopped, hrelease⟩ | hstops)
    · exact hkept _ _ _ hrelease (h.blocked _ _ _ hstopped)
    · exact hnew _ _ _ hstops

theorem Silenced.traffic (h : Silenced env w) {t : Traffic}
    (ht : (Action.traffic t).Heard env w.system) : Silenced env (w.act env (.traffic t)) where
  texts := by
    apply System.traffic_calls (fun c _ _ hc => hc) h.texts
    rintro c destination rfl hpasses
    exact ht hpasses
  blocked := by
    rintro tenantId channel destination (⟨hstopped, -⟩ | hstops)
    · obtain ⟨hkey, hsuppressions⟩ := w.system.traffic_frame env t
      have hblocked := h.blocked tenantId channel destination hstopped
      show OutreachDb.isSuppressed (w.system.traffic env t).db tenantId channel
        (destinationHashCandidates env.crypto (w.system.traffic env t).hashKey _ _ _) = true
      unfold OutreachDb.isSuppressed
      rw [hkey, hsuppressions]
      exact hblocked
    · exact hstops.elim

theorem Silenced.inbound (h : Silenced env w) {from_ body : String}
    (ha : (Action.inbound from_ body).Heard env w.system) :
    Silenced env (w.act env (.inbound from_ body)) := by
  cases hphone : normalizePhoneE164 from_ with
  | none =>
    have hsame : w.system.act env (.inbound from_ body) = w.system := by
      show w.system.handleInboundSms env from_ body = _
      unfold System.handleInboundSms
      rw [hphone]
    apply h.of_kept
    · rw [hsame]
    · intro _ _ _ _ hblocked
      rw [hsame]
      exact hblocked
    · rintro _ _ _ ⟨-, hsome, -⟩
      rw [hphone] at hsome
      cases hsome
  | some e164 =>
    have hstep : w.system.act env (.inbound from_ body) = { w.system with
        db := w.system.textingTenants.foldl (w.system.inboundAt env e164 body) w.system.db } := by
      show w.system.handleInboundSms env from_ body = _
      unfold System.handleInboundSms
      rw [hphone]
    apply h.of_kept
    · rw [hstep]
    · intro tenantId channel destination hrelease hblocked
      rw [hstep]
      apply System.foldl_inboundAt_keeps hblocked
      intro hsms hout hin hash hmem hshared
      exact hrelease ⟨hsms, hout, hin, e164, hphone, hash, hmem, hshared⟩
    · rintro tenantId channel destination ⟨rfl, hsome, hout, hmessaged⟩
      obtain rfl : e164 = destination := some.inj (hphone.symm.trans hsome)
      rw [hstep]
      rcases ha hout e164 hphone tenantId hmessaged with hblocked | ⟨r, hr, hsms, hanswers⟩
      · apply System.foldl_inboundAt_keeps hblocked
        intro _ hnone
        rw [hnone] at hout
        cases hout
      · have htenant : r.tenantId = tenantId := by
          simp only [OutreachRow.answersTo, Bool.and_eq_true, decide_eq_true_eq] at hanswers
          exact hanswers.1.1
        have hlisted : tenantId ∈ w.system.textingTenants := by
          unfold System.textingTenants
          rw [mem_dedup, ← htenant]
          exact mem_map_of_mem (mem_filter.mpr ⟨hr, by simpa using hsms⟩)
        exact System.foldl_inboundAt_stops hout hlisted ⟨r, hr, hanswers⟩

theorem System.processUnsubscribe_keeps {token : UnsubscribeToken} {resolved : Option String}
    {hashes : List String} (h : s.db.isSuppressed tenantId channel hashes = true) :
    (s.processUnsubscribe env token resolved).1.db.isSuppressed tenantId channel hashes = true := by
  unfold System.processUnsubscribe
  split
  · exact h
  · split
    · exact h
    · rename_i row _
      cases resolved with
      | some destination => exact OutreachDb.isSuppressed_suppressHash _ _ _ _ _ _ _ h
      | none =>
        cases row.recipientHash with
        | some hash => exact OutreachDb.isSuppressed_suppressByHash _ _ _ _ _ h
        | none => exact h

theorem System.processUnsubscribe_frame (s : System) (env : Env) (token : UnsubscribeToken)
    (resolved : Option String) :
    (s.processUnsubscribe env token resolved).1.calls = s.calls ∧
      (s.processUnsubscribe env token resolved).1.hashKey = s.hashKey := by
  unfold System.processUnsubscribe
  split
  · exact ⟨rfl, rfl⟩
  · split
    · exact ⟨rfl, rfl⟩
    · exact ⟨rfl, rfl⟩

theorem Silenced.unsubscribe (h : Silenced env w) (token : UnsubscribeToken)
    (resolved : Option String) : Silenced env (w.act env (.unsubscribe token resolved)) := by
  obtain ⟨hcalls, hkey⟩ := w.system.processUnsubscribe_frame env token resolved
  apply h.of_kept
  · exact hcalls
  · intro tenantId channel destination _ hblocked
    show OutreachDb.isSuppressed _ tenantId channel (destinationHashCandidates env.crypto
      (w.system.processUnsubscribe env token resolved).1.hashKey _ _ _) = true
    rw [hkey]
    exact System.processUnsubscribe_keeps hblocked
  · -- No mail was sent, so the link stood in none.
    rintro tenantId channel destination ⟨-, ⟨c, hc, hemail, -⟩, -⟩
    rw [h.texts c hc] at hemail
    cases hemail

theorem Silenced.lift (h : Silenced env w) (tenant id : Nat) (reason : String) :
    Silenced env (w.act env (.lift tenant id reason)) := by
  apply h.of_kept
  · rfl
  · intro tenantId channel destination hrelease hblocked
    obtain ⟨x, hx, hblocks⟩ := OutreachDb.isSuppressed_iff.mp hblocked
    obtain ⟨htenant, hchannel, -, hhash⟩ := Suppression.blocks_iff.mp hblocks
    apply OutreachDb.isSuppressed_iff.mpr
    refine ⟨_, mem_map_of_mem hx, ?_⟩
    rw [if_neg]
    · exact hblocks
    · rintro ⟨hid, hsame, -⟩
      exact hrelease ⟨hsame.symm.trans htenant, x, hx, hid, htenant, hchannel, hhash⟩
  · exact fun _ _ _ hstops => hstops.elim

theorem Silenced.configureKey (h : Silenced env w) (key : String) :
    Silenced env (w.act env (.configureKey key)) := by
  apply h.of_kept
  · show (match w.system.hashKey with
      | none => { w.system with hashKey := some key }
      | some _ => w.system).calls = w.system.calls
    split <;> rfl
  · intro tenantId channel destination _ hblocked
    show OutreachDb.isSuppressed (match w.system.hashKey with
      | none => { w.system with hashKey := some key }
      | some _ => w.system).db tenantId channel ((match w.system.hashKey with
      | none => { w.system with hashKey := some key }
      | some _ => w.system).candidates env tenantId channel destination) = true
    cases hkey : w.system.hashKey with
    | some old => exact hblocked
    | none =>
      refine OutreachDb.isSuppressed_mono (fun hash hmem => ?_) hblocked
      apply candidates_configureKey
      unfold System.candidates at hmem
      rw [hkey] at hmem
      exact hmem
  · exact fun _ _ _ hstops => hstops.elim

theorem HeardRun.silenced (h : HeardRun env w) : Silenced env w := by
  induction h with
  | @start w houtreach hcalls hstopped =>
    constructor
    · rw [hcalls]
      exact fun c hc => nomatch hc
    · exact fun t ch d hd => absurd hd (hstopped t ch d)
  | @step w h a ha ih =>
    cases a with
    | traffic t => exact ih.traffic ha
    | inbound from_ body => exact ih.inbound ha
    | unsubscribe token resolved => exact ih.unsubscribe token resolved
    | lift tenant id reason => exact ih.lift tenant id reason
    | configureKey key => exact ih.configureKey key

theorem System.not_passes_of_suppressed {c : SendCall} (hdest : destination ∈ c.destination)
    (h : s.db.isSuppressed c.tenantId c.channel
      (s.candidates env c.tenantId c.channel destination) = true) : ¬s.Passes env c := by
  intro hpasses
  have hunsuppressed : s.suppressed env c = false :=
    (admitted_of_allowed hpasses.2.2.2).unsuppressed
  unfold System.suppressed at hunsuppressed
  rw [mem_def.mp hdest] at hunsuppressed
  dsimp only at hunsuppressed
  rw [h] at hunsuppressed
  cases hunsuppressed

theorem HeardRun.stopIsFinal (h : HeardRun env w) : StopIsFinal env w := by
  have hsilenced := h.silenced
  constructor
  · intro c destination hdest hstopped
    exact System.not_passes_of_suppressed hdest
      (hsilenced.blocked c.tenantId c.channel destination hstopped)
  · intro c hc hemail
    rw [hsilenced.texts c hc] at hemail
    cases hemail

end Run

def quietWatch : Watch where
  system := quietSystem
  stopped := fun _ _ _ => False

/-- A text is taken and answered; the customer's STOP finds it and is heard. -/
theorem stopIsFinal_oneStop : StopIsFinal defaultEnv
    (([.traffic (.send textCall), .traffic (.accept 1), .traffic (.answer 1 "m1" ""),
      .inbound "(704) 555-0142" "Stop."] : List Action).foldl (Watch.act defaultEnv)
      quietWatch) := by
  have hstart : HeardRun defaultEnv quietWatch := .start rfl rfl fun _ _ _ h => h
  let sent := quietWatch.act defaultEnv (.traffic (.send textCall))
  let accepted := sent.act defaultEnv (.traffic (.accept 1))
  let answered := accepted.act defaultEnv (.traffic (.answer 1 "m1" ""))
  have hsent : HeardRun defaultEnv sent := .step hstart (.traffic (.send textCall)) fun _ => rfl
  have haccepted : HeardRun defaultEnv accepted := .step hsent (.traffic (.accept 1)) trivial
  have hanswered : HeardRun defaultEnv answered :=
    .step haccepted (.traffic (.answer 1 "m1" "")) trivial
  have hheard : (Action.inbound "(704) 555-0142" "Stop.").Heard defaultEnv answered.system := by
    intro _ e164 he164 tenantId hmessaged
    right
    have hphone : normalizePhoneE164 "(704) 555-0142" = some "+17045550142" := by decide +kernel
    obtain rfl : "+17045550142" = e164 := some.inj (hphone.symm.trans he164)
    have htenant : ∀ c ∈ answered.system.calls, c.tenantId = 1 := by decide +kernel
    obtain ⟨c, hc, hto, -⟩ := hmessaged
    simp only [OutreachCall.goesTo, Bool.and_eq_true, decide_eq_true_eq] at hto
    obtain rfl : 1 = tenantId := (htenant c hc).symm.trans hto.1.1
    have hrow : ∃ r ∈ answered.system.db.outreach, r.channel = .sms ∧
        r.answersTo 1 (answered.system.hash defaultEnv 1 .sms "+17045550142") = true := by
      decide +kernel
    exact hrow
  exact HeardRun.stopIsFinal (.step hanswered (.inbound "(704) 555-0142" "Stop.") hheard)

/-- The customer's STOP comes while a text still waits for the provider; a day later the next text
passes the gate. -/
def earlyStop : Watch :=
  [.traffic (.send textCall), .inbound "(704) 555-0142" "STOP", .traffic (.accept 1),
    .traffic (.answer 1 "m1" ""), .traffic (.tick 90000000)].foldl (Watch.act defaultEnv) quietWatch

def mailEnv : Env := { defaultEnv with
  sign := some fun tenantId outreachId => toString tenantId ++ "." ++ toString outreachId
  publicBaseUrl := some ""
  encodeToken := fun token => token.signature }

def mailCall : SendCall := { textCall with
  channel := .email
  template := [.words "Your install is Thursday. 1 Main St. ", .unsubscribeLink]
  destination := some "ada@example.test"
  companyMailingAddress := some "1 Main St" }

def oneMail : Watch := quietWatch.act mailEnv (.traffic (.send mailCall))

theorem not_stopIsFinal_earlyStop : ¬StopIsFinal defaultEnv earlyStop ∧
    ¬StopIsFinal mailEnv oneMail := by
  constructor
  · intro h
    have hmessaged : (quietSystem.traffic defaultEnv (.send textCall)).Messaged 1 .sms
        "+17045550142" := by
      have hcall : ∃ c ∈ (quietSystem.traffic defaultEnv (.send textCall)).calls,
          c.goesTo 1 .sms "+17045550142" = true ∧ c.live = true := by decide +kernel
      exact hcall
    have hphone : normalizePhoneE164 "(704) 555-0142" = some "+17045550142" := by decide +kernel
    have hword : (detectOptOut "STOP").isSome = true := by decide +kernel
    have hstopped : earlyStop.stopped 1 .sms "+17045550142" :=
      .inl ⟨.inl ⟨.inl ⟨.inr ⟨rfl, hphone, hword, hmessaged⟩, id⟩, id⟩, id⟩
    have hpasses : earlyStop.system.Passes defaultEnv textCall := by decide +kernel
    exact h.silent textCall "+17045550142" rfl hstopped hpasses
  · intro h
    have hmail : ∃ c ∈ oneMail.system.calls, c.channel = .email ∧
        ∀ link ∈ c.bodyLinks, link.outreachId = 0 := by decide +kernel
    obtain ⟨c, hc, hemail, hlinks⟩ := hmail
    obtain ⟨link, hlink, haccepts⟩ := h.bodies c hc hemail
    have hno : oneMail.system.processUnsubscribe mailEnv link none = (oneMail.system, false) :=
      System.processUnsubscribe_draft (hlinks link hlink) none
    have hyes := haccepts none
    rw [hno] at hyes
    cases hyes

end HomefrontFiber.Outreach
