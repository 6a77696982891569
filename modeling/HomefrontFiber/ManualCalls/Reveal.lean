import HomefrontFiber.ManualCalls.Quiet

/-!
# Revealed numbers

A start reveals its number when its transaction reads no suppression, a live authorization and an
hour inside the window. The hold of the user is read before the transaction: a hold that arrives in
between ends the authorization, which the transaction then refuses.
-/

namespace HomefrontFiber.ManualCalls

open List

def isOpenOn (number : Nat) (a : Attempt) : Bool := a.phone = number && a.endedAt.isNone

def isCurrent (source : SourceType) (d : Dataset) : Bool := d.source = source && d.active

structure Sound (w : World) : Prop where
  numbered : Numbered (·.id) w.authorizations
  /-- An attempt has used up its authorization. -/
  spent : ∀ a ∈ w.attempts, ∃ r ∈ w.authorizations, r.id = a.authorizationId ∧ r.used = true
  once : (w.attempts.map (·.authorizationId)).Nodup
  oneOpen : ∀ number, w.attempts.countP (isOpenOn number) ≤ 1
  /-- An authorization whose start is admitted dies with a hold on its user. -/
  held : ∀ claims, .starting claims ∈ w.pending → ∃ r ∈ w.authorizations, r.id = claims.id ∧
    r.userId = claims.userId ∧
      (claims.userId ∈ w.holds → r.used = true ∨ r.invalidated = true)
  revoked : ∀ c ∈ w.consents, c.revoked = true → c.phone ∈ w.internalDnc
  current : ∀ source, w.datasets.countP (isCurrent source) ≤ 1
  attempted : ∀ a ∈ w.attempts, a.phone ∈ numbers w
  disposed : ∀ a code, .disposing a code ∈ w.pending → a.phone ∈ numbers w

variable {w w' : World} {claims r : Authorization} {s : Surroundings} {c : Candidate}

theorem Sound.of_quiet (hw : Sound w) (h : Quiet w w') : Sound w' := by
  obtain ⟨f, hf, hattempts, -⟩ := h.ended
  constructor
  case numbered => exact h.numbered hw.numbered
  case spent =>
    intro a ha
    rw [hattempts] at ha
    obtain ⟨a₀, ha₀, rfl⟩ := mem_map.mp ha
    obtain ⟨r, hr, hid, hused⟩ := hw.spent a₀ ha₀
    obtain ⟨r', hr', haged⟩ := h.aged r hr
    exact ⟨r', hr', by rw [haged.key, hid, hf.authorizationId], haged.used hused⟩
  case once =>
    rw [hattempts, map_map]
    have hsame : (·.authorizationId) ∘ f = fun a : Attempt => a.authorizationId :=
      funext hf.authorizationId
    rw [hsame]
    exact hw.once
  case oneOpen =>
    intro number
    rw [hattempts]
    refine Nat.le_trans (countP_map_le fun a _ hopen => ?_) (hw.oneOpen number)
    unfold isOpenOn at hopen ⊢
    simp only [Bool.and_eq_true, decide_eq_true_eq, Option.isNone_iff_eq_none] at hopen ⊢
    exact ⟨(hf.phone a).symm.trans hopen.1, hf.open_ a hopen.2⟩
  case held =>
    intro claims hclaims
    obtain ⟨r, hr, hid, huser, hhold⟩ := hw.held claims (h.starting claims hclaims)
    obtain ⟨r', hr', haged⟩ := h.aged r hr
    refine ⟨r', hr', haged.key.trans hid, haged.userId.trans huser, fun hheld => ?_⟩
    exact (hhold (h.holds _ hheld)).imp haged.used haged.invalidated
  case revoked =>
    intro c hc hrevoked
    rcases h.consents c hc hrevoked with ⟨c₀, hc₀, hrevoked₀, hphone⟩ | hdnc
    · exact hphone ▸ h.internalDnc _ (hw.revoked c₀ hc₀ hrevoked₀)
    · exact hdnc
  case current =>
    intro source
    rw [h.datasets]
    exact hw.current source
  case attempted =>
    intro a ha
    rw [hattempts] at ha
    obtain ⟨a₀, ha₀, rfl⟩ := mem_map.mp ha
    rw [hf.phone]
    exact h.phones _ (hw.attempted a₀ ha₀)
  case disposed => exact fun a code hp => h.phones _ (hw.disposed a code (h.disposing a code hp))

theorem Sound.checkStart (hw : Sound w) (userId authorizationId : Nat) (ready : Bool) :
    Sound (checkStart w userId authorizationId ready) := by
  unfold ManualCalls.checkStart
  split
  · exact hw
  · rename_i claims hfind
    obtain ⟨hmem, -⟩ := mem_of_find?_key hfind
    split
    · rename_i hcheck
      obtain ⟨huser, -, hfree, -⟩ := hcheck
      refine { hw with held := fun c hc => ?_, disposed := fun a code hp => ?_ }
      · rcases mem_append.mp hc with hold | hnew
        · exact hw.held c hold
        · cases mem_singleton.mp hnew
          exact ⟨claims, hmem, rfl, rfl, fun hheld => absurd (huser ▸ hheld) hfree⟩
      · rcases mem_append.mp hp with hold | hnew
        · exact hw.disposed a code hold
        · cases mem_singleton.mp hnew
    · exact hw

theorem Sound.checkDisposition (hw : Sound w) (userId attemptId : Nat)
    (code : DispositionCode) (evidence : Bool) :
    Sound (checkDisposition w userId attemptId code evidence) := by
  unfold ManualCalls.checkDisposition
  split
  · exact hw
  · rename_i a hfind
    obtain ⟨hmem, -⟩ := mem_of_find?_key hfind
    dsimp only
    split
    · refine { hw with held := fun c hc => ?_, disposed := fun a' code' hp => ?_ }
      · rcases mem_append.mp hc with hold | hnew
        · exact hw.held c hold
        · cases mem_singleton.mp hnew
      · rcases mem_append.mp hp with hold | hnew
        · exact hw.disposed a' code' hold
        · cases mem_singleton.mp hnew
          exact hw.attempted a hmem
    · exact hw

theorem Sound.hold {w : World} (hw : Sound w) (userId : Nat) :
    Sound ({ w with holds := w.holds ++ [userId] }.invalidate fun r => r.userId = userId) := by
  have hquiet := quiet_invalidate w fun r => r.userId = userId
  have hrest : Sound (w.invalidate fun r => r.userId = userId) := hw.of_quiet hquiet
  refine { hrest with held := fun claims hclaims => ?_ }
  obtain ⟨r, hr, hid, huser, hhold⟩ := hw.held claims hclaims
  refine ⟨_, mem_map_of_mem hr, ?_⟩
  by_cases hdies : r.userId = userId ∧ r.used = false ∧ r.invalidated = false
  · obtain ⟨hmine, hunused, hlive⟩ := hdies
    have hcond : (decide (r.userId = userId) && !r.used && !r.invalidated) = true := by
      simp [hmine, hunused, hlive]
    rw [if_pos hcond]
    exact ⟨hid, huser, fun _ => .inr rfl⟩
  · have hcond : ¬ (decide (r.userId = userId) && !r.used && !r.invalidated) = true := by
      simpa [and_assoc] using hdies
    rw [if_neg hcond]
    refine ⟨hid, huser, fun hheld => ?_⟩
    rcases mem_append.mp hheld with hold | hnew
    · exact hhold hold
    · have hmine : r.userId = userId := huser.trans (mem_singleton.mp hnew)
      by_contra hneither
      push Not at hneither
      simp only [ne_eq, Bool.not_eq_true] at hneither
      exact hdies ⟨hmine, hneither.1, hneither.2⟩

theorem Sound.placeHold (hw : Sound w) (userId : Nat) : Sound (placeHold w userId) := by
  unfold ManualCalls.placeHold
  split
  · exact hw
  · apply (hw.hold userId).of_quiet
    apply (quiet_terminate _ _ _).trans
    apply quiet_queue
    intro e
    split <;> rfl

theorem Sound.finalize (hw : Sound w) (source : SourceType) (effectiveAt : Int)
    (numbers : List Nat) : Sound (finalizeDncImport w source effectiveAt numbers) := by
  refine { hw with current := fun other => ?_ }
  unfold finalizeDncImport
  rw [countP_append, countP_map]
  by_cases hother : source = other
  · have hnone : w.datasets.countP
        (isCurrent other ∘ fun d => if d.source = source then { d with active := false } else d) =
          0 := by
      rw [countP_eq_zero]
      intro d _ hcurrent
      rw [Function.comp_apply] at hcurrent
      split at hcurrent
      · simp [isCurrent] at hcurrent
      · rename_i hne
        simp only [isCurrent, Bool.and_eq_true, decide_eq_true_eq] at hcurrent
        exact hne (hcurrent.1.trans hother.symm)
    rw [hnone, Nat.zero_add]
    exact countP_le_length
  · have hsame : w.datasets.countP
        (isCurrent other ∘ fun d => if d.source = source then { d with active := false } else d) =
          w.datasets.countP (isCurrent other) := by
      apply countP_congr
      intro d _
      rw [Function.comp_apply]
      split
      · rename_i heq
        have hne : ¬ d.source = other := fun h => hother (heq.symm.trans h)
        simp [isCurrent, hne]
      · rfl
    have hnew : isCurrent other ⟨source, true, effectiveAt, numbers⟩ = false := by
      simp [isCurrent, hother]
    rw [hsame, countP_singleton, hnew]
    exact hw.current other

def newAttempt (w : World) (claims : Authorization) : Attempt :=
  ⟨w.attempts.length + 1, claims.id, claims.leadId, claims.phone, claims.userId, w.now, none, none⟩

def opened (w : World) (claims : Authorization) : World :=
  { w with
    authorizations := w.authorizations.map fun x : Authorization =>
      if x.id = claims.id then { x with used := true } else x
    attempts := w.attempts ++ [newAttempt w claims] }

/-- The row of the claims, which is bound to the same user, lead, contact and phone. -/
structure Bound (w : World) (claims r : Authorization) : Prop where
  mem : r ∈ w.authorizations
  key : r.id = claims.id
  userId : r.userId = claims.userId
  leadId : r.leadId = claims.leadId
  contactId : r.contactId = claims.contactId
  phone : r.phone = claims.phone

theorem bound_of_find (h : findAuthorization w claims = some r) : Bound w claims r := by
  unfold findAuthorization at h
  have hmatch := find?_some h
  simp only [Bool.and_eq_true, decide_eq_true_eq] at hmatch
  obtain ⟨⟨⟨⟨hid, huser⟩, hlead⟩, hcontact⟩, hphone⟩ := hmatch
  exact ⟨mem_of_find?_eq_some h, hid, huser, hlead, hcontact, hphone⟩

theorem start_cases {number : Nat} (h : startManualAttempt w claims s = some (w', number)) :
    ∃ r c, Bound w claims r ∧ getCallingCandidate w claims.leadId = some c ∧
      mayStart w claims r c s = true ∧ number = claims.phone ∧
        w' = (opened w claims).editEntry claims.leadId fun row =>
          { row with stage := .attempted, assignedUserId := some claims.userId } := by
  unfold startManualAttempt at h
  simp only [Option.bind_eq_bind, Option.bind_eq_some_iff] at h
  obtain ⟨r, hr, c, hc, h⟩ := h
  have hbound := bound_of_find hr
  split at h
  · rename_i hmay
    simp only [Option.some.injEq, Prod.mk.injEq] at h
    refine ⟨r, c, hbound, hc, hmay, h.2.symm, ?_⟩
    rw [← h.1]
    unfold opened newAttempt
    rw [hbound.key]
  · cases h

structure CandidateRows (w : World) (leadId : Nat) (c : Candidate) : Prop where
  entry : c.entry ∈ w.queue
  entryLead : c.entry.leadId = leadId
  lead : w.leads.find? (·.id = leadId) = some c.lead
  phone : ∀ p, c.phone = some p → p ∈ w.phones

theorem candidateRows {leadId : Nat}
    (h : getCallingCandidate w leadId = some c) : CandidateRows w leadId c := by
  unfold getCallingCandidate at h
  simp only [Option.bind_eq_bind, Option.bind_eq_some_iff, Option.some.injEq] at h
  obtain ⟨entry, hentry, lead, hlead, rfl⟩ := h
  obtain ⟨hmem, hid⟩ := mem_of_find?_key hentry
  refine ⟨hmem, hid, hlead, fun p hp => ?_⟩
  obtain ⟨number, -, hfind⟩ := Option.bind_eq_some_iff.mp hp
  exact mem_of_find?_eq_some hfind

structure MayStart (w : World) (claims r : Authorization) (c : Candidate) (s : Surroundings) :
    Prop where
  live : authorizationLive w r = true
  candidate : candidateMatches claims c = true
  eligible : (buildEvaluation w claims.userId c true s).eligible = true
  free : openAttemptOn w claims.phone = false
  unsuppressed : notSuppressed w claims c = true
  hours : insideHours w c = true

theorem mayStart_checks (h : mayStart w claims r c s = true) : MayStart w claims r c s := by
  unfold mayStart at h
  simp only [Bool.and_eq_true, Bool.not_eq_true'] at h
  obtain ⟨⟨⟨⟨⟨⟨⟨⟨⟨⟨⟨⟨hlive, -⟩, hcandidate⟩, heligible⟩, -⟩, hfree⟩, hsuppressed⟩, -⟩, -⟩, hhours⟩,
    -⟩, -⟩, -⟩ := h
  exact ⟨hlive, hcandidate, heligible, hfree, hsuppressed, hhours⟩

theorem MayStart.number
    (h : MayStart w claims r c s) : ∃ p, c.phone = some p ∧ p.number = claims.phone := by
  have hmatches := h.candidate
  unfold candidateMatches at hmatches
  simp only [Bool.and_eq_true] at hmatches
  obtain ⟨⟨⟨⟨hphone, -⟩, -⟩, -⟩, -⟩ := hmatches
  cases hp : c.phone with
  | none =>
    rw [hp] at hphone
    cases hphone
  | some p =>
    rw [hp] at hphone
    exact ⟨p, rfl, by simpa using hphone⟩

theorem MayStart.unused (h : MayStart w claims r c s) :
    r.used = false ∧ r.invalidated = false ∧ w.now < r.expiresAt := by
  have hlive := h.live
  unfold authorizationLive at hlive
  simpa [and_assoc] using hlive

theorem opened_sound (hw : Sound w) (hbound : Bound w claims r) (hunused : r.used = false)
    (hfree : openAttemptOn w claims.phone = false) (hphone : claims.phone ∈ numbers w) :
    Sound (opened w claims) := by
  have hfresh : ∀ a ∈ w.attempts, a.authorizationId ≠ claims.id := by
    intro a ha hsame
    obtain ⟨r', hr', hid, hused⟩ := hw.spent a ha
    have hrow : r' = r :=
      hw.numbered.eq_of_key hr' hbound.mem (hid.trans (hsame.trans hbound.key.symm))
    rw [hrow, hunused] at hused
    cases hused
  constructor
  case numbered => exact hw.numbered.map fun x _ => by split <;> rfl
  case spent =>
    intro a ha
    rcases mem_append.mp ha with hold | hnew
    · obtain ⟨r', hr', hid, hused⟩ := hw.spent a hold
      refine ⟨_, mem_map_of_mem hr', ?_⟩
      rw [if_neg (hid.symm ▸ hfresh a hold)]
      exact ⟨hid, hused⟩
    · refine ⟨_, mem_map_of_mem hbound.mem, ?_⟩
      rw [if_pos hbound.key, mem_singleton.mp hnew]
      exact ⟨hbound.key, rfl⟩
  case once =>
    have hnew : w.attempts.find?
        (·.authorizationId = (newAttempt w claims).authorizationId) = none :=
      find?_eq_none.mpr fun a ha => by
        rw [decide_eq_true_eq]
        exact hfresh a ha
    exact nodup_key_snoc hw.once hnew
  case oneOpen =>
    intro number
    change (w.attempts ++ [newAttempt w claims]).countP (isOpenOn number) ≤ 1
    rw [countP_append]
    by_cases hnumber : claims.phone = number
    · have hnone : w.attempts.countP (isOpenOn number) = 0 := by
        rw [countP_eq_zero]
        intro a ha hopen
        unfold openAttemptOn at hfree
        have hclosed := any_eq_false.mp hfree a ha
        unfold isOpenOn at hopen
        rw [hnumber] at hclosed
        simp only [Option.isNone_iff_eq_none, Bool.and_eq_true, decide_eq_true_eq] at hopen hclosed
        exact hclosed hopen
      rw [hnone, Nat.zero_add]
      exact countP_le_length
    · have hother : isOpenOn number (newAttempt w claims) = false := by
        simp [isOpenOn, newAttempt, hnumber]
      rw [countP_singleton, hother]
      exact hw.oneOpen number
  case held =>
    intro claims' hclaims
    obtain ⟨r', hr', hid, huser, hhold⟩ := hw.held claims' hclaims
    refine ⟨_, mem_map_of_mem hr', ?_⟩
    split
    · exact ⟨hid, huser, fun _ => .inl rfl⟩
    · exact ⟨hid, huser, hhold⟩
  case revoked => exact hw.revoked
  case current => exact hw.current
  case attempted =>
    intro a ha
    rcases mem_append.mp ha with hold | hnew
    · exact hw.attempted a hold
    · rw [mem_singleton.mp hnew]
      exact hphone
  case disposed => exact hw.disposed

theorem Sound.start {w w' : World} (hw : Sound w) {claims : Authorization} {s : Surroundings}
    {number : Nat} (h : startManualAttempt w claims s = some (w', number)) : Sound w' := by
  obtain ⟨r, c, hbound, hcandidate, hmay, -, rfl⟩ := start_cases h
  have hchecks := mayStart_checks hmay
  obtain ⟨p, hp, hnumber⟩ := hchecks.number
  have hphone : claims.phone ∈ numbers w :=
    mem_map.mpr ⟨p, (candidateRows hcandidate).phone p hp, hnumber⟩
  apply (opened_sound hw hbound hchecks.unused.1 hchecks.free hphone).of_quiet
  exact quiet_editEntry _ _ fun _ => rfl

theorem Sound.next (hw : Sound w) (a : Action) : Sound (step w a) := by
  cases a with
  | checkStart userId authorizationId ready => exact hw.checkStart userId authorizationId ready
  | start index s =>
    unfold step reveal
    dsimp only
    split
    · rename_i claims w' hresume
      have hresumed : Sound w' := hw.of_quiet (quiet_resume hresume)
      cases hstart : startManualAttempt w' claims s with
      | none => exact hw
      | some result => exact hresumed.start hstart
    · exact hw
  | checkDisposition userId attemptId code evidence =>
    exact hw.checkDisposition userId attemptId code evidence
  | placeHold userId => exact hw.placeHold userId
  | finalize source effectiveAt numbers => exact hw.finalize source effectiveAt numbers
  | _ => exact hw.of_quiet (quiet_step hw.disposed rfl)

/-- The override of the full mode: a current consent that nobody revoked. -/
def ConsentOverrides (w : World) (claims : Authorization) (allowed : Bool) : Prop :=
  w.simpleMode = false ∧ allowed = true ∧ ∃ c ∈ w.consents, c.phone = claims.phone ∧
    c.leadId = claims.leadId ∧ c.seller = w.profile.sellerName ∧
      c.expiresAt.all (w.now < ·) = true ∧ c.revoked = false

def Unlisted (w : World) (source : SourceType) (number : Nat) : Prop :=
  ∀ d ∈ w.datasets, d.source = source → d.active = true → number ∉ d.numbers

/-- The window is the organisation's, and in the full mode also the one of the rules. -/
def InsideHours (w : World) (lead : Lead) (s : Surroundings) : Prop :=
  ∃ zone, (timeZoneFor w lead).1 = some zone ∧
    isInsideCallingWindow w.now zone w.profile.window = true ∧
      (w.simpleMode = false → isInsideCallingWindow w.now zone s.ruleWindow = true)

structure Clear (w : World) (claims : Authorization) (s : Surroundings) : Prop where
  internalDnc : claims.phone ∉ w.internalDnc
  platformDnc : claims.phone ∉ w.platformDnc
  national : Unlisted w .national claims.phone ∨
    ConsentOverrides w claims w.profile.allowNationalDncConsentOverride
  consents : ∀ c ∈ w.consents, c.phone = claims.phone → c.revoked = false
  authorization : ∃ r, Bound w claims r ∧ r.used = false ∧ r.invalidated = false ∧
    w.now < r.expiresAt
  hold : claims.userId ∉ w.holds
  lead : ∃ lead, w.leads.find? (·.id = claims.leadId) = some lead ∧
    (Unlisted w (.state lead.state) claims.phone ∨
      ConsentOverrides w claims w.profile.allowStateDncConsentOverride) ∧ InsideHours w lead s

theorem latest_mem {α : Type} {at_ : α → Int} {l : List α} {a : α} (h : latest at_ l = some a) :
    a ∈ l := by
  induction l generalizing a with
  | nil => cases h
  | cons b l ih =>
    unfold latest at h
    split at h
    · cases h
      exact mem_cons_self
    · rename_i c hc
      split at h
      · cases h
        exact mem_cons_of_mem b (ih hc)
      · cases h
        exact mem_cons_self

theorem Sound.currentDataset (hw : Sound w) {d : Dataset} (hd : d ∈ w.datasets)
    (hactive : d.active = true) : currentDncDataset w d.source = some d := by
  have hmem : d ∈ w.datasets.filter fun x => x.source = d.source && x.active :=
    mem_filter.mpr ⟨hd, by simp [hactive]⟩
  have hone : (w.datasets.filter fun x => x.source = d.source && x.active).length ≤ 1 := by
    rw [← countP_eq_length_filter]
    exact hw.current d.source
  unfold currentDncDataset
  cases hfilter : w.datasets.filter fun x => x.source = d.source && x.active with
  | nil =>
    rw [hfilter] at hmem
    cases hmem
  | cons e l =>
    rw [hfilter] at hmem hone
    have hnil : l = [] := eq_nil_of_length_eq_zero (by simpa using hone)
    subst hnil
    rw [mem_singleton.mp hmem]
    rfl

theorem Sound.unlisted (hw : Sound w) {source : SourceType} {number : Nat}
    (h : dncHit w source (some number) = false) : Unlisted w source number := by
  intro d hd hsource hactive hnumber
  subst hsource
  have hcurrent := hw.currentDataset hd hactive
  unfold dncHit at h
  rw [hcurrent] at h
  simp [hnumber] at h

theorem override_of_consent {allowed : Bool}
    (hmode : w.simpleMode = false) (hallowed : allowed = true)
    (hsome : (currentConsent w (some claims.phone) claims.leadId).isSome = true)
    (hrevoked : (currentConsent w (some claims.phone) claims.leadId).any (·.revoked) = false) :
    ConsentOverrides w claims allowed := by
  obtain ⟨c, hc⟩ := Option.isSome_iff_exists.mp hsome
  rw [hc] at hrevoked
  have hmem := latest_mem hc
  simp only [mem_filter, Bool.and_eq_true, decide_eq_true_eq, Option.some.injEq] at hmem
  obtain ⟨hconsent, ⟨⟨hphone, hlead⟩, hseller⟩, hexpires⟩ := hmem
  exact ⟨hmode, hallowed, c, hconsent, hphone, hlead, hseller, hexpires, by simpa using hrevoked⟩

theorem hours_of_eligible {i : ComplianceInput}
    (h : (evaluateCallingCompliance i false).eligible = true) : hoursOk i = true := by
  rw [eligible_iff] at h
  exact h (hoursOk i, .blockedCallingHours) (by simp [fullPrecedence])

theorem Sound.clear (hw : Sound w)
    {number : Nat} (hclaims : ∃ r ∈ w.authorizations, r.id = claims.id ∧
      (claims.userId ∈ w.holds → r.used = true ∨ r.invalidated = true))
    (h : startManualAttempt w claims s = some (w', number)) :
    number = claims.phone ∧ Clear w claims s := by
  obtain ⟨r, c, hbound, hcandidate, hmay, hnumber, -⟩ := start_cases h
  have hchecks := mayStart_checks hmay
  obtain ⟨hunused, hlive, hunexpired⟩ := hchecks.unused
  obtain ⟨p, hp, hphone⟩ := hchecks.number
  have hread : c.phone.map (·.number) = some claims.phone := by rw [hp, Option.map_some, hphone]
  have hrows := candidateRows hcandidate
  have hinput := unsuppressed_of_eligible hchecks.eligible
  have hentry : c.entry.leadId = claims.leadId := hrows.entryLead
  have hinternal : claims.phone ∉ w.internalDnc := by
    have hsuppressed := hchecks.unsuppressed
    unfold notSuppressed internalDncHit at hsuppressed
    rw [hread] at hsuppressed
    simp only [Option.any_some, Bool.and_eq_true, Bool.not_eq_true', decide_eq_false_iff_not]
      at hsuppressed
    exact hsuppressed.1
  have hconsent : (currentConsent w (some claims.phone) claims.leadId).any (·.revoked) = false := by
    have hsuppressed := hchecks.unsuppressed
    unfold notSuppressed at hsuppressed
    rw [hread] at hsuppressed
    simp only [Bool.and_eq_true, Bool.not_eq_true'] at hsuppressed
    exact hsuppressed.2
  have hplatform : claims.phone ∉ w.platformDnc := by
    have hhit : platformDncHit w (c.phone.map (·.number)) = false := hinput.internalDnc
    rw [hread] at hhit
    simpa [platformDncHit] using hhit
  have hverified : (policyInput w claims.userId c true s).verifiedConsent = true →
      (currentConsent w (some claims.phone) claims.leadId).isSome = true := by
    intro hsome
    change (currentConsent w (c.phone.map (·.number)) c.entry.leadId).isSome = true at hsome
    rw [hread, hentry] at hsome
    exact hsome
  have hunlisted : ∀ source, (dncHit w source (c.phone.map (·.number)) || false) = false →
      Unlisted w source claims.phone := by
    intro source hmiss
    rw [hread, Bool.or_false] at hmiss
    exact hw.unlisted hmiss
  have hnational : Unlisted w .national claims.phone ∨
      ConsentOverrides w claims w.profile.allowNationalDncConsentOverride := by
    rcases hinput.national with hmiss | ⟨hmode, hsome, hallowed⟩
    · have hboth : (dncHit w .national (c.phone.map (·.number)) || s.tracedNationalDnc) = false :=
        hmiss
      rw [Bool.or_eq_false_iff] at hboth
      exact .inl (hunlisted _ (by rw [hboth.1]; rfl))
    · exact .inr (override_of_consent hmode hallowed (hverified hsome) hconsent)
  have hstate : Unlisted w (.state c.lead.state) claims.phone ∨
      ConsentOverrides w claims w.profile.allowStateDncConsentOverride := by
    rcases hinput.state with hmiss | ⟨hmode, hsome, hallowed⟩
    · have hboth : (dncHit w (.state c.lead.state) (c.phone.map (·.number)) || s.tracedStateDnc) =
          false := hmiss
      rw [Bool.or_eq_false_iff] at hboth
      exact .inl (hunlisted _ (by rw [hboth.1]; rfl))
    · exact .inr (override_of_consent hmode hallowed (hverified hsome) hconsent)
  have hhold : claims.userId ∉ w.holds := by
    intro hheld
    obtain ⟨r', hr', hid, hdead⟩ := hclaims
    have hrow : r' = r := hw.numbered.eq_of_key hr' hbound.mem (hid.trans hbound.key.symm)
    rw [hrow, hunused, hlive] at hdead
    simpa using hdead hheld
  have hhours : InsideHours w c.lead s := by
    have hinside := hchecks.hours
    unfold insideHours at hinside
    cases hzone : (timeZoneFor w c.lead).1 with
    | none =>
      simp [hzone] at hinside
    | some zone =>
      simp only [hzone, Option.any_some, Bool.and_eq_true] at hinside
      refine ⟨zone, hzone, hinside.2, fun hmode => ?_⟩
      have heligible := hchecks.eligible
      unfold buildEvaluation at heligible
      rw [hmode] at heligible
      have hrules := hours_of_eligible heligible
      unfold hoursOk at hrules
      change (timeZoneFor w c.lead).1.any (isInsideCallingWindow w.now · s.ruleWindow) = true
        at hrules
      rw [hzone] at hrules
      exact hrules
  refine ⟨hnumber, hinternal, hplatform, hnational, fun consent hmem hsame => ?_,
    ⟨r, hbound, hunused, hlive, hunexpired⟩, hhold, ⟨c.lead, hrows.lead, hstate, hhours⟩⟩
  -- the phone of a revoked consent is suppressed for good
  by_contra hrevoked
  have hdnc := hw.revoked consent hmem (by simpa using hrevoked)
  exact hinternal (hsame ▸ hdnc)

theorem Clear.of_pending {waiting : List Pending}
    (h : Clear { w with pending := waiting } claims s) : Clear w claims s := by
  obtain ⟨r, hbound, hunused⟩ := h.authorization
  exact ⟨h.internalDnc, h.platformDnc, h.national, h.consents, ⟨r, { hbound with }, hunused⟩, h.hold,
    h.lead⟩

def dayWindow : CallingWindow := ⟨['0', '9', ':', '0', '0'], ['1', '7', ':', '0', '0']⟩

def openProfile : Profile where
  callingEnabled := true
  emergencyDisabled := false
  callerIdAuthorized := true
  callerIdReference := true
  sellerName := []
  window := dayWindow
  defaultTimeZone := none
  allowNationalDncConsentOverride := false
  allowStateDncConsentOverride := false
  propagateOptOutPlatformWide := false

def goodSurroundings : Surroundings where
  environmentReady := true
  environmentEmergency := false
  tenantAuthorized := true
  leadEvidence := true
  leadStatusOpen := true
  canManage := false
  representativeAuthorized := true
  sellerAuthorized := true
  registrationValid := true
  legalConfigurationApproved := true
  providerUseApproved := true
  blockedLineType := false
  residentAssociationAllowed := true
  identityConfidence := 1
  minimumIdentityConfidence := 1
  tracedTenantDnc := false
  tracedNationalDnc := false
  tracedStateDnc := false
  nationalDncFresh := true
  stateDncFresh := true
  ruleWindow := dayWindow
  frequencyAllowed := true
  scriptApproved := true
  ruleVersion := ['1']
  ruleVersionAvailable := true

def noonWorld : World where
  simpleMode := true
  newYork := Zone.utc
  profile := openProfile
  now := 43200000
  leads := [⟨7, ['N', 'C']⟩]
  queue := [{ leadId := 7, contactId := some 7, phone := some 17 }]
  phones := [{ number := 17, validation := .valid }]
  associations := [{ leadId := 7, phone := 17 }]

def firstCall : List Action := [
  .issue 3 7 goodSurroundings, .readCandidate 0 120, .insertAuthorization 0, .checkStart 3 1 true]

theorem sound_noonWorld : Sound noonWorld where
  numbered := rfl
  spent _ ha := nomatch ha
  once := nodup_nil
  oneOpen _ := Nat.zero_le 1
  held _ hclaims := nomatch hclaims
  revoked _ hc := nomatch hc
  current _ := Nat.zero_le 1
  attempted _ ha := nomatch ha
  disposed _ _ hp := nomatch hp

end HomefrontFiber.ManualCalls
