import HomefrontFiber.ManualCalls.Reveal

/-!
# Opt-outs

An opt-out silences a phone: it is not valid, nothing of it is live or scheduled, no attempt on it is
open and every queue entry that it is the phone of stays closed. Four operations write these rows by
the lead or by the phone without a look at the suppression, and `Clean` says when that does no harm.
-/

namespace HomefrontFiber.ManualCalls

open List Option

structure Silent (w : World) (number : Nat) : Prop where
  phone : ∀ p ∈ w.phones, p.number = number → p.validation ≠ .valid
  authorization : ∀ r ∈ w.authorizations, r.phone = number →
    r.used = true ∨ r.invalidated = true ∨ r.expiresAt ≤ w.now
  callback : ∀ c ∈ w.callbacks, c.phone = number → c.scheduled = false
  attempt : ∀ a ∈ w.attempts, a.phone = number → a.endedAt ≠ none
  entry : ∀ e ∈ w.queue, e.phone = some number →
    e.closedAt ≠ none ∧ (e.stage = .suppressed ∨ e.stage = .complianceBlocked)

def Final (w : World) : Prop := ∀ number ∈ w.internalDnc, Silent w number

variable {n leadId index : Nat} {p : Pending} {w' : World} {code : DispositionCode} {a : Attempt}

section Rows

variable {w : World} {number : Nat}

theorem Silent.invalidate (h : Silent w number) (which : Authorization → Bool) :
    Silent (w.invalidate which) number :=
  { h with
    authorization := fun r hr hphone => by
      obtain ⟨r₀, hr₀, rfl⟩ := mem_map.mp hr
      revert hphone
      split
      · exact fun _ => .inr (.inl rfl)
      · exact h.authorization r₀ hr₀ }

theorem Silent.cancelCallbacks (h : Silent w number) (which : Callback → Bool) :
    Silent (w.cancelCallbacks which) number :=
  { h with
    callback := fun c hc hphone => by
      obtain ⟨c₀, hc₀, rfl⟩ := mem_map.mp hc
      revert hphone
      split
      · exact fun _ => rfl
      · exact h.callback c₀ hc₀ }

theorem Silent.terminate (h : Silent w number) (which : Attempt → Bool) (code : DispositionCode) :
    Silent (w.terminate which code) number :=
  { h with
    attempt := fun a ha hphone => by
      obtain ⟨a₀, ha₀, rfl⟩ := mem_map.mp ha
      revert hphone
      split
      · exact fun _ => some_ne_none _
      · exact h.attempt a₀ ha₀ }

theorem Silent.endAttempt (h : Silent w number) (a : Attempt) (code : DispositionCode) :
    Silent (endAttempt w a code) number :=
  { h with
    attempt := fun x hx hphone => by
      obtain ⟨x₀, hx₀, rfl⟩ := mem_map.mp hx
      revert hphone
      split
      · exact fun _ => some_ne_none _
      · exact h.attempt x₀ hx₀ }

theorem Silent.editPhone (h : Silent w number) {f : Phone → Phone}
    (hnumber : ∀ p, (f p).number = p.number)
    (hvalid : n = number → ∀ p, (f p).validation ≠ .valid) : Silent (w.editPhone n f) number :=
  { h with
    phone := fun p hp hsame => by
      obtain ⟨p₀, hp₀, rfl⟩ := mem_map.mp hp
      revert hsame
      split
      · rename_i hn
        exact fun hsame => hvalid (hn.symm.trans ((hnumber p₀).symm.trans hsame)) p₀
      · exact h.phone p₀ hp₀ }

theorem Silent.editQueue (h : Silent w number) {f : Entry → Entry}
    (hf : ∀ e ∈ w.queue, (f e).phone = some number →
      (f e).closedAt ≠ none ∧ ((f e).stage = .suppressed ∨ (f e).stage = .complianceBlocked)) :
    Silent { w with queue := w.queue.map f } number :=
  { h with
    entry := fun e he hphone => by
      obtain ⟨e₀, he₀, rfl⟩ := mem_map.mp he
      exact hf e₀ he₀ hphone }

theorem Silent.editEntry (h : Silent w number) {f : Entry → Entry}
    (hf : ∀ e ∈ w.queue, e.leadId = leadId → (f e).phone = some number →
      (f e).closedAt ≠ none ∧ ((f e).stage = .suppressed ∨ (f e).stage = .complianceBlocked)) :
    Silent (w.editEntry leadId f) number := by
  apply h.editQueue
  intro e he hphone
  revert hphone
  split
  · exact hf e he ‹_›
  · exact h.entry e he

theorem Silent.tick (h : Silent w number) (ms : Nat) :
    Silent { w with now := w.now + ms } number :=
  { h with
    authorization := fun r hr hphone => by
      rcases h.authorization r hr hphone with hused | hdead | hold
      · exact .inl hused
      · exact .inr (.inl hdead)
      · have hlater : r.expiresAt ≤ w.now + ms := by omega
        exact .inr (.inr hlater) }

theorem Silent.resume (h : Silent w number)
    (hresume : resume w index = some (p, w')) : Silent w' number := by
  unfold ManualCalls.resume at hresume
  simp only [map_eq_some_iff, Prod.mk.injEq] at hresume
  obtain ⟨q, -, -, hw⟩ := hresume
  rw [← hw]
  exact { h with }

end Rows

/-- The rows of the phone and its entries after an opt-out, but for the attempts. -/
def suppress (w : World) (number : Nat) (reason : DispositionCode) : World :=
  ((({ w with
      internalDnc := if number ∈ w.internalDnc then w.internalDnc else w.internalDnc ++ [number]
      platformDnc :=
        if w.profile.propagateOptOutPlatformWide && number ∉ w.platformDnc then
          w.platformDnc ++ [number]
        else w.platformDnc
      associations := w.associations.map fun a : Association =>
        if a.phone = number then
          { a with wrongParty := a.wrongParty || saysWrongParty reason }
        else a
      queue := w.queue.map fun e : Entry =>
        if e.phone = some number then { e with stage := .suppressed, closedAt := some w.now }
        else e }.editPhone number fun p => { p with validation := .internalDnc }).cancelCallbacks
    fun c => c.phone = number).invalidate fun r => r.phone = number)

theorem optOut_eq {w : World} {number : Nat} (hknown : number ∈ numbers w)
    (reason : DispositionCode) (leave : Option Nat) :
    createInternalOptOut w number reason leave =
      (suppress w number reason).terminate
        (fun a => a.phone = number && some a.id ≠ leave) (terminalCode reason) := by
  have hphone : w.phones.any (·.number = number) = true := by
    obtain ⟨p, hp, hnumber⟩ := mem_map.mp hknown
    exact any_eq_true.mpr ⟨p, hp, by simpa using hnumber⟩
  unfold createInternalOptOut
  rw [if_pos hphone]
  rfl

theorem optOut_unknown {w : World} {number : Nat} (hunknown : number ∉ numbers w)
    (reason : DispositionCode) (leave : Option Nat) :
    createInternalOptOut w number reason leave = w := by
  have hphone : ¬ w.phones.any (·.number = number) = true := by
    intro hany
    obtain ⟨p, hp, hnumber⟩ := any_eq_true.mp hany
    exact hunknown (mem_map.mpr ⟨p, hp, by simpa using hnumber⟩)
  unfold createInternalOptOut
  rw [if_neg hphone]

theorem mem_suppress (w : World) (n number : Nat) (reason : DispositionCode) :
    n ∈ (suppress w number reason).internalDnc ↔ n ∈ w.internalDnc ∨ n = number := by
  change n ∈ (if number ∈ w.internalDnc then w.internalDnc else w.internalDnc ++ [number]) ↔ _
  split
  · rename_i hmem
    exact ⟨.inl, fun h => h.elim id fun hn => hn ▸ hmem⟩
  · rw [mem_append, mem_singleton]

theorem Silent.suppress {w : World} (h : Silent w n) (number : Nat)
    (reason : DispositionCode) : Silent (suppress w number reason) n := by
  unfold ManualCalls.suppress
  apply Silent.invalidate
  apply Silent.cancelCallbacks
  apply Silent.editPhone
  · have hqueue := h.editQueue (f := fun e =>
      if e.phone = some number then { e with stage := .suppressed, closedAt := some w.now } else e)
      fun e he hphone => by
        revert hphone
        split
        · exact fun _ => ⟨some_ne_none _, .inl rfl⟩
        · exact h.entry e he
    exact { hqueue with }
  · exact fun _ => rfl
  · exact fun _ p => by simp

theorem silent_of_suppress (w : World) (number : Nat) (reason : DispositionCode)
    (hphones : w'.phones = (suppress w number reason).phones)
    (hauthorizations : w'.authorizations = (suppress w number reason).authorizations)
    (hcallbacks : w'.callbacks = (suppress w number reason).callbacks)
    (hqueue : w'.queue = (suppress w number reason).queue)
    (hended : ∀ a ∈ w'.attempts, a.phone = number → a.endedAt ≠ none) : Silent w' number where
  phone p hp hnumber := by
    rw [hphones] at hp
    obtain ⟨p₀, -, rfl⟩ := mem_map.mp hp
    revert hnumber
    split
    · exact fun _ => by simp
    · exact fun hnumber => absurd hnumber ‹_›
  authorization r hr hphone := by
    rw [hauthorizations] at hr
    obtain ⟨r₀, -, rfl⟩ := mem_map.mp hr
    revert hphone
    split
    · exact fun _ => .inr (.inl rfl)
    · rename_i hlive
      intro hphone
      simp only [hphone, decide_true, Bool.true_and, Bool.and_eq_true, Bool.not_eq_true',
        not_and, Bool.not_eq_false] at hlive
      by_cases hused : r₀.used = true
      · exact .inl hused
      · exact .inr (.inl (hlive (by simpa using hused)))
  callback c hc hphone := by
    rw [hcallbacks] at hc
    obtain ⟨c₀, -, rfl⟩ := mem_map.mp hc
    revert hphone
    split
    · exact fun _ => rfl
    · rename_i hscheduled
      intro hphone
      simpa [hphone] using hscheduled
  attempt := hended
  entry e he hphone := by
    rw [hqueue] at he
    obtain ⟨e₀, -, rfl⟩ := mem_map.mp he
    revert hphone
    split
    · exact fun _ => ⟨some_ne_none _, .inl rfl⟩
    · exact fun hphone => absurd hphone ‹_›

theorem Final.optOut {w : World} (h : Final w) (number : Nat) (reason : DispositionCode) :
    Final (createInternalOptOut w number reason none) := by
  by_cases hknown : number ∈ numbers w
  · rw [optOut_eq hknown]
    intro n hn
    rcases (mem_suppress w n number reason).mp hn with hold | rfl
    · exact ((h n hold).suppress number reason).terminate _ _
    · refine silent_of_suppress w n reason rfl rfl rfl rfl fun a ha hphone => ?_
      obtain ⟨a₀, -, rfl⟩ := mem_map.mp ha
      revert hphone
      split
      · exact fun _ => some_ne_none _
      · rename_i hclosed
        intro hphone
        simpa [hphone] using hclosed
  · rw [optOut_unknown hknown]
    exact h

def settle (w : World) (a : Attempt) (code : DispositionCode) : World :=
  let w₅ := if code = .disconnected then disconnectPhone w a else w
  let w₆ := if code = .callbackRequested then scheduleCallback w₅ a else w₅
  if terminalStage (stageOfCode code) then closeLead w₆ a else w₆

theorem record_eq_settle (w : World) (a : Attempt) (h : suppresses code = false) :
    recordCallDisposition w a code =
      if a.id ∈ w.dispositions then w
      else settle (moveQueue (endAttempt w a code) a code) a code := by
  have hrevoked : code ≠ .consentRevoked := by
    rintro rfl
    cases h
  unfold recordCallDisposition settle
  simp only [h, hrevoked, if_false, Bool.false_eq_true]

theorem settle_queue (w : World) (a : Attempt) (code : DispositionCode) :
    (settle w a code).queue = w.queue ∧ (settle w a code).internalDnc = w.internalDnc := by
  unfold settle
  split <;> split <;> split <;> exact ⟨rfl, rfl⟩

theorem Silent.settle {w : World} {number : Nat} (h : Silent w number)
    (hother : a.phone ≠ number) (code : DispositionCode) : Silent (settle w a code) number := by
  have hdisconnect : Silent (if code = .disconnected then disconnectPhone w a else w) number := by
    split
    · apply Silent.invalidate
      apply h.editPhone
      · exact fun _ => rfl
      · exact fun _ _ => by simp
    · exact h
  have hcallback : ∀ w', Silent w' number →
      Silent (if code = .callbackRequested then scheduleCallback w' a else w') number := by
    intro w' hw'
    split
    · refine { hw' with callback := fun c hc hphone => ?_ }
      rcases mem_append.mp hc with hold | hnew
      · exact hw'.callback c hold hphone
      · rw [mem_singleton.mp hnew] at hphone
        exact absurd hphone hother
    · exact hw'
  unfold ManualCalls.settle
  dsimp only
  split
  · exact ((hcallback _ hdisconnect).cancelCallbacks _).invalidate _
  · exact hcallback _ hdisconnect

def EntryFree (w : World) (leadId : Nat) : Prop :=
  ∀ e ∈ w.queue, e.leadId = leadId → ∀ number, e.phone = some number → number ∉ w.internalDnc

theorem final_record_iff {w : World} (h : Final w)
    (hsuppresses : suppresses code = false) (hfirst : a.id ∉ w.dispositions)
    (hphone : a.phone ∉ w.internalDnc) :
    Final (recordCallDisposition w a code) ↔ EntryFree w a.leadId := by
  rw [record_eq_settle w a hsuppresses, if_neg hfirst]
  obtain ⟨hqueue, hdnc⟩ := settle_queue (moveQueue (endAttempt w a code) a code) a code
  constructor
  · intro hfinal e he hlead number hnumber hsilenced
    have hsilent := hfinal number (hdnc ▸ hsilenced)
    have hmoved := mem_map_of_mem (f := fun e : Entry =>
      if e.leadId = a.leadId then
        { e with
          stage := stageOfCode code
          closedAt := if stageOfCode code = .converted ∨ stageOfCode code = .closed then some w.now
            else none }
      else e) he
    have hentry := hsilent.entry _ (by rw [hqueue]; exact hmoved)
    simp only [hlead, if_true] at hentry
    obtain ⟨hclosed, hstage⟩ := hentry hnumber
    -- an entry that closes here has another stage
    split at hclosed
    · rename_i hends
      rcases hstage with hstage | hstage <;> simp [hstage] at hends
    · exact hclosed rfl
  · intro hfree number hnumber
    rw [hdnc] at hnumber
    have hother : a.phone ≠ number := fun hsame => hphone (hsame ▸ hnumber)
    refine Silent.settle ?_ hother code
    apply ((h number hnumber).endAttempt a code).editEntry
    intro e he hlead hnumber'
    exact absurd hnumber (hfree e he hlead number hnumber')

def optedOut (w : World) (a : Attempt) (code : DispositionCode) : World :=
  if code = .consentRevoked then
    revokeConsents (createInternalOptOut w a.phone code (some a.id)) a
  else createInternalOptOut w a.phone code (some a.id)

theorem record_eq_endAttempt (w : World) (a : Attempt) (h : suppresses code = true) :
    recordCallDisposition w a code =
      if a.id ∈ (optedOut w a code).dispositions then w
      else endAttempt (optedOut w a code) a code := by
  have hcode : code ≠ .disconnected ∧ code ≠ .callbackRequested ∧
      terminalStage (stageOfCode code) = false := by
    cases code <;> simp [suppresses] at h <;> exact ⟨by decide, by decide, rfl⟩
  unfold recordCallDisposition optedOut
  simp only [h, hcode.1, hcode.2.1, hcode.2.2, if_true, if_false, Bool.false_eq_true]

theorem Final.record {w : World} (h : Final w) (a : Attempt)
    (hsuppresses : suppresses code = true) : Final (recordCallDisposition w a code) := by
  rw [record_eq_endAttempt w a hsuppresses]
  split
  · exact h
  · have hrevoke : ∀ w' : World, Final (endAttempt w' a code) →
        Final (endAttempt (if code = .consentRevoked then revokeConsents w' a else w') a code) := by
      intro w' hw'
      split
      · exact fun number hnumber => { hw' number hnumber with }
      · exact hw'
    apply hrevoke
    by_cases hknown : a.phone ∈ numbers w
    · rw [optOut_eq hknown]
      intro number hnumber
      rcases (mem_suppress w number a.phone code).mp hnumber with hold | rfl
      · exact (((h number hold).suppress a.phone code).terminate _ _).endAttempt a code
      · refine silent_of_suppress w a.phone code rfl rfl rfl rfl fun x hx hphone => ?_
        obtain ⟨x₁, hx₁, rfl⟩ := mem_map.mp hx
        have hended : x₁.phone = a.phone → x₁.id ≠ a.id → x₁.endedAt ≠ none := by
          obtain ⟨x₀, -, rfl⟩ := mem_map.mp hx₁
          split
          · exact fun _ _ => some_ne_none _
          · rename_i hclosed
            intro hphone hother
            simpa [hphone, hother] using hclosed
        revert hphone
        split
        · exact fun _ => some_ne_none _
        · rename_i hother
          exact fun hphone => hended hphone hother
    · rw [optOut_unknown hknown]
      exact fun number hnumber => (h number hnumber).endAttempt a code

theorem phone_of_candidate {w : World} {c : Candidate} {p : Phone}
    (hc : getCallingCandidate w leadId = some c) (hp : c.phone = some p) :
    c.entry.phone = some p.number := by
  unfold getCallingCandidate at hc
  simp only [bind_eq_bind, bind_eq_some_iff, Option.some.injEq] at hc
  obtain ⟨entry, -, lead, -, rfl⟩ := hc
  obtain ⟨number, hnumber, hfind⟩ := bind_eq_some_iff.mp hp
  exact hnumber.trans (congrArg some (mem_of_find?_key hfind).2.symm)

theorem Final.evaluate {w : World} (h : Final w) (hleads : (queuedLeads w).Nodup)
    {userId : Nat} {manual : Bool} {s : Surroundings} {d : Decision}
    (hevaluate : evaluateLeadCompliance w userId leadId manual s = some (w', d)) : Final w' := by
  unfold evaluateLeadCompliance at hevaluate
  simp only [bind_eq_bind, bind_eq_some_iff, Option.some.injEq, Prod.mk.injEq]
    at hevaluate
  obtain ⟨c, hc, phone, hphone, contactId, -, hw, -⟩ := hevaluate
  rw [← hw]
  intro number hmem
  have hnumber : number ∈ w.internalDnc := hmem
  have hsilent := h number hnumber
  apply Silent.editEntry
  · exact { hsilent with }
  intro e he hlead hsame
  have hrows := candidateRows hc
  have hentry : e = c.entry :=
    inj_on_of_nodup_map hleads he hrows.entry (hlead.trans hrows.entryLead.symm)
  have hread : c.phone.map (·.number) = some number := by
    have hfound := phone_of_candidate hc hphone
    rw [hphone, map_some, ← hsame, hentry]
    exact hfound.symm
  have hblocked : internalDncOk (policyInput w userId c manual s) = false := by
    have hhit : internalDncHit w (c.phone.map (·.number)) = true := by
      rw [hread]
      simpa [internalDncHit] using hnumber
    have htenant : (policyInput w userId c manual s).tenantDnc = true := by
      change (internalDncHit w (c.phone.map (·.number)) || s.tracedTenantDnc) = true
      rw [hhit, Bool.true_or]
    unfold internalDncOk
    rw [htenant, Bool.not_true, Bool.and_false]
  obtain ⟨hdecision, hineligible⟩ := decision_of_internalDnc w.simpleMode hblocked
  refine ⟨(hsilent.entry e he hsame).1, .inr ?_⟩
  unfold stageOfEvaluation buildEvaluation
  rw [hineligible, hdecision]
  rfl

theorem Final.resume {w : World} (h : Final w)
    (hresume : resume w index = some (p, w')) : Final w' ∧ w'.internalDnc = w.internalDnc := by
  have hsame : w'.internalDnc = w.internalDnc := by
    unfold ManualCalls.resume at hresume
    simp only [map_eq_some_iff, Prod.mk.injEq] at hresume
    obtain ⟨q, -, -, rfl⟩ := hresume
    rfl
  exact ⟨fun number hnumber => (h number (hsame ▸ hnumber)).resume hresume, hsame⟩

theorem Final.start {w w' : World} (h : Final w) (hleads : (queuedLeads w).Nodup)
    {claims : Authorization} {s : Surroundings} {number : Nat}
    (hstart : startManualAttempt w claims s = some (w', number)) : Final w' := by
  obtain ⟨r, c, hbound, hc, hmay, -, rfl⟩ := start_cases hstart
  have hchecks := mayStart_checks hmay
  obtain ⟨p, hp, hphone⟩ := hchecks.number
  have hfree : claims.phone ∉ w.internalDnc := by
    have hsuppressed := hchecks.unsuppressed
    unfold notSuppressed internalDncHit at hsuppressed
    rw [hp] at hsuppressed
    simp only [map_some, any_some, hphone, Bool.and_eq_true, Bool.not_eq_true',
      decide_eq_false_iff_not] at hsuppressed
    exact hsuppressed.1
  intro n hmem
  have hn : n ∈ w.internalDnc := hmem
  have hsilent := h n hn
  have hother : claims.phone ≠ n := fun hsame => hfree (hsame ▸ hn)
  apply Silent.editEntry
  · refine { hsilent with authorization := fun x hx hsame => ?_, attempt := fun a ha hsame => ?_ }
    · obtain ⟨x₀, hx₀, rfl⟩ := mem_map.mp hx
      revert hsame
      split
      · exact fun _ => .inl rfl
      · exact hsilent.authorization x₀ hx₀
    · rcases mem_append.mp ha with hold | hnew
      · exact hsilent.attempt a hold hsame
      · rw [mem_singleton.mp hnew] at hsame
        exact absurd hsame hother
  · intro e he hlead hsame
    have hrows := candidateRows hc
    have hentry : e = c.entry :=
      inj_on_of_nodup_map hleads he hrows.entry (hlead.trans hrows.entryLead.symm)
    have hread := phone_of_candidate hc hp
    rw [← hentry, hphone] at hread
    exact absurd (some.inj (hread.symm.trans hsame)) hother

theorem Final.placeHold {w : World} (h : Final w) (userId : Nat) :
    Final (placeHold w userId) := by
  unfold ManualCalls.placeHold
  split
  · exact h
  · intro number hmem
    have hnumber : number ∈ w.internalDnc := hmem
    have hsilent : Silent { w with holds := w.holds ++ [userId] } number :=
      { h number hnumber with }
    apply ((hsilent.invalidate _).terminate _ _).editQueue
    intro e he hphone
    revert hphone
    split
    · rename_i hopen
      intro hphone
      exact absurd hopen.2 ((h number hnumber).entry e he hphone).1
    · exact (h number hnumber).entry e he

theorem Final.assign {w : World} (h : Final w) (leadId : Nat) (assignedUserId : Option Nat) :
    Final (updateCallingAssignment w leadId assignedUserId) := by
  unfold updateCallingAssignment
  split
  · exact h
  · split
    · exact h
    · intro number hmem
      have hnumber : number ∈ w.internalDnc := hmem
      apply Silent.invalidate
      apply (h number hnumber).editEntry
      exact fun e he _ hphone => (h number hnumber).entry e he hphone

def mayValidate (w : World) (leadId number : Nat) (validDays : Int) : Bool :=
  w.associations.any (fun a => a.leadId = leadId && a.phone = number) && 1 ≤ validDays &&
    validDays ≤ 30

theorem known_of_mayValidate {w : World} (hassociated : Associated w) {number : Nat}
    {validDays : Int} (h : mayValidate w leadId number validDays = true) : number ∈ numbers w := by
  unfold mayValidate at h
  simp only [Bool.and_eq_true] at h
  obtain ⟨a, ha, hsame⟩ := any_eq_true.mp h.1.1
  simp only [Bool.and_eq_true, decide_eq_true_eq] at hsame
  exact hsame.2 ▸ hassociated a ha

theorem final_validate_iff {w : World} (h : Final w) (hassociated : Associated w)
    (leadId number : Nat) (lineType : LineType) (reachable risk : Bool) (validDays : Int) :
    Final (validatePhoneManually w leadId number lineType reachable risk validDays) ↔
      (mayValidate w leadId number validDays = true → reachable = true →
        number ∉ w.internalDnc ∧ EntryFree w leadId) := by
  unfold validatePhoneManually
  change Final (if mayValidate w leadId number validDays = true then _ else w) ↔ _
  by_cases hmay : mayValidate w leadId number validDays = true
  · rw [if_pos hmay]
    constructor
    · intro hfinal _ hreachable
      subst hreachable
      refine ⟨fun hsilenced => ?_, fun e he hlead n hn hsilenced => ?_⟩
      · obtain ⟨p, hp, hnumber⟩ :=
          mem_map.mp (known_of_mayValidate hassociated hmay)
        have hvalid := (hfinal number hsilenced).phone _ (mem_map_of_mem hp)
        rw [if_pos hnumber] at hvalid
        exact hvalid hnumber rfl
      · have hentry := (hfinal n hsilenced).entry _ (mem_map_of_mem he)
        rw [if_pos hlead] at hentry
        rcases (hentry hn).2 with hstage | hstage <;> cases hstage
    · intro hfree n hmem
      have hn : n ∈ w.internalDnc := hmem
      have hsilent := h n hn
      cases reachable with
      | true =>
        obtain ⟨hnumber, hentry⟩ := hfree hmay rfl
        apply Silent.editEntry
        · apply hsilent.editPhone
          · exact fun _ => rfl
          · exact fun hsame => absurd (hsame ▸ hn) hnumber
        · exact fun e he hlead hphone => absurd hn (hentry e he hlead n hphone)
      | false =>
        apply Silent.editEntry
        · apply hsilent.editPhone
          · exact fun _ => rfl
          · exact fun _ _ => by simp
        · exact fun e he _ hphone => ⟨(hsilent.entry e he hphone).1, .inr rfl⟩
  · rw [if_neg hmay]
    exact ⟨fun _ hmay' => absurd hmay' hmay, fun _ => h⟩

theorem final_storeContact_iff {w : World} (h : Final w) (leadId number : Nat) :
    Final (storeManualContact w leadId number) ↔
      (w.leads.any (·.id = leadId) = true → number ∈ w.internalDnc →
        ∀ e ∈ w.queue, e.leadId = leadId → e.closedAt ≠ none) := by
  unfold storeManualContact
  by_cases hlead : w.leads.any (·.id = leadId) = true
  · rw [if_pos hlead]
    constructor
    · intro hfinal _ hsilenced e he hsame
      have hentry := (hfinal number hsilenced).entry _ (mem_map_of_mem he)
      rw [if_pos hsame] at hentry
      exact (hentry rfl).1
    · intro hclosed n hmem
      have hn : n ∈ w.internalDnc := hmem
      have hsilent := h n hn
      apply Silent.editEntry
      · refine { hsilent with phone := fun p hp hsame => ?_ }
        dsimp only at hp
        split at hp
        · exact hsilent.phone p hp hsame
        · rcases mem_append.mp hp with hold | hnew
          · exact hsilent.phone p hold hsame
          · rw [mem_singleton.mp hnew]
            exact nofun
      · intro e he hsame hphone
        have hnumber : number = n := some.inj hphone
        have hsuppressed : internalDncHit w (some number) = true := by
          simpa [internalDncHit, hnumber] using hn
        refine ⟨hclosed hlead (hnumber ▸ hn) e he hsame, .inl ?_⟩
        rw [if_pos hsuppressed]
  · rw [if_neg hlead]
    exact ⟨fun _ hlead' => absurd hlead' hlead, fun _ => h⟩

theorem final_insert_iff {w : World} (h : Final w) (claims : Authorization) :
    Final (insertAuthorization w claims) ↔
      (claims.phone ∈ w.internalDnc →
        claims.used = true ∨ claims.invalidated = true ∨ claims.expiresAt ≤ w.now) := by
  constructor
  · intro hfinal hsilenced
    exact (hfinal claims.phone hsilenced).authorization
      { claims with id := w.authorizations.length + 1 }
      (mem_append_right _ (mem_singleton.mpr rfl)) rfl
  · intro hdead number hmem
    have hnumber : number ∈ w.internalDnc := hmem
    refine { h number hnumber with authorization := fun r hr hphone => ?_ }
    rcases mem_append.mp hr with hold | hnew
    · exact (h number hnumber).authorization r hold hphone
    · rw [mem_singleton.mp hnew] at hphone ⊢
      exact hdead (hphone ▸ hnumber)

structure Tidy (w : World) : Prop where
  leads : (queuedLeads w).Nodup
  associated : Associated w
  concluded : ∀ a ∈ w.attempts, a.endedAt ≠ none → a.id ∈ w.dispositions
  disposing : ∀ a code, .disposing a code ∈ w.pending →
    ∃ a' ∈ w.attempts, a'.id = a.id ∧ a'.phone = a.phone

theorem Tidy.of_quiet {w : World} (hw : Tidy w) (h : Quiet w w') : Tidy w' := by
  obtain ⟨f, hf, hattempts, hfinal⟩ := h.ended
  constructor
  case leads => exact h.queued.symm ▸ hw.leads
  case associated => exact h.associated hw.associated
  case concluded =>
    intro a ha hend
    rw [hattempts] at ha
    obtain ⟨a₀, ha₀, rfl⟩ := mem_map.mp ha
    rw [hf.key]
    rcases hfinal a₀ ha₀ hend with hearlier | hnow
    · exact h.dispositions _ (hw.concluded a₀ ha₀ hearlier)
    · exact hnow
  case disposing =>
    intro a code hp
    obtain ⟨a₀, ha₀, hid, hphone⟩ := hw.disposing a code (h.disposing a code hp)
    refine ⟨f a₀, hattempts ▸ mem_map_of_mem ha₀, (hf.key a₀).trans hid, ?_⟩
    exact (hf.phone a₀).trans hphone

theorem Tidy.next {w : World} (hsound : Sound w) (hw : Tidy w) (a : Action) : Tidy (step w a) := by
  cases a with
  | checkStart userId authorizationId ready =>
    unfold step checkStart
    dsimp only
    split
    · exact hw
    · split
      · refine { hw with disposing := fun a code hp => ?_ }
        rcases mem_append.mp hp with hold | hnew
        · exact hw.disposing a code hold
        · cases mem_singleton.mp hnew
      · exact hw
  | start index s =>
    unfold step reveal
    dsimp only
    split
    · rename_i claims w' hresume
      have hresumed : Tidy w' := hw.of_quiet (quiet_resume hresume)
      cases hstart : startManualAttempt w' claims s with
      | none => exact hw
      | some result =>
        obtain ⟨r, c, -, -, -, -, hnext⟩ := start_cases hstart
        have hopened : Tidy (opened w' claims) := by
          refine { hresumed with
            concluded := fun a ha hend => ?_, disposing := fun a code hp => ?_ }
          · rcases mem_append.mp ha with hold | hnew
            · exact hresumed.concluded a hold hend
            · rw [mem_singleton.mp hnew] at hend
              exact absurd rfl hend
          · obtain ⟨a', ha', hsame⟩ := hresumed.disposing a code hp
            exact ⟨a', mem_append_left _ ha', hsame⟩
        rw [elim_some, hnext]
        apply hopened.of_quiet
        exact quiet_editEntry _ _ fun _ => rfl
    · exact hw
  | checkDisposition userId attemptId code evidence =>
    unfold step checkDisposition
    dsimp only
    split
    · exact hw
    · rename_i a hfind
      obtain ⟨hmem, -⟩ := mem_of_find?_key hfind
      split
      · refine { hw with disposing := fun a' code' hp => ?_ }
        rcases mem_append.mp hp with hold | hnew
        · exact hw.disposing a' code' hold
        · cases mem_singleton.mp hnew
          exact ⟨a, hmem, rfl, rfl⟩
      · exact hw
  | placeHold userId =>
    unfold step placeHold
    dsimp only
    split
    · exact hw
    · have hheld : Tidy { w with holds := w.holds ++ [userId] } := { hw with }
      refine hheld.of_quiet (Quiet.trans ?_ (quiet_queue _ fun e => by split <;> rfl))
      exact (quiet_invalidate _ _).trans (quiet_terminate _ _ _)
  | finalize source effectiveAt numbers => exact { hw with }
  | _ => exact hw.of_quiet (quiet_step hsound.disposed rfl)

/-- When a step does no harm to an opt-out: a validation of a reachable phone names no opted-out
phone and no lead that is on one, an opted-out phone is stored only for a lead whose queue entry is
closed, a disposition that does not suppress is of a lead that is not on an opted-out phone, and the
authorization of an opted-out phone is dead when it is inserted. -/
def Clean (w : World) : Action → Prop
  | .validate leadId number _ reachable _ validDays =>
    mayValidate w leadId number validDays = true → reachable = true →
      number ∉ w.internalDnc ∧ EntryFree w leadId
  | .storeContact leadId number =>
    w.leads.any (·.id = leadId) = true → number ∈ w.internalDnc →
      ∀ e ∈ w.queue, e.leadId = leadId → e.closedAt ≠ none
  | .dispose index =>
    match w.pending[index]? with
    | some (.disposing a code) =>
      suppresses code = true ∨ a.id ∈ w.dispositions ∨ EntryFree w a.leadId
    | _ => True
  | .insertAuthorization index =>
    match w.pending[index]? with
    | some (.inserting claims) => claims.phone ∈ w.internalDnc →
      claims.used = true ∨ claims.invalidated = true ∨ claims.expiresAt ≤ w.now
    | _ => True
  | _ => True

theorem resume_eq {w : World} (h : resume w index = some (p, w')) :
    w.pending[index]? = some p ∧ w' = { w with pending := w.pending.eraseIdx index } := by
  unfold resume at h
  simp only [map_eq_some_iff, Prod.mk.injEq] at h
  obtain ⟨q, hq, rfl, rfl⟩ := h
  exact ⟨hq, rfl⟩

theorem final_step_iff {w : World} (htidy : Tidy w) (h : Final w) (a : Action) :
    Final (step w a) ↔ Clean w a := by
  cases a with
  | tick ms => exact iff_of_true (fun number hnumber => (h number hnumber).tick ms) trivial
  | evaluate userId leadId s =>
    refine iff_of_true ?_ trivial
    unfold step
    dsimp only
    cases hevaluate : evaluateLeadCompliance w userId leadId false s with
    | none => exact h
    | some result => exact h.evaluate htidy.leads hevaluate
  | issue userId leadId s =>
    refine iff_of_true ?_ trivial
    unfold step issueCallAuthorization
    dsimp only
    split
    · exact h
    · rename_i hevaluate
      have hnext := h.evaluate htidy.leads hevaluate
      split
      · exact fun number hnumber => { hnext number hnumber with }
      · exact hnext
  | readCandidate index ttl =>
    refine iff_of_true ?_ trivial
    unfold step
    dsimp only
    split
    · rename_i hresume
      have hresumed := (h.resume hresume).1
      unfold readCandidate
      split
      · split
        · exact fun number hnumber => { hresumed number hnumber with }
        · exact hresumed
      · exact hresumed
    · exact h
  | insertAuthorization index =>
    unfold step Clean
    dsimp only
    cases hresume : resume w index with
    | none =>
      have hnone : w.pending[index]? = none := by
        unfold resume at hresume
        simpa using hresume
      rw [hnone]
      exact iff_of_true h trivial
    | some result =>
      obtain ⟨p, w'⟩ := result
      obtain ⟨hp, rfl⟩ := resume_eq hresume
      have hresumed := (h.resume hresume).1
      rw [hp]
      cases p with
      | inserting claims => exact final_insert_iff hresumed claims
      | _ => exact iff_of_true h trivial
  | checkStart userId authorizationId ready =>
    refine iff_of_true ?_ trivial
    unfold step checkStart
    dsimp only
    split
    · exact h
    · split
      · exact fun number hnumber => { h number hnumber with }
      · exact h
  | start index s =>
    refine iff_of_true ?_ trivial
    unfold step reveal
    dsimp only
    split
    · rename_i claims w' hresume
      have hleads : (queuedLeads w').Nodup := (htidy.of_quiet (quiet_resume hresume)).leads
      cases hstart : startManualAttempt w' claims s with
      | none => exact h
      | some result => exact (h.resume hresume).1.start hleads hstart
    · exact h
  | checkDisposition userId attemptId code evidence =>
    refine iff_of_true ?_ trivial
    unfold step checkDisposition
    dsimp only
    split
    · exact h
    · split
      · exact fun number hnumber => { h number hnumber with }
      · exact h
  | dispose index =>
    unfold step Clean
    dsimp only
    cases hresume : resume w index with
    | none =>
      have hnone : w.pending[index]? = none := by
        unfold resume at hresume
        simpa using hresume
      rw [hnone]
      exact iff_of_true h trivial
    | some result =>
      obtain ⟨p, w'⟩ := result
      obtain ⟨hp, rfl⟩ := resume_eq hresume
      have hresumed := (h.resume hresume).1
      rw [hp]
      cases p with
      | disposing a code =>
        dsimp only
        by_cases hsuppresses : suppresses code = true
        · exact iff_of_true (hresumed.record a hsuppresses) (.inl hsuppresses)
        · rw [Bool.not_eq_true] at hsuppresses
          by_cases hfirst : a.id ∈ w.dispositions
          · rw [record_eq_settle _ a hsuppresses, if_pos hfirst]
            exact iff_of_true hresumed (.inr (.inl hfirst))
          · have hphone : a.phone ∉ w.internalDnc := by
              intro hsilenced
              obtain ⟨a', ha', hid, hsame⟩ :=
                htidy.disposing a code (mem_of_getElem? hp)
              have hended := (h a.phone hsilenced).attempt a' ha' hsame
              exact hfirst (hid ▸ htidy.concluded a' ha' hended)
            rw [final_record_iff hresumed hsuppresses hfirst hphone]
            simp only [hsuppresses, Bool.false_eq_true, hfirst, false_or]
            exact Iff.rfl
      | _ => exact iff_of_true h trivial
  | optOut number => exact iff_of_true (h.optOut number _) trivial
  | placeHold userId => exact iff_of_true (h.placeHold userId) trivial
  | releaseHold userId =>
    exact iff_of_true (fun number hnumber => { h number hnumber with }) trivial
  | assign leadId assignedUserId => exact iff_of_true (h.assign leadId assignedUserId) trivial
  | validate leadId number lineType reachable risk validDays =>
    exact final_validate_iff h htidy.associated leadId number lineType reachable risk validDays
  | storeContact leadId number => exact final_storeContact_iff h leadId number
  | finalize source effectiveAt numbers =>
    exact iff_of_true (fun number hnumber => { h number hnumber with }) trivial

theorem tidy_noonWorld : Tidy noonWorld where
  leads := by decide
  associated := by
    unfold Associated
    decide
  concluded _ ha := nomatch ha
  disposing _ _ hp := nomatch hp

theorem final_noonWorld : Final noonWorld := fun _ hnumber => nomatch hnumber

end HomefrontFiber.ManualCalls
