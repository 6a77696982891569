import HomefrontFiber.ManualCalls.Steps

/-!
# Steps that start nothing

A step is quiet when it begins no attempt, places no hold and admits no request to a start. Every
authorization keeps its number and its user and never becomes live again, every attempt keeps its
authorization and its phone, never opens again and ends with a disposition, and a revoked consent
has its phone suppressed.
-/

namespace HomefrontFiber.ManualCalls

open List

def numbers (w : World) : List Nat := w.phones.map (·.number)

def queuedLeads (w : World) : List Nat := w.queue.map (·.leadId)

def Associated (w : World) : Prop := ∀ a ∈ w.associations, a.phone ∈ numbers w

structure Aged (r r' : Authorization) : Prop where
  key : r'.id = r.id
  userId : r'.userId = r.userId
  used : r.used = true → r'.used = true
  invalidated : r.invalidated = true → r'.invalidated = true

theorem Aged.refl (r : Authorization) : Aged r r := ⟨rfl, rfl, id, id⟩

theorem Aged.trans {r r' r'' : Authorization} (h : Aged r r') (h' : Aged r' r'') : Aged r r'' :=
  ⟨h'.key.trans h.key, h'.userId.trans h.userId, h'.used ∘ h.used, h'.invalidated ∘ h.invalidated⟩

structure Ending (f : Attempt → Attempt) : Prop where
  key : ∀ a, (f a).id = a.id
  authorizationId : ∀ a, (f a).authorizationId = a.authorizationId
  phone : ∀ a, (f a).phone = a.phone
  open_ : ∀ a, (f a).endedAt = none → a.endedAt = none

theorem Ending.refl : Ending id := ⟨fun _ => rfl, fun _ => rfl, fun _ => rfl, fun _ => id⟩

theorem Ending.comp {f g : Attempt → Attempt} (hg : Ending g) (hf : Ending f) : Ending (g ∘ f) where
  key a := (hg.key (f a)).trans (hf.key a)
  authorizationId a := (hg.authorizationId (f a)).trans (hf.authorizationId a)
  phone a := (hg.phone (f a)).trans (hf.phone a)
  open_ a h := hf.open_ a (hg.open_ (f a) h)

structure Quiet (w w' : World) : Prop where
  numbered : Numbered (·.id) w.authorizations → Numbered (·.id) w'.authorizations
  aged : ∀ r ∈ w.authorizations, ∃ r' ∈ w'.authorizations, Aged r r'
  ended : ∃ f, Ending f ∧ w'.attempts = w.attempts.map f ∧
    ∀ a ∈ w.attempts, (f a).endedAt ≠ none → a.endedAt ≠ none ∨ a.id ∈ w'.dispositions
  dispositions : ∀ id ∈ w.dispositions, id ∈ w'.dispositions
  queued : queuedLeads w' = queuedLeads w
  holds : ∀ userId ∈ w'.holds, userId ∈ w.holds
  starting : ∀ claims, .starting claims ∈ w'.pending → .starting claims ∈ w.pending
  disposing : ∀ a code, .disposing a code ∈ w'.pending → .disposing a code ∈ w.pending
  consents : ∀ c ∈ w'.consents, c.revoked = true →
    (∃ c₀ ∈ w.consents, c₀.revoked = true ∧ c₀.phone = c.phone) ∨ c.phone ∈ w'.internalDnc
  internalDnc : ∀ number ∈ w.internalDnc, number ∈ w'.internalDnc
  datasets : w'.datasets = w.datasets
  phones : ∀ number ∈ numbers w, number ∈ numbers w'
  associated : Associated w → Associated w'

theorem Quiet.refl (w : World) : Quiet w w where
  numbered := id
  aged r hr := ⟨r, hr, Aged.refl r⟩
  ended := ⟨id, Ending.refl, (map_id _).symm, fun _ _ => .inl⟩
  dispositions _ h := h
  queued := rfl
  holds _ h := h
  starting _ h := h
  disposing _ _ h := h
  consents c hc hrevoked := .inl ⟨c, hc, hrevoked, rfl⟩
  internalDnc _ h := h
  datasets := rfl
  phones _ h := h
  associated := id

variable {w w' : World} {f : Entry → Entry} {p : Pending} {index : Nat} {a : Attempt}

theorem Quiet.trans {w'' : World} (h : Quiet w w') (h' : Quiet w' w'') : Quiet w w'' where
  numbered hw := h'.numbered (h.numbered hw)
  aged r hr := by
    obtain ⟨r', hr', haged⟩ := h.aged r hr
    obtain ⟨r'', hr'', haged'⟩ := h'.aged r' hr'
    exact ⟨r'', hr'', haged.trans haged'⟩
  ended := by
    obtain ⟨f, hf, hattempts, hfinal⟩ := h.ended
    obtain ⟨g, hg, hattempts', hfinal'⟩ := h'.ended
    refine ⟨g ∘ f, hg.comp hf, by rw [hattempts', hattempts, map_map], fun a ha hend => ?_⟩
    have hmem : f a ∈ w'.attempts := hattempts ▸ mem_map_of_mem ha
    rcases hfinal' (f a) hmem hend with hearlier | hnow
    · exact (hfinal a ha hearlier).imp_right (h'.dispositions a.id)
    · exact .inr (hf.key a ▸ hnow)
  dispositions id hid := h'.dispositions id (h.dispositions id hid)
  queued := h'.queued.trans h.queued
  holds u hu := h.holds u (h'.holds u hu)
  starting c hc := h.starting c (h'.starting c hc)
  disposing a code hp := h.disposing a code (h'.disposing a code hp)
  consents c hc hrevoked := by
    rcases h'.consents c hc hrevoked with ⟨c', hc', hrevoked', hphone'⟩ | hdnc
    · rcases h.consents c' hc' hrevoked' with ⟨c₀, hc₀, hrevoked₀, hphone₀⟩ | hdnc
      · exact .inl ⟨c₀, hc₀, hrevoked₀, hphone₀.trans hphone'⟩
      · exact .inr (hphone' ▸ h'.internalDnc _ hdnc)
    · exact .inr hdnc
  internalDnc n hn := h'.internalDnc n (h.internalDnc n hn)
  datasets := h'.datasets.trans h.datasets
  phones n hn := h'.phones n (h.phones n hn)
  associated hw := h'.associated (h.associated hw)

theorem queuedLeads_map (w : World) (hf : ∀ e, (f e).leadId = e.leadId) :
    queuedLeads { w with queue := w.queue.map f } = queuedLeads w := by
  unfold queuedLeads
  rw [map_map]
  exact map_congr_left fun e _ => hf e

theorem quiet_queue (w : World) (hf : ∀ e, (f e).leadId = e.leadId) :
    Quiet w { w with queue := w.queue.map f } :=
  { Quiet.refl w with queued := queuedLeads_map w hf }

theorem quiet_editEntry (w : World) (leadId : Nat)
    (hf : ∀ e, (f e).leadId = e.leadId) : Quiet w (w.editEntry leadId f) := by
  apply quiet_queue
  intro e
  split
  · exact hf e
  · rfl

theorem numbers_editPhone (w : World) (number : Nat) {f : Phone → Phone}
    (hf : ∀ p, (f p).number = p.number) : numbers (w.editPhone number f) = numbers w := by
  unfold numbers World.editPhone
  rw [map_map]
  apply map_congr_left
  intro p _
  rw [Function.comp_apply]
  split
  · exact hf p
  · rfl

theorem quiet_editPhone (w : World) (number : Nat) {f : Phone → Phone}
    (hf : ∀ p, (f p).number = p.number) : Quiet w (w.editPhone number f) :=
  { Quiet.refl w with
    phones := fun _ h => (numbers_editPhone w number hf).symm ▸ h
    associated := fun h a ha => (numbers_editPhone w number hf).symm ▸ h a ha }

theorem quiet_cancelCallbacks (w : World) (which : Callback → Bool) :
    Quiet w (w.cancelCallbacks which) :=
  { Quiet.refl w with }

theorem quiet_invalidate (w : World) (which : Authorization → Bool) :
    Quiet w (w.invalidate which) :=
  { Quiet.refl w with
    numbered := fun h => h.map fun r _ => by split <;> rfl
    aged := fun r hr => by
      refine ⟨_, mem_map_of_mem hr, ?_⟩
      split
      · exact ⟨rfl, rfl, id, fun _ => rfl⟩
      · exact Aged.refl r }

theorem ending_of_cases {f : Attempt → Attempt}
    (h : ∀ a, f a = a ∨ ∃ at_ code, f a = { a with endedAt := some at_, code := code }) :
    Ending f where
  key a := by
    rcases h a with hsame | ⟨_, _, hend⟩
    · rw [hsame]
    · rw [hend]
  authorizationId a := by
    rcases h a with hsame | ⟨_, _, hend⟩
    · rw [hsame]
    · rw [hend]
  phone a := by
    rcases h a with hsame | ⟨_, _, hend⟩
    · rw [hsame]
    · rw [hend]
  open_ a hopen := by
    rcases h a with hsame | ⟨_, _, hend⟩
    · rw [← hsame]
      exact hopen
    · rw [hend] at hopen
      cases hopen

theorem quiet_terminate (w : World) (which : Attempt → Bool) (code : DispositionCode) :
    Quiet w (w.terminate which code) := by
  have hends : Ending fun a : Attempt =>
      if which a && a.endedAt.isNone then { a with endedAt := some w.now, code := some code }
      else a := by
    apply ending_of_cases
    intro a
    split
    · exact .inr ⟨_, _, rfl⟩
    · exact .inl rfl
  exact { Quiet.refl w with
    ended := ⟨_, hends, rfl, fun a ha hend => by
      split at hend
      · rename_i hchosen
        refine .inr (mem_append_right _ ?_)
        exact mem_map.mpr ⟨a, mem_filter.mpr ⟨ha, hchosen⟩, rfl⟩
      · exact .inl hend⟩
    dispositions := fun _ h => mem_append_left _ h }

theorem quiet_endAttempt (w : World) (a : Attempt) (code : DispositionCode) :
    Quiet w (endAttempt w a code) := by
  have hends : Ending fun x : Attempt =>
      if x.id = a.id then { x with endedAt := some w.now, code := some code } else x := by
    apply ending_of_cases
    intro x
    split
    · exact .inr ⟨_, _, rfl⟩
    · exact .inl rfl
  exact { Quiet.refl w with
    ended := ⟨_, hends, rfl, fun x _ hend => by
      split at hend
      · rename_i hsame
        exact .inr (hsame ▸ mem_append_right _ (mem_singleton.mpr rfl))
      · exact .inl hend⟩
    dispositions := fun _ h => mem_append_left _ h }

theorem quiet_tick (w : World) (ms : Nat) : Quiet w { w with now := w.now + ms } :=
  { Quiet.refl w with }

theorem quiet_evaluate {userId leadId : Nat} {manual : Bool} {s : Surroundings}
    {d : Decision} (h : evaluateLeadCompliance w userId leadId manual s = some (w', d)) :
    Quiet w w' := by
  unfold evaluateLeadCompliance at h
  simp only [Option.bind_eq_bind, Option.bind_eq_some_iff, Option.some.injEq, Prod.mk.injEq] at h
  obtain ⟨c, -, phone, -, contactId, -, hw, -⟩ := h
  rw [← hw]
  have hsave : ∀ decision : Decision,
      Quiet w { w with decisions := w.decisions ++ [decision] } := fun _ => { Quiet.refl w with }
  exact (hsave _).trans (quiet_editEntry _ _ fun _ => rfl)

theorem quiet_wait (w : World) (hstart : ∀ claims, p ≠ .starting claims)
    (hdispose : ∀ a code, p ≠ .disposing a code) : Quiet w { w with pending := w.pending ++ [p] } :=
  { Quiet.refl w with
    starting := fun claims h => by
      rcases mem_append.mp h with hold | hnew
      · exact hold
      · exact absurd (mem_singleton.mp hnew).symm (hstart claims)
    disposing := fun a code h => by
      rcases mem_append.mp h with hold | hnew
      · exact hold
      · exact absurd (mem_singleton.mp hnew).symm (hdispose a code) }

theorem quiet_issue (w : World) (userId leadId : Nat) (s : Surroundings) :
    Quiet w (issueCallAuthorization w userId leadId s) := by
  unfold issueCallAuthorization
  split
  · exact Quiet.refl w
  · rename_i w' d hevaluate
    have hquiet := quiet_evaluate hevaluate
    split
    · exact hquiet.trans (quiet_wait w' (fun _ => nofun) fun _ _ => nofun)
    · exact hquiet

theorem quiet_readCandidate (w : World) (userId leadId decisionId : Nat) (ruleVersion : Text)
    (ttl : Int) : Quiet w (readCandidate w userId leadId decisionId ruleVersion ttl) := by
  unfold readCandidate
  split
  · split
    · exact quiet_wait w (fun _ => nofun) fun _ _ => nofun
    · exact Quiet.refl w
  · exact Quiet.refl w

theorem quiet_insertAuthorization (w : World) (claims : Authorization) :
    Quiet w (insertAuthorization w claims) :=
  { Quiet.refl w with
    numbered := fun h => h.snoc rfl
    aged := fun r hr => ⟨r, mem_append_left _ hr, Aged.refl r⟩ }

theorem quiet_resume (h : resume w index = some (p, w')) : Quiet w w' := by
  unfold resume at h
  simp only [Option.map_eq_some_iff, Prod.mk.injEq] at h
  obtain ⟨q, -, -, hw⟩ := h
  rw [← hw]
  exact { Quiet.refl w with
    starting := fun _ h => mem_of_mem_eraseIdx h
    disposing := fun _ _ h => mem_of_mem_eraseIdx h }

theorem mem_of_resume (h : resume w index = some (p, w')) : p ∈ w.pending := by
  unfold resume at h
  simp only [Option.map_eq_some_iff, Prod.mk.injEq] at h
  obtain ⟨q, hq, rfl, -⟩ := h
  exact mem_of_getElem? hq

theorem quiet_optOut (w : World) (number : Nat) (reason : DispositionCode) (leave : Option Nat) :
    Quiet w (createInternalOptOut w number reason leave) := by
  unfold createInternalOptOut
  split
  · refine Quiet.trans ?_ (quiet_terminate _ _ _)
    refine Quiet.trans ?_ (quiet_invalidate _ _)
    refine Quiet.trans ?_ (quiet_cancelCallbacks _ _)
    refine Quiet.trans ?_ (quiet_editPhone _ number fun _ => rfl)
    exact { Quiet.refl w with
      queued := queuedLeads_map w fun e => by split <;> rfl
      consents := fun c hc hrevoked => .inl ⟨c, hc, hrevoked, rfl⟩
      internalDnc := fun n hn => by
        split
        · exact hn
        · exact mem_append_left _ hn
      associated := fun h a ha => by
        obtain ⟨a₀, ha₀, rfl⟩ := mem_map.mp ha
        have hsame : ∀ b : Association, b.phone = a₀.phone → b.phone ∈ numbers w :=
          fun b hb => hb ▸ h a₀ ha₀
        apply hsame
        split <;> rfl }
  · exact Quiet.refl w

theorem suppressed_of_optOut {number : Nat} (h : number ∈ numbers w)
    (reason : DispositionCode) (leave : Option Nat) :
    number ∈ (createInternalOptOut w number reason leave).internalDnc := by
  have hknown : w.phones.any (·.number = number) = true := by
    obtain ⟨p, hp, hnumber⟩ := mem_map.mp h
    exact any_eq_true.mpr ⟨p, hp, by simpa using hnumber⟩
  unfold createInternalOptOut
  rw [if_pos hknown]
  change number ∈ if number ∈ w.internalDnc then w.internalDnc else w.internalDnc ++ [number]
  split
  · assumption
  · simp

theorem quiet_revokeConsents (h : a.phone ∈ w.internalDnc) : Quiet w (revokeConsents w a) :=
  { Quiet.refl w with
    consents := fun c hc hrevoked => by
      obtain ⟨c₀, hc₀, rfl⟩ := mem_map.mp hc
      by_cases hmatch : c₀.leadId = a.leadId ∧ c₀.phone = a.phone
      · rw [if_pos hmatch]
        exact .inr (hmatch.2 ▸ h)
      · rw [if_neg hmatch] at hrevoked ⊢
        exact .inl ⟨c₀, hc₀, hrevoked, rfl⟩ }

theorem quiet_disconnectPhone (w : World) (a : Attempt) : Quiet w (disconnectPhone w a) := by
  refine Quiet.trans ?_ (quiet_invalidate _ _)
  apply quiet_editPhone
  exact fun _ => rfl

theorem quiet_scheduleCallback (w : World) (a : Attempt) : Quiet w (scheduleCallback w a) :=
  { Quiet.refl w with }

theorem quiet_closeLead (w : World) (a : Attempt) : Quiet w (closeLead w a) :=
  (quiet_cancelCallbacks w _).trans (quiet_invalidate _ _)

theorem quiet_ite {c : Prop} [Decidable c] (h : c → Quiet w w') :
    Quiet w (if c then w' else w) := by
  split
  · exact h ‹c›
  · exact Quiet.refl w

theorem quiet_dispose (h : a.phone ∈ numbers w)
    (code : DispositionCode) : Quiet w (recordCallDisposition w a code) := by
  unfold recordCallDisposition
  extract_lets w₁ w₂ w₃ w₄ w₅ w₆
  have hopt : Quiet w w₁ := quiet_ite fun _ => quiet_optOut w a.phone code _
  have hrevoke : Quiet w₁ w₂ := by
    apply quiet_ite
    intro hcode
    apply quiet_revokeConsents
    have hw₁ : w₁ = createInternalOptOut w a.phone code (some a.id) := by
      simp only [w₁, hcode, suppresses, if_true]
    rw [hw₁]
    exact suppressed_of_optOut h code _
  have hend : Quiet w₂ w₃ := quiet_endAttempt w₂ a code
  have hmove : Quiet w₃ w₄ := by
    simp only [w₄]
    split
    · exact Quiet.refl w₃
    · exact quiet_editEntry _ _ fun _ => rfl
  have hdisconnect : Quiet w₄ w₅ := quiet_ite fun _ => quiet_disconnectPhone w₄ a
  have hcallback : Quiet w₅ w₆ := quiet_ite fun _ => quiet_scheduleCallback w₅ a
  have hall := hopt.trans <| hrevoke.trans <| hend.trans <| hmove.trans <|
    hdisconnect.trans hcallback
  split
  · exact Quiet.refl w
  · exact hall.trans (quiet_ite fun _ => quiet_closeLead w₆ a)

theorem quiet_releaseHold (w : World) (userId : Nat) : Quiet w (releaseHold w userId) :=
  { Quiet.refl w with holds := fun _ h => (mem_filter.mp h).1 }

theorem quiet_assign (w : World) (leadId : Nat) (assignedUserId : Option Nat) :
    Quiet w (updateCallingAssignment w leadId assignedUserId) := by
  unfold updateCallingAssignment
  split
  · exact Quiet.refl w
  · split
    · exact Quiet.refl w
    · refine Quiet.trans ?_ (quiet_invalidate _ _)
      apply quiet_editEntry
      exact fun _ => rfl

theorem quiet_validate (w : World) (leadId number : Nat) (lineType : LineType)
    (reachable reassignedRisk : Bool) (validDays : Int) :
    Quiet w (validatePhoneManually w leadId number lineType reachable reassignedRisk validDays) := by
  apply quiet_ite
  intro _
  refine Quiet.trans ?_ (quiet_editEntry _ _ fun _ => rfl)
  apply quiet_editPhone
  exact fun _ => rfl

theorem quiet_storeContact (w : World) (leadId number : Nat) :
    Quiet w (storeManualContact w leadId number) := by
  unfold storeManualContact
  split
  · refine Quiet.trans ?_ (quiet_editEntry _ _ fun _ => rfl)
    have hkept : ∀ phones, phones = (if w.phones.any (·.number = number) then w.phones
        else w.phones ++ [({ number } : Phone)]) →
        (∀ n ∈ numbers w, n ∈ phones.map (·.number)) ∧ number ∈ phones.map (·.number) := by
      rintro phones rfl
      split
      · rename_i hknown
        obtain ⟨p, hp, hnumber⟩ := any_eq_true.mp hknown
        exact ⟨fun _ h => h, mem_map.mpr ⟨p, hp, by simpa using hnumber⟩⟩
      · rw [map_append]
        exact ⟨fun _ h => mem_append_left _ h, mem_append_right _ (by simp)⟩
    exact { Quiet.refl w with
      phones := (hkept _ rfl).1
      associated := fun h a ha => by
        dsimp only at ha
        split at ha
        · exact (hkept _ rfl).1 _ (h a ha)
        · rcases mem_append.mp ha with hold | hnew
          · exact (hkept _ rfl).1 _ (h a hold)
          · rw [mem_singleton.mp hnew]
            exact (hkept _ rfl).2 }
  · exact Quiet.refl w

def startsNothing : Action → Bool
  | .checkStart .. | .start .. | .checkDisposition .. | .placeHold _ | .finalize .. => false
  | _ => true

theorem quiet_step
    (hdisposed : ∀ a code, .disposing a code ∈ w.pending → a.phone ∈ numbers w) {a : Action}
    (h : startsNothing a = true) : Quiet w (step w a) := by
  cases a with
  | tick ms => exact quiet_tick w ms
  | evaluate userId leadId s =>
    unfold step
    dsimp only
    cases hevaluate : evaluateLeadCompliance w userId leadId false s with
    | none => exact Quiet.refl w
    | some result => exact quiet_evaluate hevaluate
  | issue userId leadId s => exact quiet_issue w userId leadId s
  | readCandidate index ttl =>
    unfold step
    dsimp only
    split
    · rename_i hresume
      exact (quiet_resume hresume).trans (quiet_readCandidate _ _ _ _ _ _)
    · exact Quiet.refl w
  | insertAuthorization index =>
    unfold step
    dsimp only
    split
    · rename_i hresume
      exact (quiet_resume hresume).trans (quiet_insertAuthorization _ _)
    · exact Quiet.refl w
  | dispose index =>
    unfold step
    dsimp only
    split
    · rename_i a code w' hresume
      have hphone : a.phone ∈ numbers w' :=
        (quiet_resume hresume).phones _ (hdisposed a code (mem_of_resume hresume))
      exact (quiet_resume hresume).trans (quiet_dispose hphone code)
    · exact Quiet.refl w
  | optOut number => exact quiet_optOut w number _ _
  | releaseHold userId => exact quiet_releaseHold w userId
  | assign leadId assignedUserId => exact quiet_assign w leadId assignedUserId
  | validate leadId number lineType reachable risk validDays =>
    exact quiet_validate w leadId number lineType reachable risk validDays
  | storeContact leadId number => exact quiet_storeContact w leadId number
  | _ => cases h

end HomefrontFiber.ManualCalls
