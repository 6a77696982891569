import Mathlib.Data.List.Induction
import HomefrontFiber.Closeout.RepView

/-!
# The ensure passes

An ensure pass recomputes one statement after another. Whether the recomputation of a rep fails is
decided before the pass begins, whatever happens to the reps before, so the pass reports exactly
the reps that fail on the store it starts with.
-/

namespace HomefrontFiber.Closeout

open Commission Reserve List

/-- The closeout's tables as rep `repId` sees them, before and after. -/
structure Undisturbed (touched : Prop) (now : Stamp) (repId : Nat) (s s' : CloseoutDb) : Prop where
  commission : SameForRep touched now repId s.commission s'.commission
  reps : s'.book.reps = s.book.reps
  entries : s'.book.entries.filter (·.repId = repId) = s.book.entries.filter (·.repId = repId)
  lock : ∀ t ∈ s'.commission.statements, t.repId = repId → t.status.locked = true →
    s'.lock t.id = s.lock t.id

/-- How a recomputation ends, as an ensure pass tells the cases apart. -/
inductive EnsureVerdict
  | done | noPlan | locked | failed
deriving DecidableEq

def verdict {α : Type} : Except Thrown α → EnsureVerdict
  | .ok _ => .done
  | .error e =>
    if e.HasCode .noEffectivePlanAssignment then .noPlan
    else if e.HasCode .statementLocked then .locked
    else .failed

/-- The verdicts that a pass reports. A rep without a plan is reported by the first pass only. -/
def EnsureVerdict.reported (withoutPlan : Bool) : EnsureVerdict → Bool
  | .noPlan => withoutPlan
  | .failed => true
  | _ => false

def ensureVerdict (fault : Option RecomputeFault) (repId : Nat) (bounds : WeekBounds) (now : Stamp)
    (s : CloseoutDb) : EnsureVerdict :=
  verdict (recompute fault repId bounds.weekStartUtc.ms now s).1

/-- How many due holds the recomputation of a rep may release before it ends. -/
def holdsReached (fault : Option RecomputeFault) (repId : Nat) (bounds : WeekBounds) (db : Db) :
    Nat :=
  if db.weekLocked repId (db.weekOf bounds.weekStartUtc.ms).weekStartUtc then 0
  else match fault with
    | some (.early _) => 0
    | some (.releasing rows _) => rows
    | _ => db.overrides.length

/-- The override table after recomputations of `reps`, each of which has released some holds. -/
def holdsAfter (fault : Nat → Option RecomputeFault) (reps : List Nat) (bounds : WeekBounds)
    (now : Stamp) (db : Db) : List OverrideRow :=
  reps.foldl (fun rows c =>
    (releaseHolds (holdsReached (fault c) c bounds db) now { db with overrides := rows }).overrides)
    db.overrides

section Views

variable {touched : Prop} {now : Stamp} {repId : Nat} {s s' s'' : CloseoutDb}

theorem Undisturbed.refl (now : Stamp) (repId : Nat) (s : CloseoutDb) :
    Undisturbed touched now repId s s where
  commission := SameForRep.refl now repId s.commission
  reps := rfl
  entries := rfl
  lock _ _ _ _ := rfl

theorem Undisturbed.trans (h : Undisturbed touched now repId s s') (h' : Undisturbed touched now repId s' s'')
    (hwf : Wf s.commission) (hwf' : Wf s'.commission) : Undisturbed touched now repId s s'' where
  commission := h.commission.trans h'.commission hwf hwf'
  reps := h'.reps.trans h.reps
  entries := h'.entries.trans h.entries
  lock t ht hr hl := (h'.lock t ht hr hl).trans
    (h.lock t ((h'.commission.locked t hr hl).mp ht) hr hl)

theorem Undisturbed.weaken (h : Undisturbed touched now repId s s') {touched' : Prop}
    (htouched : touched → touched') : Undisturbed touched' now repId s s' :=
  { h with commission := h.commission.weaken htouched }

theorem undisturbed_commission {db : Db} (h : SameForRep touched now repId s.commission db) :
    Undisturbed touched now repId s { s with commission := db } where
  commission := h
  reps := rfl
  entries := rfl
  lock _ _ _ _ := rfl

end Views

section Recompute

variable {touched : Prop} {now : Stamp} {repId : Nat} {s s' : CloseoutDb}

theorem commissionWork_store {α : Type} (m : CommissionService α) (s : CloseoutDb) :
    (commissionWork m s).2 = { s with commission := (m s.commission).2 } := Service.zoom_store m s

theorem recompute_store (hwf : Wf s.commission) (fault : Option RecomputeFault) (c : Nat) (ms : Int)
    (now : Stamp) :
    ∃ db, (recompute fault c ms now s).2 = { s with commission := db } ∧ Wf db ∧
      ∀ repId, SameForRep (c = repId) now repId s.commission db := by
  have hplain : ∃ db, (commissionWork (calculateOrRecalculateStatement c ms now) s).2 =
      { s with commission := db } ∧ Wf db ∧ ∀ repId, SameForRep (c = repId) now repId s.commission db :=
    ⟨_, commissionWork_store _ s, (wf_calculate c ms).store hwf, sameForRep_calculate hwf c ms now⟩
  have hsame : ∃ db, s = { s with commission := db } ∧ Wf db ∧
      ∀ repId, SameForRep (c = repId) now repId s.commission db :=
    ⟨s.commission, rfl, hwf, fun repId => SameForRep.refl now repId s.commission⟩
  unfold recompute
  split
  · exact hplain
  · exact hsame
  · split
    · exact hplain
    · exact ⟨_, rfl, wf_releaseHolds hwf _ now, fun repId =>
        sameForRep_releaseHolds _ now repId s.commission⟩
  · revert hplain
    rcases commissionWork (calculateOrRecalculateStatement c ms now) s with ⟨_ | _, s'⟩ <;>
      exact id

theorem verdict_plain (repId : Nat) (ms : Int) (now : Stamp) (s : CloseoutDb) :
    verdict (commissionWork (calculateOrRecalculateStatement repId ms now) s).1 =
      if s.commission.weekLocked repId (s.commission.weekOf ms).weekStartUtc then .locked
      else verdict (((repricing now repId ms s.commission).map fun _ => ()).mapError
        Thrown.commission) := by
  have hfst : (commissionWork (calculateOrRecalculateStatement repId ms now) s).1 =
      (calculateOrRecalculateStatement repId ms now s.commission).1.mapError Thrown.commission := by
    unfold commissionWork Service.zoom
    rcases calculateOrRecalculateStatement repId ms now s.commission with ⟨_ | _, _⟩ <;> rfl
  rw [hfst]
  rcases calculateOrRecalculateStatement_cases repId ms now s.commission with
    ⟨hl, status, hc⟩ | ⟨hl, e, hp, hc⟩ | ⟨hl, p, dto, hp, hc⟩
  · rw [hc, if_pos hl]
    rfl
  · rw [hc, hl, hp]
    rfl
  · rw [hc, hl, hp]
    rfl

theorem verdict_error_ne_done {α : Type} (e : Thrown) :
    verdict (.error e : Except Thrown α) ≠ .done := by
  unfold verdict
  dsimp only
  split
  · simp
  · split <;> simp

theorem verdict_recompute (fault : Option RecomputeFault) (repId : Nat) (ms : Int) (now : Stamp)
    (s : CloseoutDb) :
    verdict (recompute fault repId ms now s).1 =
      let plain := verdict (commissionWork (calculateOrRecalculateStatement repId ms now) s).1
      match fault with
      | none => plain
      | some (.early e) => verdict (.error e : Except Thrown Unit)
      | some (.releasing _ e) =>
        if s.commission.weekLocked repId (s.commission.weekOf ms).weekStartUtc then plain
        else verdict (.error e : Except Thrown Unit)
      | some (.late e) => if plain = .done then verdict (.error e : Except Thrown Unit) else plain := by
  unfold recompute
  dsimp only
  cases fault with
  | none => rfl
  | some fault =>
    cases fault with
    | early e => rfl
    | releasing rows e =>
      dsimp only
      split <;> rfl
    | late e =>
      dsimp only
      rcases commissionWork (calculateOrRecalculateStatement repId ms now) s with ⟨e' | a, s'⟩
      · exact (if_neg (verdict_error_ne_done e')).symm
      · rfl

theorem SameForRep.verdict_recompute (h : SameForRep touched now repId s.commission s'.commission)
    (hwf : Wf s.commission) (hwf' : Wf s'.commission) (fault : Option RecomputeFault) (ms : Int) :
    verdict (recompute fault repId ms now s').1 = verdict (recompute fault repId ms now s).1 := by
  have hlocked : s'.commission.weekLocked repId (s'.commission.weekOf ms).weekStartUtc =
      s.commission.weekLocked repId (s.commission.weekOf ms).weekStartUtc := by
    rw [h.weekOf, h.weekLocked hwf hwf']
  have hplain : verdict (commissionWork (calculateOrRecalculateStatement repId ms now) s').1 =
      verdict (commissionWork (calculateOrRecalculateStatement repId ms now) s).1 := by
    rw [verdict_plain, verdict_plain, hlocked, h.repricing hwf hwf']
  rw [Closeout.verdict_recompute, Closeout.verdict_recompute, hplain, hlocked]

theorem releaseHolds_all (now : Stamp) (db : Db) :
    releaseHolds db.overrides.length now db = promoteReleasedHolds now db := by
  unfold releaseHolds promoteReleasedHolds
  dsimp only
  congr 1
  refine map_congr_left fun r hr => ?_
  by_cases hdue : HoldDue now r
  · have hmem : r ∈ (db.overrides.filter fun r => HoldDue now r).take db.overrides.length := by
      rw [take_of_length_le (length_filter_le _ _)]
      exact mem_filter.mpr ⟨hr, by simpa using hdue⟩
    rw [if_pos hdue, if_pos ⟨hdue, mem_map_of_mem hmem⟩]
  · rw [if_neg hdue, if_neg fun h => hdue h.1]

theorem releaseHolds_zero (now : Stamp) (db : Db) : releaseHolds 0 now db = db := by
  unfold releaseHolds
  simp

theorem recompute_overrides (fault : Option RecomputeFault) (c : Nat) (bounds : WeekBounds)
    (now : Stamp) (s : CloseoutDb) :
    (recompute fault c bounds.weekStartUtc.ms now s).2.commission.overrides =
      (releaseHolds (holdsReached fault c bounds s.commission) now s.commission).overrides := by
  have hplain : (commissionWork (calculateOrRecalculateStatement c bounds.weekStartUtc.ms now)
      s).2.commission.overrides =
      if s.commission.weekLocked c (s.commission.weekOf bounds.weekStartUtc.ms).weekStartUtc then
        s.commission.overrides
      else (promoteReleasedHolds now s.commission).overrides := by
    rw [commissionWork_store]
    dsimp only
    rcases calculateOrRecalculateStatement_cases c bounds.weekStartUtc.ms now s.commission with
      ⟨hl, _, hc⟩ | ⟨hl, _, _, hc⟩ | ⟨hl, p, _, _, hc⟩
    · rw [hc, if_pos hl]
    · rw [hc, hl]
      rfl
    · rw [hc, hl, repriced, storePricing_overrides]
      rfl
  have hsplit : ∀ k, (releaseHolds (if s.commission.weekLocked c
      (s.commission.weekOf bounds.weekStartUtc.ms).weekStartUtc then 0 else k) now
        s.commission).overrides =
      if s.commission.weekLocked c (s.commission.weekOf bounds.weekStartUtc.ms).weekStartUtc then
        s.commission.overrides
      else (releaseHolds k now s.commission).overrides := by
    intro k
    split
    · rw [releaseHolds_zero]
    · rfl
  unfold holdsReached
  rw [hsplit]
  unfold recompute
  dsimp only
  cases fault with
  | none =>
    rw [releaseHolds_all]
    exact hplain
  | some fault =>
    cases fault with
    | early e =>
      dsimp only
      rw [releaseHolds_zero, ite_self]
    | releasing rows e =>
      dsimp only
      split
      · rw [hplain, if_pos ‹_›]
      · rfl
    | late e =>
      rw [releaseHolds_all, ← hplain]
      rcases commissionWork (calculateOrRecalculateStatement c bounds.weekStartUtc.ms now) s with
        ⟨_ | _, _⟩ <;> rfl

end Recompute

/-- What an ensure pass does when it reports `reps`. -/
structure PassEffect (now : Stamp) (reps : List Nat) (b b' : BatchState) : Prop where
  wf : Wf b'.store.commission
  view : ∀ repId, Undisturbed True now repId b.store b'.store
  results : ∃ reported, b'.results = b.results ++ reported ∧ reported.map (·.repId) = reps ∧
    ∀ o ∈ reported, o.outcome = .blocked ∨ o.outcome = .failed
  blocked : ∀ repId, repId ∈ b'.blocked ↔ repId ∈ b.blocked ∨ repId ∈ reps

section Pass

variable {now : Stamp} {s : CloseoutDb} {b b' b'' : BatchState}

theorem PassEffect.refl (hwf : Wf b.store.commission) : PassEffect now [] b b where
  wf := hwf
  view repId := Undisturbed.refl now repId b.store
  results := ⟨[], (append_nil _).symm, rfl, fun _ h => absurd h not_mem_nil⟩
  blocked _ := by simp

theorem PassEffect.trans {reps reps' : List Nat} (hwf : Wf b.store.commission)
    (h : PassEffect now reps b b') (h' : PassEffect now reps' b' b'') :
    PassEffect now (reps ++ reps') b b'' where
  wf := h'.wf
  view repId := (h.view repId).trans (h'.view repId) hwf h.wf
  results := by
    obtain ⟨r, hr, hreps, hout⟩ := h.results
    obtain ⟨r', hr', hreps', hout'⟩ := h'.results
    refine ⟨r ++ r', by rw [hr', hr, append_assoc], by rw [map_append, hreps, hreps'], ?_⟩
    intro o ho
    rcases mem_append.mp ho with ho | ho
    · exact hout o ho
    · exact hout' o ho
  blocked repId := by rw [h'.blocked, h.blocked, mem_append, or_assoc]

theorem ensureStatement_effect (bounds : WeekBounds) (now : Stamp)
    (hwf : Wf b.store.commission) (fault : Option RecomputeFault)
    {noPlan : Option BatchRepOutcome} {c : Nat}
    (hnoPlan : ∀ o ∈ noPlan, o.repId = c ∧ o.outcome = .blocked) :
    PassEffect now
      (if (ensureVerdict fault c bounds now b.store).reported noPlan.isSome then [c] else []) b
      (ensureStatement fault noPlan c bounds now b) := by
  obtain ⟨db, hstore, hwf', hview⟩ := recompute_store hwf fault c bounds.weekStartUtc.ms now
  have hquiet : PassEffect now [] b { b with store := { b.store with commission := db } } :=
    { wf := hwf'
      view := fun repId => undisturbed_commission ((hview repId).weaken fun _ => trivial)
      results := ⟨[], (append_nil _).symm, rfl, fun _ h => absurd h not_mem_nil⟩
      blocked := fun _ => by simp }
  have hblock : ∀ o : BatchRepOutcome, o.repId = c → (o.outcome = .blocked ∨ o.outcome = .failed) →
      PassEffect now [c] b
        ((BatchState.mk { b.store with commission := db } b.results b.blocked).block o) := by
    intro o hrep hout
    exact
      { wf := hwf'
        view := fun repId => undisturbed_commission ((hview repId).weaken fun _ => trivial)
        results := ⟨[o], rfl, by simp [hrep], by simpa using hout⟩
        blocked := fun repId => by simp [BatchState.block, hrep, or_comm] }
  unfold ensureStatement ensureVerdict
  revert hstore
  rcases recompute fault c bounds.weekStartUtc.ms now b.store with ⟨e | a, s⟩
  · rintro rfl
    by_cases hplan : e.HasCode .noEffectivePlanAssignment
    · have hv : verdict (.error e : Except Thrown StatementDTO) = .noPlan := if_pos hplan
      simp only [hv, if_pos hplan]
      cases noPlan with
      | none => exact hquiet
      | some o => exact hblock o (hnoPlan o rfl).1 (Or.inl (hnoPlan o rfl).2)
    · by_cases hlocked : e.HasCode .statementLocked
      · have hv : verdict (.error e : Except Thrown StatementDTO) = .locked :=
          (if_neg hplan).trans (if_pos hlocked)
        simp only [hv, if_neg hplan, if_pos hlocked]
        exact hquiet
      · have hv : verdict (.error e : Except Thrown StatementDTO) = .failed :=
          (if_neg hplan).trans (if_neg hlocked)
        simp only [hv, if_neg hplan, if_neg hlocked]
        exact hblock (failedOutcome c none e) rfl (Or.inr rfl)
  · rintro rfl
    exact hquiet

theorem ensureStatement_store (fault : Option RecomputeFault) (noPlan : Option BatchRepOutcome)
    (c : Nat) (bounds : WeekBounds) (now : Stamp) (b : BatchState) :
    (ensureStatement fault noPlan c bounds now b).store =
      (recompute fault c bounds.weekStartUtc.ms now b.store).2 := by
  unfold ensureStatement
  rcases recompute fault c bounds.weekStartUtc.ms now b.store with ⟨e | a, s⟩
  · dsimp only
    split
    · cases noPlan <;> rfl
    · split <;> rfl
  · rfl

theorem recompute_statement {fault : Option RecomputeFault} {c : Nat}
    {ms : Int} (h : verdict (recompute fault c ms now s).1 = .done) :
    ∃ t ∈ (recompute fault c ms now s).2.commission.statements,
      t.key = (c, (s.commission.weekOf ms).weekStartUtc) := by
  have hplain : verdict (commissionWork (calculateOrRecalculateStatement c ms now) s).1 = .done →
      ∃ t ∈ (commissionWork (calculateOrRecalculateStatement c ms now) s).2.commission.statements,
        t.key = (c, (s.commission.weekOf ms).weekStartUtc) := by
    intro hdone
    rw [commissionWork_store]
    rcases calculateOrRecalculateStatement_cases c ms now s.commission with
      ⟨hl, _, hc⟩ | ⟨hl, e, hp, hc⟩ | ⟨hl, p, _, hp, hc⟩
    · rw [verdict_plain, if_pos hl] at hdone
      cases hdone
    · rw [verdict_plain, hl, hp] at hdone
      have herror : verdict (.error (.commission e) : Except Thrown Unit) = .done := hdone
      exact absurd herror (verdict_error_ne_done _)
    · rw [hc]
      exact repriced_hasStatement p
  unfold recompute at h ⊢
  dsimp only at h ⊢
  cases fault with
  | none => exact hplain h
  | some fault =>
    cases fault with
    | early e => exact absurd h (verdict_error_ne_done e)
    | releasing rows e =>
      dsimp only at h ⊢
      split at h
      · rw [if_pos ‹_›]
        exact hplain h
      · exact absurd h (verdict_error_ne_done e)
    | late e =>
      dsimp only at h
      split at h
      · exact absurd h (verdict_error_ne_done _)
      · exact absurd h (verdict_error_ne_done _)

theorem releaseHolds_congr {db db' : Db} (hwf : Wf db) (hwf' : Wf db')
    (h : ∀ repId, SameForRep True now repId db db') (fault : Option RecomputeFault) (c : Nat)
    (bounds : WeekBounds) :
    (releaseHolds (holdsReached fault c bounds db') now db').overrides =
      (releaseHolds (holdsReached fault c bounds db) now
        { db with overrides := db'.overrides }).overrides := by
  have hlength : db'.overrides.length = db.overrides.length := by
    obtain ⟨f, hf, _⟩ := (h c).rows
    rw [hf, length_map]
  have hreached : holdsReached fault c bounds db' = holdsReached fault c bounds db := by
    unfold holdsReached
    rw [(h c).weekOf, (h c).weekLocked hwf hwf', hlength]
  rw [hreached]
  unfold releaseHolds
  refine map_congr_left fun r _ => ?_
  rw [(h r.beneficiaryRepId).releaseRow hwf hwf' rfl]
  rfl

section EachRep

variable (bounds : WeekBounds) (now : Stamp) {α : Type} {key : α → Nat}
  (fault : Nat → Option RecomputeFault) {noPlan : α → Option BatchRepOutcome} {withoutPlan : Bool}
  (hnoPlan : ∀ a, ∀ o ∈ noPlan a, o.repId = key a ∧ o.outcome = .blocked)
  (hsome : ∀ a, (noPlan a).isSome = withoutPlan) (l : List α) {b : BatchState}

include hnoPlan hsome

theorem ensurePass_effect (hwf : Wf b.store.commission) :
    PassEffect now
      ((l.map key).filter fun c => (ensureVerdict (fault c) c bounds now b.store).reported withoutPlan)
      b (l.foldl (fun b a => ensureStatement (fault (key a)) (noPlan a) (key a) bounds now b) b) := by
  induction l generalizing b with
  | nil => exact PassEffect.refl hwf
  | cons a l ih =>
    have hhead := ensureStatement_effect bounds now hwf (fault (key a))
      (hnoPlan a)
    have htail := ih hhead.wf
    have hsame : ∀ c, ensureVerdict (fault c) c bounds now
        (ensureStatement (fault (key a)) (noPlan a) (key a) bounds now b).store =
        ensureVerdict (fault c) c bounds now b.store := fun c =>
      (hhead.view c).commission.verdict_recompute hwf hhead.wf (fault c) _
    simp only [hsame] at htail
    have heffect := hhead.trans hwf htail
    rw [hsome] at heffect
    rw [foldl_cons, map_cons, filter_cons]
    split
    · rw [if_pos ‹_›] at heffect
      exact heffect
    · rw [if_neg ‹_›] at heffect
      exact heffect

theorem ensurePass_covers (hwf : Wf b.store.commission) {c : Nat} (hc : c ∈ l.map key)
    (hdone : ensureVerdict (fault c) c bounds now b.store = .done) :
    ∃ t ∈ (l.foldl (fun b a => ensureStatement (fault (key a)) (noPlan a) (key a) bounds now b)
      b).store.commission.statements,
        t.key = (c, (b.store.commission.weekOf bounds.weekStartUtc.ms).weekStartUtc) := by
  induction l generalizing b with
  | nil => exact absurd hc not_mem_nil
  | cons a l ih =>
    have hhead := ensureStatement_effect bounds now hwf (fault (key a)) (hnoPlan a)
    rw [foldl_cons]
    rcases mem_cons.mp hc with rfl | hc
    · have hleft : ∃ t ∈ (ensureStatement (fault (key a)) (noPlan a) (key a) bounds now
          b).store.commission.statements, t.key =
            (key a, (b.store.commission.weekOf bounds.weekStartUtc.ms).weekStartUtc) := by
        rw [ensureStatement_store]
        exact recompute_statement hdone
      obtain ⟨t, ht, hkey⟩ := hleft
      have htail := ensurePass_effect bounds now fault hnoPlan hsome l hhead.wf
      obtain ⟨t', ht', _, hkey'⟩ := (htail.view (key a)).commission.kept _ _ ⟨t, ht, rfl, hkey⟩
      exact ⟨t', ht', hkey'⟩
    · have hview := (hhead.view c).commission
      have hrest := ih hhead.wf hc
        ((hview.verdict_recompute hwf hhead.wf (fault c) _).trans hdone)
      rwa [hview.weekOf] at hrest

theorem ensurePass_overrides (hwf : Wf b.store.commission) :
    (l.foldl (fun b a => ensureStatement (fault (key a)) (noPlan a) (key a) bounds now b)
      b).store.commission.overrides = holdsAfter fault (l.map key) bounds now b.store.commission := by
  induction l using List.reverseRecOn with
  | nil => rfl
  | append_singleton l a ih =>
    have heffect := ensurePass_effect bounds now fault hnoPlan hsome l hwf
    unfold holdsAfter at ih ⊢
    rw [foldl_append, map_append, foldl_append, map_cons, map_nil,
      foldl_cons, foldl_nil, foldl_cons, foldl_nil, ← ih,
      ensureStatement_store, recompute_overrides,
      releaseHolds_congr hwf heffect.wf (fun repId => (heffect.view repId).commission)]

end EachRep

end Pass

end HomefrontFiber.Closeout
