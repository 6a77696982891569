import HomefrontFiber.Closeout.OwnWork

/-!
# The lock loop

The lock loop works on one rep after another, each in a transaction, so a rep whose work fails
keeps what they had and costs no other rep anything.
-/

namespace HomefrontFiber.Closeout

open Commission Reserve List
open Service (bind_apply bind_error bind_ok read_apply zoom_error zoom_ok)

section Work

variable {s s' u : CloseoutDb} {stmt : Statement} {now : Stamp}

structure Closes (now : Stamp) (key : Nat × Stamp) (status : StatementStatus) (a : Statement)
    (s s' : CloseoutDb) : Prop where
  wf : Wf s'.commission
  others : ∀ other, key.1 ≠ other → Undisturbed False now other s s'
  found : s'.commission.statementById a.id = some a
  key : a.key = key
  status : a.status = status

/-- The week that a closing action works on. A recomputation looks it up by its start. -/
def closingWeek (action : BatchAction) (bounds : WeekBounds) (db : Db) : Stamp :=
  match action with
  | .finalize => (db.weekOf bounds.weekStartUtc.ms).weekStartUtc
  | .markPaid => bounds.weekStartUtc

variable {fault : Option Thrown} {actorId : Option Nat} {bounds : WeekBounds} {c : Nat}
  {a : Statement} {α : Type}

theorem lockWeek_closes (hwf : Wf s.commission)
    (h : lockWeek fault actorId bounds now c s = (.ok a, s')) :
    Closes now (c, closingWeek .finalize bounds s.commission) .finalized a s s' := by
  unfold lockWeek at h
  cases fault with
  | some e =>
    rw [bind_error (failOn_some e s)] at h
    cases h
  | none =>
    rw [bind_ok (failOn_none s)] at h
    cases hcalc : calculateOrRecalculateStatement c bounds.weekStartUtc.ms now s.commission with
    | mk result db =>
      cases result with
      | error e =>
        have hwork : commissionWork (calculateOrRecalculateStatement c bounds.weekStartUtc.ms now) s =
          (.error (.commission e), { s with commission := db }) := zoom_error hcalc
        rw [bind_error hwork] at h
        cases h
      | ok dto =>
        have hwork : commissionWork (calculateOrRecalculateStatement c bounds.weekStartUtc.ms now) s =
          (.ok dto, { s with commission := db }) := zoom_ok hcalc
        rw [bind_ok hwork] at h
        have hwf' : Wf db := by
          have hstore : Wf (calculateOrRecalculateStatement c bounds.weekStartUtc.ms now
              s.commission).2 := (wf_calculate c bounds.weekStartUtc.ms).store hwf
          rwa [hcalc] at hstore
        have hview : ∀ other, SameForRep (c = other) now other s.commission db := by
          intro other
          have hsame := sameForRep_calculate hwf c bounds.weekStartUtc.ms now other
          rwa [hcalc] at hsame
        cases hst : dto.statement with
        | none =>
          rw [hst] at h
          cases h
        | some stmt =>
          rw [hst] at h
          have hfor := (calculate_statement hcalc).symm.trans hst
          obtain ⟨hmem, hrep, hweek⟩ := mem_of_statementFor hfor
          obtain ⟨hwf'', hothers, hok⟩ := transitionStatement_effect
            (s := { s with commission := db }) actorId now hwf' (hwf'.statementById_of_mem hmem)
            .finalize
          have hrun := closeoutWork_ok.mp h
          rw [BatchAction.transition, hrun] at hwf'' hothers hok
          obtain ⟨hfound, hkey, hst'⟩ := hok a rfl
          exact
            { wf := hwf''
              others := fun other hne => (undisturbed_commission ((hview other).weaken hne)).trans
                (hothers other (hrep ▸ hne)) hwf hwf'
              found := hfound
              key := hkey.trans (Prod.ext hrep hweek)
              status := hst' }

theorem payStatement_closes
    (hwf : Wf s.commission) (hfound : s.commission.statementById stmt.id = some stmt)
    (h : payStatement fault actorId stmt.id now s = (.ok a, s')) :
    Closes now stmt.key .paid a s s' := by
  unfold payStatement at h
  cases fault with
  | some e =>
    rw [bind_error (failOn_some e s)] at h
    cases h
  | none =>
    rw [bind_ok (failOn_none s)] at h
    obtain ⟨hwf', hothers, hok⟩ := transitionStatement_effect actorId now hwf hfound .markPaid
    have hrun := closeoutWork_ok.mp h
    rw [BatchAction.transition, hrun] at hwf' hothers hok
    obtain ⟨hfound', hkey, hst'⟩ := hok a rfl
    exact ⟨hwf', hothers, hfound', hkey, hst'⟩

theorem transaction_ok {m : BatchService α} {a : α} (h : m s = (.ok a, s')) :
    Service.transaction m s = (.ok a, s') := by simp only [Service.transaction, h]

theorem transaction_error {m : BatchService α} {e : Thrown} (h : m s = (.error e, s')) :
    Service.transaction m s = (.error e, s) := by simp only [Service.transaction, h]

theorem repWork_effect (faults : Faults) (actorId : Option Nat) (action : BatchAction)
    (bounds : WeekBounds) (now : Stamp) (hwf : Wf s.commission)
    (hweek : stmt.weekStartUtc = bounds.weekStartUtc)
    (hfound : stmt.status.locked = true → s.commission.statementById stmt.id = some stmt) :
    (∃ a result s', repWork faults actorId action bounds now stmt s =
        (.ok (closedOutcome stmt.repId a result), s') ∧
          Closes now (stmt.repId, closingWeek action bounds s.commission) action.status a s s') ∨
      ∃ r, repWork faults actorId action bounds now stmt s = (r, s) ∧
        ∀ o, r = .ok o → o.repId = stmt.repId ∧ o.outcome ≠ .ok := by
  cases action with
  | finalize =>
    unfold repWork
    dsimp only
    split
    · exact .inr ⟨_, rfl, by rintro o ⟨⟩; exact ⟨rfl, by simp [skippedOutcome]⟩⟩
    · cases hfault : faults.hourly stmt.repId with
      | some e => exact .inr ⟨_, bind_error (failOn_some e s), fun _ h => nomatch h⟩
      | none =>
        rw [bind_ok (failOn_none s), bind_apply, read_apply]
        dsimp only
        split
        · exact .inr ⟨_, rfl, by rintro o ⟨⟩; exact ⟨rfl, by simp [openSessionOutcome]⟩⟩
        · cases hrun : lockWeek (faults.lock stmt.repId) actorId bounds now stmt.repId s with
          | mk result s' =>
            cases result with
            | error e =>
              rw [bind_error (transaction_error hrun)]
              exact .inr ⟨_, rfl, fun _ h => nomatch h⟩
            | ok a =>
              rw [bind_ok (transaction_ok hrun)]
              exact .inl ⟨a, _, s', rfl, lockWeek_closes hwf hrun⟩
  | markPaid =>
    unfold repWork
    dsimp only
    split
    · exact .inr ⟨_, rfl, by rintro o ⟨⟩; exact ⟨rfl, by simp [skippedOutcome]⟩⟩
    · split
      · exact .inr ⟨_, rfl, by rintro o ⟨⟩; exact ⟨rfl, by simp [skippedOutcome]⟩⟩
      · rename_i hfin
        have hlocked : stmt.status.locked = true := by
          rw [not_not.mp hfin]
          rfl
        cases hrun : payStatement (faults.lock stmt.repId) actorId stmt.id now s with
        | mk result s' =>
          cases result with
          | error e =>
            rw [bind_error (transaction_error hrun)]
            exact .inr ⟨_, rfl, fun _ h => nomatch h⟩
          | ok a =>
            rw [bind_ok (transaction_ok hrun)]
            have hcloses := payStatement_closes hwf (hfound hlocked) hrun
            rw [Statement.key, hweek] at hcloses
            exact .inl ⟨a, _, s', rfl, hcloses⟩

/-- None of the rep's own closing work fails when it is run by itself on a store, and it closes the
week that is being closed. -/
def ClosesAlone (faults : Faults) (actorId : Option Nat) (action : BatchAction)
    (bounds : WeekBounds) (now : Stamp) (s : CloseoutDb) (c : Nat) : Prop :=
  closingWeek action bounds s.commission = bounds.weekStartUtc ∧
  match action with
  | .finalize => faults.hourly c = none ∧
      ¬ PunchOpen s.commission c bounds.weekStartUtc bounds.nextWeekStartUtc ∧
      s.commission.weekLocked c bounds.weekStartUtc = false ∧
      ∃ a, (lockWeek (faults.lock c) actorId bounds now c s).1 = .ok a
  | .markPaid => ∃ stmt ∈ weekStatements s.commission bounds.weekStartUtc, stmt.repId = c ∧
      stmt.status = .finalized ∧
      ∃ a, (payStatement (faults.lock c) actorId stmt.id now s).1 = .ok a

/-- Work that closes the week of a rep by itself does so after the work on other reps. -/
theorem ClosesAlone.repWork_ok {faults : Faults} {action : BatchAction}
    {b : CloseoutDb} (h : ClosesAlone faults actorId action bounds now s c)
    (hwf : Wf s.commission) (hwfb : Wf b.commission) (hwf' : Wf u.commission)
    (hview : Undisturbed True now c s b) (hview' : Undisturbed False now c b u)
    (hstmt : stmt ∈ weekStatements b.commission bounds.weekStartUtc) (hrep : stmt.repId = c) :
    ∃ o, (repWork faults actorId action bounds now stmt u).1 = .ok o ∧ o.outcome = .ok := by
  obtain ⟨hmem, hweek⟩ := mem_filter.mp hstmt
  rw [decide_eq_true_eq] at hweek
  have hviews := hview.trans (hview'.weaken fun _ => trivial) hwf hwfb
  cases action with
  | finalize =>
    obtain ⟨_, hhourly, hpunch, hunlocked, hlock⟩ := h
    have hopen := hwfb.weekLocked_of_mem hmem
    rw [hrep, hweek, hview.commission.weekLocked hwf hwfb, hunlocked] at hopen
    have hready := (lockWeek_ok_iff actorId hwf).mp hlock
    obtain ⟨a, ha⟩ := (lockWeek_ok_iff actorId hwf').mpr
      (hready.undisturbed hviews hwf hwf')
    have hpunch' := mt (hviews.commission.punchOpen_iff _ _ _).mp hpunch
    unfold PunchOpen at hpunch'
    unfold repWork
    dsimp only
    rw [hrep, if_neg (by simp [← hopen]), hhourly, bind_ok (failOn_none u),
      bind_apply, read_apply]
    dsimp only
    rw [if_neg hpunch']
    cases hrun : lockWeek (faults.lock c) actorId bounds now c u with
    | mk result u' =>
      rw [hrun] at ha
      obtain rfl : result = .ok a := ha
      rw [bind_ok (transaction_ok hrun)]
      exact ⟨_, rfl, rfl⟩
  | markPaid =>
    obtain ⟨_, t, ht, htrep, hfin, hpay⟩ := h
    obtain ⟨htmem, htweek⟩ := mem_filter.mp ht
    rw [decide_eq_true_eq] at htweek
    have hlocked : t.status.locked = true := by
      rw [hfin]
      rfl
    have htb := (hview.commission.locked t htrep hlocked).mpr htmem
    have hkey : stmt.key = t.key := Prod.ext (hrep.trans htrep.symm) (hweek.trans htweek.symm)
    obtain rfl : stmt = t := inj_on_of_nodup_map hwfb.weeks hmem htb hkey
    have htu := hwf'.statementById_of_mem ((hviews.commission.locked stmt htrep hlocked).mpr htmem)
    obtain ⟨hfault, hst, hlisted⟩ :=
      (payStatement_ok_iff actorId now hwf (hwf.statementById_of_mem htmem)).mp hpay
    rw [← hviews.reps] at hlisted
    obtain ⟨a, ha⟩ := (payStatement_ok_iff actorId now hwf' htu).mpr
      ⟨hfault, hst, hlisted⟩
    unfold repWork
    dsimp only
    rw [if_neg (by simp [hst]), if_neg (not_not.mpr hst), hrep]
    cases hrun : payStatement (faults.lock c) actorId stmt.id now u with
    | mk result u' =>
      rw [hrun] at ha
      obtain rfl : result = .ok a := ha
      rw [bind_ok (transaction_ok hrun)]
      exact ⟨_, rfl, rfl⟩

end Work

/-- What one statement adds to the report: an outcome of its rep, and the closed week if the
outcome is ok. -/
structure StepEffect (now : Stamp) (key : Nat × Stamp) (status : StatementStatus)
    (b b' : BatchState) (o : BatchRepOutcome) : Prop where
  results : b'.results = b.results ++ [o]
  blocked : b'.blocked = b.blocked
  rep : o.repId = key.1
  wf : Wf b'.store.commission
  others : ∀ other, key.1 ≠ other → Undisturbed False now other b.store b'.store
  kept : o.outcome ≠ .ok → b'.store = b.store
  closed : o.outcome = .ok → ∃ t, o.statementId = some t.id ∧
    b'.store.commission.statementById t.id = some t ∧ t.key = key ∧ t.status = status

theorem closeStatement_effect (faults : Faults) (actorId : Option Nat) (action : BatchAction)
    (bounds : WeekBounds) (now : Stamp) {b : BatchState} {stmt : Statement}
    (hwf : Wf b.store.commission) (hweek : stmt.weekStartUtc = bounds.weekStartUtc)
    (hfound : stmt.status.locked = true →
      b.store.commission.statementById stmt.id = some stmt)
    (hfree : stmt.repId ∉ b.blocked) :
    ∃ o, StepEffect now (stmt.repId, closingWeek action bounds b.store.commission) action.status b
      (closeStatement faults actorId action bounds now b stmt) o ∧
      ∀ o', (repWork faults actorId action bounds now stmt b.store).1 = .ok o' → o = o' := by
  unfold closeStatement
  rw [if_neg hfree]
  rcases repWork_effect faults actorId action bounds now hwf hweek hfound with
    ⟨a, result, s', hrun, hcloses⟩ | ⟨r, hrun, hquiet⟩
  · rw [hrun]
    refine ⟨closedOutcome stmt.repId a result, ?_, fun _ h => Except.ok.inj h⟩
    exact
      { results := rfl
        blocked := rfl
        rep := rfl
        wf := hcloses.wf
        others := hcloses.others
        kept := fun h => absurd rfl h
        closed := fun _ => ⟨a, rfl, hcloses.found, hcloses.key, hcloses.status⟩ }
  · rw [hrun]
    have hstep : ∀ o : BatchRepOutcome, o.repId = stmt.repId → o.outcome ≠ .ok →
        StepEffect now (stmt.repId, closingWeek action bounds b.store.commission) action.status b
          ((BatchState.mk b.store b.results b.blocked).report o) o := fun o hrep hout =>
      { results := rfl
        blocked := rfl
        rep := hrep
        wf := hwf
        others := fun other _ => Undisturbed.refl now other b.store
        kept := fun _ => rfl
        closed := fun h => absurd h hout }
    cases r with
    | ok o => exact ⟨o, hstep o (hquiet o rfl).1 (hquiet o rfl).2, fun _ h => Except.ok.inj h⟩
    | error e =>
      exact ⟨_, hstep (failedOutcome stmt.repId (some stmt.id) e) rfl (by simp [failedOutcome]),
        fun _ h => nomatch h⟩

/-- What the lock loop does when it reports `new`. -/
structure LoopEffect (now : Stamp) (week : Stamp) (status : StatementStatus)
    (new : List BatchRepOutcome) (b b' : BatchState) : Prop where
  results : b'.results = b.results ++ new
  blocked : b'.blocked = b.blocked
  wf : Wf b'.store.commission
  org : b'.store.commission.org = b.store.commission.org
  view : ∀ repId, (∀ o ∈ new, o.repId = repId → o.outcome ≠ .ok) →
    Undisturbed False now repId b.store b'.store
  closed : ∀ o ∈ new, o.outcome = .ok → ∃ t, o.statementId = some t.id ∧
    b'.store.commission.statementById t.id = some t ∧ t.key = (o.repId, week) ∧ t.status = status

section Loop

variable {now week : Stamp} {status : StatementStatus} {b b' b'' : BatchState}

theorem LoopEffect.refl (hwf : Wf b.store.commission) : LoopEffect now week status [] b b where
  results := (append_nil _).symm
  blocked := rfl
  wf := hwf
  org := rfl
  view repId _ := Undisturbed.refl now repId b.store
  closed _ h := absurd h not_mem_nil

theorem BatchAction.locked_status (action : BatchAction) : action.status.locked = true := by
  cases action <;> rfl

theorem LoopEffect.snoc {action : BatchAction} {new : List BatchRepOutcome} {repId : Nat}
    {o : BatchRepOutcome} (hwf : Wf b.store.commission)
    (h : LoopEffect now week action.status new b b')
    (hstep : StepEffect now (repId, week) action.status b' b'' o)
    (hnew : repId ∉ new.map (·.repId)) :
    LoopEffect now week action.status (new ++ [o]) b b'' where
  results := by rw [hstep.results, h.results, append_assoc]
  blocked := hstep.blocked.trans h.blocked
  wf := hstep.wf
  org := (hstep.others (repId + 1) (Nat.succ_ne_self repId).symm).commission.org.trans h.org
  view := by
    intro other hquiet
    have hbefore := h.view other fun o' ho' => hquiet o' (mem_append_left _ ho')
    by_cases hrep : repId = other
    · have hout : o.outcome ≠ .ok :=
        hquiet o (mem_append_right _ (mem_singleton.mpr rfl)) (hstep.rep.trans hrep)
      rw [hstep.kept hout]
      exact hbefore
    · exact hbefore.trans (hstep.others other hrep) hwf h.wf
  closed := by
    intro o' ho' hok
    rcases mem_append.mp ho' with ho' | ho'
    · obtain ⟨t, hid, hfound, hkey, hst⟩ := h.closed o' ho' hok
      have htrep : t.repId = o'.repId := congrArg Prod.fst hkey
      have hne : repId ≠ t.repId := by
        rintro rfl
        exact hnew (htrep ▸ mem_map_of_mem ho')
      have hlocked : t.status.locked = true := hst ▸ action.locked_status
      have hmem := ((hstep.others t.repId hne).commission.locked t rfl hlocked).mpr
        (mem_of_statementById hfound).1
      exact ⟨t, hid, hstep.wf.statementById_of_mem hmem, hkey, hst⟩
    · obtain rfl := mem_singleton.mp ho'
      obtain ⟨t, hid, hfound, hkey, hst⟩ := hstep.closed hok
      exact ⟨t, hid, hfound, hkey.trans (by rw [hstep.rep]), hst⟩

/-- The loop reports every rep that is not blocked once, and closes the week of every rep whose
work succeeds on whatever the other reps have left. -/
theorem lockLoop_effect (faults : Faults) (actorId : Option Nat) (action : BatchAction)
    (bounds : WeekBounds) (now : Stamp) (hwf : Wf b.store.commission)
    {l : List Statement} (hnd : (l.map (·.repId)).Nodup)
    (hmem : ∀ stmt ∈ l, stmt ∈ weekStatements b.store.commission bounds.weekStartUtc) :
    ∃ new, LoopEffect now (closingWeek action bounds b.store.commission) action.status new b
        (l.foldl (closeStatement faults actorId action bounds now) b) ∧
      new.map (·.repId) = (l.map (·.repId)).filter (· ∉ b.blocked) ∧
      ∀ stmt ∈ l, stmt.repId ∉ b.blocked →
        (∀ u, Wf u.commission → Undisturbed False now stmt.repId b.store u →
          ∃ o, (repWork faults actorId action bounds now stmt u).1 = .ok o ∧ o.outcome = .ok) →
        ∃ o ∈ new, o.repId = stmt.repId ∧ o.outcome = .ok := by
  induction l using List.reverseRecOn with
  | nil => exact ⟨[], LoopEffect.refl hwf, rfl, fun _ h => absurd h not_mem_nil⟩
  | append_singleton l stmt ih =>
    rw [map_append, nodup_append] at hnd
    obtain ⟨hndl, _, hdisjoint⟩ := hnd
    obtain ⟨new, heffect, hreps, hprogress⟩ :=
      ih hndl fun s hs => hmem s (mem_append_left _ hs)
    have hfresh : stmt.repId ∉ new.map (·.repId) := by
      rw [hreps]
      intro hin
      exact hdisjoint _ (mem_filter.mp hin).1 _ (mem_map_of_mem (by simp)) rfl
    rw [foldl_append, foldl_cons, foldl_nil, map_append, filter_append]
    by_cases hblocked : stmt.repId ∈ b.blocked
    · have hskip : closeStatement faults actorId action bounds now
          (l.foldl (closeStatement faults actorId action bounds now) b) stmt =
          l.foldl (closeStatement faults actorId action bounds now) b := by
        unfold closeStatement
        rw [if_pos (heffect.blocked ▸ hblocked)]
      rw [hskip]
      refine ⟨new, heffect, by simp [hreps, hblocked], fun s hs hfree => ?_⟩
      rcases mem_append.mp hs with hs | hs
      · exact hprogress s hs hfree
      · obtain rfl := mem_singleton.mp hs
        exact absurd hblocked hfree
    · have hview := heffect.view stmt.repId fun o ho hrep _ =>
        hfresh (hrep ▸ mem_map_of_mem ho)
      obtain ⟨hstmt, hweek⟩ := mem_filter.mp
        (hmem stmt (mem_append_right _ (mem_singleton.mpr rfl)))
      rw [decide_eq_true_eq] at hweek
      obtain ⟨o, hstep, hresult⟩ := closeStatement_effect faults actorId action bounds now heffect.wf
        hweek (fun hl => heffect.wf.statementById_of_mem
          ((hview.commission.locked stmt rfl hl).mpr hstmt)) (heffect.blocked ▸ hblocked)
      have hclosing : closingWeek action bounds
          (l.foldl (closeStatement faults actorId action bounds now) b).store.commission =
          closingWeek action bounds b.store.commission := by
        unfold closingWeek Db.weekOf
        rw [heffect.org]
      rw [hclosing] at hstep
      refine ⟨new ++ [o], heffect.snoc hwf hstep hfresh, by simp [hreps, hblocked, hstep.rep], ?_⟩
      intro s hs hfree hsucceeds
      rcases mem_append.mp hs with hs | hs
      · obtain ⟨o', ho', h⟩ := hprogress s hs hfree hsucceeds
        exact ⟨o', mem_append_left _ ho', h⟩
      · obtain rfl := mem_singleton.mp hs
        obtain ⟨o', ho', hok⟩ := hsucceeds _ heffect.wf hview
        obtain rfl := hresult o' ho'
        exact ⟨o, mem_append_right _ (mem_singleton.mpr rfl), hstep.rep, hok⟩

end Loop

end HomefrontFiber.Closeout
