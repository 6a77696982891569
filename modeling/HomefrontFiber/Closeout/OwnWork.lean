import HomefrontFiber.Closeout.EnsurePass
import HomefrontFiber.Reserve.Balance

/-!
# The lock of one rep

A transition works on the tables of the rep whose statement it is. What the other reps see of it
are the holds that its recomputation released.
-/

namespace HomefrontFiber.Closeout

open Commission Reserve
open Service (Keeps bind_apply bind_error bind_ok bind_pure_store check_apply read_apply zoom_store)

section Hold

theorem recordWeeklyHold_ok_iff {input : HoldInput} {book : ReserveBook} :
    (∃ result, (recordWeeklyHold input book).1 = .ok result) ↔
      (book.reps.find? (·.id = input.repId)).isSome := by
  unfold recordWeeklyHold
  rw [bind_apply, check_apply]
  cases hrep : book.reps.find? (·.id = input.repId) with
  | none =>
    have hcfg : resolveRepReserveConfig input.repId book = .error repNotFound := by
      simp only [resolveRepReserveConfig, requireRep, hrep, Except.map]
    rw [hcfg]
    simp
  | some rep =>
    have hcfg : resolveRepReserveConfig input.repId book = .ok (reserveConfig book rep) := by
      simp only [resolveRepReserveConfig, requireRep, hrep, Except.map]
    rw [hcfg]
    dsimp only
    rw [bind_apply, read_apply]
    dsimp only [id_eq]
    refine ⟨fun _ => rfl, fun _ => ?_⟩
    cases holdFor book input.repId input.weekStartUtc with
    | some existing => exact ⟨_, rfl⟩
    | none =>
      split <;> exact ⟨_, rfl⟩

theorem recordWeeklyHold_others (input : HoldInput) (book : ReserveBook) :
    (recordWeeklyHold input book).2.reps = book.reps ∧
      ∀ repId, input.repId ≠ repId →
        (recordWeeklyHold input book).2.entries.filter (·.repId = repId) =
          book.entries.filter (·.repId = repId) := by
  rcases recordWeeklyHold_cases input book with hsame | ⟨cfg, _, _, _, happ⟩
  · rw [hsame]
    exact ⟨rfl, fun _ _ => rfl⟩
  · rw [happ]
    refine ⟨rfl, fun repId hne => ?_⟩
    rw [append, List.filter_append, List.filter_cons_of_neg (by simpa [holdEntry] using hne)]
    simp

end Hold

/-- The end of a transition: the row is read back and its reserve held. -/
def afterTransition (action : StatementAction) (statementId : Nat) : CloseoutService Statement := do
  let after ← Service.check (findStatement statementId)
  holdReserve action after
  pure after

/-- The status that a closing transition gives its statement. -/
def BatchAction.status : BatchAction → StatementStatus
  | .finalize => .finalized
  | .markPaid => .paid

def BatchAction.transition : BatchAction → StatementAction
  | .finalize => .finalize
  | .markPaid => .markPaid

def transitionBody (stmt : Statement) (actorId : Option Nat) (now : Stamp) :
    BatchAction → CloseoutService Unit
  | .finalize => finalizeStatement stmt actorId now
  | .markPaid => markStatementPaid stmt actorId now

section Transition

variable {touched : Prop} {s u : CloseoutDb} {stmt after : Statement} {actorId : Option Nat}
  {now : Stamp}

theorem transitionStatement_eq (hfound : s.commission.statementById stmt.id = some stmt)
    (action : BatchAction) :
    transitionStatement actorId stmt.id action.transition now s =
      (transitionBody stmt actorId now action >>= fun _ =>
        afterTransition action.transition stmt.id) s := by
  unfold transitionStatement
  rw [bind_ok (findStatement_ok hfound)]
  cases action <;> rfl

theorem afterTransition_store (action : StatementAction)
    (hafter : u.commission.statementById stmt.id = some after) :
    ∃ book, (afterTransition action stmt.id u).2 = { u with book := book } ∧
      book.reps = u.book.reps ∧ ∀ repId, after.repId ≠ repId →
        book.entries.filter (·.repId = repId) = u.book.entries.filter (·.repId = repId) := by
  have hfind : Service.check (findStatement stmt.id) u = (.ok after, u) := by
    simp only [check_apply, findStatement, hafter]
  unfold afterTransition
  rw [bind_ok hfind, bind_pure_store]
  unfold holdReserve
  split
  · exact ⟨u.book, rfl, rfl, fun _ _ => rfl⟩
  · refine ⟨(recordWeeklyHold (holdOf u after) u.book).2, ?_,
      recordWeeklyHold_others (holdOf u after) u.book⟩
    change ((onReserve (recordWeeklyHold (holdOf u after)) >>= fun _ => pure ()) u).2 = _
    rw [bind_pure_store, onReserve, zoom_store]

theorem afterTransition_result {action : StatementAction}
    (hafter : u.commission.statementById stmt.id = some after) {a : Statement}
    (h : (afterTransition action stmt.id u).1 = .ok a) : a = after := by
  have hfind : Service.check (findStatement stmt.id) u = (.ok after, u) := by
    simp only [check_apply, findStatement, hafter]
  unfold afterTransition at h
  rw [bind_ok hfind] at h
  cases hhold : holdReserve action after u with
  | mk result u' =>
    cases result with
    | error e =>
      rw [bind_error hhold] at h
      cases h
    | ok _ =>
      rw [bind_ok hhold] at h
      exact (Except.ok.inj h).symm

theorem afterTransition_ok_iff (action : BatchAction)
    (hafter : u.commission.statementById stmt.id = some after) :
    (∃ a, (afterTransition action.transition stmt.id u).1 = .ok a) ↔
      (u.book.reps.find? (·.id = after.repId)).isSome := by
  have hfind : Service.check (findStatement stmt.id) u = (.ok after, u) := by
    simp only [check_apply, findStatement, hafter]
  have haction : action.transition ≠ .reopen := by cases action <;> simp [BatchAction.transition]
  have hrep : (u.book.reps.find? (·.id = after.repId)).isSome ↔
      ∃ result, (recordWeeklyHold (holdOf u after) u.book).1 = .ok result :=
    (@recordWeeklyHold_ok_iff (holdOf u after) _).symm
  unfold afterTransition holdReserve
  rw [hrep, bind_ok hfind, if_neg haction]
  simp only [bind_apply, read_apply, onReserve, Service.zoom]
  rcases recordWeeklyHold (holdOf u after) u.book with ⟨e | result, book⟩
  · simp
  · exact ⟨fun _ => ⟨result, rfl⟩, fun _ => ⟨after, rfl⟩⟩

theorem recomputeBeforeFreeze_frame {db : Db} (hwf : Wf db) (stmt : Statement) (now : Stamp) :
    Wf (recomputeBeforeFreeze stmt now db).2 ∧ ∀ repId,
      SameForRep (stmt.repId = repId) now repId db (recomputeBeforeFreeze stmt now db).2 := by
  have hkeeps : Keeps
      (fun db' => Wf db' ∧ ∀ repId, SameForRep (stmt.repId = repId) now repId db db')
      (recomputeBeforeFreeze stmt now) := by
    refine recomputeBeforeFreeze_keeps ?_
    intro db' h
    have h' : Wf (calculateOrRecalculateStatement stmt.repId stmt.weekStartUtc.ms now db').2 ∧
        ∀ repId, SameForRep (stmt.repId = repId) now repId db
          (calculateOrRecalculateStatement stmt.repId stmt.weekStartUtc.ms now db').2 :=
      ⟨(wf_calculate _ _).store h.1, fun repId =>
        (h.2 repId).trans (sameForRep_calculate h.1 _ _ now repId) hwf h.1⟩
    revert h'
    rcases calculateOrRecalculateStatement stmt.repId stmt.weekStartUtc.ms now db' with
      ⟨_ | _, _⟩ <;> exact id
  exact hkeeps.store ⟨hwf, fun repId => SameForRep.refl now repId db⟩

theorem recomputeBeforeFreeze_row {db db' : Db}
    (hfound : db.statementById stmt.id = some stmt) (hwf' : Wf db')
    (h : SameForRep touched now stmt.repId db db') :
    ∃ row, db'.statementById stmt.id = some row ∧ row.id = stmt.id ∧ row.key = stmt.key := by
  have hstmt : HasStatement stmt.id (stmt.repId, stmt.weekStartUtc) db :=
    ⟨stmt, (mem_of_statementById hfound).1, rfl, rfl⟩
  obtain ⟨row, hrow, hid, hkey⟩ := h.kept _ _ hstmt
  exact ⟨row, hid ▸ hwf'.statementById_of_mem hrow, hid, hkey⟩

theorem undisturbed_setLock {id : Nat} {f : LockColumns → LockColumns} {db : Db} {repId : Nat}
    (hview : SameForRep touched now repId u.commission db)
    (hother : ∀ t ∈ db.statements, t.repId = repId → t.id ≠ id) :
    Undisturbed touched now repId u (setLock id f { u with commission := db }) where
  commission := hview
  reps := rfl
  entries := rfl
  lock t ht hr _ := Function.update_of_ne (hother t ht hr) _ _

theorem setStatementStatus_frame {db : Db} {row : Statement} (hwf : Wf db)
    (hrow : db.statementById stmt.id = some row) (hrep : row.repId = stmt.repId)
    (status : StatementStatus) (now : Stamp) :
    Wf (setStatementStatus stmt.id status now db) ∧ ∀ repId, stmt.repId ≠ repId →
      SameForRep touched now repId db (setStatementStatus stmt.id status now db) ∧
        ∀ t ∈ (setStatementStatus stmt.id status now db).statements, t.repId = repId →
          t.id ≠ stmt.id := by
  have hwf' : Wf (setStatementStatus stmt.id status now db) := hwf.setStatementStatus _ _
  obtain ⟨hmem, hid⟩ := mem_of_statementById hrow
  refine ⟨hwf', fun repId hne => ⟨?_, ?_⟩⟩
  · have hset : SameForRep touched now repId db (setStatementStatus row.id status now db) :=
      sameForRep_setStatementStatus hwf hmem (hrep ▸ hne) status
    rwa [hid] at hset
  · intro t ht hr htid
    have hfound := hwf'.statementById_of_mem ht
    rw [htid, statementById_setStatementStatus, hrow, Option.map_some, Option.some.injEq] at hfound
    have htrep : t.repId = row.repId := hfound ▸ rfl
    exact hne (hrep.symm.trans (htrep.symm.trans hr))

theorem relocked_frame {row : Statement} (actorId : Option Nat) (now : Stamp) (hwf : Wf u.commission)
    (hrow : u.commission.statementById stmt.id = some row) (hrep : row.repId = stmt.repId) :
    Wf (relocked stmt actorId now u).commission ∧
      ∀ repId, stmt.repId ≠ repId → Undisturbed False now repId u (relocked stmt actorId now u) := by
  have hwf' : Wf (markWeekSettled stmt.repId stmt.weekStartUtc stmt.id now u.commission) :=
    wf_markWeekSettled hwf _ _ _
  have hrow' : (markWeekSettled stmt.repId stmt.weekStartUtc stmt.id now
      u.commission).statementById stmt.id = some row := hrow
  obtain ⟨hwf'', hset⟩ := setStatementStatus_frame hwf' hrow' hrep .finalized now
  refine ⟨hwf'', fun repId hne => ?_⟩
  obtain ⟨hview, hother⟩ := hset repId hne
  unfold relocked writeLock
  exact undisturbed_setLock ((sameForRep_markWeekSettled hne _ _ _).trans hview hwf hwf') hother

theorem transitionBody_effect (actorId : Option Nat) (now : Stamp) (hwf : Wf s.commission)
    (hfound : s.commission.statementById stmt.id = some stmt) (action : BatchAction) :
    Wf (transitionBody stmt actorId now action s).2.commission ∧
      (∀ repId, stmt.repId ≠ repId →
        Undisturbed False now repId s (transitionBody stmt actorId now action s).2) ∧
      ((transitionBody stmt actorId now action s).1 = .ok () →
        ∃ row, (transitionBody stmt actorId now action s).2.commission.statementById stmt.id =
          some row ∧ row.id = stmt.id ∧ row.key = stmt.key ∧ row.status = action.status) := by
  have hsame : ∀ e : CloseoutError, ∀ x : Except CloseoutError Unit × CloseoutDb,
      x = (.error e, s) → Wf x.2.commission ∧
        (∀ repId, stmt.repId ≠ repId → Undisturbed False now repId s x.2) ∧
        (x.1 = .ok () → ∃ row, x.2.commission.statementById stmt.id = some row ∧
          row.id = stmt.id ∧ row.key = stmt.key ∧ row.status = action.status) := by
    rintro e x rfl
    exact ⟨hwf, fun repId _ => Undisturbed.refl now repId s, fun h => nomatch h⟩
  cases action with
  | finalize =>
    by_cases hpaid : stmt.status = .paid
    · exact hsame (.commission (statementPaid "Paid statements cannot be re-finalized.")) _
        (by unfold transitionBody finalizeStatement; rw [if_pos hpaid]; rfl)
    · obtain ⟨hwf', hview⟩ := recomputeBeforeFreeze_frame hwf stmt now
      have hbody : transitionBody stmt actorId now .finalize s =
        finalizeStatement stmt actorId now s := rfl
      rw [hbody]
      rcases finalizeStatement_cases s actorId now hpaid with
        ⟨db, hre, hfin⟩ | ⟨e, db, hre, hfin⟩
      · rw [hre] at hwf' hview
        rw [hfin]
        obtain ⟨row, hrow, hid, hkey⟩ := recomputeBeforeFreeze_row hfound hwf' (hview stmt.repId)
        have hrep : row.repId = stmt.repId := congrArg Prod.fst hkey
        have hlock := relocked_frame (u := { s with commission := db }) actorId now hwf' hrow hrep
        refine ⟨hlock.1, fun repId hne => ?_, fun _ => ?_⟩
        · exact (undisturbed_commission ((hview repId).weaken hne)).trans (hlock.2 repId hne) hwf hwf'
        · rw [relocked_statementById, hrow]
          exact ⟨_, rfl, hid, hkey, rfl⟩
      · rw [hre] at hwf' hview
        rw [hfin]
        exact ⟨hwf', fun repId hne => undisturbed_commission ((hview repId).weaken hne), fun h => nomatch h⟩
  | markPaid =>
    have hbody : transitionBody stmt actorId now .markPaid s =
      markStatementPaid stmt actorId now s := rfl
    rw [hbody]
    rcases markStatementPaid_cases s stmt actorId now with ⟨_, hpay⟩ | ⟨_, hthrow⟩
    · obtain ⟨hwf', hset⟩ := setStatementStatus_frame hwf hfound rfl .paid now
      rw [hpay]
      refine ⟨hwf', fun repId hne => ?_, fun _ => ?_⟩
      · obtain ⟨hview, hother⟩ := hset repId hne
        dsimp only
        exact undisturbed_setLock hview hother
      · refine ⟨{ stmt with status := .paid, updatedAt := now }, ?_, rfl, rfl, rfl⟩
        have hrow := statementById_setStatementStatus s.commission now stmt.id .paid
        rw [hfound] at hrow
        exact hrow
    · exact hsame (.commission (statementPaid "Only FINALIZED statements can be marked PAID.")) _
        hthrow

theorem transitionBody_book (stmt : Statement) (actorId : Option Nat) (now : Stamp)
    (s : CloseoutDb) (action : BatchAction) :
    (transitionBody stmt actorId now action s).2.book = s.book := by
  cases action with
  | finalize =>
    unfold transitionBody
    dsimp only
    by_cases hpaid : stmt.status = .paid
    · unfold finalizeStatement
      rw [if_pos hpaid]
      rfl
    · rcases finalizeStatement_cases s actorId now hpaid with ⟨db, _, hfin⟩ | ⟨e, db, _, hfin⟩
      · rw [hfin]
        rfl
      · rw [hfin]
  | markPaid =>
    unfold transitionBody
    dsimp only
    rcases markStatementPaid_cases s stmt actorId now with ⟨_, hpay⟩ | ⟨_, hthrow⟩
    · rw [hpay]
      rfl
    · rw [hthrow]

theorem undisturbed_book {book : ReserveBook} {repId : Nat} (hreps : book.reps = u.book.reps)
    (hentries : book.entries.filter (·.repId = repId) = u.book.entries.filter (·.repId = repId)) :
    Undisturbed False now repId u { u with book := book } where
  commission := SameForRep.refl now repId u.commission
  reps := hreps
  entries := hentries
  lock _ _ _ _ := rfl

theorem transitionStatement_effect (actorId : Option Nat) (now : Stamp) (hwf : Wf s.commission)
    (hfound : s.commission.statementById stmt.id = some stmt) (action : BatchAction) :
    let run := transitionStatement actorId stmt.id action.transition now s
    Wf run.2.commission ∧ (∀ repId, stmt.repId ≠ repId → Undisturbed False now repId s run.2) ∧
      ∀ a, run.1 = .ok a → run.2.commission.statementById a.id = some a ∧
        a.key = stmt.key ∧ a.status = action.status := by
  obtain ⟨hwf', hview, hrow⟩ := transitionBody_effect actorId now hwf hfound action
  dsimp only
  rw [transitionStatement_eq hfound action]
  cases hbody : transitionBody stmt actorId now action s with
  | mk result u =>
    rw [hbody] at hwf' hview hrow
    cases result with
    | error e =>
      rw [bind_error hbody]
      exact ⟨hwf', hview, fun a h => nomatch h⟩
    | ok _ =>
      rw [bind_ok hbody]
      obtain ⟨row, hfound', hid, hkey, hst⟩ := hrow rfl
      obtain ⟨book, hstore, hreps, hentries⟩ := afterTransition_store action.transition hfound'
      rw [hstore]
      refine ⟨hwf', fun repId hne => ?_, fun a ha => ?_⟩
      · have hrep : row.repId = stmt.repId := congrArg Prod.fst hkey
        have hne' : row.repId ≠ repId := hrep ▸ hne
        exact (hview repId hne).trans (undisturbed_book hreps (hentries repId hne')) hwf hwf'
      · obtain rfl := afterTransition_result hfound' ha
        exact ⟨hid ▸ hfound', hkey, hst⟩

end Transition

end HomefrontFiber.Closeout

/-!
## When the work on a rep succeeds

Whether a rep's week can be closed is read off the store: the week is not locked and can be priced,
no clock session is open, and the rep is on the roster. The work on other reps changes none of it.
-/

namespace HomefrontFiber.Closeout

open Commission Reserve
open Service (bind_apply bind_error bind_ok check_apply read_apply write_apply zoom_error zoom_ok)

/-- The rep is paid by the hour and a clock session between the two instants is still open. -/
def PunchOpen (db : Db) (repId : Nat) (start next : Stamp) : Prop :=
  (db.org.hourly repId start next).rateCents ≠ none ∧
    0 < (db.org.hourly repId start next).openSessionCount

instance (db : Db) (repId : Nat) (start next : Stamp) : Decidable (PunchOpen db repId start next) :=
  inferInstanceAs (Decidable (_ ∧ _))

/-- A recomputation returns: the week is not locked and has a price. -/
def Recomputable (now : Stamp) (repId : Nat) (ms : Int) (db : Db) : Prop :=
  db.weekLocked repId (db.weekOf ms).weekStartUtc = false ∧
    ∃ p, repricing now repId ms db = .ok p

/-- Where the week of the rep's statement ends: as it is stored, or as a recomputation stores it. -/
def storedEnd (db : Db) (repId : Nat) (ms : Int) : Stamp :=
  ((db.statementFor repId (db.weekOf ms).weekStartUtc).map (·.nextWeekStartUtc)).getD
    (db.weekOf ms).nextWeekStartUtc

section Stable

variable {touched : Prop} {now : Stamp} {repId : Nat} {db db' : Db}

theorem SameForRep.recomputable_iff (h : SameForRep touched now repId db db') (hwf : Wf db)
    (hwf' : Wf db') (ms : Int) :
    Recomputable now repId ms db' ↔ Recomputable now repId ms db := by
  unfold Recomputable
  rw [h.weekOf, h.weekLocked hwf hwf', h.exists_price_iff hwf hwf']

theorem SameForRep.punchOpen_iff (h : SameForRep touched now repId db db') (c : Nat)
    (start next : Stamp) : PunchOpen db' c start next ↔ PunchOpen db c start next := by
  unfold PunchOpen
  rw [h.org]

/-- The end of a rep's week does not move: a new statement takes the end of its week, which its
start determines. -/
theorem SameForRep.storedEnd (h : SameForRep touched now repId db db') (hwf : Wf db) (ms : Int) : storedEnd db' repId ms = storedEnd db repId ms := by
  have hends : ∀ t, db'.statementFor repId (db.weekOf ms).weekStartUtc = some t →
      t.nextWeekStartUtc = Closeout.storedEnd db repId ms := by
    intro t ht
    obtain ⟨hmem, hrep, hweek⟩ := mem_of_statementFor ht
    unfold Closeout.storedEnd
    rcases h.ends t hmem hrep with ⟨t₀, ht₀, hkey, hnext⟩ | ⟨_, hnew, ms', hstart, hnext⟩
    · have hrep₀ : t₀.repId = repId := (congrArg Prod.fst hkey).trans hrep
      have hweek₀ : t₀.weekStartUtc = (db.weekOf ms).weekStartUtc :=
        (congrArg Prod.snd hkey).trans hweek
      have hfor := hwf.statementFor_of_mem ht₀
      rw [hrep₀, hweek₀] at hfor
      rw [hfor]
      exact hnext.symm
    · cases hfor : db.statementFor repId (db.weekOf ms).weekStartUtc with
      | some t₀ =>
        obtain ⟨hmem₀, hrep₀, hweek₀⟩ := mem_of_statementFor hfor
        exact absurd (Prod.ext (hrep₀.trans hrep.symm) (hweek₀.trans hweek.symm)) (hnew t₀ hmem₀)
      | none =>
        have hsame : db.weekOf ms' = db.weekOf ms := weekBoundsFor_eq_of_weekStart (hstart.trans hweek)
        rw [← hnext, hsame]
        rfl
  unfold Closeout.storedEnd
  rw [h.weekOf]
  cases hfor' : db'.statementFor repId (db.weekOf ms).weekStartUtc with
  | some t => exact hends t hfor'
  | none =>
    cases hfor : db.statementFor repId (db.weekOf ms).weekStartUtc with
    | none => rfl
    | some t₀ =>
      obtain ⟨hmem₀, hrep₀, hweek₀⟩ := mem_of_statementFor hfor
      have hkept : HasStatement t₀.id (repId, (db.weekOf ms).weekStartUtc) db' :=
        h.kept _ _ ⟨t₀, hmem₀, rfl, Prod.ext hrep₀ hweek₀⟩
      obtain ⟨t, ht, _, hkey⟩ := hkept
      exact absurd hkey (ne_of_statementFor_none hfor' ht)

end Stable

section Recompute

variable {now : Stamp} {repId : Nat} {db : Db} {ms : Int}

theorem calculate_ok_iff :
    (∃ dto, (calculateOrRecalculateStatement repId ms now db).1 = .ok dto) ↔
      Recomputable now repId ms db := by
  unfold Recomputable
  rcases calculateOrRecalculateStatement_cases repId ms now db with
    ⟨hl, _, hc⟩ | ⟨hl, _, hp, hc⟩ | ⟨hl, p, dto, hp, hc⟩
  · rw [hc, hl]
    simp
  · rw [hc, hp]
    simp
  · rw [hc, hp]
    exact ⟨fun _ => ⟨hl, p, rfl⟩, fun _ => ⟨dto, rfl⟩⟩

theorem repriced_statementFor (hwf : Wf db) (hre : db.weekLocked repId (db.weekOf ms).weekStartUtc =
    false) (p : StatementPricing) :
    ∃ stmt, (repriced now repId ms p db).statementFor repId (db.weekOf ms).weekStartUtc =
      some stmt ∧ stmt.status.locked = false := by
  have hwf' := wf_repriced hwf now repId ms p
  obtain ⟨row, hmem, hkey⟩ := repriced_hasStatement p
  have hrep : row.repId = repId := congrArg Prod.fst hkey
  have hweek : row.weekStartUtc = (db.weekOf ms).weekStartUtc := congrArg Prod.snd hkey
  have hfor := hwf'.statementFor_of_mem hmem
  rw [hrep, hweek] at hfor
  refine ⟨row, hfor, ?_⟩
  have hsame : SameForRep True now repId db (repriced now repId ms p db) :=
    (sameForRep_repriced hwf hre p repId).weaken fun _ => trivial
  have hopen := hsame.weekLocked hwf hwf' (db.weekOf ms).weekStartUtc
  rwa [hre, Db.weekLocked, hfor] at hopen

end Recompute

section Transition

variable {s u : CloseoutDb} {stmt : Statement} {actorId : Option Nat} {now : Stamp}

theorem recomputeBeforeFreeze_ok_iff {db : Db} (hst : stmt.status.locked = false) :
    (recomputeBeforeFreeze stmt now db).1 = .ok () ↔
      ¬ PunchOpen db stmt.repId stmt.weekStartUtc stmt.nextWeekStartUtc ∧
        Recomputable now stmt.repId stmt.weekStartUtc.ms db := by
  have hfin : stmt.status ≠ .finalized := fun h => by simp [h, StatementStatus.locked] at hst
  unfold recomputeBeforeFreeze PunchOpen
  rw [if_neg hfin, bind_apply, read_apply]
  dsimp only
  split
  · rename_i hpunch
    exact ⟨fun h => (by cases h), fun h => absurd hpunch h.1⟩
  · rename_i hpunch
    rw [← calculate_ok_iff]
    unfold recalculate
    cases hcalc : calculateOrRecalculateStatement stmt.repId stmt.weekStartUtc.ms now db with
    | mk result db' =>
      cases result with
      | error e =>
        rw [bind_error hcalc]
        simp
      | ok dto =>
        rw [bind_ok hcalc]
        exact ⟨fun _ => ⟨hpunch, dto, rfl⟩, fun _ => rfl⟩

/-- What a closing transition needs of the commission tables. -/
def BodyReady (now : Stamp) (stmt : Statement) (db : Db) : BatchAction → Prop
  | .finalize => ¬ PunchOpen db stmt.repId stmt.weekStartUtc stmt.nextWeekStartUtc ∧
      Recomputable now stmt.repId stmt.weekStartUtc.ms db
  | .markPaid => stmt.status = .finalized

theorem transitionBody_ok_iff (actorId : Option Nat) (action : BatchAction)
    (hst : action = .finalize → stmt.status.locked = false) :
    (transitionBody stmt actorId now action s).1 = .ok () ↔
      BodyReady now stmt s.commission action := by
  cases action with
  | finalize =>
    have hpaid : stmt.status ≠ .paid := fun h => by
      simp [h, StatementStatus.locked] at hst
    unfold BodyReady transitionBody
    dsimp only
    rw [← recomputeBeforeFreeze_ok_iff (hst rfl)]
    rcases finalizeStatement_cases s actorId now hpaid with
      ⟨db, hre, hfin⟩ | ⟨e, db, hre, hfin⟩
    · rw [hfin, hre]
      exact ⟨fun _ => rfl, fun _ => rfl⟩
    · rw [hfin, hre]
      simp
  | markPaid =>
    unfold BodyReady transitionBody
    dsimp only
    rcases markStatementPaid_cases s stmt actorId now with ⟨hfin, hpay⟩ | ⟨hfin, hthrow⟩
    · rw [hpay]
      exact ⟨fun _ => hfin, fun _ => rfl⟩
    · rw [hthrow]
      exact ⟨fun h => (by cases h), fun h => absurd h hfin⟩

theorem transitionStatement_ok_iff (actorId : Option Nat) (now : Stamp) (hwf : Wf s.commission)
    (hfound : s.commission.statementById stmt.id = some stmt) (action : BatchAction)
    (hst : action = .finalize → stmt.status.locked = false) :
    (∃ a, (transitionStatement actorId stmt.id action.transition now s).1 = .ok a) ↔
      BodyReady now stmt s.commission action ∧
        (s.book.reps.find? (·.id = stmt.repId)).isSome := by
  obtain ⟨_, _, hrow⟩ := transitionBody_effect actorId now hwf hfound action
  have hbook := transitionBody_book stmt actorId now s action
  rw [transitionStatement_eq hfound action, ← transitionBody_ok_iff actorId action hst]
  cases hbody : transitionBody stmt actorId now action s with
  | mk result u =>
    rw [hbody] at hrow hbook
    cases result with
    | error e =>
      rw [bind_error hbody]
      simp
    | ok _ =>
      obtain ⟨row, hfound', _, hkey, _⟩ := hrow rfl
      have hrep : row.repId = stmt.repId := congrArg Prod.fst hkey
      rw [bind_ok hbody, afterTransition_ok_iff action hfound', hbook, hrep]
      simp

end Transition

section Work

variable {s s' u : CloseoutDb} {stmt : Statement} {actorId : Option Nat} {now : Stamp}

theorem failOn_none (s : CloseoutDb) : failOn none s = (.ok (), s) := rfl

theorem failOn_some (e : Thrown) (s : CloseoutDb) : failOn (some e) s = (.error e, s) := rfl

variable {α : Type} {fault : Option Thrown}

theorem closeoutWork_ok {m : CloseoutService α} {a : α} :
    closeoutWork m s = (.ok a, s') ↔ m s = (.ok a, s') := by
  unfold closeoutWork Service.zoom
  rw [id_eq]
  rcases m s with ⟨_ | _, _⟩ <;> simp

theorem closeoutWork_ok_iff {m : CloseoutService α} :
    (∃ a, (closeoutWork m s).1 = .ok a) ↔ ∃ a, (m s).1 = .ok a := by
  unfold closeoutWork Service.zoom
  rw [id_eq]
  rcases m s with ⟨_ | _, _⟩ <;> simp

theorem calculate_statement {db db' : Db} {repId : Nat} {ms : Int} {dto : StatementDTO}
    (h : calculateOrRecalculateStatement repId ms now db = (.ok dto, db')) :
    dto.statement = db'.statementFor repId (db.weekOf ms).weekStartUtc := by
  unfold calculateOrRecalculateStatement at h
  simp only [bind_apply, read_apply] at h
  cases hl : (db.statementFor repId (db.weekOf ms).weekStartUtc).filter (·.status.locked) with
  | some locked =>
    rw [hl] at h
    cases h
  | none =>
    rw [hl] at h
    simp only [overrideBlockForWeek, bind_apply, write_apply, read_apply,
      check_apply] at h
    split at h
    · obtain ⟨hdto, hdb⟩ := Prod.mk.inj h
      rw [← Except.ok.inj hdto, ← hdb]
    · cases h

/-- The lock of a rep's week succeeds. The recomputation inside the transition looks the week up by
the start of the one that was recomputed before it. -/
structure LockReady (fault : Option Thrown) (ms : Int) (now : Stamp) (repId : Nat)
    (s : CloseoutDb) : Prop where
  noFault : fault = none
  recomputed : Recomputable now repId ms s.commission
  punches : ¬ PunchOpen s.commission repId (s.commission.weekOf ms).weekStartUtc
    (storedEnd s.commission repId ms)
  frozen : Recomputable now repId (s.commission.weekOf ms).weekStartUtc.ms s.commission
  listed : (s.book.reps.find? (·.id = repId)).isSome

theorem lockWeek_ok_iff (actorId : Option Nat) (hwf : Wf s.commission) {bounds : WeekBounds}
    {c : Nat} : (∃ a, (lockWeek fault actorId bounds now c s).1 = .ok a) ↔
      LockReady fault bounds.weekStartUtc.ms now c s := by
  unfold lockWeek
  cases fault with
  | some e =>
    rw [bind_error (failOn_some e s)]
    exact ⟨fun ⟨_, h⟩ => (nomatch h), fun h => (nomatch h.noFault)⟩
  | none =>
    rw [bind_ok (failOn_none s)]
    have hcases := calculateOrRecalculateStatement_cases c bounds.weekStartUtc.ms now s.commission
    have hrefused : ∀ e db, calculateOrRecalculateStatement c bounds.weekStartUtc.ms now
        s.commission = (.error e, db) → ¬ Recomputable now c bounds.weekStartUtc.ms s.commission := by
      intro e db hc hre
      obtain ⟨dto, hdto⟩ := calculate_ok_iff.mpr hre
      rw [hc] at hdto
      cases hdto
    have herror : ∀ e db, calculateOrRecalculateStatement c bounds.weekStartUtc.ms now
        s.commission = (.error e, db) →
        commissionWork (calculateOrRecalculateStatement c bounds.weekStartUtc.ms now) s =
          (.error (.commission e), { s with commission := db }) := fun _ _ hc => zoom_error hc
    rcases hcases with ⟨_, status, hc⟩ | ⟨_, e, _, hc⟩ | ⟨hopen, p, dto, hp, hc⟩
    · rw [bind_error (herror _ _ hc)]
      exact ⟨fun ⟨_, h⟩ => (nomatch h), fun h => absurd h.recomputed (hrefused _ _ hc)⟩
    · rw [bind_error (herror _ _ hc)]
      exact ⟨fun ⟨_, h⟩ => (nomatch h), fun h => absurd h.recomputed (hrefused _ _ hc)⟩
    · have hwork : commissionWork (calculateOrRecalculateStatement c bounds.weekStartUtc.ms now) s =
          (.ok dto, { s with
            commission := repriced now c bounds.weekStartUtc.ms p s.commission }) :=
        zoom_ok hc
      obtain ⟨stmt, hfor, hst⟩ := repriced_statementFor hwf hopen p
      obtain ⟨hmem, hrep, hweek⟩ := mem_of_statementFor hfor
      have hwf' := wf_repriced hwf now c bounds.weekStartUtc.ms p
      have hsame : SameForRep True now c s.commission
          (repriced now c bounds.weekStartUtc.ms p s.commission) :=
        (sameForRep_repriced hwf hopen p c).weaken fun _ => trivial
      have hend : stmt.nextWeekStartUtc = storedEnd s.commission c bounds.weekStartUtc.ms := by
        rw [← hsame.storedEnd hwf]
        unfold storedEnd
        rw [hsame.weekOf, hfor]
        rfl
      rw [bind_ok hwork, calculate_statement hc, hfor]
      have hlock := transitionStatement_ok_iff actorId now
        (s := { s with commission := repriced now c bounds.weekStartUtc.ms p s.commission }) hwf'
        (hwf'.statementById_of_mem hmem) .finalize fun _ => hst
      rw [closeoutWork_ok_iff]
      refine hlock.trans ?_
      unfold BodyReady
      rw [hrep, hweek, hend, hsame.punchOpen_iff, hsame.recomputable_iff hwf hwf']
      exact ⟨fun ⟨⟨hpunch, hre⟩, hlisted⟩ => ⟨rfl, ⟨hopen, p, hp⟩, hpunch, hre, hlisted⟩,
        fun h => ⟨⟨h.punches, h.frozen⟩, h.listed⟩⟩

theorem LockReady.undisturbed {touched : Prop} {ms : Int} {repId : Nat}
    (h : LockReady fault ms now repId s) (hview : Undisturbed touched now repId s u)
    (hwf : Wf s.commission) (hwf' : Wf u.commission) : LockReady fault ms now repId u where
  noFault := h.noFault
  recomputed := (hview.commission.recomputable_iff hwf hwf' ms).mpr h.recomputed
  punches := by
    rw [hview.commission.weekOf, hview.commission.storedEnd hwf, hview.commission.punchOpen_iff]
    exact h.punches
  frozen := by
    rw [hview.commission.weekOf, hview.commission.recomputable_iff hwf hwf']
    exact h.frozen
  listed := by
    rw [hview.reps]
    exact h.listed

theorem payStatement_ok_iff (actorId : Option Nat) (now : Stamp) (hwf : Wf s.commission)
    (hfound : s.commission.statementById stmt.id = some stmt) :
    (∃ a, (payStatement fault actorId stmt.id now s).1 = .ok a) ↔
      fault = none ∧ stmt.status = .finalized ∧
        (s.book.reps.find? (·.id = stmt.repId)).isSome := by
  unfold payStatement
  cases fault with
  | some e =>
    rw [bind_error (failOn_some e s)]
    simp
  | none =>
    rw [bind_ok (failOn_none s), closeoutWork_ok_iff]
    have hpay := transitionStatement_ok_iff actorId now hwf hfound .markPaid
      fun h => (nomatch h)
    rw [BatchAction.transition] at hpay
    rw [hpay]
    simp [BodyReady]

end Work

end HomefrontFiber.Closeout
