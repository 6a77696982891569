import HomefrontFiber.Foundation.Runs
import HomefrontFiber.Knocking.Route

/-!
# One row for a client id

A knock is sent until it is answered, and each attempt may crash anywhere. What follows the insert
of its row leaves the client ids of the log alone, and a row is inserted only where none has its id.
-/

namespace HomefrontFiber.Knocking

open Commission List Service

def loggedIds (s : KnockDb) : List String := s.knocks.filterMap (·.clientId)

variable {I : List String → Prop}

theorem keeps_bookMoney (knock : Knock) (outcome : KnockOutcome) (a : Attempt) :
    Keeps (fun s => I (loggedIds s)) (bookMoney knock outcome a) := by
  have hcommission : ∀ {α : Type} (m : CommissionService α),
      Keeps (fun s => I (loggedIds s)) (onCommission m) := by
    intro α m s hs
    unfold onCommission
    cases (m s.commission).1 <;> exact hs
  unfold bookMoney
  split
  · exact Keeps.pure _
  · refine Keeps.bind (Keeps.bind (Keeps.read _) fun tenant => ?_) fun _ => Keeps.write fun s hs => ?_
    · split
      · exact Keeps.throw _
      · split <;> exact hcommission _
    · unfold createCommission
      repeat' split
      all_goals exact hs

theorem keeps_runMoneyBundle (knock : Knock) (knockedAt : Stamp) (a : Attempt) :
    Keeps (fun s => I (loggedIds s)) (runMoneyBundle knock knockedAt a) := by
  refine Keeps.transaction ?_
  split
  · exact Keeps.throw _
  · refine Keeps.bind (Keeps.bind (Keeps.read _) fun won => ?_) fun won => ?_
    · split
      · exact Keeps.bind (Keeps.write fun _ h => h) fun _ => Keeps.pure _
      · exact Keeps.pure _
    · split
      · exact Keeps.bind (keeps_bookMoney _ _ _) fun _ =>
          Keeps.bind (Keeps.write fun _ h => h) fun _ => Keeps.pure _
      · exact Keeps.pure _

theorem loggedIds_setSuperseded (knockId : Nat) (superseded : Bool) (s : KnockDb) :
    loggedIds (setSuperseded knockId superseded s) = loggedIds s := by
  unfold loggedIds setSuperseded
  rw [filterMap_map]
  congr 1
  funext k
  simp only [Function.comp_apply]
  split <;> rfl

theorem keeps_crashAt (a : Attempt) (point : CrashPoint) :
    Keeps (fun s => I (loggedIds s)) (crashAt a point) := by
  unfold crashAt
  split
  · exact Keeps.throw _
  · exact Keeps.pure _

theorem keeps_replayKnock (existing : Knock) (a : Attempt) :
    Keeps (fun s => I (loggedIds s)) (replayKnock existing a) := by
  unfold replayKnock
  split
  · exact Keeps.pure _
  · refine Keeps.bind (keeps_crashAt _ _) fun _ =>
      Keeps.bind (Keeps.attempt (keeps_runMoneyBundle _ _ _)) fun healed => ?_
    split
    · exact Keeps.pure _
    · refine Keeps.bind (keeps_crashAt _ _) fun _ => Keeps.bind (Keeps.write fun s hs => ?_) fun _ =>
        Keeps.bind (keeps_crashAt _ _) fun _ => Keeps.pure _
      unfold recordHeal
      split
      · exact hs
      · exact (loggedIds_setSuperseded _ _ s).symm ▸ hs

theorem firstKnock_once {ids : List String} (lead : Lead) (outcome : KnockOutcome) (repId : Nat)
    (a : Attempt) (hids : ids.Nodup) (hnew : ∀ c, a.request.clientId = some c → c ∉ ids) :
    Triple (fun s => loggedIds s = ids) (firstKnock lead outcome repId a)
      (fun _ s => (loggedIds s).Nodup) fun _ s => (loggedIds s).Nodup := by
  refine Triple.bind (Triple.conseq (keeps_crashAt (I := (· = ids)) a .beforeInsert)
    (fun _ => id) (fun _ _ => id) fun _ _ h => h ▸ hids) fun _ => Triple.bind ?_ fun knock =>
      Keeps.bind (keeps_crashAt (I := Nodup) _ _) fun _ =>
        Keeps.bind (Keeps.attempt (keeps_runMoneyBundle _ _ _)) fun verdict => ?_
  · refine Triple.bind (Triple.read (Q := fun _ s => loggedIds s = ids) fun _ h => h) fun id =>
      Triple.bind (Q := fun _ s => (loggedIds s).Nodup) (Triple.write ?_) fun _ => Keeps.pure _
    rintro s rfl
    cases hc : a.request.clientId with
    | none => simpa [loggedIds, newKnock, hc] using hids
    | some c =>
      have hfresh := hnew c hc
      have hne : ∀ b ∈ loggedIds s, b ≠ c := fun b hb => ne_of_mem_of_not_mem hb hfresh
      simpa [loggedIds, newKnock, hc, nodup_append] using ⟨hids, by simpa [loggedIds] using hne⟩
  · split
    · exact Keeps.pure _
    · exact Keeps.pure _
    · refine Keeps.bind (keeps_crashAt _ _) fun _ => Keeps.bind (Keeps.write fun s hs => ?_) fun _ =>
        Keeps.bind (keeps_crashAt _ _) fun _ => Keeps.bind (Keeps.write fun s hs => ?_) fun _ =>
          Keeps.bind (keeps_crashAt _ _) fun _ => ?_
      · unfold evaluateSpiffForSale
        repeat' split
        all_goals exact hs
      · exact (loggedIds_setSuperseded _ _ s).symm ▸ hs
      · split <;> exact Keeps.pure _

theorem loggedIds_step {s : KnockDb} (hs : (loggedIds s).Nodup) (a : Attempt) :
    (loggedIds (step s a)).Nodup := by
  refine Triple.store (P := (· = s)) (I := fun s => (loggedIds s).Nodup) (m := postKnock a)
    (Triple.bind (Q := fun _ s' => s' = s) (Triple.read fun _ h => h) fun lead => ?_) rfl
  split
  · exact fun _ h => h ▸ hs
  · split
    · exact fun _ h => h ▸ hs
    · split
      · exact fun _ h => h ▸ hs
      · refine Triple.bind (Q := fun existing s' => s' = s ∧
          a.request.clientId.bind s.knockByClientId = existing) (Triple.read ?_) fun existing => ?_
        · rintro _ rfl
          exact ⟨rfl, rfl⟩
        · split
          · exact Triple.conseq (keeps_replayKnock (I := Nodup) _ a) (fun _ h => h.1 ▸ hs)
              (fun _ _ => id) fun _ _ => id
          · exact fun _ h => h.1 ▸ hs
          · split
            · exact fun _ h => h.1 ▸ hs
            · split
              · rintro _ ⟨rfl, hnone⟩
                refine firstKnock_once _ _ _ _ hs (fun c hc hmem => ?_) _ rfl
                obtain ⟨k, hk, hkc⟩ := mem_filterMap.mp hmem
                rw [hc, Option.bind_some] at hnone
                exact find?_eq_none.mp hnone k hk (decide_eq_true hkc)
              · exact fun _ h => h.1 ▸ hs

/-- However often and by whomever knocks are sent, and wherever the attempts crash, no two rows have
one client id. -/
theorem knocks_once (s : KnockDb) (as : List Attempt) :
    (loggedIds (run step { s with knocks := [] } as)).Nodup :=
  run_invariant_all (I := fun s => (loggedIds s).Nodup) (fun _ a hs => loggedIds_step hs a) as
    nodup_nil

end HomefrontFiber.Knocking
