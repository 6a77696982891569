import HomefrontFiber.TwinMerge.Merge

/-!
# Good merges

A merge is good when the two rows are one door, every row that named the loser names the survivor,
and the survivor holds a lead link that either held. It needs that no table outside `REPOINT` names
the loser and that the loser's link is none or the survivor's.
-/

namespace HomefrontFiber.TwinMerge

open List

open FreshFiber (Unicode canonicalAddressPart addressIdentityOf addressIdentityOf_eq_iff)

variable {u : Unicode} {db : MergeDb} {survivor loser : Int}

/-- The row of a table after a merge, when every reference to the loser is moved. -/
def Follows (survivor loser : Int) (r r' : RefRow) : Prop :=
  r'.ref = if r.ref = some loser then some survivor else r.ref

structure MergeGood (u : Unicode) (m : Merge) : Prop where
  deleted : ids m.after = (ids m.before).erase m.loser ∧ m.loser ∈ ids m.before ∧
    m.survivor ∈ ids m.after
  door : ∀ a b, targetOf m.before m.survivor = some a → targetOf m.before m.loser = some b →
    a.tenantId = b.tenantId ∧ upper a.state = upper b.state ∧
      addressIdentityOf u a.address = addressIdentityOf u b.address
  refs : List.Forall₂ (fun t t' => List.Forall₂ (Follows m.survivor m.loser) t.rows t'.rows)
    m.before.refs m.after.refs
  link : ∀ a b c, targetOf m.before m.survivor = some a → targetOf m.before m.loser = some b →
    targetOf m.after m.survivor = some c → ∀ lead,
      a.convertedToLeadId = some lead ∨ b.convertedToLeadId = some lead →
        c.convertedToLeadId = some lead

/-- No table outside `REPOINT` names the loser, and its link is none or the survivor's. -/
def Carried (db : MergeDb) (survivor loser : Int) : Prop :=
  (∀ t ∈ db.refs, listed t = false → ∀ r ∈ t.rows, r.ref ≠ some loser) ∧
    ∀ a b, targetOf db survivor = some a → targetOf db loser = some b →
      b.convertedToLeadId = none ∨ a.convertedToLeadId = b.convertedToLeadId

theorem follows_repointRows (survivor loser : Int) (t : RefTable) :
    List.Forall₂ (Follows survivor loser) t.rows (repointRows survivor loser t).rows := by
  unfold repointRows
  rw [forall₂_map_right_iff]
  apply forall₂_same.mpr
  intro r _
  unfold Follows
  split
  · rfl
  · rfl

theorem release_of_unnamed {t : RefTable} (h : ∀ r ∈ t.rows, r.ref ≠ some loser) :
    (release loser t).rows = t.rows := by
  unfold release
  cases hkey : t.onDelete
  case keep => rfl
  case setNull =>
    conv_rhs => rw [← map_id t.rows]
    apply map_congr_left
    intro r hr
    rw [if_neg (h r hr)]
    rfl
  case cascade =>
    rw [filter_eq_self]
    intro r hr
    exact decide_eq_true (h r hr)

theorem repointRows_unnamed (hne : survivor ≠ loser) (t : RefTable) :
    ∀ r ∈ (repointRows survivor loser t).rows, r.ref ≠ some loser := by
  intro r hr
  obtain ⟨r₀, -, rfl⟩ := mem_map.mp hr
  split
  · simpa using hne
  · assumption

/-- A table that is not listed and names the loser loses the reference, whatever its foreign key. -/
theorem unnamed_of_follows (hne : survivor ≠ loser) {t : RefTable}
    (h : List.Forall₂ (Follows survivor loser) t.rows (release loser t).rows) :
    ∀ r ∈ t.rows, r.ref ≠ some loser := by
  unfold release at h
  cases hkey : t.onDelete
  all_goals rw [hkey] at h; dsimp only at h
  case keep =>
    intro r hr hnamed
    have hself := forall₂_same.mp h r hr
    unfold Follows at hself
    rw [if_pos hnamed, hnamed, Option.some.injEq] at hself
    exact hne hself.symm
  case setNull =>
    rw [forall₂_map_right_iff] at h
    intro r hr hnamed
    have hself := forall₂_same.mp h r hr
    unfold Follows at hself
    rw [if_pos hnamed, if_pos hnamed] at hself
    cases hself
  case cascade =>
    have hlength := h.length_eq
    have hall := length_filter_eq_length_iff.mp hlength.symm
    intro r hr
    simpa using hall r hr

theorem forall₂_refs (hne : survivor ≠ loser) :
    List.Forall₂ (fun t t' => List.Forall₂ (Follows survivor loser) t.rows t'.rows) db.refs
        (merged db survivor loser).refs ↔
      ∀ t ∈ db.refs, listed t = false → ∀ r ∈ t.rows, r.ref ≠ some loser := by
  have hrefs : (merged db survivor loser).refs = (db.refs.map fun t =>
      if listed t then repointRows survivor loser t else t).map (release loser) := rfl
  rw [hrefs, map_map, forall₂_map_right_iff, forall₂_same]
  apply forall₂_congr
  intro t _
  dsimp only [Function.comp_apply]
  by_cases hlisted : listed t = true
  · rw [if_pos hlisted, release_of_unnamed (repointRows_unnamed hne t)]
    refine ⟨fun _ hbad => ?_, fun _ => follows_repointRows survivor loser t⟩
    rw [hlisted] at hbad
    cases hbad
  · have hfalse := eq_false_of_ne_true hlisted
    rw [if_neg hlisted]
    refine ⟨fun h _ => unnamed_of_follows hne h, fun h => ?_⟩
    have hunnamed := h hfalse
    rw [release_of_unnamed hunnamed, forall₂_same]
    intro r hr
    unfold Follows
    rw [if_neg (hunnamed r hr)]

/-- The two rows of a pair are twins, whichever is the survivor. -/
def Twins (u : Unicode) (a b : ScanTarget) : Prop := twin u a b = true ∨ twin u b a = true

theorem Twins.door {a b : ScanTarget} (h : Twins u a b) :
    a.tenantId = b.tenantId ∧ upper a.state = upper b.state ∧
      addressIdentityOf u a.address = addressIdentityOf u b.address := by
  have hparts : ∀ x y : ScanTarget, twin u x y = true → y.tenantId = x.tenantId ∧
      upper y.state = upper x.state ∧
        canonicalAddressPart u y.address = canonicalAddressPart u x.address := by
    intro x y hxy
    unfold twin at hxy
    simp only [Bool.and_eq_true, decide_eq_true_eq] at hxy
    obtain ⟨⟨⟨⟨⟨⟨⟨⟨⟨-, -⟩, htenant⟩, hstate⟩, -⟩, -⟩, -⟩, -⟩, -⟩, haddress⟩ := hxy
    exact ⟨htenant, hstate, haddress⟩
  rw [addressIdentityOf_eq_iff]
  obtain h | h := h
  · obtain ⟨htenant, hstate, haddress⟩ := hparts a b h
    exact ⟨htenant.symm, hstate.symm, haddress.symm⟩
  · exact hparts b a h

theorem mergeGood_iff (hids : (ids db).Nodup) (h : Picked db survivor loser)
    (htwins : ∀ a b, targetOf db survivor = some a → targetOf db loser = some b → Twins u a b) :
    MergeGood u ⟨db, survivor, loser, merged db survivor loser⟩ ↔ Carried db survivor loser := by
  obtain ⟨a, ha⟩ := h.kept
  obtain ⟨b, hb⟩ := h.lost
  obtain ⟨c, hc, hcore⟩ := @targetOf_merged_some db survivor loser hids survivor a ha h.ne
  have hlink : (core c).convertedToLeadId = (core a).convertedToLeadId := by rw [hcore]
  change c.convertedToLeadId = a.convertedToLeadId at hlink
  constructor
  · intro hgood
    refine ⟨(forall₂_refs h.ne).mp hgood.refs, ?_⟩
    rintro a' b' ha' hb'
    rw [ha, Option.some.injEq] at ha'
    rw [hb, Option.some.injEq] at hb'
    subst ha' hb'
    cases hlost : b.convertedToLeadId with
    | none => exact .inl rfl
    | some lead =>
      right
      rw [← hlink]
      exact hgood.link a b c ha hb hc lead (.inr hlost)
  · rintro ⟨hunnamed, hcarried⟩
    refine ⟨⟨?_, ?_, ?_⟩, ?_, (forall₂_refs h.ne).mpr hunnamed, ?_⟩
    · dsimp only
      rw [merged_ids, hids.erase_eq_filter]
      apply filter_congr
      intro id _
      rw [bne, beq_eq_decide _ _, decide_not]
    · obtain ⟨hmem, hid⟩ := targetOf_mem hb
      exact hid ▸ mem_map_of_mem hmem
    · obtain ⟨hmem, hid⟩ := targetOf_mem hc
      have hin : c.id ∈ ids (merged db survivor loser) := mem_map_of_mem hmem
      rw [hid] at hin
      exact hin
    · intro a' b' ha' hb'
      exact (htwins a' b' ha' hb').door
    · intro a' b' c' ha' hb' hc' lead hlead
      dsimp only at ha' hb' hc'
      rw [ha, Option.some.injEq] at ha'
      rw [hb, Option.some.injEq] at hb'
      rw [hc, Option.some.injEq] at hc'
      subst ha' hb' hc'
      rw [hlink]
      obtain hkept | hlost := hlead
      · exact hkept
      · obtain hnone | hsame := hcarried a b ha hb
        · rw [hnone] at hlost
          cases hlost
        · rw [hsame]
          exact hlost

end HomefrontFiber.TwinMerge

/-!
## Repeated calls

A call is sound when its first pair is not refused by a constraint, each pair that it reaches still
has both rows, and no merge loses a reference or a link. The calls drain the twins without a loss
exactly when every one of them is sound.
-/

namespace HomefrontFiber.TwinMerge

open List

open FreshFiber (Unicode)

variable {u : Unicode} {db : MergeDb}

/-- The pairs that the loop reaches find both rows, and each merge carries what it moves. -/
def LoopSound (paused : Nat → Bool) : Nat → List (Int × Int) → MergeDb → Prop
  | _, [], _ => True
  | i, (aId, bId) :: pairs, db => paused i = true ∨
      ∃ survivor loser, pickSurvivor db aId bId = some (survivor, loser) ∧
        (blocked db survivor loser = true ∨ Carried db survivor loser ∧
          LoopSound paused (i + 1) pairs (merged db survivor loser))

def FirstFree (pairs : List (Int × Int)) (db : MergeDb) : Prop :=
  ∀ pair ∈ pairs.head?, ∀ survivor loser,
    pickSurvivor db pair.1 pair.2 = some (survivor, loser) → blocked db survivor loser = false

structure CallSound (order : QueryOrder u) (maxPairs : Nat) (paused : Nat → Bool)
    (db : MergeDb) : Prop where
  first : FirstFree ((order.pairs db).take maxPairs) db
  loop : LoopSound paused 0 ((order.pairs db).take maxPairs) db

def CallGood (u : Unicode) (c : Call) : Prop := c.threw = false ∧ ∀ m ∈ c.merges, MergeGood u m

def Queried (u : Unicode) (db : MergeDb) (pairs : List (Int × Int)) : Prop :=
  ∀ pair ∈ pairs, pair.1 ≠ pair.2 ∧ ∀ a b, targetOf db pair.1 = some a →
    targetOf db pair.2 = some b → twin u a b = true

theorem queried_pairs (order : QueryOrder u) (hids : (ids db).Nodup) (maxPairs : Nat) :
    Queried u db ((order.pairs db).take maxPairs) := by
  intro pair hpair
  have hmem : pair ∈ twinPairs u db := (order.perm db).subset (mem_of_mem_take hpair)
  obtain ⟨a, ha, hrow⟩ := mem_flatMap.mp hmem
  obtain ⟨b, hb, rfl⟩ := mem_map.mp hrow
  obtain ⟨hb, htwin⟩ := mem_filter.mp hb
  refine ⟨?_, ?_⟩
  · intro hsame
    have hlt : a.id < b.id := by
      have hparts := htwin
      unfold twin at hparts
      simp only [Bool.and_eq_true, decide_eq_true_eq] at hparts
      exact hparts.1.1.1.1.1.1.1.1.2
    dsimp only at hsame
    omega
  · intro a' b' ha' hb'
    rw [targetOf_eq_some hids ha, Option.some.injEq] at ha'
    rw [targetOf_eq_some hids hb, Option.some.injEq] at hb'
    subst ha' hb'
    exact htwin

variable {pairs : List (Int × Int)} {aId bId : Int} {c : Call} {pair : Int × Int}

theorem Queried.merged (h : Queried u db pairs) (hids : (ids db).Nodup) (survivor loser : Int) :
    Queried u (merged db survivor loser) pairs := by
  intro pair hpair
  obtain ⟨hne, htwin⟩ := h pair hpair
  refine ⟨hne, fun a b ha hb => ?_⟩
  obtain ⟨a₀, ha₀, hcorea, -⟩ := targetOf_merged hids ha
  obtain ⟨b₀, hb₀, hcoreb, -⟩ := targetOf_merged hids hb
  rw [← twin_core, hcorea, hcoreb, twin_core]
  exact htwin a₀ b₀ ha₀ hb₀

theorem twins_of_queried {survivor loser : Int}
    (h : ∀ a b, targetOf db aId = some a → targetOf db bId = some b → twin u a b = true)
    (hpick : pickSurvivor db aId bId = some (survivor, loser)) :
    ∀ a b, targetOf db survivor = some a → targetOf db loser = some b → Twins u a b := by
  obtain ⟨-, -, ⟨rfl, rfl⟩ | ⟨rfl, rfl⟩⟩ := pickSurvivor_cases hpick
  · exact fun a b ha hb => .inl (h a b ha hb)
  · exact fun a b ha hb => .inr (h b a hb ha)

def Call.afterMerge (c : Call) (survivor loser : Int) : Call :=
  { c with
    db := merged c.db survivor loser
    result := { c.result with
      merged := c.result.merged + 1
      fksRepointed := c.result.fksRepointed + repointed c.db loser }
    merges := c.merges ++ [⟨c.db, survivor, loser, merged c.db survivor loser⟩] }

theorem Queried.rest
    (h : Queried u c.db (pair :: pairs)) (hids : (ids c.db).Nodup) (survivor loser : Int) :
    Queried u (c.afterMerge survivor loser).db pairs :=
  fun later hlater => h.merged hids survivor loser later (mem_cons_of_mem _ hlater)

theorem mergeLoop_cons (paused : Nat → Bool) (i : Nat) (pairs : List (Int × Int))
    {survivor loser : Int} (hids : (ids c.db).Nodup) (hne : aId ≠ bId)
    (hpaused : paused i = false) (hpick : pickSurvivor c.db aId bId = some (survivor, loser)) :
    mergeLoop paused i ((aId, bId) :: pairs) c =
      if blocked c.db survivor loser then
        { c with result := { c.result with
          halted := some ("rollback: " ++ "constraint failed") } }
      else mergeLoop paused (i + 1) pairs (c.afterMerge survivor loser) := by
  have htxn := mergeTxn_eq hids (picked_of_pickSurvivor hpick hne)
  rw [mergeLoop, hpaused, if_neg Bool.false_ne_true, hpick]
  dsimp only
  rw [htxn]
  by_cases hblocked : blocked c.db survivor loser = true
  · rw [if_pos hblocked, if_pos hblocked]
  · rw [if_neg hblocked, if_neg hblocked]
    rfl

theorem callGood_mergeLoop (paused : Nat → Bool) (i : Nat) (pairs : List (Int × Int))
    (hids : (ids c.db).Nodup) (hqueried : Queried u c.db pairs) (hreturns : c.threw = false) :
    CallGood u (mergeLoop paused i pairs c) ↔
      (∀ m ∈ c.merges, MergeGood u m) ∧ LoopSound paused i pairs c.db := by
  induction pairs generalizing i c with
  | nil =>
    rw [mergeLoop]
    exact ⟨fun h => ⟨h.2, trivial⟩, fun h => ⟨hreturns, h.1⟩⟩
  | cons pair pairs ih =>
    obtain ⟨aId, bId⟩ := pair
    obtain ⟨hne, htwin⟩ := hqueried (aId, bId) mem_cons_self
    rw [LoopSound]
    by_cases hpaused : paused i = true
    · rw [mergeLoop, if_pos hpaused]
      exact ⟨fun h => ⟨h.2, .inl hpaused⟩, fun h => ⟨hreturns, h.1⟩⟩
    · have hgo := eq_false_of_ne_true hpaused
      cases hpick : pickSurvivor c.db aId bId with
      | none =>
        rw [mergeLoop, if_neg hpaused, hpick]
        constructor
        · rintro ⟨hthrew, -⟩
          cases hthrew
        · rintro ⟨-, hbad | ⟨survivor, loser, hbad, -⟩⟩
          · exact absurd hbad hpaused
          · cases hbad
      | some chosen =>
        obtain ⟨survivor, loser⟩ := chosen
        have hpicked := picked_of_pickSurvivor hpick hne
        rw [mergeLoop_cons paused i pairs hids hne hgo hpick]
        by_cases hblocked : blocked c.db survivor loser = true
        · rw [if_pos hblocked]
          exact ⟨fun h => ⟨h.2, .inr ⟨survivor, loser, rfl, .inl hblocked⟩⟩,
            fun h => ⟨hreturns, h.1⟩⟩
        · rw [if_neg hblocked]
          have hgood := mergeGood_iff hids hpicked (twins_of_queried htwin hpick)
          rw [ih (i + 1) (merged_nodup hids) (hqueried.rest hids survivor loser) hreturns]
          have hmerges : (∀ m ∈ (c.afterMerge survivor loser).merges, MergeGood u m) ↔
              (∀ m ∈ c.merges, MergeGood u m) ∧ Carried c.db survivor loser := by
            rw [← hgood]
            simp only [Call.afterMerge, mem_append, mem_singleton, or_imp, forall_and,
              forall_eq]
          rw [hmerges, and_assoc]
          apply and_congr_right
          intro _
          constructor
          · rintro ⟨hcarried, hsound⟩
            exact .inr ⟨survivor, loser, rfl, .inr ⟨hcarried, hsound⟩⟩
          · rintro (hbad | ⟨survivor', loser', hsame, hbad | hrest'⟩)
            · exact absurd hbad hpaused
            · cases hsame
              exact absurd hbad hblocked
            · cases hsame
              exact hrest'

theorem mergeLoop_shrinks (paused : Nat → Bool) (i : Nat) (pairs : List (Int × Int))
    (hids : (ids c.db).Nodup) (hqueried : Queried u c.db pairs) :
    (ids (mergeLoop paused i pairs c).db).Nodup ∧
      (mergeLoop paused i pairs c).db.targets.length ≤ c.db.targets.length ∧
      (mergeLoop paused i pairs c).result.pairsFound = c.result.pairsFound := by
  induction pairs generalizing i c with
  | nil => exact ⟨hids, le_refl _, rfl⟩
  | cons pair pairs ih =>
    obtain ⟨aId, bId⟩ := pair
    by_cases hpaused : paused i = true
    · rw [mergeLoop, if_pos hpaused]
      exact ⟨hids, le_refl _, rfl⟩
    · cases hpick : pickSurvivor c.db aId bId with
      | none =>
        rw [mergeLoop, if_neg hpaused, hpick]
        exact ⟨hids, le_refl _, rfl⟩
      | some chosen =>
        obtain ⟨survivor, loser⟩ := chosen
        have hne := (hqueried (aId, bId) mem_cons_self).1
        have hlength := merged_length hids (picked_of_pickSurvivor hpick hne)
        rw [mergeLoop_cons paused i pairs hids hne (eq_false_of_ne_true hpaused) hpick]
        by_cases hblocked : blocked c.db survivor loser = true
        · rw [if_pos hblocked]
          exact ⟨hids, le_refl _, rfl⟩
        · rw [if_neg hblocked]
          obtain ⟨hnodup, hless, hfound⟩ := ih (i + 1) (c := c.afterMerge survivor loser)
            (merged_nodup hids) (hqueried.rest hids survivor loser)
          have hshort : (c.afterMerge survivor loser).db.targets.length ≤ c.db.targets.length :=
            hlength ▸ Nat.le_succ _
          exact ⟨hnodup, hless.trans hshort, hfound⟩

theorem pickSurvivor_pairs (order : QueryOrder u) (hids : (ids db).Nodup)
    (h : pair ∈ order.pairs db) :
    ∃ survivor loser, pickSurvivor db pair.1 pair.2 = some (survivor, loser) := by
  have hmem : pair ∈ twinPairs u db := (order.perm db).subset h
  obtain ⟨a, ha, hrow⟩ := mem_flatMap.mp hmem
  obtain ⟨b, hb, rfl⟩ := mem_map.mp hrow
  have hb := (mem_filter.mp hb).1
  unfold pickSurvivor
  rw [targetOf_eq_some hids ha, targetOf_eq_some hids hb]
  exact ⟨_, _, rfl⟩

section Calls

variable (order : QueryOrder u) (maxPairs : Nat) (pressures : Nat → Nat → Bool) (db : MergeDb)

/-- The tables before the `n`th of repeated calls. -/
def before : Nat → MergeDb
  | 0 => db
  | n + 1 => (mergeCityAliasTwins order maxPairs (pressures n) (before n)).db

def callAt (n : Nat) : Call :=
  mergeCityAliasTwins order maxPairs (pressures n) (before order maxPairs pressures db n)

/-- Repeated calls return, merge well, and reach a call that finds no pair. -/
structure DrainsSafely : Prop where
  calls : ∀ n, CallGood u (callAt order maxPairs pressures db n)
  drained : ∃ n, (callAt order maxPairs pressures db n).result.pairsFound = 0

variable {order maxPairs pressures db}

theorem before_nodup (hids : (ids db).Nodup) (n : Nat) :
    (ids (before order maxPairs pressures db n)).Nodup := by
  induction n with
  | zero => exact hids
  | succ n ih => exact (mergeLoop_shrinks _ 0 _ ih (queried_pairs order ih maxPairs)).1

theorem pairsFound_callAt (hids : (ids db).Nodup) (n : Nat) :
    (callAt order maxPairs pressures db n).result.pairsFound =
      ((order.pairs (before order maxPairs pressures db n)).take maxPairs).length :=
  (mergeLoop_shrinks _ 0 _ (before_nodup hids n)
    (queried_pairs order (before_nodup hids n) maxPairs)).2.2

/-- What a call leaves when it finds no pair, is paused at once, or is refused at its first. -/
theorem before_stuck {n : Nat}
    (h : ∀ aId bId pairs, (order.pairs (before order maxPairs pressures db n)).take maxPairs =
      (aId, bId) :: pairs → pressures n 0 = false →
        ∃ survivor loser, pickSurvivor (before order maxPairs pressures db n) aId bId =
          some (survivor, loser) ∧ blocked (before order maxPairs pressures db n) survivor loser = true)
    (hids : (ids db).Nodup) :
    before order maxPairs pressures db (n + 1) = before order maxPairs pressures db n := by
  have hnodup : (ids (before order maxPairs pressures db n)).Nodup := before_nodup hids n
  have hqueried := queried_pairs order hnodup maxPairs
  rw [before]
  unfold mergeCityAliasTwins
  cases hpairs : (order.pairs (before order maxPairs pressures db n)).take maxPairs with
  | nil => rfl
  | cons pair pairs =>
    obtain ⟨aId, bId⟩ := pair
    by_cases hpaused : pressures n 0 = true
    · rw [mergeLoop, if_pos hpaused]
    · have hgo := eq_false_of_ne_true hpaused
      obtain ⟨survivor, loser, hpick, hblocked⟩ := h aId bId pairs hpairs hgo
      have hne := (hqueried (aId, bId) (by rw [hpairs]; exact mem_cons_self)).1
      let start : Call := ⟨before order maxPairs pressures db n,
        { pairsFound := ((aId, bId) :: pairs).length }, [], false⟩
      have hloop := mergeLoop_cons (pressures n) 0 pairs (c := start) hnodup hne hgo hpick
      rw [if_pos hblocked] at hloop
      exact congrArg Call.db hloop

theorem before_shrinks (hids : (ids db).Nodup) {n : Nat} (hgo : pressures n 0 = false)
    (hfirst : FirstFree ((order.pairs (before order maxPairs pressures db n)).take maxPairs)
      (before order maxPairs pressures db n))
    (hfound : (order.pairs (before order maxPairs pressures db n)).take maxPairs ≠ []) :
    (before order maxPairs pressures db (n + 1)).targets.length <
      (before order maxPairs pressures db n).targets.length := by
  have hnodup : (ids (before order maxPairs pressures db n)).Nodup := before_nodup hids n
  have hqueried := queried_pairs order hnodup maxPairs
  have hpicks : ∀ pair ∈ (order.pairs (before order maxPairs pressures db n)).take maxPairs,
      ∃ survivor loser, pickSurvivor (before order maxPairs pressures db n) pair.1 pair.2 =
        some (survivor, loser) :=
    fun pair hpair => pickSurvivor_pairs order hnodup (mem_of_mem_take hpair)
  rw [before]
  unfold mergeCityAliasTwins
  cases hpairs : (order.pairs (before order maxPairs pressures db n)).take maxPairs with
  | nil => exact absurd hpairs hfound
  | cons pair pairs =>
    obtain ⟨aId, bId⟩ := pair
    rw [hpairs] at hqueried hpicks hfirst
    obtain ⟨survivor, loser, hpick⟩ := hpicks (aId, bId) mem_cons_self
    have hfree : blocked (before order maxPairs pressures db n) survivor loser = false :=
      hfirst (aId, bId) rfl survivor loser hpick
    have hne := (hqueried (aId, bId) mem_cons_self).1
    have hlength := merged_length hnodup (picked_of_pickSurvivor hpick hne)
    let start : Call := ⟨before order maxPairs pressures db n,
      { pairsFound := ((aId, bId) :: pairs).length }, [], false⟩
    have hloop := mergeLoop_cons (pressures n) 0 pairs (c := start) hnodup hne hgo hpick
    have hopen : ¬ blocked start.db survivor loser = true := by
      change ¬ blocked (before order maxPairs pressures db n) survivor loser = true
      rw [hfree]
      exact Bool.false_ne_true
    rw [if_neg hopen] at hloop
    have hless := (mergeLoop_shrinks (pressures n) 1 pairs (c := start.afterMerge survivor loser)
      (merged_nodup hnodup) (hqueried.rest (c := start) hnodup survivor loser)).2.1
    have hshort : (start.afterMerge survivor loser).db.targets.length <
        (before order maxPairs pressures db n).targets.length := hlength ▸ Nat.lt_succ_self _
    have hdb := congrArg Call.db hloop
    change (mergeLoop (pressures n) 0 ((aId, bId) :: pairs) start).db.targets.length < _
    rw [hdb]
    exact hless.trans_lt hshort

theorem before_le (hids : (ids db).Nodup) {n m : Nat} (h : n ≤ m) :
    (before order maxPairs pressures db m).targets.length ≤
      (before order maxPairs pressures db n).targets.length := by
  induction m, h using Nat.le_induction with
  | base => exact le_refl _
  | succ m _ ih =>
    have hnodup : (ids (before order maxPairs pressures db m)).Nodup := before_nodup hids m
    exact le_trans (mergeLoop_shrinks _ 0 _ hnodup (queried_pairs order hnodup maxPairs)).2.1 ih

theorem drained_of_firstFree (hids : (ids db).Nodup)
    (hrelaxes : ∀ n, ∃ k, n ≤ k ∧ pressures k 0 = false)
    (hfirst : ∀ n, FirstFree ((order.pairs (before order maxPairs pressures db n)).take maxPairs)
      (before order maxPairs pressures db n)) :
    ∃ n, (callAt order maxPairs pressures db n).result.pairsFound = 0 := by
  have hbound : ∀ size n, (before order maxPairs pressures db n).targets.length ≤ size →
      ∃ k, (callAt order maxPairs pressures db k).result.pairsFound = 0 := by
    intro size
    induction size with
    | zero =>
      intro n hsize
      obtain ⟨k, hk, hgo⟩ := hrelaxes n
      refine ⟨k, ?_⟩
      rw [pairsFound_callAt hids, length_eq_zero_iff]
      by_contra hfound
      have hless := before_shrinks hids hgo (hfirst k) hfound
      have hle := @before_le u order maxPairs pressures db hids n k hk
      omega
    | succ size ih =>
      intro n hsize
      obtain ⟨k, hk, hgo⟩ := hrelaxes n
      by_cases hfound : (order.pairs (before order maxPairs pressures db k)).take maxPairs = []
      · refine ⟨k, ?_⟩
        rw [pairsFound_callAt hids, hfound]
        rfl
      · have hless := before_shrinks hids hgo (hfirst k) hfound
        have hle := @before_le u order maxPairs pressures db hids n k hk
        exact ih (k + 1) (by omega)
  exact hbound _ 0 (le_refl _)

theorem firstFree_of_drained (hids : (ids db).Nodup)
    (hdrained : ∃ n, (callAt order maxPairs pressures db n).result.pairsFound = 0) (n : Nat) :
    FirstFree ((order.pairs (before order maxPairs pressures db n)).take maxPairs)
      (before order maxPairs pressures db n) := by
  intro pair hhead survivor loser hpick
  by_contra hblocked
  have hrefused := eq_true_of_ne_false hblocked
  have hstay : ∀ m, n ≤ m → before order maxPairs pressures db m =
      before order maxPairs pressures db n := by
    intro m hm
    induction m, hm using Nat.le_induction with
    | base => rfl
    | succ m _ ih =>
      rw [before_stuck _ hids, ih]
      intro aId bId pairs hpairs _
      rw [ih] at hpairs ⊢
      rw [hpairs] at hhead
      cases hhead
      exact ⟨survivor, loser, hpick, hrefused⟩
  obtain ⟨m, hzero⟩ := hdrained
  rw [pairsFound_callAt hids, length_eq_zero_iff] at hzero
  obtain hlater | hearlier := Nat.le_total n m
  · rw [hstay m hlater] at hzero
    rw [hzero] at hhead
    cases hhead
  · have hempty : before order maxPairs pressures db n = before order maxPairs pressures db m := by
      clear hstay hhead hpick hblocked hrefused
      induction n, hearlier using Nat.le_induction with
      | base => rfl
      | succ n _ ih =>
        rw [before_stuck _ hids, ih]
        intro aId bId pairs hpairs _
        rw [ih, hzero] at hpairs
        cases hpairs
    rw [hempty, hzero] at hhead
    cases hhead

/-- Repeated calls drain the twins safely exactly when every call is sound. -/
theorem drainsSafely_iff (order : QueryOrder u) (maxPairs : Nat) (pressures : Nat → Nat → Bool)
    (db : MergeDb) (hids : (ids db).Nodup)
    (hrelaxes : ∀ n, ∃ k, n ≤ k ∧ pressures k 0 = false) :
    DrainsSafely order maxPairs pressures db ↔
      ∀ n, CallSound order maxPairs (pressures n) (before order maxPairs pressures db n) := by
  have hloop : ∀ n, CallGood u (callAt order maxPairs pressures db n) ↔
      LoopSound (pressures n) 0
        ((order.pairs (before order maxPairs pressures db n)).take maxPairs)
        (before order maxPairs pressures db n) := by
    intro n
    have hnodup : (ids (before order maxPairs pressures db n)).Nodup := before_nodup hids n
    have hgood := callGood_mergeLoop (pressures n) 0 _ (c := ⟨before order maxPairs pressures db n,
      { pairsFound :=
        ((order.pairs (before order maxPairs pressures db n)).take maxPairs).length }, [], false⟩)
      hnodup (queried_pairs order hnodup maxPairs) rfl
    refine hgood.trans ⟨fun h => h.2, fun h => ⟨fun m hm => absurd hm not_mem_nil, h⟩⟩
  constructor
  · intro hdrains n
    exact ⟨firstFree_of_drained hids hdrains.drained n, (hloop n).mp (hdrains.calls n)⟩
  · intro hsound
    exact ⟨fun n => (hloop n).mpr (hsound n).loop,
      drained_of_firstFree hids hrelaxes fun n => (hsound n).first⟩

end Calls

def rowOrder (u : Unicode) : QueryOrder u := ⟨twinPairs u, fun _ => List.Perm.refl _⟩

def spelling (id : Int) (address city : String) : ScanTarget where
  id
  tenantId := some 1
  address := address.toList
  state := "NC".toList
  lat := some (357 / 10)
  lng := some (-804 / 10)
  streetKey := some "BELLA DR".toList
  canonicalKey := some city.toList

/-- A door under two postal cities, with a snapshot of the second row. -/
def twoSpellings : MergeDb where
  targets := [spelling 1 "48 Bella Dr" "SALISBURY", spelling 2 "48 Bella Drive" "LEXINGTON"]
  refs := [⟨"availability_snapshots", "scan_target_id", .cascade, [{ ref := some 2 }]⟩]

def oneSpelling : MergeDb where
  targets := [spelling 1 "48 Bella Dr" "SALISBURY"]
  refs := [⟨"availability_snapshots", "scan_target_id", .cascade, [{ ref := some 1 }]⟩]

theorem drainsSafely_twoSpellings :
    DrainsSafely (rowOrder Unicode.ascii) 500 (fun _ _ => false) twoSpellings := by
  have hids : (ids twoSpellings).Nodup := by decide
  have hpairs : ((rowOrder Unicode.ascii).pairs twoSpellings).take 500 = [(1, 2)] := by
    decide +kernel
  have hpick : pickSurvivor twoSpellings 1 2 = some (1, 2) := by decide +kernel
  have hfree : blocked twoSpellings 1 2 = false := by decide +kernel
  have hcarried : Carried twoSpellings 1 2 := by
    refine ⟨by decide +kernel, fun a b _ hb => .inl ?_⟩
    have hrow : targetOf twoSpellings 2 = some (spelling 2 "48 Bella Drive" "LEXINGTON") := rfl
    rw [hrow, Option.some.injEq] at hb
    subst hb
    rfl
  have hnone : ((rowOrder Unicode.ascii).pairs oneSpelling).take 500 = [] := by decide +kernel
  have hlater : ∀ n, before (rowOrder Unicode.ascii) 500 (fun _ _ => false) twoSpellings (n + 1) =
      oneSpelling := by
    intro n
    induction n with
    | zero => decide +kernel
    | succ n ih =>
      rw [before_stuck _ hids, ih]
      intro aId bId pairs hcons
      rw [ih, hnone] at hcons
      cases hcons
  refine (drainsSafely_iff (rowOrder Unicode.ascii) 500 _ twoSpellings hids
    (fun n => ⟨n, le_refl n, rfl⟩)).mpr fun n => ?_
  cases n with
  | zero =>
    refine ⟨?_, ?_⟩
    · rw [before, hpairs]
      rintro pair hhead survivor loser hchosen
      cases hhead
      rw [hpick] at hchosen
      cases hchosen
      exact hfree
    · rw [before, hpairs]
      exact .inr ⟨1, 2, hpick, .inr ⟨hcarried, trivial⟩⟩
  | succ n =>
    refine ⟨?_, ?_⟩
    · rw [hlater, hnone]
      intro pair hhead
      cases hhead
    · rw [hlater, hnone]
      trivial

/-- Three spellings of one door: the second pair of the list names the row that the first deleted. -/
def threeSpellings : MergeDb where
  targets := [spelling 1 "48 Bella Dr" "SALISBURY", spelling 2 "48 Bella Drive" "LEXINGTON",
    spelling 3 "48 Bella Dr." "SPENCER"]
  refs := []

theorem not_drainsSafely_threeSpellings :
    ¬ DrainsSafely (rowOrder Unicode.ascii) 500 (fun _ _ => false) threeSpellings := by
  intro h
  have hreturns := (h.calls 0).1
  revert hreturns
  decide +kernel

end HomefrontFiber.TwinMerge
