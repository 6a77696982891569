import HomefrontFiber.ComingLedger.Watchlist

/-!
# A door that turns on and its street

One answer goes through the lifecycle and then through the ledger. The ledger wakes the neighbours of
a door when it closes an open promise with fiber. But a live answer has by then promoted the row, so
the ledger finds nothing to close; and a coming-soon answer has opened one, so the ledger closes a
promise that nobody had made. The neighbours in the radius that the bounding box leaves out are lost
as well.
-/

namespace HomefrontFiber.ComingLedger

open List

def others (targetId : Int) (rows : List WatchRow) : List WatchRow :=
  rows.filter (·.targetId ≠ targetId)

variable {f : WatchRow → WatchRow} {new : WatchRow}

section Others

variable {targetId : Int} {rows : List WatchRow}

theorem others_updateWhere {p : WatchRow → Bool}
    (hp : ∀ r, p r = true → r.targetId = targetId) (hf : ∀ r, (f r).targetId = r.targetId)
    (rows : List WatchRow) : others targetId (updateWhere p f rows) = others targetId rows := by
  induction rows with
  | nil => rfl
  | cons r rows ih =>
    have hrest : List.filter (·.targetId ≠ targetId) (updateWhere p f rows) =
        List.filter (·.targetId ≠ targetId) rows := ih
    by_cases hr : p r = true
    · simp [others, updateWhere, hr, hf, hp r hr] at hrest ⊢
      exact hrest
    · simp only [others, updateWhere, map_cons, hr, if_false, filter_cons,
        Bool.false_eq_true] at hrest ⊢
      rw [hrest]

theorem others_upsert (hnew : new.targetId = targetId)
    (hf : ∀ r, (f r).targetId = r.targetId) (rows : List WatchRow) :
    others targetId (upsert new f rows) = others targetId rows := by
  unfold upsert
  split
  · apply others_updateWhere
    · intro r hr
      exact (of_decide_eq_true hr).trans hnew
    · exact hf
  · simp [others, hnew]

theorem others_lifecycleWatches (tenantId : Int) (target : ScanTarget) (sig : LifecycleSignal)
    (confidence : Confidence) (epoch : Int) (rows : List WatchRow) :
    others target.id (lifecycleWatches tenantId target sig confidence epoch rows) =
      others target.id rows := by
  have hown : ∀ r : WatchRow, (r.targetId = target.id && r.status = .active : Bool) = true →
      r.targetId = target.id := by
    intro r hr
    simp only [Bool.and_eq_true, decide_eq_true_eq] at hr
    exact hr.1
  unfold lifecycleWatches
  split
  · apply others_upsert
    · rfl
    · exact fun _ => rfl
  · have hrefreshed : others target.id (updateWhere
        (fun r => r.targetId = target.id && r.status = .active)
        (fun r => { r with lastCheckedAt := some epoch }) rows) = others target.id rows := by
      apply others_updateWhere hown
      exact fun _ => rfl
    simp only
    split
    · rw [← hrefreshed]
      apply others_updateWhere hown
      exact fun _ => rfl
    · exact hrefreshed

theorem others_closeRows (c : Recording) (read : FutureServiceRead) (rows : List WatchRow) :
    others c.targetId (closeRows c read rows) = others c.targetId rows := by
  apply others_updateWhere
  · intro r hr
    simp only [openAt, Bool.and_eq_true, decide_eq_true_eq] at hr
    exact hr.1.2
  · exact fun _ => rfl

theorem others_promiseRows (cfg : LedgerConfig) (c : Recording) (read : FutureServiceRead)
    (rows : List WatchRow) :
    others c.targetId (promiseRows cfg c read rows) = others c.targetId rows := by
  unfold promiseRows
  simp only
  split
  · apply others_updateWhere
    · intro r hr
      simp only [Bool.and_eq_true, decide_eq_true_eq] at hr
      exact hr.2
    · exact fun _ => rfl
  · apply others_upsert
    · rfl
    · exact fun _ => rfl

end Others

theorem targetOf_updateTarget {f : ScanTarget → ScanTarget} (hf : ∀ t, (f t).id = t.id)
    (id k : Int) (targets : List ScanTarget) :
    targetOf (updateTarget id f targets) k =
      (targetOf targets k).map fun t => if t.id = id then f t else t := by
  unfold targetOf updateTarget
  rw [find?_map]
  congr 2
  funext t
  by_cases h : t.id = id <;> simp [h, hf]

structure SameMap (targets targets' : List ScanTarget) : Prop where
  point : ∀ id, pointOf targets' id = pointOf targets id
  origin : ∀ tenantId id, originOf targets' tenantId id = originOf targets tenantId id

theorem SameMap.refl (targets : List ScanTarget) : SameMap targets targets :=
  ⟨fun _ => rfl, fun _ _ => rfl⟩

theorem SameMap.trans {a b c : List ScanTarget} (hab : SameMap a b) (hbc : SameMap b c) :
    SameMap a c where
  point id := (hbc.point id).trans (hab.point id)
  origin tenantId id := (hbc.origin tenantId id).trans (hab.origin tenantId id)

theorem sameMap_updateTarget {f : ScanTarget → ScanTarget} (hid : ∀ t, (f t).id = t.id)
    (htenant : ∀ t, (f t).tenantId = t.tenantId) (hpoint : ∀ t, (f t).point = t.point) (id : Int)
    (targets : List ScanTarget) : SameMap targets (updateTarget id f targets) where
  point k := by
    rw [pointOf, targetOf_updateTarget hid, pointOf]
    cases targetOf targets k with
    | none => rfl
    | some t => by_cases h : t.id = id <;> simp [h, hpoint]
  origin tenantId k := by
    unfold originOf updateTarget
    rw [find?_map, Option.bind_map]
    have hquery : ((fun t : ScanTarget => decide (t.id = k) && decide (t.tenantId = tenantId)) ∘
        fun t => if t.id = id then f t else t) =
        fun t => decide (t.id = k) && decide (t.tenantId = tenantId) := by
      funext t
      by_cases h : t.id = id <;> simp [h, hid, htenant]
    rw [hquery]
    congr 1
    funext t
    by_cases h : t.id = id <;> simp [h, hpoint]

def wakeRow (tenantId nowMs : Int) (ids : List Int) (r : WatchRow) : WatchRow :=
  if r.tenantId = tenantId ∧ r.status = .active ∧ r.targetId ∈ ids then
    { r with dueAt := some nowMs, band := some .hot }
  else r

theorem foldl_bump (tenantId nowMs : Int) (ids : List Int) (rows : List WatchRow) :
    ids.foldl (bump tenantId nowMs) rows = rows.map (wakeRow tenantId nowMs ids) := by
  induction ids generalizing rows with
  | nil =>
    have hid : wakeRow tenantId nowMs [] = id := by
      funext r
      simp [wakeRow]
    rw [hid, map_id]
    rfl
  | cons id ids ih =>
    rw [foldl_cons, ih, bump, updateWhere, map_map]
    apply map_congr_left
    intro r _
    by_cases htenant : r.tenantId = tenantId
    · by_cases hactive : r.status = .active
      · by_cases hid : r.targetId = id
        · simp [wakeRow, htenant, hactive, hid]
        · simp [wakeRow, htenant, hactive, hid]
      · simp [wakeRow, hactive]
    · simp [wakeRow, htenant]

theorem others_map_wakeRow (targetId tenantId nowMs : Int) (ids : List Int)
    (rows : List WatchRow) :
    others targetId (rows.map (wakeRow tenantId nowMs ids)) =
      (others targetId rows).map (wakeRow tenantId nowMs ids) := by
  unfold others
  rw [filter_map]
  congr 2
  funext r
  by_cases h : r.tenantId = tenantId ∧ r.status = .active ∧ r.targetId ∈ ids <;> simp [wakeRow, h]

section Check

variable (earth : Earth) (flip : FlipConfig) (w : World) (c : Check)

/-- The answer reports fiber at a door whose promise was open. -/
def keepsPromise : Bool := c.result.fiberAvailable && w.watches.any (openAt c.recording)

def inRadius (origin : LatLng) (targets : List ScanTarget) (r : WatchRow) : Bool :=
  (pointOf targets r.targetId).any fun p => earth.haversineMeters origin p ≤ flip.radiusM

/-- The sleeping promises within the radius, in their stated order. -/
def neighbours : List WatchRow :=
  match originOf w.targets c.tenantId c.targetId with
  | none => []
  | some origin => (sleepers c.tenantId c.targetId c.nowMs w).filter (inRadius earth flip origin w.targets)

def street : List WatchRow :=
  if keepsPromise w c then (neighbours earth flip w c).take flip.fanout else []

def dueAfter (ids : List Int) (r : WatchRow) : Option Int :=
  if r.tenantId = c.tenantId ∧ r.status = .active ∧ r.targetId ∈ ids then some c.nowMs else r.dueAt

/-- Of the other doors, those with the ids are due now, and nothing else has changed its due time or
its affirmation. -/
def Wakes (ids : List Int) (w' : World) : Prop :=
  (others c.targetId w'.watches).map (fun r => (r.targetId, r.dueAt, r.updatedAt)) =
    (others c.targetId w.watches).map fun r => (r.targetId, dueAfter c ids r, r.updatedAt)

/-- An answer wakes exactly the street of a door whose promise it keeps. -/
def WakesStreet (cfg : LedgerConfig) : Prop :=
  Wakes w c ((street earth flip w c).map (·.targetId)) (applyCheck cfg earth flip c w)

def lifecycleRuns : Bool :=
  !w.snapshots.contains c.key && (targetOf w.targets c.targetId).any (!outOfOrder · c.epoch)

def comingSoonAnswer : Bool := (lifecycleSignalOf c.result (transitionOf w c)).comingSoon

/-- The row of the door is open when the ledger reads it: a coming-soon snapshot opens it, any other
live one has promoted it. -/
def stillOpen : Bool :=
  if lifecycleRuns w c then
    if comingSoonAnswer w c then
      !(w.watches.any (·.targetId = c.targetId)) ||
        w.watches.any fun r => r.tenantId = c.tenantId && r.targetId = c.targetId
    else !c.result.fiberAvailable && w.watches.any (openAt c.recording)
  else w.watches.any (openAt c.recording)

def flips : Bool :=
  flip.enabled && c.result.fiberAvailable && !(readFutureService c.result).isFuture && stillOpen w c

/-- The door of a row lies in the bounding box of the prefilter. -/
def boxed (r : WatchRow) : Bool :=
  (originOf w.targets c.tenantId c.targetId).any fun origin =>
    (pointOf w.targets r.targetId).any (inBox earth flip.radiusM origin)

def flipTargets : List WatchRow :=
  match originOf w.targets c.tenantId c.targetId with
  | none => []
  | some origin =>
    (insideRows earth flip origin w.targets (sleepers c.tenantId c.targetId c.nowMs w)).take
      flip.fanout

def woken : List WatchRow := if flips flip w c then flipTargets earth flip w c else []

theorem neighbours_eq {origin : LatLng}
    (horigin : originOf w.targets c.tenantId c.targetId = some origin) :
    neighbours earth flip w c =
      (sleepers c.tenantId c.targetId c.nowMs w).filter (inRadius earth flip origin w.targets) := by
  simp [neighbours, horigin]

theorem flipTargets_eq : flipTargets earth flip w c =
    ((neighbours earth flip w c).filter (boxed earth flip w c)).take flip.fanout := by
  unfold flipTargets
  cases horigin : originOf w.targets c.tenantId c.targetId with
  | none => simp [neighbours, horigin]
  | some origin =>
    have hrows : insideRows earth flip origin w.targets
        (sleepers c.tenantId c.targetId c.nowMs w) =
        (neighbours earth flip w c).filter (boxed earth flip w c) := by
      rw [neighbours_eq earth flip w c horigin, insideRows, filter_filter,
        filter_filter]
      congr 1
      funext r
      simp only [boxed, horigin, Option.any_some, inRadius]
      exact Bool.and_comm _ _
    exact congrArg (List.take flip.fanout) hrows

/-! #### What the lifecycle leaves to the ledger -/

theorem others_persistSnapshot :
    others c.targetId (persistSnapshot w c).watches = others c.targetId w.watches := by
  unfold persistSnapshot
  split
  · rfl
  · unfold applyConclusiveLifecycle
    split
    · rfl
    · rename_i target htarget
      have hid : target.id = c.targetId := by
        simpa [targetOf] using find?_some htarget
      split
      · rfl
      · rw [← hid]
        exact others_lifecycleWatches _ target _ _ _ _

theorem sameMap_persistSnapshot : SameMap w.targets (persistSnapshot w c).targets := by
  unfold persistSnapshot
  split
  · exact SameMap.refl _
  · unfold applyConclusiveLifecycle
    split
    · exact SameMap.refl _
    · split
      · exact SameMap.refl _
      · simp only
        split
        · exact SameMap.refl _
        · apply sameMap_updateTarget
          · exact fun _ => rfl
          · exact fun _ => rfl
          · exact fun _ => rfl

theorem sameMap_recordScanTargetResult : SameMap w.targets (recordScanTargetResult w c).targets := by
  apply sameMap_updateTarget
  · exact fun _ => rfl
  · exact fun _ => rfl
  · exact fun _ => rfl

theorem any_updateWhere (p q : WatchRow → Bool) (f : WatchRow → WatchRow) (rows : List WatchRow) :
    (updateWhere p f rows).any q = rows.any fun r => if p r then q (f r) else q r := by
  rw [updateWhere, any_map]
  congr 1
  funext r
  simp only [Function.comp_apply]
  split <;> rfl

theorem any_openAt_upsert {rc : Recording}
    (hnew : openAt rc new = true) (hf : ∀ r, (f r).tenantId = r.tenantId ∧
      (f r).targetId = r.targetId ∧ (f r).status = .active) (rows : List WatchRow) :
    (upsert new f rows).any (openAt rc) = (!(rows.any (·.targetId = rc.targetId)) ||
      rows.any fun r => r.tenantId = rc.tenantId && r.targetId = rc.targetId) := by
  simp only [openAt, Bool.and_eq_true, decide_eq_true_eq] at hnew
  obtain ⟨⟨htenant, htarget⟩, hactive⟩ := hnew
  unfold upsert
  split
  · rename_i hsome
    have hany : rows.any (·.targetId = rc.targetId) = true := by
      rw [watchOf, htarget, find?_isSome] at hsome
      exact any_eq_true.mpr hsome
    rw [any_updateWhere, hany]
    simp only [Bool.not_true, Bool.false_or]
    congr 1
    funext r
    by_cases hr : r.targetId = rc.targetId
    · simp [openAt, htarget, hr, hf]
    · simp [openAt, htarget, hr]
  · rename_i hnone
    have hany : rows.any (·.targetId = rc.targetId) = false := by
      rw [watchOf, htarget, find?_isSome] at hnone
      simpa using hnone
    rw [hany, any_append]
    simp [openAt, htenant, htarget, hactive]

theorem any_openAt_lifecycleWatches {tenantId : Int} {target : ScanTarget} {rc : Recording}
    (htenant : rc.tenantId = tenantId) (htarget : rc.targetId = target.id) (sig : LifecycleSignal)
    (confidence : Confidence) (epoch : Int) (rows : List WatchRow) :
    (lifecycleWatches tenantId target sig confidence epoch rows).any (openAt rc) =
      if sig.comingSoon then
        !(rows.any (·.targetId = rc.targetId)) ||
          rows.any fun r => r.tenantId = rc.tenantId && r.targetId = rc.targetId
      else !sig.fiberAvailable && rows.any (openAt rc) := by
  unfold lifecycleWatches
  split
  · apply any_openAt_upsert
    · simp [openAt, snapshotWatch, htenant, htarget]
    · exact fun r => ⟨rfl, rfl, rfl⟩
  · have hrefreshed : (updateWhere (fun r => r.targetId = target.id && r.status = .active)
        (fun r => { r with lastCheckedAt := some epoch }) rows).any (openAt rc) =
        rows.any (openAt rc) := by
      rw [any_updateWhere]
      congr 1
      funext r
      split <;> rfl
    simp only
    split
    · rename_i hlive
      rw [any_updateWhere, hlive]
      simp only [Bool.not_true, Bool.false_and, any_eq_false]
      intro r _
      by_cases hr : r.targetId = target.id
      · by_cases hactive : r.status = .active <;> simp [openAt, htarget, hr, hactive]
      · simp [openAt, htarget, hr]
    · rename_i hdark
      rw [hrefreshed]
      simp [hdark]

theorem any_openAt_persistSnapshot :
    (persistSnapshot w c).watches.any (openAt c.recording) = stillOpen w c := by
  unfold persistSnapshot stillOpen
  cases hreplayed : w.snapshots.contains c.key with
  | true =>
    have hruns : lifecycleRuns w c = false := by simp only [lifecycleRuns, hreplayed]; rfl
    simp only [hruns, if_true, if_false, Bool.false_eq_true]
  | false =>
    simp only [if_false, Bool.false_eq_true]
    unfold applyConclusiveLifecycle
    cases htarget : targetOf w.targets c.targetId with
    | none =>
      have hruns : lifecycleRuns w c = false := by
        simp only [lifecycleRuns, hreplayed, htarget]
        rfl
      simp only [hruns, if_false, Bool.false_eq_true]
    | some target =>
      have hid : c.recording.targetId = target.id := by
        have hfound : target.id = c.targetId := by
          simpa [targetOf] using find?_some htarget
        exact hfound.symm
      cases hlate : outOfOrder target c.epoch with
      | true =>
        have hruns : lifecycleRuns w c = false := by
          simp only [lifecycleRuns, hreplayed, htarget, Option.any_some, hlate]
          rfl
        simp only [hlate, hruns, if_true, if_false, Bool.false_eq_true]
      | false =>
        have hruns : lifecycleRuns w c = true := by
          simp only [lifecycleRuns, hreplayed, htarget, Option.any_some, hlate]
          rfl
        simp only [hlate, hruns, if_true, if_false, Bool.false_eq_true]
        exact any_openAt_lifecycleWatches rfl hid _ _ _ _

/-! #### What the answer does to the other doors -/

theorem sleepers_congr {w w' : World} {tenantId targetId : Int} (nowMs : Int)
    (h : others targetId w'.watches = others targetId w.watches) :
    sleepers tenantId targetId nowMs w' = sleepers tenantId targetId nowMs w := by
  have hother : ∀ rows : List WatchRow, rows.filter (asleep tenantId targetId nowMs) =
      (others targetId rows).filter (asleep tenantId targetId nowMs) := by
    intro rows
    rw [others, filter_filter]
    congr 1
    funext r
    by_cases hr : r.targetId = targetId <;> simp [asleep, hr]
  unfold sleepers
  rw [hother, hother w.watches, h]

theorem insideRows_congr {targets targets' : List ScanTarget} (h : SameMap targets targets')
    (origin : LatLng) (rows : List WatchRow) :
    insideRows earth flip origin targets' rows = insideRows earth flip origin targets rows := by
  simp only [insideRows, h.point]

theorem others_propagateFlip {w₀ : World} (hmap : SameMap w₀.targets w.targets)
    (hothers : others c.targetId w.watches = others c.targetId w₀.watches)
    (henabled : flip.enabled = true) :
    others c.targetId (propagateFlip earth flip c.tenantId c.targetId c.nowMs w).watches =
      (others c.targetId w₀.watches).map (wakeRow c.tenantId c.nowMs
        ((flipTargets earth flip w₀ c).map (·.targetId))) := by
  unfold propagateFlip flipTargets
  simp only [henabled, Bool.not_true, Bool.false_eq_true, if_false, hmap.origin]
  cases originOf w₀.targets c.tenantId c.targetId with
  | none =>
    have hid : wakeRow c.tenantId c.nowMs [] = id := by
      funext r
      simp [wakeRow]
    simp only [map_nil, hid, map_id, hothers]
  | some origin =>
    simp only [foldl_bump, others_map_wakeRow, hothers, sleepers_congr c.nowMs hothers,
      insideRows_congr earth flip hmap]

theorem others_applyCheck (cfg : LedgerConfig) :
    others c.targetId (applyCheck cfg earth flip c w).watches =
      (others c.targetId w.watches).map
        (wakeRow c.tenantId c.nowMs ((woken earth flip w c).map (·.targetId))) := by
  have hid : wakeRow c.tenantId c.nowMs [] = id := by
    funext r
    simp [wakeRow]
  let w₁ := recordScanTargetResult (persistSnapshot w c) c
  have hmap : SameMap w.targets w₁.targets :=
    (sameMap_persistSnapshot w c).trans (sameMap_recordScanTargetResult _ c)
  have hothers : others c.targetId w₁.watches = others c.targetId w.watches :=
    others_persistSnapshot w c
  have hopen : w₁.watches.any (openAt c.recording) = stillOpen w c := any_openAt_persistSnapshot w c
  have hstill : flips flip w c = false → (woken earth flip w c).map (·.targetId) = [] := by
    intro hflips
    simp [woken, hflips]
  change others c.targetId (recordFutureService cfg earth flip c.recording
    (readFutureService c.result) w₁).watches = _
  unfold recordFutureService
  by_cases hfuture : (readFutureService c.result).isFuture = true
  · rw [hstill (by simp [flips, hfuture]), hid, map_id, if_pos hfuture, ← hothers]
    exact others_promiseRows cfg c.recording _ _
  · have hclosed : others c.targetId (closeRows c.recording (readFutureService c.result)
        w₁.watches) = others c.targetId w.watches :=
      (others_closeRows c.recording _ _).trans hothers
    rw [if_neg hfuture, hopen]
    by_cases hgo : (stillOpen w c && decide (c.recording.fiberAvailable = some true)) = true
    · simp only [hgo, if_true]
      have hlive : stillOpen w c = true ∧ c.result.fiberAvailable = true := by
        simpa [Check.recording] using hgo
      by_cases henabled : flip.enabled = true
      · have hflips : flips flip w c = true := by simp [flips, henabled, hlive, hfuture]
        have hwoken : woken earth flip w c = flipTargets earth flip w c := if_pos hflips
        rw [hwoken]
        exact others_propagateFlip earth flip
          { w₁ with watches := closeRows c.recording (readFutureService c.result) w₁.watches } c
          hmap hclosed henabled
      · rw [hstill (by simp [flips, henabled]), hid, map_id]
        simp only [propagateFlip, henabled, Bool.not_false, if_true]
        exact hclosed
    · have hflips : flips flip w c = false := by
        simp only [Check.recording, Bool.and_eq_true, decide_eq_true_eq, Option.some.injEq,
          not_and] at hgo
        cases hopen' : stillOpen w c with
        | false => simp [flips, hopen']
        | true => simp [flips, hgo hopen']
      rw [hstill hflips, hid, map_id]
      simp only [hgo, Bool.false_eq_true, if_false]
      exact hclosed

/-! #### When the street is woken -/

theorem wakes_iff (cfg : LedgerConfig) (ids : List Int) :
    Wakes w c ids (applyCheck cfg earth flip c w) ↔ ∀ r ∈ others c.targetId w.watches,
      dueAfter c ((woken earth flip w c).map (·.targetId)) r = dueAfter c ids r := by
  have hview : ∀ ids' : List Int, ∀ r : WatchRow,
      ((wakeRow c.tenantId c.nowMs ids' r).targetId, (wakeRow c.tenantId c.nowMs ids' r).dueAt,
        (wakeRow c.tenantId c.nowMs ids' r).updatedAt) =
        (r.targetId, dueAfter c ids' r, r.updatedAt) := by
    intro ids' r
    unfold wakeRow dueAfter
    split <;> rfl
  unfold Wakes
  rw [others_applyCheck, map_map, map_inj_left]
  simp only [Function.comp_apply, hview, Prod.mk.injEq, true_and, and_true]

theorem mem_neighbours {r : WatchRow} (h : r ∈ neighbours earth flip w c) :
    r ∈ others c.targetId w.watches ∧ asleep c.tenantId c.targetId c.nowMs r = true := by
  unfold neighbours at h
  split at h
  · simp at h
  · obtain ⟨hmem, hasleep⟩ : r ∈ w.watches ∧ asleep c.tenantId c.targetId c.nowMs r = true := by
      have hsleeper := (mem_filter.mp h).1
      rw [sleepers, mem_insertionSort] at hsleeper
      exact mem_filter.mp hsleeper
    refine ⟨mem_filter.mpr ⟨hmem, ?_⟩, hasleep⟩
    simp only [asleep, Bool.and_eq_true] at hasleep
    exact hasleep.1.2

theorem dueAfter_neighbour {r : WatchRow} (h : r ∈ neighbours earth flip w c) (ids : List Int) :
    dueAfter c ids r = some c.nowMs ↔ r.targetId ∈ ids := by
  have hasleep := (mem_neighbours earth flip w c h).2
  simp only [asleep, Bool.and_eq_true, decide_eq_true_eq] at hasleep
  obtain ⟨⟨⟨htenant, hactive⟩, -⟩, hdue⟩ := hasleep
  by_cases hid : r.targetId ∈ ids
  · simp [dueAfter, htenant, hactive, hid]
  · have hlater : r.dueAt ≠ some c.nowMs := by
      intro hnow
      simp [hnow] at hdue
    simp [dueAfter, hid, hlater]

theorem take_filter_of_forall {α : Type*} {p : α → Bool} {l : List α} {k : Nat}
    (h : ∀ a ∈ l.take k, p a = true) : (l.filter p).take k = l.take k := by
  induction l generalizing k with
  | nil => rfl
  | cons a l ih =>
    cases k with
    | zero => rfl
    | succ k =>
      have ha : p a = true := h a (by simp)
      rw [filter_cons_of_pos ha, take_succ_cons, take_succ_cons,
        ih fun b hb => h b (by simp [hb])]

/-- The answer of a door with a promise flips it, and the box holds the street; the answer of a door
without one flips nothing that has a street. -/
structure CollectsStreet : Prop where
  kept : keepsPromise w c = true → neighbours earth flip w c ≠ [] → flips flip w c = true ∧
    ∀ r ∈ (neighbours earth flip w c).take flip.fanout, boxed earth flip w c r = true
  unprovoked : keepsPromise w c = false → flips flip w c = true →
    ∀ r ∈ neighbours earth flip w c, boxed earth flip w c r = false

theorem woken_eq_street (h : CollectsStreet earth flip w c) :
    woken earth flip w c = street earth flip w c := by
  unfold woken street
  cases hkept : keepsPromise w c with
  | true =>
    simp only [if_true]
    by_cases hnone : neighbours earth flip w c = []
    · simp [flipTargets_eq, hnone]
    · obtain ⟨hflips, hboxed⟩ := h.kept hkept hnone
      rw [if_pos hflips, flipTargets_eq]
      exact take_filter_of_forall hboxed
  | false =>
    simp only [Bool.false_eq_true, if_false]
    split
    · rename_i hflips
      have hempty : (neighbours earth flip w c).filter (boxed earth flip w c) = [] := by
        apply filter_eq_nil_iff.mpr
        intro r hr
        simp [h.unprovoked hkept hflips r hr]
      rw [flipTargets_eq, hempty, take_nil]
    · rfl

theorem boxed_of_woken {id : Int} (h : id ∈ (woken earth flip w c).map (·.targetId)) :
    flips flip w c = true ∧ ∀ r : WatchRow, r.targetId = id → boxed earth flip w c r = true := by
  obtain ⟨r', hr', rfl⟩ := mem_map.mp h
  unfold woken at hr'
  split at hr'
  · rename_i hflips
    rw [flipTargets_eq] at hr'
    have hboxed := (mem_filter.mp (mem_of_mem_take hr')).2
    refine ⟨hflips, fun r hr => ?_⟩
    simpa only [boxed, hr] using hboxed
  · simp at hr'

/-- An answer wakes its street exactly when the ledger still finds the promise that the door had
open, or there is no street to wake. -/
theorem wakesStreet_iff (cfg : LedgerConfig) :
    WakesStreet earth flip w c cfg ↔ CollectsStreet earth flip w c := by
  unfold WakesStreet
  rw [wakes_iff]
  constructor
  · intro h
    constructor
    · intro hkept hsome
      have hwoken : ∀ r ∈ (neighbours earth flip w c).take flip.fanout,
          r.targetId ∈ (woken earth flip w c).map (·.targetId) := by
        intro r hr
        have hneighbour := mem_of_mem_take hr
        have hstreet : r.targetId ∈ (street earth flip w c).map (·.targetId) := by
          rw [street, if_pos hkept]
          exact mem_map_of_mem hr
        have hdue := h r (mem_neighbours earth flip w c hneighbour).1
        rw [(dueAfter_neighbour earth flip w c hneighbour _).mpr hstreet] at hdue
        exact (dueAfter_neighbour earth flip w c hneighbour _).mp hdue
      obtain ⟨first, rest, hlist⟩ := exists_cons_of_ne_nil hsome
      have hfirst : first ∈ (neighbours earth flip w c).take flip.fanout := by
        obtain ⟨k, hk⟩ := Nat.exists_eq_add_of_le flip.fanout_pos
        simp [hlist, hk, Nat.add_comm 1 k]
      refine ⟨(boxed_of_woken earth flip w c (hwoken first hfirst)).1, fun r hr => ?_⟩
      exact (boxed_of_woken earth flip w c (hwoken r hr)).2 r rfl
    · intro hkept hflips r hr
      by_contra hboxed
      have hin : (neighbours earth flip w c).filter (boxed earth flip w c) ≠ [] := by
        intro hempty
        exact (filter_eq_nil_iff.mp hempty) r hr (by simpa using hboxed)
      obtain ⟨first, rest, hlist⟩ := exists_cons_of_ne_nil hin
      have hfirst : first ∈ woken earth flip w c := by
        obtain ⟨k, hk⟩ := Nat.exists_eq_add_of_le flip.fanout_pos
        simp [woken, hflips, flipTargets_eq, hlist, hk, Nat.add_comm 1 k]
      have hneighbour : first ∈ neighbours earth flip w c := by
        have hmem : first ∈ (neighbours earth flip w c).filter (boxed earth flip w c) := by
          simp [hlist]
        exact (mem_filter.mp hmem).1
      have hdue := h first (mem_neighbours earth flip w c hneighbour).1
      rw [(dueAfter_neighbour earth flip w c hneighbour _).mpr (mem_map_of_mem hfirst)] at hdue
      have hstreet := (dueAfter_neighbour earth flip w c hneighbour _).mp hdue.symm
      simp [street, hkept] at hstreet
  · intro h r _
    rw [woken_eq_street earth flip w c h]

end Check

instance (earth : Earth) (flip : FlipConfig) (w : World) (c : Check) (cfg : LedgerConfig) :
    Decidable (WakesStreet earth flip w c cfg) := by
  unfold WakesStreet Wakes
  infer_instance

def meridian : Earth where
  cosDegrees _ := 1
  haversineMeters a b := |a.lat - b.lat| * 111195

def openWatch (targetId : Int) : WatchRow where
  tenantId := 1
  targetId := targetId
  firstSeenAt := 0
  lastCheckedAt := some 0
  estimatedCompletion := some 20819
  source := none
  confidence := .dated
  status := .active
  updatedAt := 0
  promisedDate := some 20819
  datePath := none
  providerQuote := none
  signals := [.providerDate]
  band := some .soon
  dueAt := some (7 * dayMs)
  overdueChecks := 0

def unlitTarget (id : Int) (lat : ℚ) : ScanTarget where
  id := id
  tenantId := 1
  point := some ⟨lat, 0⟩
  source := none
  lifecycleState := none
  lifecycleChangedAt := none
  everScanned := true
  fiberAvailable := false

/-- An answer that reports fiber at door 1: a NEW FIBER segment with the given billing. -/
def liveCheck (billing : Char) : Check where
  tenantId := 1
  runId := "run"
  targetId := 1
  source := none
  result :=
    { fiberAvailable := true
      fiberStatus := .newFiber
      householdSegmentType := some "NEW FIBER".toList
      marketSegmentType := none
      serviceStatus := none
      billingStatus := some [billing]
      finalQual := none
      maxQual := none
      flags := ⟨false, none, false, false, false, none, none, false⟩
      found := none }
  epoch := dayMs
  nowMs := dayMs

/-- A watched door turns on, and the snapshot has promoted its row before the ledger looks: its
neighbour, 111 meters away, sleeps on. A door that nobody watched turns out to be taken, the
snapshot opens a row for it and the ledger closes that: the neighbour is woken. -/
theorem not_wakesStreet_liveDoor :
    ¬ WakesStreet meridian .default
      ⟨[unlitTarget 1 0, unlitTarget 2 (1 / 1000)], [openWatch 1, openWatch 2], []⟩ (liveCheck 'N')
      .default ∧
    ¬ WakesStreet meridian .default
      ⟨[unlitTarget 1 0, unlitTarget 2 (1 / 1000)], [openWatch 2], []⟩ (liveCheck 'Y')
      .default := by
  decide +kernel

/-- A watched door whose answer is live with an active account wakes its street. -/
example : WakesStreet meridian .default
    ⟨[unlitTarget 1 0, unlitTarget 2 (1 / 1000)], [openWatch 1, openWatch 2], []⟩ (liveCheck 'Y')
    .default := by
  decide +kernel

end HomefrontFiber.ComingLedger
