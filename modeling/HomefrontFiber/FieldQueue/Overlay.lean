import HomefrontFiber.FieldQueue.Lanes
import Mathlib.Data.List.Induction
import Mathlib.Data.List.Lex

/-!
# The pin shows the newest tap

The snapshot of the queue names one outcome for each door, and every server read of the map is
painted over with it. The queue rebuilds the snapshot where it persists a lane, except where it only
edits an item, and takes the item with the greatest device time for the newest.
-/

namespace HomefrontFiber.FieldQueue

open Knocking List Option

structure Shown where
  outcome : Option KnockOutcome
  at_ : Text

abbrev PendingOutcomes := Int → Option Shown

def codeUnits (t : Text) : List Nat :=
  t.flatMap fun c =>
    if c.toNat < 65536 then [c.toNat]
    else [55296 + (c.toNat - 65536) / 1024, 56320 + (c.toNat - 65536) % 1024]

/-- `at >= prev`: texts compare by their UTF-16 code units. -/
def notBefore (at_ prev : Text) : Bool := codeUnits prev ≤ codeUnits at_

def QueuedKnock.at_ (item : QueuedKnock) : Text := item.evidence.deviceTs.getD []

def showNewer (shown : PendingOutcomes) (item : QueuedKnock) : PendingOutcomes :=
  if (shown item.leadId).all fun prev => notBefore item.at_ prev.at_ then
    Function.update shown item.leadId (some { outcome := item.outcome, at_ := item.at_ })
  else shown

def pendingOutcomes (pending : List QueuedKnock) : PendingOutcomes :=
  pending.foldl showNewer fun _ => none

structure Pin where
  id : Int
  leadStatus : Option LeadStatus
  visited : Option Bool
  knockCount : Option Nat
  lastOutcome : Option KnockOutcome
  lastKnockedAt : Option Text
  lastOutcomeAt : Option Text

def applyPendingOutcome (pin : Pin) (p : Shown) : Pin :=
  { pin with
    leadStatus := (p.outcome.map KnockOutcome.leadStatus).or pin.leadStatus
    visited := some true
    knockCount := some (pin.knockCount.getD 0)
    lastOutcome := p.outcome
    lastKnockedAt := if p.at_ = [] then pin.lastKnockedAt else some p.at_
    lastOutcomeAt := if p.at_ = [] then pin.lastOutcomeAt else some p.at_ }

/-- The server reports an outcome that is at least as new. -/
def serverKnows (pin : Pin) (p : Shown) : Bool :=
  pin.lastOutcomeAt.getD [] ≠ [] && p.at_ ≠ [] && notBefore (pin.lastOutcomeAt.getD []) p.at_

def mergePendingOutcomes (pins : List Pin) (pending : PendingOutcomes) : List Pin :=
  pins.map fun pin =>
    match pending pin.id with
    | none => pin
    | some p =>
      if serverKnows pin p then pin
      else if pin.lastOutcome = p.outcome && pin.visited = some true then pin
      else applyPendingOutcome pin p

structure Page where
  world : World
  snapshot : PendingOutcomes

def World.lane (w : World) : List QueuedKnock := w.queue.elim [] (·.pending)

/-- `markChanged` is called wherever a lane is persisted, but not by `enrich` and `updateNote`. -/
def marksChanged (w : World) : Event → Bool
  | .enrich _ _ | .updateNote _ _ => false
  | e => (perform w e).writes ≠ []

inductive PageEvent
  | run (e : Event)
  | crash (e : Event) (k : Nat)
  /-- The `online` listener and the timer of a saved flash rebuild the snapshot alone. -/
  | refresh

def Page.rebuilds (p : Page) : PageEvent → Bool
  | .run e => marksChanged p.world e
  | .crash _ _ => false
  | .refresh => p.world.queue.any (canCapture p.world)

def Page.step (p : Page) (e : PageEvent) : Page :=
  let world := match e with
    | .run e => complete p.world e
    | .crash e k => die p.world e k
    | .refresh => p.world
  { world := world
    snapshot := if p.rebuilds e then pendingOutcomes world.lane
      else if world.queue.isNone then fun _ => none
      else p.snapshot }

def Page.empty (lease : Option Nat) : Page := { world := World.empty lease, snapshot := fun _ => none }

def World.tapOrder (w : World) (item : QueuedKnock) : Nat := w.stagedIds.idxOf item.clientId

/-- No knock on the item's door that is still queued was staged after it. -/
def Newest (w : World) (item : QueuedKnock) : Prop :=
  item ∈ w.lane ∧ ∀ other ∈ w.lane, other.leadId = item.leadId →
    w.tapOrder other ≤ w.tapOrder item

instance (w : World) (item : QueuedKnock) : Decidable (Newest w item) :=
  inferInstanceAs (Decidable (_ ∧ ∀ other ∈ w.lane, other.leadId = item.leadId → _))

structure ShowsNewest (w : World) (shown : PendingOutcomes) : Prop where
  newest : ∀ item, Newest w item → (shown item.leadId).map (·.outcome) = some item.outcome
  rest : ∀ leadId, (∀ item ∈ w.lane, item.leadId ≠ leadId) → shown leadId = none

/-- No knock of a door with another outcome than its newest tap has a later device time, or an equal
one while it stands behind that tap in the lane. -/
def NewestRanksFirst (w : World) : Prop :=
  ∀ p ∈ w.lane.zipIdx, Newest w p.1 → ∀ p' ∈ w.lane.zipIdx, p'.1.leadId = p.1.leadId →
    p'.1.outcome ≠ p.1.outcome →
      if p'.2 < p.2 then notBefore p.1.at_ p'.1.at_ = true else notBefore p'.1.at_ p.1.at_ = false

instance (w : World) : Decidable (NewestRanksFirst w) :=
  inferInstanceAs (Decidable (∀ p ∈ w.lane.zipIdx, Newest w p.1 → ∀ p' ∈ w.lane.zipIdx,
    p'.1.leadId = p.1.leadId → p'.1.outcome ≠ p.1.outcome →
      if p'.2 < p.2 then notBefore p.1.at_ p'.1.at_ = true else notBefore p'.1.at_ p.1.at_ = false))

variable {items : List QueuedKnock} {item x : QueuedKnock} {w : World} {e : Event} {q : Queue}

theorem notBefore_trans {a b c : Text} (hab : notBefore a b = true) (hbc : notBefore b c = true) :
    notBefore a c = true := by
  simp only [notBefore, decide_eq_true_eq] at *
  exact hbc.trans hab

theorem notBefore_of_not {a b : Text} (h : notBefore a b = false) : notBefore b a = true := by
  simp only [notBefore, decide_eq_true_eq, decide_eq_false_iff_not, not_le] at *
  exact h.le

theorem notBefore_self (a : Text) : notBefore a a = true := decide_eq_true le_rfl

/-- Among the items of its door the item has the greatest time, and none after it has the same. -/
def Leads (items : List QueuedKnock) (i : Nat) (item : QueuedKnock) : Prop :=
  items[i]? = some item ∧ ∀ (j : Nat) (other : QueuedKnock), items[j]? = some other →
    other.leadId = item.leadId →
      if j ≤ i then notBefore item.at_ other.at_ = true else notBefore other.at_ item.at_ = false

theorem Leads.concat {i : Nat}
    (h : Leads items i item) (hx : x.leadId = item.leadId → notBefore x.at_ item.at_ = false) :
    Leads (items ++ [x]) i item := by
  obtain ⟨hi, hall⟩ := h
  have hlt := (List.getElem?_eq_some_iff.mp hi).1
  refine ⟨by rw [getElem?_append_left hlt, hi], ?_⟩
  intro j other hj hlead
  rcases Nat.lt_or_ge j items.length with hold | hnew
  · rw [getElem?_append_left hold] at hj
    exact hall j other hj hlead
  · obtain ⟨-, rfl⟩ : j - items.length = 0 ∧ x = other := by
      simpa [getElem?_append_right hnew, getElem?_singleton] using hj
    rw [if_neg (by omega)]
    exact hx hlead

theorem leads_last (h : ∀ item ∈ items, item.leadId = x.leadId → notBefore x.at_ item.at_ = true) :
    Leads (items ++ [x]) items.length x := by
  refine ⟨by simp, ?_⟩
  intro j other hj hlead
  have hlt := (List.getElem?_eq_some_iff.mp hj).1
  rw [length_append, length_singleton] at hlt
  rw [if_pos (by omega)]
  rcases mem_append.mp (mem_of_getElem? hj) with hold | hnew
  · exact h other hold hlead
  · obtain rfl := mem_singleton.mp hnew
    exact notBefore_self other.at_

theorem pendingOutcomes_concat (items : List QueuedKnock) (x : QueuedKnock) :
    pendingOutcomes (items ++ [x]) = showNewer (pendingOutcomes items) x := by
  rw [pendingOutcomes, foldl_append]
  rfl

theorem pendingOutcomes_spec (items : List QueuedKnock) (leadId : Int) :
    (pendingOutcomes items leadId = none ∧ ∀ item ∈ items, item.leadId ≠ leadId) ∨
    ∃ i item, Leads items i item ∧ item.leadId = leadId ∧
      pendingOutcomes items leadId = some { outcome := item.outcome, at_ := item.at_ } := by
  induction items using List.reverseRecOn with
  | nil => exact Or.inl ⟨rfl, by simp⟩
  | append_singleton items x ih =>
    rw [pendingOutcomes_concat]
    by_cases hx : x.leadId = leadId
    · subst hx
      have hlast : (∀ item ∈ items, item.leadId = x.leadId → notBefore x.at_ item.at_ = true) →
          (pendingOutcomes items x.leadId).all (fun prev => notBefore x.at_ prev.at_) = true →
          ∃ i item, Leads (items ++ [x]) i item ∧ item.leadId = x.leadId ∧
            showNewer (pendingOutcomes items) x x.leadId =
              some { outcome := item.outcome, at_ := item.at_ } := by
        intro hall hnewer
        refine ⟨items.length, x, leads_last hall, rfl, ?_⟩
        rw [showNewer, if_pos hnewer, Function.update_self]
      right
      rcases ih with ⟨hnone, hother⟩ | ⟨i, item, hleads, hlead, hshown⟩
      · exact hlast (fun item hitem h => absurd h (hother item hitem)) (by simp [hnone])
      · cases hnewer : notBefore x.at_ item.at_ with
        | true =>
          refine hlast (fun other hmem hsame => ?_) (by simp [hshown, hnewer])
          obtain ⟨j, hj⟩ := mem_iff_getElem?.mp hmem
          have hrank := hleads.2 j other hj (hsame.trans hlead.symm)
          split at hrank
          · exact notBefore_trans hnewer hrank
          · exact notBefore_trans hnewer (notBefore_of_not hrank)
        | false =>
          refine ⟨i, item, hleads.concat fun _ => hnewer, hlead, ?_⟩
          rw [showNewer, if_neg (by simp [hshown, hnewer]), hshown]
    · have hkept : showNewer (pendingOutcomes items) x leadId = pendingOutcomes items leadId := by
        unfold showNewer
        split
        · exact Function.update_of_ne (Ne.symm hx) _ _
        · rfl
      rw [hkept]
      rcases ih with ⟨hnone, hother⟩ | ⟨i, item, hleads, hlead, hshown⟩
      · exact Or.inl ⟨hnone, by simpa [or_imp, forall_and, hx] using hother⟩
      · exact Or.inr ⟨i, item, hleads.concat fun h => absurd (h.trans hlead) hx, hlead, hshown⟩

theorem showsNewest_rebuilt (h : NewestRanksFirst w) : ShowsNewest w (pendingOutcomes w.lane) where
  newest item hnewest := by
    rcases pendingOutcomes_spec w.lane item.leadId with ⟨-, hother⟩ | ⟨i, top, hleads, hlead, hshown⟩
    · exact absurd rfl (hother item hnewest.1)
    · rw [hshown, map_some]
      by_contra hne
      obtain ⟨n, hn⟩ := mem_iff_getElem?.mp hnewest.1
      have hrank := hleads.2 n item hn hlead.symm
      have hfirst := h (item, n) (mem_zipIdx_iff_getElem?.mpr hn) hnewest (top, i)
        (mem_zipIdx_iff_getElem?.mpr hleads.1) hlead fun hsame => hne (congrArg some hsame)
      dsimp only at hfirst
      by_cases hlt : i < n
      · rw [if_neg (by omega)] at hrank
        rw [if_pos hlt, hrank] at hfirst
        cases hfirst
      · rw [if_pos (by omega)] at hrank
        rw [if_neg hlt, hrank] at hfirst
        cases hfirst
  rest leadId hnone := by
    rcases pendingOutcomes_spec w.lane leadId with ⟨hshown, -⟩ | ⟨i, top, hleads, hlead, -⟩
    · exact hshown
    · exact absurd hlead (hnone top (mem_of_getElem? hleads.1))

/-- What the snapshot takes from an item, its time apart. -/
def QueuedKnock.tap (item : QueuedKnock) : String × Int × Option KnockOutcome :=
  (item.clientId, item.leadId, item.outcome)

theorem ShowsNewest.congr {w' : World} {shown : PendingOutcomes} (h : ShowsNewest w shown)
    (hlane : w'.lane.map QueuedKnock.tap = w.lane.map QueuedKnock.tap)
    (hstaged : w'.stagedIds = w.stagedIds) : ShowsNewest w' shown := by
  have hsame : ∀ {v v' : World}, v'.lane.map QueuedKnock.tap = v.lane.map QueuedKnock.tap →
      ∀ item ∈ v'.lane, ∃ item' ∈ v.lane, item'.tap = item.tap := by
    intro v v' hmap item hitem
    exact mem_map.mp (hmap ▸ mem_map_of_mem hitem)
  constructor
  · rintro item ⟨hitem, hlast⟩
    obtain ⟨item', hitem', htap⟩ := hsame hlane item hitem
    obtain ⟨hid, hlead, houtcome⟩ : item'.clientId = item.clientId ∧ item'.leadId = item.leadId ∧
        item'.outcome = item.outcome := by simpa [QueuedKnock.tap] using htap
    rw [← hlead, ← houtcome]
    refine h.newest item' ⟨hitem', fun other' hother' hsamelead => ?_⟩
    obtain ⟨other, hother, htap'⟩ := hsame hlane.symm other' hother'
    obtain ⟨hid', hlead', -⟩ : other.clientId = other'.clientId ∧ other.leadId = other'.leadId ∧
        other.outcome = other'.outcome := by simpa [QueuedKnock.tap] using htap'
    have hle := hlast other hother (hlead'.trans (hsamelead.trans hlead))
    rw [World.tapOrder, World.tapOrder, hid', ← hid, hstaged] at hle
    exact hle
  · intro leadId hnone
    refine h.rest leadId fun item hitem hlead => ?_
    obtain ⟨item', hitem', htap⟩ := hsame hlane.symm item hitem
    have hlead' : item'.leadId = item.leadId := by
      have := congrArg (·.2.1) htap
      exact this
    exact hnone item' hitem' (hlead'.trans hlead)

theorem isSome_perform (he : e ≠ .load) : (perform w e).queue.isSome = w.queue.isSome := by
  by_cases hopen : e.isOpen = true
  · obtain hq | ⟨q, hq⟩ := w.queue.eq_none_or_eq_some
    · rw [perform_closed hq hopen]
      rfl
    · rw [perform_open hq hopen, (performOpen_open (w := w.idle) hq e).open_, hq, isSome_some]
  · cases e with
    | arrive i =>
      simp only [perform]
      split <;> rfl
    | lose | changeLease => rfl
    | load => exact absurd rfl he
    | stage | enrich | flush | answered | failed | updateNote | patchAnswered | retryDead | autoSweep
    | suspend | resume => exact absurd rfl hopen

def Synced (w : World) : Prop := ∀ q ∈ w.queue, w.stored = q.lanes

theorem lane_of_unwritten (hsync : Synced w) (he : e ≠ .load)
    (hw : (perform w e).writes = []) : (perform w e).lane = w.lane := by
  have hopen := isSome_perform he (w := w)
  obtain hq | ⟨q, hq⟩ := w.queue.eq_none_or_eq_some
  · rw [hq, isSome_none, isSome_eq_false_iff, isNone_iff_eq_none] at hopen
    rw [World.lane, World.lane, hopen, hq]
  · rw [hq, isSome_some, isSome_iff_exists] at hopen
    obtain ⟨q', hq'⟩ := hopen
    have hlanes := (perform_serves hsync e).lanes q' hq'
    rw [hw, foldl_nil, hsync q hq] at hlanes
    rw [World.lane, World.lane, hq, hq']
    exact (congrArg Storage.pending hlanes).symm

/-- The items have been edited at most, and no knock was staged. -/
structure KeepsTaps (w w' : World) : Prop where
  lane : w'.lane.map QueuedKnock.tap = w.lane.map QueuedKnock.tap
  stagedIds : w'.stagedIds = w.stagedIds

theorem keepsTaps_enrich (hq : w.queue = some q) (clientId : String)
    (evidence : Evidence) : KeepsTaps w (enrich clientId evidence w q) := by
  unfold enrich
  split
  · refine ⟨?_, rfl⟩
    rw [World.lane, World.lane, hq]
    exact map_setEvidence (fun _ => rfl) clientId q.pending
  · exact ⟨rfl, rfl⟩

theorem keepsTaps_updateNote (hq : w.queue = some q) (leadId : Int)
    (notes : Text) : KeepsTaps w (updateNote leadId notes w q) := by
  unfold updateNote
  split
  · exact ⟨rfl, rfl⟩
  · split
    · rename_i pending clientId hset
      refine ⟨?_, rfl⟩
      rw [World.lane, World.lane, hq]
      exact map_setLastNote (fun _ => rfl) hset
    · split <;> exact ⟨rfl, rfl⟩

theorem keepsTaps_of_unmarked (hsync : Synced w)
    (h : marksChanged w e = false) : KeepsTaps w (perform w e) := by
  have hunwritten : e ≠ .load → (perform w e).writes = [] → e.staging = [] →
      KeepsTaps w (perform w e) := by
    intro he hw hnone
    obtain ⟨added, gone, hadded, hacc⟩ := (perform_serves hsync e).accounted
    rw [hnone, sublist_nil] at hadded
    exact ⟨by rw [lane_of_unwritten hsync he hw], by rw [hacc.staged, hadded, append_nil]⟩
  have hopened : e.isOpen = true → (∀ q, w.queue = some q →
      KeepsTaps w.idle (performOpen w.idle q e)) → KeepsTaps w (perform w e) := by
    intro hopen hkeeps
    obtain hq | ⟨q, hq⟩ := w.queue.eq_none_or_eq_some
    · rw [perform_closed hq hopen]
      exact ⟨rfl, rfl⟩
    · rw [perform_open hq hopen]
      exact ⟨(hkeeps q hq).lane, (hkeeps q hq).stagedIds⟩
  cases e with
  | enrich clientId evidence =>
    exact hopened rfl fun q hq => keepsTaps_enrich (w := w.idle) hq clientId evidence
  | updateNote leadId notes =>
    exact hopened rfl fun q hq => keepsTaps_updateNote (w := w.idle) hq leadId notes
  | stage input clientId =>
    refine hopened rfl fun q hq => ?_
    have hw : (perform w (.stage input clientId)).writes = [] := by simpa [marksChanged] using h
    rw [perform_open hq rfl] at hw
    simp only [performOpen, stage] at hw ⊢
    split
    · exact ⟨rfl, rfl⟩
    · rename_i hopen
      rw [if_neg hopen] at hw
      cases hw
  | load => simp [marksChanged, perform, load] at h
  | arrive | lose | flush | answered | failed | patchAnswered | retryDead | autoSweep | suspend
  | resume | changeLease =>
    exact hunwritten (by simp) (by simpa [marksChanged] using h) rfl

theorem showsNewest_closed (h : w.queue = none) : ShowsNewest w fun _ => none where
  newest item hnewest := by
    rw [Newest, World.lane, h] at hnewest
    exact absurd hnewest.1 not_mem_nil
  rest _ _ := rfl

structure Page.Sound (p : Page) : Prop where
  synced : Synced p.world
  shows : ShowsNewest p.world p.snapshot

/-- Where the snapshot is rebuilt, the newest tap of each door ranks first by its device time. -/
def RebuildsInOrder (p : Page) (e : PageEvent) : Prop :=
  p.rebuilds e = true → NewestRanksFirst (p.step e).world

instance (p : Page) (e : PageEvent) : Decidable (RebuildsInOrder p e) :=
  inferInstanceAs (Decidable (p.rebuilds e = true → _))

theorem sound_step (p : Page) (e : PageEvent) (h : p.Sound) (hcond : RebuildsInOrder p e) :
    (p.step e).Sound := by
  have hsnapshot : (p.rebuilds e = false → (p.step e).world.queue.isNone = false →
      KeepsTaps p.world (p.step e).world) →
      ShowsNewest (p.step e).world (p.step e).snapshot := by
    intro hkeeps
    change ShowsNewest _ (if p.rebuilds e then pendingOutcomes (p.step e).world.lane
      else if (p.step e).world.queue.isNone then fun _ => none else p.snapshot)
    split
    · rename_i hrebuilds
      exact showsNewest_rebuilt (hcond hrebuilds)
    · rename_i hkept
      split
      · rename_i hclosed
        exact showsNewest_closed (isNone_iff_eq_none.mp hclosed)
      · rename_i hopen
        obtain ⟨hlane, hstaged⟩ := hkeeps (Bool.eq_false_of_not_eq_true hkept)
          (Bool.eq_false_of_not_eq_true hopen)
        exact h.shows.congr hlane hstaged
  cases e with
  | run e =>
    refine ⟨(perform_serves h.synced e).lanes, hsnapshot fun hmarks _ => ?_⟩
    have hkeeps := keepsTaps_of_unmarked h.synced hmarks
    exact ⟨hkeeps.lane, hkeeps.stagedIds⟩
  | crash e k =>
    exact ⟨by rintro q ⟨⟩, hsnapshot fun _ hopen => nomatch hopen⟩
  | refresh => exact ⟨h.synced, hsnapshot fun _ _ => ⟨rfl, rfl⟩⟩

/-- The snapshot names the newest tap of each door, and a map that is painted with it shows that tap
unless the server reports an outcome that is at least as new. -/
structure NewestShown (p : Page) : Prop extends ShowsNewest p.world p.snapshot where
  painted : ∀ pins, ∀ pin ∈ mergePendingOutcomes pins p.snapshot, ∀ item, Newest p.world item →
    item.leadId = pin.id → pin.lastOutcome = item.outcome ∨
      pin ∈ pins ∧ (p.snapshot pin.id).any (serverKnows pin) = true

theorem ShowsNewest.painted {shown : PendingOutcomes} (h : ShowsNewest w shown)
    {pins : List Pin} {pin : Pin} (hpin : pin ∈ mergePendingOutcomes pins shown)
    (hitem : Newest w item) (hid : item.leadId = pin.id) :
    pin.lastOutcome = item.outcome ∨ pin ∈ pins ∧ (shown pin.id).any (serverKnows pin) = true := by
  obtain ⟨p, hshown, houtcome⟩ := map_eq_some_iff.mp (h.newest item hitem)
  obtain ⟨old, hold, hmerged⟩ := mem_map.mp hpin
  have hkept : old.id = pin.id := by
    rw [← hmerged]
    split
    · rfl
    · split
      · rfl
      · split <;> rfl
  rw [hkept, ← hid, hshown] at hmerged
  dsimp only at hmerged
  rw [← hid, hshown]
  split at hmerged
  · rename_i hknows
    subst hmerged
    exact Or.inr ⟨hold, hknows⟩
  · split at hmerged
    · rename_i hshows
      rw [Bool.and_eq_true, decide_eq_true_eq] at hshows
      exact Or.inl (hmerged ▸ hshows.1.trans houtcome)
    · exact Or.inl (hmerged ▸ houtcome)

theorem newestShown_run (lease : Option Nat) (es : List PageEvent)
    (h : Along Page.step RebuildsInOrder (Page.empty lease) es) :
    NewestShown (run Page.step (Page.empty lease) es) := by
  have hempty : (Page.empty lease).Sound :=
    ⟨by rintro q ⟨⟩, showsNewest_closed rfl⟩
  have hsound := run_invariant sound_step hempty h
  exact ⟨hsound.shows, fun _ _ hpin _ hitem hid => hsound.shows.painted hpin hitem hid⟩

/-- Evidence that has nothing but its time. -/
def takenAt (deviceTs : Option Text) : Evidence := ⟨none, none, none, deviceTs, none, none, none⟩

/-- Two taps on door 5 out of reach; the evidence of the first has come. -/
def twoTapsOffline : List PageEvent :=
  [.run .load, .run (.stage ⟨5, 1, .notHome, [], none, none, none, takenAt none⟩ "knock-1"),
    .run (.stage ⟨5, 1, .sold, [], none, none, none, takenAt none⟩ "knock-2"),
    .run (.enrich "knock-1" (takenAt (some ['0', '9', ':', '0', '0'])))]

/-- The next rebuild goes back to the first tap: its time is later than none. -/
theorem not_newestShown_enrichedFirst :
    ¬ NewestShown (run Page.step (Page.empty (some 0)) (twoTapsOffline ++ [.refresh])) := by
  intro h
  have hnewest := h.newest
    (newItem ⟨5, 1, .sold, [], none, none, none, takenAt none⟩ "knock-2") (by decide +kernel)
  revert hnewest
  decide +kernel

theorem newestShown_run_bothEnriched :
    NewestShown (run Page.step (Page.empty (some 0)) (twoTapsOffline ++
      [.run (.enrich "knock-2" (takenAt (some ['0', '9', ':', '0', '1']))), .refresh])) :=
  newestShown_run (some 0) _ (by decide +kernel)

end HomefrontFiber.FieldQueue
