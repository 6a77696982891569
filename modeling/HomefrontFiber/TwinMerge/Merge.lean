import Mathlib.Data.List.Forall2
import Mathlib.Data.List.Nodup
import HomefrontFiber.FreshFiber.AddressKey

/-!
# Alias twins

Two rows of `scan_targets` are twins when they are one door under two postal cities. A merge keeps
one of them, moves the rows that name the other one to it, and deletes the other. Only the tables of
`REPOINT` are moved; a table that is not listed there keeps the id, or does what its foreign key
says when the row goes.
-/

namespace HomefrontFiber.TwinMerge

open FreshFiber (Unicode canonicalAddressPart)

structure ScanTarget where
  id : Int
  tenantId : Option Int := none
  address : Text
  state : Text
  zip : Option Text := none
  lat : Option ℚ := none
  lng : Option ℚ := none
  streetKey : Option Text := none
  canonicalKey : Option Text := none
  lastFiberStatus : Option Text := none
  lastScannedAt : Option Text := none
  scanCount : Option Int := some 0
  dfAddressId : Option Text := none
  convertedToLeadId : Option Int := none
  deriving DecidableEq

def REPOINT : List (String × String) :=
  [("availability_snapshots", "scan_target_id"), ("scan_run_targets", "target_id"),
    ("coming_soon_watchlist", "scan_target_id"), ("fiber_transitions", "scan_target_id"),
    ("qualification_checks", "scan_target_id"), ("discovery_qualification_cache", "scan_target_id"),
    ("fiber_job_events", "target_id"), ("fiber_job_failures", "target_id"),
    ("fiber_dead_letters", "target_id"), ("fiber_freshness_scores", "scan_target_id"),
    ("scan_new_builds", "scan_target_id"), ("expansion_members", "target_id"),
    ("leads_rejected", "source_scan_target_id"), ("leads", "source_scan_target_id"),
    ("sweep_job_targets", "target_id"), ("monitor_targets", "target_id"),
    ("transition_episodes", "scan_target_id"), ("target_state", "target_id")]

inductive OnDelete where
  | keep | setNull | cascade
  deriving DecidableEq

structure RefRow where
  ref : Option Int
  /-- The other columns of each unique key that the column is part of; a key that does not apply
  to the row is `none`. -/
  keys : List (Option Text) := []
  /-- A trigger refuses every update of the row. -/
  guarded : Bool := false
  deriving DecidableEq

structure RefTable where
  table : String
  col : String
  onDelete : OnDelete := .keep
  rows : List RefRow
  deriving DecidableEq

structure MergeDb where
  targets : List ScanTarget
  refs : List RefTable
  deriving DecidableEq

def listed (t : RefTable) : Bool := (t.table, t.col) ∈ REPOINT

def ids (db : MergeDb) : List Int := db.targets.map (·.id)

def targetOf (db : MergeDb) (id : Int) : Option ScanTarget := db.targets.find? (·.id = id)

/-- `upper` of SQLite: ASCII letters only. -/
def upper (t : Text) : Text := t.map Char.toUpper

/-- `CAST(… AS INTEGER)` of a text: its longest numeric prefix, within 64 bits. -/
def castInteger (t : Text) : Int :=
  let body := t.dropWhile Char.isWhitespace
  let (sign, digits) : Int × Text := match body with
    | '-' :: rest => (-1, rest)
    | '+' :: rest => (1, rest)
    | _ => (1, body)
  let value : Nat := (digits.takeWhile Char.isDigit).foldl
    (fun n c => 10 * n + (c.toNat - '0'.toNat)) 0
  max (-(2 ^ 63)) (min (2 ^ 63 - 1) (sign * value))

def related {α : Type} (r : α → α → Bool) : Option α → Option α → Bool
  | some a, some b => r a b
  | _, _ => false

/-- A row of `TWIN_PAIRS_SQL`. -/
def twin (u : Unicode) (a b : ScanTarget) : Bool :=
  related (fun x y => x = y && x ≠ []) a.streetKey b.streetKey &&
    a.id < b.id &&
    b.tenantId = a.tenantId &&
    upper b.state = upper a.state &&
    related (fun x y => y ≠ x) a.canonicalKey b.canonicalKey &&
    castInteger a.address = castInteger b.address && 0 < castInteger a.address &&
    related (fun x y => x - 23 / 100000 ≤ y && y ≤ x + 23 / 100000) a.lat b.lat &&
    related (fun x y => x - 28 / 100000 ≤ y && y ≤ x + 28 / 100000) a.lng b.lng &&
    canonicalAddressPart u b.address = canonicalAddressPart u a.address

def twinPairs (u : Unicode) (db : MergeDb) : List (Int × Int) :=
  db.targets.flatMap fun a => (db.targets.filter (twin u a)).map fun b => (a.id, b.id)

structure QueryOrder (u : Unicode) where
  pairs : MergeDb → List (Int × Int)
  perm : ∀ db, (pairs db).Perm (twinPairs u db)

def rank (r : ScanTarget) : (Bool × Bool) × Text × Int × Int :=
  ((r.lastFiberStatus.isSome, r.convertedToLeadId.isSome), r.lastScannedAt.getD [],
    r.scanCount.getD 0, -r.id)

def outranks (a b : ScanTarget) : Bool :=
  let (ra, rb) := (rank a, rank b)
  ((compare ra.1.1 rb.1.1).then <| (compare ra.1.2 rb.1.2).then <|
    (compare ra.2.1 rb.2.1).then <| (compare ra.2.2.1 rb.2.2.1).then <|
      compare ra.2.2.2 rb.2.2.2) ≠ .lt

/-- The survivor and the loser. A row that is gone has no rank: the read of it throws. -/
def pickSurvivor (db : MergeDb) (aId bId : Int) : Option (Int × Int) :=
  match targetOf db aId, targetOf db bId with
  | some a, some b => some (if outranks a b then (aId, bId) else (bId, aId))
  | _, _ => none

def enrich (db : MergeDb) (survivor loser : Int) : MergeDb :=
  { db with targets := db.targets.map fun r =>
      if r.id = survivor then
        { r with
          zip := if r.zip.getD [] = [] then (targetOf db loser).bind (·.zip) else r.zip
          dfAddressId := r.dfAddressId.or ((targetOf db loser).bind (·.dfAddressId)) }
      else r }

def clash (r r' : RefRow) : Bool := (r.keys.zip r'.keys).any fun (k, k') => k.isSome && k = k'

def refused (survivor loser : Int) (t : RefTable) : Bool :=
  t.rows.any fun r => r.ref = some loser &&
    (r.guarded || t.rows.any fun r' => r'.ref = some survivor && clash r r')

def repointRows (survivor loser : Int) (t : RefTable) : RefTable :=
  { t with rows := t.rows.map fun r =>
      if r.ref = some loser then { r with ref := some survivor } else r }

def repoint (db : MergeDb) (survivor loser : Int) : MergeDb :=
  { db with refs := db.refs.map fun t => if listed t then repointRows survivor loser t else t }

/-- What the deletion of a target does to the rows that still name it. -/
def release (loser : Int) (t : RefTable) : RefTable :=
  { t with rows := match t.onDelete with
      | .keep => t.rows
      | .setNull => t.rows.map fun r => if r.ref = some loser then { r with ref := none } else r
      | .cascade => t.rows.filter (·.ref ≠ some loser) }

def deleteTarget (db : MergeDb) (loser : Int) : MergeDb where
  targets := db.targets.filter (·.id ≠ loser)
  refs := db.refs.map (release loser)

def repointed (db : MergeDb) (loser : Int) : Nat :=
  ((db.refs.filter listed).map fun t => t.rows.countP (·.ref = some loser)).sum

def merged (db : MergeDb) (survivor loser : Int) : MergeDb :=
  deleteTarget (repoint (enrich db survivor loser) survivor loser) loser

/-- The transaction: the merge with the number of moved rows, `none` when a row is gone, or the
error that rolls it back. -/
def mergeTxn (db : MergeDb) (survivor loser : Int) : Except String (Option (MergeDb × Nat)) :=
  if db.targets.countP (fun r => r.id = survivor || r.id = loser) ≠ 2 then .ok none
  else if db.refs.any fun t => listed t && refused survivor loser t then
    .error "constraint failed"
  else
    let next := merged db survivor loser
    if next.targets.length ≠ db.targets.length - 1 then
      .error ("count invariant: " ++ toString db.targets.length ++ " -> " ++
        toString next.targets.length)
    else match next.refs.find? fun t => listed t && t.rows.any (·.ref = some loser) with
      | some t => .error ("orphan invariant: " ++ t.table ++ "." ++ t.col)
      | none => .ok (some (next, repointed db loser))

structure MergeResult where
  pairsFound : Nat := 0
  merged : Nat := 0
  fksRepointed : Nat := 0
  skipped : Nat := 0
  halted : Option String := none

structure Merge where
  before : MergeDb
  survivor : Int
  loser : Int
  after : MergeDb

structure Call where
  db : MergeDb
  result : MergeResult := {}
  merges : List Merge := []
  threw : Bool := false

/-- The loop over the pairs of a call; `paused i` is the sentinel's pause before the `i`th. -/
def mergeLoop (paused : Nat → Bool) : Nat → List (Int × Int) → Call → Call
  | _, [], c => c
  | i, (aId, bId) :: pairs, c =>
    if paused i then { c with result := { c.result with halted := some "resource_pressure" } }
    else match pickSurvivor c.db aId bId with
      | none => { c with threw := true }
      | some (survivor, loser) =>
        match mergeTxn c.db survivor loser with
        | .error message =>
          { c with result := { c.result with halted := some ("rollback: " ++ message) } }
        | .ok none =>
          mergeLoop paused (i + 1) pairs
            { c with result := { c.result with skipped := c.result.skipped + 1 } }
        | .ok (some (db, moved)) =>
          mergeLoop paused (i + 1) pairs { c with
            db
            result := { c.result with
              merged := c.result.merged + 1, fksRepointed := c.result.fksRepointed + moved }
            merges := c.merges ++ [⟨c.db, survivor, loser, db⟩] }

/-- `mergeCityAliasTwins` with `apply`. -/
def mergeCityAliasTwins {u : Unicode} (order : QueryOrder u) (maxPairs : Nat)
    (paused : Nat → Bool) (db : MergeDb) : Call :=
  let pairs := (order.pairs db).take maxPairs
  mergeLoop paused 0 pairs { db, result := { pairsFound := pairs.length } }

end HomefrontFiber.TwinMerge

/-!
## What a merge does

A merge of two rows that are present is refused by a constraint, or deletes the loser and changes
no other row but for the two columns that it fills. So the twins among the rows that are left are
the twins that were there.
-/

namespace HomefrontFiber.TwinMerge

open List

open FreshFiber (Unicode)

variable {u : Unicode} {db : MergeDb} {survivor loser : Int}

def core (r : ScanTarget) : ScanTarget := { r with zip := none, dfAddressId := none }

@[simp] theorem core_id (r : ScanTarget) : (core r).id = r.id := rfl

theorem twin_core (a b : ScanTarget) : twin u (core a) (core b) = twin u a b := rfl

theorem enrich_core (db : MergeDb) (survivor loser : Int) :
    (enrich db survivor loser).targets.map core = db.targets.map core := by
  unfold enrich
  rw [map_map]
  apply map_congr_left
  intro r _
  dsimp only [Function.comp_apply]
  split
  · rfl
  · rfl

theorem merged_core (db : MergeDb) (survivor loser : Int) :
    (merged db survivor loser).targets.map core =
      (db.targets.map core).filter (·.id ≠ loser) := by
  have henrich := enrich_core db survivor loser
  have hrows : (merged db survivor loser).targets =
      (enrich db survivor loser).targets.filter (·.id ≠ loser) := rfl
  rw [hrows, ← henrich, filter_map]
  rfl

theorem ids_core (db : MergeDb) : ids db = (db.targets.map core).map (·.id) := by
  unfold ids
  rw [map_map]
  rfl

theorem merged_ids (db : MergeDb) (survivor loser : Int) :
    ids (merged db survivor loser) = (ids db).filter (· ≠ loser) := by
  rw [ids_core, merged_core, ids_core]
  conv_rhs => rw [filter_map]
  rfl

theorem merged_nodup (hids : (ids db).Nodup) : (ids (merged db survivor loser)).Nodup := by
  rw [merged_ids]
  exact hids.filter _

theorem targetOf_mem {id : Int} {r : ScanTarget} (h : targetOf db id = some r) :
    r ∈ db.targets ∧ r.id = id := by
  refine ⟨mem_of_find?_eq_some h, ?_⟩
  simpa using find?_some h

theorem targetOf_eq_some (hids : (ids db).Nodup) {r : ScanTarget} (hr : r ∈ db.targets) :
    targetOf db r.id = some r := by
  cases h : targetOf db r.id with
  | none =>
    have hnone := find?_eq_none.mp h r hr
    exact absurd (decide_eq_true rfl) hnone
  | some r' =>
    obtain ⟨hr', hid⟩ := targetOf_mem h
    rw [inj_on_of_nodup_map hids hr' hr hid]

theorem targetOf_merged (hids : (ids db).Nodup) {id : Int} {r : ScanTarget}
    (h : targetOf (merged db survivor loser) id = some r) :
    ∃ r₀, targetOf db id = some r₀ ∧ core r = core r₀ ∧ id ≠ loser := by
  obtain ⟨hr, hid⟩ := targetOf_mem h
  have hcore : core r ∈ (merged db survivor loser).targets.map core := mem_map_of_mem hr
  rw [merged_core, mem_filter] at hcore
  obtain ⟨hmem, hne⟩ := hcore
  obtain ⟨r₀, hr₀, hsame⟩ := mem_map.mp hmem
  have hid₀ : r₀.id = id := by
    rw [← core_id, hsame, core_id, hid]
  refine ⟨r₀, ?_, hsame.symm, ?_⟩
  · rw [← hid₀]
    exact targetOf_eq_some hids hr₀
  · simpa [hid] using hne

theorem targetOf_merged_some (hids : (ids db).Nodup) {id : Int} {r₀ : ScanTarget}
    (h : targetOf db id = some r₀) (hne : id ≠ loser) :
    ∃ r, targetOf (merged db survivor loser) id = some r ∧ core r = core r₀ := by
  obtain ⟨hr₀, hid⟩ := targetOf_mem h
  have hcore : core r₀ ∈ (merged db survivor loser).targets.map core := by
    rw [merged_core, mem_filter]
    exact ⟨mem_map_of_mem hr₀, by simpa [hid] using hne⟩
  obtain ⟨r, hr, hsame⟩ := mem_map.mp hcore
  have hid' : r.id = id := by
    rw [← core_id, hsame, core_id, hid]
  refine ⟨r, ?_, hsame⟩
  rw [← hid']
  exact targetOf_eq_some (merged_nodup hids) hr

theorem pickSurvivor_cases {aId bId : Int} (h : pickSurvivor db aId bId = some (survivor, loser)) :
    (∃ a, targetOf db aId = some a) ∧ (∃ b, targetOf db bId = some b) ∧
      (survivor = aId ∧ loser = bId ∨ survivor = bId ∧ loser = aId) := by
  unfold pickSurvivor at h
  split at h
  · rename_i a b ha hb
    refine ⟨⟨a, ha⟩, ⟨b, hb⟩, ?_⟩
    split at h
    · cases h
      exact .inl ⟨rfl, rfl⟩
    · cases h
      exact .inr ⟨rfl, rfl⟩
  · cases h

structure Picked (db : MergeDb) (survivor loser : Int) : Prop where
  kept : ∃ a, targetOf db survivor = some a
  lost : ∃ b, targetOf db loser = some b
  ne : survivor ≠ loser

theorem picked_of_pickSurvivor {aId bId : Int}
    (h : pickSurvivor db aId bId = some (survivor, loser)) (hne : aId ≠ bId) :
    Picked db survivor loser := by
  obtain ⟨ha, hb, ⟨rfl, rfl⟩ | ⟨rfl, rfl⟩⟩ := pickSurvivor_cases h
  · exact ⟨ha, hb, hne⟩
  · exact ⟨hb, ha, hne.symm⟩

def blocked (db : MergeDb) (survivor loser : Int) : Bool :=
  db.refs.any fun t => listed t && refused survivor loser t

theorem merged_length (hids : (ids db).Nodup) (h : Picked db survivor loser) :
    (merged db survivor loser).targets.length + 1 = db.targets.length := by
  obtain ⟨b, hb⟩ := h.lost
  obtain ⟨hmem, hid⟩ := targetOf_mem hb
  have hin : loser ∈ ids db := hid ▸ mem_map_of_mem hmem
  have hafter : (ids (merged db survivor loser)).length = ((ids db).erase loser).length := by
    rw [merged_ids, hids.erase_eq_filter]
    congr 1
    apply filter_congr
    intro id _
    rw [bne, beq_eq_decide _ _, decide_not]
  have hlength : (ids (merged db survivor loser)).length + 1 = (ids db).length := by
    rw [hafter, length_erase_of_mem hin]
    have hpos := length_pos_of_mem hin
    omega
  unfold ids at hlength
  simpa using hlength

theorem not_orphaned (t : RefTable) (hne : survivor ≠ loser) :
    (listed (release loser (if listed t then repointRows survivor loser t else t)) &&
      (release loser (if listed t then repointRows survivor loser t else t)).rows.any
        (·.ref = some loser)) = false := by
  have hmoved : ∀ r ∈ (repointRows survivor loser t).rows, r.ref ≠ some loser := by
    intro r hr
    obtain ⟨r₀, -, rfl⟩ := mem_map.mp hr
    split
    · simpa using hne
    · assumption
  by_cases hlisted : listed t = true
  · rw [if_pos hlisted, Bool.and_eq_false_iff]
    right
    rw [any_eq_false]
    intro r hr
    rw [decide_eq_true_eq]
    unfold release at hr
    cases hkey : t.onDelete
    all_goals simp only [repointRows, hkey] at hr
    · exact hmoved r hr
    · obtain ⟨r₀, hr₀, rfl⟩ := mem_map.mp hr
      split
      · simp
      · assumption
    · simpa using (mem_filter.mp hr).2
  · rw [if_neg hlisted, Bool.and_eq_false_iff]
    left
    exact eq_false_of_ne_true hlisted

/-- Of two rows that are present, the transaction deletes the loser unless a constraint refuses. -/
theorem mergeTxn_eq (hids : (ids db).Nodup) (h : Picked db survivor loser) :
    mergeTxn db survivor loser =
      if blocked db survivor loser then .error "constraint failed"
      else .ok (some (merged db survivor loser, repointed db loser)) := by
  have htwo : db.targets.countP (fun r => r.id = survivor || r.id = loser) = 2 := by
    have hcount : ∀ id, (∃ r, targetOf db id = some r) →
        db.targets.countP (fun r => r.id = id) = 1 := by
      rintro id ⟨r, hr⟩
      obtain ⟨hmem, hid⟩ := targetOf_mem hr
      have hin : id ∈ ids db := hid ▸ mem_map_of_mem hmem
      have hone := count_eq_one_of_mem hids hin
      unfold ids at hone
      rw [List.count, countP_map] at hone
      rw [← hone]
      apply countP_congr
      intro r _
      simp
    have hsplit : ∀ l : List ScanTarget,
        l.countP (fun r => r.id = survivor || r.id = loser) =
          l.countP (fun r => r.id = survivor) + l.countP (fun r => r.id = loser) := by
      intro l
      induction l with
      | nil => rfl
      | cons r l ih =>
        rw [countP_cons, countP_cons, countP_cons, ih]
        by_cases hs : r.id = survivor
        · have hl : r.id ≠ loser := hs ▸ h.ne
          simp [hs, h.ne]
          omega
        · simp [hs]
          omega
    rw [hsplit, hcount survivor h.kept, hcount loser h.lost]
  have hlength := merged_length hids h
  have horphan : ((merged db survivor loser).refs.find? fun t =>
      listed t && t.rows.any (·.ref = some loser)) = none := by
    rw [find?_eq_none]
    intro t ht
    have hrefs : (merged db survivor loser).refs = (db.refs.map fun t =>
        if listed t then repointRows survivor loser t else t).map (release loser) := rfl
    rw [hrefs, map_map] at ht
    obtain ⟨t₀, -, rfl⟩ := mem_map.mp ht
    exact Bool.not_eq_true _ ▸ not_orphaned t₀ h.ne
  unfold mergeTxn
  rw [if_neg (not_not.mpr htwo)]
  unfold blocked
  split
  · rfl
  · dsimp only
    rw [if_neg (by omega), horphan]

end HomefrontFiber.TwinMerge
