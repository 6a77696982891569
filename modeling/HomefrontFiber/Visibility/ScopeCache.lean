import HomefrontFiber.Foundation.InsertionMap
import HomefrontFiber.Foundation.Runs
import HomefrontFiber.Visibility.Rule

/-!
# The cache of the areas that a scope holds

A process keeps the areas of a scope with the two version stamps that it read before it computed
them. The persisted stamp grows with every committed write of any process, so an entry whose stamp
is the current one was computed over the current rows. A lookup has two instants: the stamps are
read at the first and the rows at the second, and other processes may write between them.
-/

namespace HomefrontFiber.Visibility

/-- The rows with the persisted version, which a trigger advances with every write. -/
structure Db where
  authorityVersion : Nat
  territories : List Territory

def Db.write (db : Db) (territories : List Territory) : Db where
  authorityVersion := db.authorityVersion + 1
  territories := territories

structure Key where
  tenantId : Option Int
  scope : List RepId
  deriving DecidableEq

structure Entry where
  version : Nat
  authorityVersion : Nat
  value : List Int

/-- The open transaction of the process. It sees a snapshot until it writes. -/
structure Transaction where
  view : Db
  wrote : Bool := false

structure World where
  committed : Db
  own : Option Transaction := none
  version : Nat := 0
  cache : InsertionMap Key Entry := InsertionMap.empty

def World.view (w : World) : Db := w.own.elim w.committed (·.view)

def World.locked (w : World) : Bool := w.own.any (·.wrote)

def maxEntries : Nat := 500

inductive Action where
  | otherWrite (territories : List Territory)
  | begin
  | write (territories : List Territory)
  | bumpTerritoryVersion
  | commit
  | rollback
  | lookup (key : Key) (between : List (List Territory))

/-- Another process commits, unless this one holds the write lock. -/
def otherWrite (w : World) (territories : List Territory) : World :=
  if w.locked then w else { w with committed := w.committed.write territories }

/-- A write of the process. The snapshot of an open transaction must still be the current one. -/
def ownWrite (w : World) (territories : List Territory) : World :=
  match w.own with
  | none => { w with committed := w.committed.write territories }
  | some tx =>
    if tx.wrote || tx.view.authorityVersion = w.committed.authorityVersion then
      { w with own := some ⟨tx.view.write territories, true⟩ }
    else w

section Reader

variable (reader : JsonReader) (r : Rounding)

def compute (key : Key) (db : Db) : List Int :=
  computeTerritoryIdsForScope reader r db.territories key.scope key.tenantId

/-- `cachedScopeLookup`, with the writes of other processes that land before its rows are read. -/
def cachedScopeLookup (w : World) (key : Key) (between : List (List Territory)) :
    World × List Int :=
  if w.own.isSome then (w, compute reader r key w.view)
  else
    let current := w.version
    let authorityVersion := w.committed.authorityVersion
    match (w.cache.get? key).filter fun hit =>
        hit.version = current && hit.authorityVersion = authorityVersion with
    | some hit => (w, hit.value)
    | none =>
      let w := between.foldl otherWrite w
      let value := compute reader r key w.view
      let cache := if maxEntries ≤ w.cache.size then InsertionMap.empty else w.cache
      ({ w with cache := cache.set key ⟨current, authorityVersion, value⟩ }, value)

def step (w : World) : Action → World
  | .otherWrite territories => otherWrite w territories
  | .begin => if w.own.isSome then w else { w with own := some { view := w.committed } }
  | .write territories => ownWrite w territories
  | .bumpTerritoryVersion => { w with version := w.version + 1 }
  | .commit => { w with committed := if w.locked then w.view else w.committed, own := none }
  | .rollback => { w with own := none }
  | .lookup key between => (cachedScopeLookup reader r w key between).1

/-- The value was computed over the rows of its stamp, or over later ones. -/
def Entry.Current (e : Entry) (key : Key) (db : Db) : Prop :=
  e.authorityVersion ≤ db.authorityVersion ∧
    (e.authorityVersion = db.authorityVersion → e.value = compute reader r key db)

/-- The second state of the database is the first one or a later one. -/
def Db.Later (a b : Db) : Prop :=
  a.authorityVersion ≤ b.authorityVersion ∧
    (a.authorityVersion = b.authorityVersion → a.territories = b.territories)

structure Sound (w : World) : Prop where
  entry : ∀ key e, w.cache.get? key = some e → e.Current reader r key w.committed
  snapshot : ∀ tx, w.own = some tx → tx.wrote = false → tx.view.Later w.committed
  written : ∀ tx, w.own = some tx → tx.wrote = true → w.committed.Later tx.view

variable {reader r}

theorem Db.later_refl (db : Db) : db.Later db := ⟨le_rfl, fun _ => rfl⟩

theorem Db.later_write (db : Db) (territories : List Territory) :
    db.Later (db.write territories) := by
  unfold Db.Later Db.write
  constructor
  · exact Nat.le_succ _
  · intro h
    exact absurd h (Nat.ne_of_lt (Nat.lt_succ_self _))

variable {e : Entry} {w : World}

theorem Db.Later.trans {a b c : Db} (h : a.Later b) (h' : b.Later c) : a.Later c := by
  constructor
  · exact h.1.trans h'.1
  · intro heq
    have hab : a.authorityVersion = b.authorityVersion := le_antisymm h.1 (heq ▸ h'.1)
    exact (h.2 hab).trans (h'.2 (hab ▸ heq))

theorem Entry.Current.later {key : Key} {a b : Db} (h : e.Current reader r key a)
    (hlater : a.Later b) : e.Current reader r key b := by
  constructor
  · exact h.1.trans hlater.1
  · intro heq
    have ha : e.authorityVersion = a.authorityVersion := le_antisymm h.1 (heq ▸ hlater.1)
    have hrows := hlater.2 (ha ▸ heq)
    rw [h.2 ha]
    unfold compute
    rw [hrows]

theorem Sound.otherWrite (hs : Sound reader r w) (territories : List Territory) :
    Sound reader r (otherWrite w territories) := by
  unfold Visibility.otherWrite
  split
  · exact hs
  · rename_i hfree
    constructor
    · intro key e he
      exact (hs.entry key e he).later (Db.later_write _ _)
    · intro tx htx hread
      exact (hs.snapshot tx htx hread).trans (Db.later_write _ _)
    · intro tx htx hwrote
      have hown : w.own = some tx := htx
      have hlocked : w.locked = true := by
        unfold World.locked
        rw [hown]
        exact hwrote
      exact absurd hlocked hfree

theorem Sound.ownWrite (hs : Sound reader r w) (territories : List Territory) :
    Sound reader r (ownWrite w territories) := by
  unfold Visibility.ownWrite
  split
  · rename_i hnone
    constructor
    · intro key e he
      exact (hs.entry key e he).later (Db.later_write _ _)
    · intro tx htx _
      have hown : w.own = some tx := htx
      rw [hnone] at hown
      cases hown
    · intro tx htx _
      have hown : w.own = some tx := htx
      rw [hnone] at hown
      cases hown
  · rename_i tx htx
    split
    · rename_i hfresh
      have hlater : w.committed.Later tx.view := by
        cases hwrote : tx.wrote with
        | true => exact hs.written tx htx hwrote
        | false =>
          have hstamp : tx.view.authorityVersion = w.committed.authorityVersion := by
            simpa [hwrote] using hfresh
          have hrows := (hs.snapshot tx htx hwrote).2 hstamp
          exact ⟨hstamp.ge, fun _ => hrows.symm⟩
      constructor
      · exact hs.entry
      · intro tx' htx' hread
        cases htx'
        cases hread
      · intro tx' htx' _
        cases htx'
        exact hlater.trans (Db.later_write _ _)
    · exact hs

theorem otherWrite_later (territories : List Territory) :
    w.committed.Later (otherWrite w territories).committed := by
  unfold otherWrite
  split
  · exact Db.later_refl _
  · exact Db.later_write _ _

theorem otherWrite_own (w : World) (territories : List Territory) :
    (otherWrite w territories).own = w.own := by
  unfold otherWrite
  split <;> rfl

theorem otherWrites_own (between : List (List Territory)) (w : World) :
    (between.foldl otherWrite w).own = w.own := by
  induction between generalizing w with
  | nil => rfl
  | cons territories between ih =>
    rw [List.foldl_cons, ih, otherWrite_own]

theorem otherWrites_later (between : List (List Territory)) (w : World) :
    w.committed.Later (between.foldl otherWrite w).committed := by
  induction between generalizing w with
  | nil => exact Db.later_refl _
  | cons territories between ih => exact (otherWrite_later territories).trans (ih _)

theorem Sound.otherWrites (hs : Sound reader r w) (between : List (List Territory)) :
    Sound reader r (between.foldl Visibility.otherWrite w) := by
  induction between generalizing w with
  | nil => exact hs
  | cons territories between ih => exact ih (hs.otherWrite territories)

theorem get?_overflow {key : Key}
    (h : (if maxEntries ≤ w.cache.size then InsertionMap.empty else w.cache).get? key = some e) :
    w.cache.get? key = some e := by
  split at h
  · rw [InsertionMap.get?_empty] at h
    cases h
  · exact h

theorem Sound.lookup (hs : Sound reader r w) (key : Key)
    (between : List (List Territory)) : Sound reader r (cachedScopeLookup reader r w key between).1 := by
  unfold cachedScopeLookup
  split
  · exact hs
  · rename_i hown
    have hnone : w.own = none := by simpa using hown
    dsimp only
    split
    · exact hs
    · have hlater := otherWrites_later between w
      have hrows := hs.otherWrites between
      have hnone' : (between.foldl Visibility.otherWrite w).own = none := by
        rw [otherWrites_own, hnone]
      generalize between.foldl Visibility.otherWrite w = w' at hlater hrows hnone'
      constructor
      · intro other e he
        dsimp only at he
        by_cases hkey : other = key
        · subst hkey
          rw [InsertionMap.get?_set_self] at he
          cases he
          constructor
          · exact hlater.1
          · intro _
            unfold World.view
            rw [hnone', Option.elim_none]
        · rw [InsertionMap.get?_set_of_ne _ _ hkey] at he
          exact hrows.entry other e (get?_overflow he)
      · exact hrows.snapshot
      · exact hrows.written

theorem Sound.next (hs : Sound reader r w) (a : Action) : Sound reader r (step reader r w a) := by
  cases a with
  | otherWrite territories => exact hs.otherWrite territories
  | «begin» =>
    unfold step
    dsimp only
    split
    · exact hs
    · constructor
      · exact hs.entry
      · intro tx htx _
        cases htx
        exact Db.later_refl _
      · intro tx htx hwrote
        cases htx
        cases hwrote
  | write territories => exact hs.ownWrite territories
  | bumpTerritoryVersion => exact ⟨hs.entry, hs.snapshot, hs.written⟩
  | commit =>
    have hlater : w.committed.Later (if w.locked then w.view else w.committed) := by
      split
      · rename_i hlocked
        unfold World.locked at hlocked
        cases hown : w.own with
        | none => simp [hown] at hlocked
        | some tx =>
          unfold World.view
          rw [hown]
          rw [hown] at hlocked
          exact hs.written tx hown hlocked
      · exact Db.later_refl _
    constructor
    · intro key e he
      exact (hs.entry key e he).later hlater
    · exact fun tx htx => nomatch htx
    · exact fun tx htx => nomatch htx
  | rollback =>
    constructor
    · exact hs.entry
    · exact fun tx htx => nomatch htx
    · exact fun tx htx => nomatch htx
  | lookup key between => exact hs.lookup key between

theorem sound_run (start : Db) (actions : List Action) :
    Sound reader r (run (step reader r) { committed := start } actions) := by
  have hstart : Sound reader r { committed := start } := by
    constructor
    · intro key e he
      rw [InsertionMap.get?_empty] at he
      cases he
    · exact fun tx htx => nomatch htx
    · exact fun tx htx => nomatch htx
  have hstep : ∀ (w : World) (a : Action), Sound reader r w → Sound reader r (step reader r w a) :=
    fun _ a h => h.next a
  exact run_invariant_all hstep actions hstart

/-- A lookup answers what a computation gives after some of the writes that land during it. -/
theorem Sound.answer (hs : Sound reader r w) (key : Key) (between : List (List Territory)) :
    ∃ n ≤ between.length, (cachedScopeLookup reader r w key between).2 =
      compute reader r key ((between.take n).foldl Visibility.otherWrite w).view := by
  unfold cachedScopeLookup
  split
  · exact ⟨0, Nat.zero_le _, rfl⟩
  · rename_i hown
    have hnone : w.own = none := by simpa using hown
    dsimp only
    split
    · rename_i hit hhit
      obtain ⟨hget, hstamp⟩ := Option.filter_eq_some_iff.mp hhit
      simp only [Bool.and_eq_true, decide_eq_true_eq] at hstamp
      refine ⟨0, Nat.zero_le _, ?_⟩
      rw [(hs.entry key hit hget).2 hstamp.2]
      unfold World.view
      rw [List.take_zero, List.foldl_nil, hnone, Option.elim_none]
    · refine ⟨between.length, le_rfl, ?_⟩
      rw [List.take_length]

end Reader

/-- The condition selects the leads that the predicate admits, and in every run a lookup answers
what an uncached computation gives at an instant during the lookup. -/
theorem one_visibility_rule (reader : JsonReader) (r : Rounding) (tenantId : Option Int)
    (scope : List RepId) (hscope : scope ≠ []) :
    (∀ (territories : List Territory) (leads : List Lead) (openFieldEnabled : Bool),
      (∀ lead ∈ leads, LinkedWithin territories tenantId lead) →
      selected reader r territories scope openFieldEnabled leads =
        leads.filter
          (repCanAccessLead reader r territories tenantId scope openFieldEnabled)) ∧
    ∀ (start : Db) (actions : List Action) (key : Key) (between : List (List Territory)),
      let w := run (step reader r) { committed := start } actions
      ∃ n ≤ between.length, (cachedScopeLookup reader r w key between).2 =
        compute reader r key ((between.take n).foldl otherWrite w).view := by
  constructor
  · intro territories leads openFieldEnabled hlinks
    exact selected_eq reader r territories tenantId hscope openFieldEnabled hlinks
  · intro start actions key between
    exact (sound_run start actions).answer key between

def crewReader : JsonReader where
  parse text := if text = ['[', '7', ']'] then some (.array [.number (.integer 7)]) else none
  jsonValid text := text = ['[', '7', ']']
  parse_blank text h := by
    rw [if_neg]
    rintro rfl
    exact absurd h (by decide)
  valid_iff text := by
    by_cases h : text = ['[', '7', ']']
    · simp [h]
    · simp [h]

def sameNumber : Rounding where
  nearest q := q
  monotone _ _ h := h
  exact _ _ _ := rfl

theorem one_visibility_rule_crew :
    selected crewReader sameNumber [⟨1, some 1, some 9, "active", some ['[', '7', ']']⟩]
        [⟨7, by decide⟩] false [⟨10, some 1, none, some 1⟩, ⟨11, some 1, some 9, none⟩] =
      [⟨10, some 1, none, some 1⟩, ⟨11, some 1, some 9, none⟩].filter (repCanAccessLead crewReader
        sameNumber [⟨1, some 1, some 9, "active", some ['[', '7', ']']⟩] (some 1)
        [⟨7, by decide⟩] false) :=
  (one_visibility_rule crewReader sameNumber (some 1) [⟨7, by decide⟩] (by simp)).1 _ _ _
    (by
      intro lead _ t ht _
      simpa [getTerritories] using ht)

end HomefrontFiber.Visibility
