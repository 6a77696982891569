import HomefrontFiber.CallingAudit.Store

/-!
# What the verification sees

The verification passes a tenant exactly when its rows have the shape of a chain that ends at the
head. Calls keep a chain as long as a missing head is read off the last event; from the first call
that reads it off another one the rows fork for good.
-/

namespace HomefrontFiber.CallingAudit

open List

open HashChain (Chained Shape)

variable {η : Type}

/-- The stored events of a tenant, in some order, are one chain that ends at the head. -/
def FormsChain (db : AuditDb η) (t : Int) : Prop :=
  ∃ chain : List (AuditEvent η), chain.Perm (db.rows t) ∧
    Chained (·.eventSha) (·.previous) chain ∧ db.heads t = chain.getLast?.map (·.head)

/-- The rows of a tenant are a chain in their order, and the head is its end or is missing. -/
structure Good (db : AuditDb η) (t : Int) : Prop where
  unique : Unique db
  chain : Chained (·.eventSha) (·.previous) (db.rows t)
  head : db.heads t = (db.rows t).getLast?.map (·.head) ∨ db.heads t = none

def Headless (db : AuditDb η) (t : Int) : Prop := db.rows t ≠ [] ∧ db.heads t = none

def Forked (db : AuditDb η) (t : Int) : Prop := ¬ ((db.rows t).map (·.previous)).Nodup

theorem good_empty (t : Int) : Good ({} : AuditDb η) t :=
  ⟨⟨nodup_nil, nodup_nil⟩, .nil, .inr rfl⟩

theorem rows_sublist (db : AuditDb η) (t : Int) : (db.rows t).Sublist db.events :=
  filter_sublist

theorem Unique.keys {db : AuditDb η} (h : Unique db) (t : Int) :
    ((db.rows t).map (·.eventSha)).Nodup := h.2.sublist ((rows_sublist db t).map _)

theorem Unique.ids {db : AuditDb η} (h : Unique db) (t : Int) :
    ((db.rows t).map (·.id)).Nodup := h.1.sublist ((rows_sublist db t).map _)

theorem Unique.rows {db : AuditDb η} (h : Unique db) (t : Int) : (db.rows t).Nodup :=
  (h.keys t).of_map _

theorem FormsChain.not_forked {db : AuditDb η} {t : Int} (h : FormsChain db t) (hu : Unique db) :
    ¬ Forked db t := by
  obtain ⟨chain, hperm, hchain, -⟩ := h
  have hkeys := ((hperm.map (·.eventSha)).nodup_iff).mpr (hu.keys t)
  have hlinks := (hchain.links hkeys).1
  intro hfork
  exact hfork (((hperm.map (·.previous)).nodup_iff).mp hlinks)

theorem FormsChain.not_headless {db : AuditDb η} {t : Int} (h : FormsChain db t) :
    ¬ Headless db t := by
  obtain ⟨chain, hperm, -, hhead⟩ := h
  rintro ⟨hrows, hnone⟩
  rw [hnone] at hhead
  have hnil := getLast?_eq_none_iff.mp (Option.map_eq_none_iff.mp hhead.symm)
  rw [hnil] at hperm
  exact hrows hperm.nil_eq.symm

theorem Good.formsChain {db : AuditDb η} {t : Int} (h : Good db t) (hh : ¬ Headless db t) :
    FormsChain db t := by
  refine ⟨db.rows t, List.Perm.refl _, h.chain, ?_⟩
  rcases h.head with hhead | hnone
  · exact hhead
  · by_cases hrows : db.rows t = []
    · rw [hnone, hrows]
      rfl
    · exact absurd ⟨hrows, hnone⟩ hh

variable [DecidableEq η]

theorem intact_iff {db : AuditDb η} {t : Int} (hnd : (db.rows t).Nodup) : intact db t = true ↔
    Shape (·.eventSha) (·.previous) (fun e => db.heads t = some e.head) (db.rows t) := by
  rw [HashChain.shape_iff hnd]
  simp only [intact, headMatches, Bool.and_eq_true, decide_eq_true_eq, length_eq_zero_iff]
  constructor
  · rintro ⟨⟨⟨⟨hr, ho⟩, hb⟩, ht⟩, hh⟩
    obtain ⟨e, he⟩ := length_eq_one_iff.mp ht
    rw [he] at hh
    exact ⟨hr, ho, hb, e, he, by simpa using hh⟩
  · rintro ⟨hr, ho, hb, e, he, hh⟩
    rw [he]
    exact ⟨⟨⟨⟨hr, ho⟩, hb⟩, rfl⟩, by simpa using hh⟩

theorem mem_invalidTenants {db : AuditDb η} {t : Int} (hnd : (db.rows t).Nodup) :
    t ∈ invalidTenants db ↔ db.rows t ≠ [] ∧
      ¬ Shape (·.eventSha) (·.previous) (fun e => db.heads t = some e.head) (db.rows t) := by
  have hlisted : t ∈ (db.events.map (·.tenantId)).dedup ↔ db.rows t ≠ [] := by
    rw [mem_dedup, mem_map, AuditDb.rows, ne_eq, filter_eq_nil_iff]
    simp
  rw [invalidTenants, mem_filter, hlisted, ← intact_iff hnd]
  simp

theorem Good.not_invalid {db : AuditDb η} {t : Int} (h : Good db t) (hh : ¬ Headless db t) :
    t ∉ invalidTenants db := by
  rw [mem_invalidTenants (h.unique.rows t)]
  rintro ⟨hrows, hshape⟩
  apply hshape
  cases hlast : (db.rows t).getLast? with
  | none => exact absurd (getLast?_eq_none_iff.mp hlast) hrows
  | some last =>
    apply h.chain.shape (h.unique.keys t) hlast
    rcases h.head with hhead | hnone
    · rw [hhead, hlast]
      rfl
    · exact absurd ⟨hrows, hnone⟩ hh

/-- A call that finds the head of the tenant missing reads it off the last event. -/
def Seeds (digest : AuditBody η → η) (t : Int) (db : AuditDb η) : AuditAction → Prop
  | .append input id createdAt committed =>
    committed = true → taken db (nextEvent digest db input id createdAt) = false →
      input.tenantId = t → db.heads t = none →
        (newest (db.rows t)).map (·.eventSha) = (db.rows t).getLast?.map (·.eventSha)
  | .upgrade => True

instance (digest : AuditBody η → η) (t : Int) (db : AuditDb η) :
    ∀ a, Decidable (Seeds digest t db a)
  | .append _ _ _ _ => inferInstanceAs (Decidable (_ → _))
  | .upgrade => inferInstanceAs (Decidable True)

omit [DecidableEq η] in
theorem rows_snoc (db : AuditDb η) (event : AuditEvent η) (heads : Int → Option (AuditHead η))
    (t : Int) : AuditDb.rows { events := db.events ++ [event], heads } t =
      if event.tenantId = t then db.rows t ++ [event] else db.rows t := by
  rw [AuditDb.rows, filter_append, AuditDb.rows]
  split
  · rename_i heq
    rw [filter_cons_of_pos (by simpa using heq), filter_nil]
  · rename_i hne
    rw [filter_cons_of_neg (by simpa using hne), filter_nil, append_nil]

theorem Unique.snoc {db : AuditDb η} (h : Unique db) {event : AuditEvent η}
    (hfree : taken db event = false) (heads : Int → Option (AuditHead η)) :
    Unique { events := db.events ++ [event], heads } := by
  have hne : ∀ e ∈ db.events, e.id ≠ event.id ∧ e.eventSha ≠ event.eventSha := by
    intro e he
    have hno := any_eq_false.mp hfree e he
    simpa using hno
  constructor
  · rw [map_append, nodup_append]
    refine ⟨h.1, nodup_singleton _, ?_⟩
    intro a ha b hb
    obtain ⟨e, he, rfl⟩ := mem_map.mp ha
    rw [map_singleton, mem_singleton] at hb
    rw [hb]
    exact (hne e he).1
  · rw [map_append, nodup_append]
    refine ⟨h.2, nodup_singleton _, ?_⟩
    intro a ha b hb
    obtain ⟨e, he, rfl⟩ := mem_map.mp ha
    rw [map_singleton, mem_singleton] at hb
    rw [hb]
    exact (hne e he).2

theorem step_append_cases (digest : AuditBody η → η) (db : AuditDb η) (input : AuditInput)
    (id : Nat) (createdAt : Int) (committed : Bool) :
    step digest db (.append input id createdAt committed) = db ∨
      committed = true ∧ ∃ event, event = nextEvent digest db input id createdAt ∧
        taken db event = false ∧ step digest db (.append input id createdAt committed) =
          { events := db.events ++ [event]
            heads := fun t => if t = input.tenantId then some event.head else db.heads t } := by
  cases committed with
  | false => exact .inl rfl
  | true =>
    cases htaken : taken db (nextEvent digest db input id createdAt) with
    | true =>
      left
      change appendCallingAudit digest db input id createdAt = db
      rw [appendCallingAudit, if_pos htaken]
    | false =>
      refine .inr ⟨rfl, _, rfl, htaken, ?_⟩
      change appendCallingAudit digest db input id createdAt = _
      rw [appendCallingAudit, if_neg (by rw [htaken]; exact Bool.false_ne_true)]

theorem unique_step (digest : AuditBody η → η) (db : AuditDb η) (a : AuditAction)
    (h : Unique db) : Unique (step digest db a) := by
  cases a with
  | append input id createdAt committed =>
    rcases step_append_cases digest db input id createdAt committed with
      hsame | ⟨-, event, -, hfree, hstored⟩
    · rw [hsame]
      exact h
    · rw [hstored]
      exact h.snoc hfree _
  | upgrade => exact h

theorem Forked.step {db : AuditDb η} {t : Int} (h : Forked db t) (digest : AuditBody η → η)
    (a : AuditAction) : Forked (step digest db a) t := by
  cases a with
  | append input id createdAt committed =>
    rcases step_append_cases digest db input id createdAt committed with
      hsame | ⟨-, event, -, -, hstored⟩
    · rw [hsame]
      exact h
    · rw [hstored]
      intro hnd
      rw [rows_snoc] at hnd
      split at hnd
      · rw [map_append, nodup_append] at hnd
        exact h hnd.1
      · exact h hnd
  | upgrade => exact h

omit [DecidableEq η] in
/-- What the next event of a tenant points at, when a missing head is read off the last event. -/
theorem Good.previousOf {db : AuditDb η} {t : Int} (h : Good db t)
    (hseed : db.heads t = none →
      (newest (db.rows t)).map (·.eventSha) = (db.rows t).getLast?.map (·.eventSha)) :
    previousOf db t = (db.rows t).getLast?.map (·.eventSha) := by
  unfold CallingAudit.previousOf
  rcases h.head with hhead | hnone
  · cases hlast : (db.rows t).getLast? with
    | none =>
      rw [hlast] at hhead
      have hempty : db.rows t = [] := getLast?_eq_none_iff.mp hlast
      rw [hhead, hempty]
      rfl
    | some last =>
      rw [hhead, hlast]
      rfl
  · rw [hnone]
    exact hseed hnone

theorem Good.step {db : AuditDb η} {t : Int} (h : Good db t) (digest : AuditBody η → η)
    (a : AuditAction) (hs : Seeds digest t db a) : Good (step digest db a) t := by
  have hunique := unique_step digest db a h.unique
  cases a with
  | append input id createdAt committed =>
    rcases step_append_cases digest db input id createdAt committed with
      hsame | ⟨hcommitted, event, hevent, hfree, hstored⟩
    · rw [hsame]
      exact h
    · rw [hstored] at hunique ⊢
      have htenant : event.tenantId = input.tenantId := by rw [hevent]; rfl
      refine ⟨hunique, ?_, ?_⟩
      · rw [rows_snoc]
        split
        · rename_i heq
          apply h.chain.snoc
          rw [← h.previousOf (hs hcommitted (hevent ▸ hfree) (htenant.symm.trans heq)), ← heq,
            htenant, hevent]
          rfl
        · exact h.chain
      · rw [rows_snoc]
        split
        · rename_i heq
          left
          rw [getLast?_concat]
          exact if_pos (heq.symm.trans htenant)
        · rename_i hne
          have hother : t ≠ input.tenantId := fun heq => hne (htenant.trans heq.symm)
          dsimp only
          rw [if_neg hother]
          exact h.head
  | upgrade => exact ⟨hunique, h.chain, .inr rfl⟩

theorem Good.fork {db : AuditDb η} {t : Int} (h : Good db t) (digest : AuditBody η → η)
    (a : AuditAction) (hs : ¬ Seeds digest t db a) : Forked (CallingAudit.step digest db a) t := by
  cases a with
  | append input id createdAt committed =>
    simp only [Seeds, Classical.not_imp] at hs
    obtain ⟨hcommitted, hfree, htenant, hnone, hseed⟩ := hs
    rcases step_append_cases digest db input id createdAt committed with
      hsame | ⟨-, event, hevent, -, hstored⟩
    · -- the call stores its event
      rw [hcommitted] at hsame
      change appendCallingAudit digest db input id createdAt = db at hsame
      rw [appendCallingAudit, if_neg (by rw [hfree]; exact Bool.false_ne_true)] at hsame
      have hlen := congrArg (fun d : AuditDb η => d.events.length) hsame
      simp at hlen
    · have hlands : event.tenantId = t := by rw [hevent]; exact htenant
      cases hnewest : newest (db.rows t) with
      | none =>
        have hempty : db.rows t = [] := newest_eq_none hnewest
        rw [hnewest, hempty] at hseed
        exact absurd rfl hseed
      | some e =>
        have hmem : e ∈ db.rows t := newest_mem hnewest
        have hprev : event.previous = some e.eventSha := by
          rw [hevent]
          change CallingAudit.previousOf db input.tenantId = _
          rw [htenant, CallingAudit.previousOf, hnone, hnewest]
          rfl
        have hend : (db.rows t).getLast? ≠ some e := by
          intro hlast
          rw [hnewest, hlast] at hseed
          exact hseed rfl
        obtain ⟨c, hc, hchild⟩ := h.chain.exists_child hmem hend
        rw [hstored]
        intro hnd
        rw [rows_snoc, if_pos hlands, map_append, nodup_append] at hnd
        exact hnd.2.2 c.previous (mem_map_of_mem hc) event.previous (by simp)
          (hchild.trans hprev.symm)
  | upgrade => exact absurd trivial hs

theorem Good.run {db : AuditDb η} {t : Int} (h : Good db t) (digest : AuditBody η → η)
    (as : List AuditAction) :
    (Along (CallingAudit.step digest) (Seeds digest t) db as →
      Good (HomefrontFiber.run (CallingAudit.step digest) db as) t) ∧
    (¬ Along (CallingAudit.step digest) (Seeds digest t) db as →
      Forked (HomefrontFiber.run (CallingAudit.step digest) db as) t) := by
  induction as generalizing db with
  | nil => exact ⟨fun _ => h, fun hno => absurd trivial hno⟩
  | cons a as ih =>
    by_cases hs : Seeds digest t db a
    · obtain ⟨hgood, hfork⟩ := ih (h.step digest a hs)
      exact ⟨fun hall => hgood hall.2, fun hno => hfork fun hrest => hno ⟨hs, hrest⟩⟩
    · refine ⟨fun hall => absurd hall.1 hs, fun _ => ?_⟩
      have hstep : ∀ d b, Forked d t → Forked (CallingAudit.step digest d b) t :=
        fun d b hd => hd.step digest b
      exact run_invariant_all hstep as (h.fork digest a hs)

end HomefrontFiber.CallingAudit

/-!
## When tampering shows

On a chain that ends at the head each kind of tampering is reported under a condition on ids,
links and digests. Contents are never compared with their digest: a change of any other column
goes unseen, and so do the loss of all events and an event that names itself.
-/

namespace HomefrontFiber.CallingAudit

open List

open HashChain (Chained Shape)

variable {η : Type} [DecidableEq η]

def Detected (db : AuditDb η) (t : Int) : Tampering η → Prop
  | .delete ids => ∃ e ∈ db.rows t, e.id ∉ ids
  | .insert x => db.rows t = [] ∨ x.previous ≠ some x.eventSha
  | .change id x =>
    if x.tenantId = t then
      ∃ e ∈ db.rows t, e.id = id ∧ (x.previous ≠ e.previous ∨ x.eventSha ≠ e.eventSha ∨
        (db.rows t).getLast? = some e ∧ x.id ≠ e.id)
    else ∃ e ∈ db.rows t, e.id ≠ id

instance (db : AuditDb η) (t : Int) : ∀ T, Decidable (Detected db t T)
  | .delete _ => inferInstanceAs (Decidable (∃ e ∈ _, _))
  | .insert _ => inferInstanceAs (Decidable (_ ∨ _))
  | .change _ x => inferInstanceAs (Decidable (if x.tenantId = t then _ else _))

/-- The stored events are one chain that ends at the head, the verification has nothing against
the tenant, and it has after the tampering. -/
def TamperEvident (db : AuditDb η) (t : Int) (T : Tampering η) : Prop :=
  (FormsChain db t ∧ t ∉ invalidTenants db) ∧ t ∈ invalidTenants (tamper db T)

section Tampered

variable {db : AuditDb η} {t : Int} {last : AuditEvent η}

omit [DecidableEq η] in
theorem Good.head_iff (h : Good db t) (hlast : (db.rows t).getLast? = some last)
    (hh : ¬ Headless db t) : db.heads t = some last.head ∧
      ∀ e ∈ db.rows t, db.heads t = some e.head ↔ e = last := by
  have hmem := mem_of_getLast? hlast
  have hhead : db.heads t = some last.head := by
    rcases h.head with hhead | hnone
    · rw [hhead, hlast]
      rfl
    · exact absurd ⟨ne_nil_of_mem hmem, hnone⟩ hh
  refine ⟨hhead, fun e he => ⟨?_, ?_⟩⟩
  · intro heq
    rw [hhead] at heq
    have hsha : last.eventSha = e.eventSha := congrArg AuditHead.eventSha (Option.some.inj heq)
    exact inj_on_of_nodup_map (h.unique.keys t) he hmem hsha.symm
  · rintro rfl
    exact hhead

variable {e x : AuditEvent η}

omit [DecidableEq η] in
/-- Rows that lose the row `e` are sound only where none is left. -/
theorem Good.filter_iff (h : Good db t) (hh : ¬ Headless db t)
    (he : e ∈ db.rows t) {keep : AuditEvent η → Bool} (hdrop : keep e = false) :
    ((db.rows t).filter keep ≠ [] ∧ ¬ Shape (·.eventSha) (·.previous)
      (fun a => db.heads t = some a.head) ((db.rows t).filter keep)) ↔
      ∃ a ∈ db.rows t, keep a = true := by
  obtain ⟨last, hlast⟩ : ∃ last, (db.rows t).getLast? = some last :=
    Option.ne_none_iff_exists'.mp fun hnone => by
      rw [getLast?_eq_none_iff.mp hnone] at he
      cases he
  obtain ⟨-, hiff⟩ := h.head_iff hlast hh
  constructor
  · rintro ⟨hne, -⟩
    obtain ⟨a, ha⟩ := exists_mem_of_ne_nil _ hne
    exact ⟨a, mem_filter.mp ha⟩
  · rintro ⟨a, ha, hkeep⟩
    refine ⟨ne_nil_of_mem (mem_filter.mpr ⟨ha, hkeep⟩), fun hshape => ?_⟩
    have hall := h.chain.eq_of_shape_filter (h.unique.keys t) hlast
      (fun a ha hahead => (hiff a ha).mp hahead) hshape
    rw [hall e he] at hdrop
    cases hdrop

theorem Good.delete_iff (h : Good db t) (hh : ¬ Headless db t) {ids : List Nat}
    (hhits : (Tampering.delete ids : Tampering η).Hits db t)
    (hu : Unique (tamper db (.delete ids))) :
    t ∈ invalidTenants (tamper db (.delete ids)) ↔ Detected db t (.delete ids) := by
  have hrows : (tamper db (.delete ids)).rows t =
      (db.rows t).filter fun e => e.id ∉ ids := filter_comm _ _ _
  obtain ⟨e, he, hid⟩ := hhits
  rw [mem_invalidTenants (hu.rows t), hrows]
  refine (h.filter_iff hh he (by simpa using hid)).trans ?_
  simp [Detected]

theorem Good.insert_iff (h : Good db t) (hh : ¬ Headless db t)
    (hhits : (Tampering.insert x).Hits db t) (hu : Unique (tamper db (.insert x))) :
    t ∈ invalidTenants (tamper db (.insert x)) ↔ Detected db t (.insert x) := by
  have htenant : x.tenantId = t := hhits
  have hrows : (tamper db (.insert x)).rows t = db.rows t ++ [x] := by
    change AuditDb.rows { events := db.events ++ [x], heads := db.heads } t = _
    rw [rows_snoc, if_pos htenant]
  have hkeys := hu.keys t
  rw [hrows, map_append, nodup_append] at hkeys
  have hfresh : ∀ e ∈ db.rows t, e.eventSha ≠ x.eventSha := fun e he =>
    hkeys.2.2 e.eventSha (mem_map_of_mem he) x.eventSha (by simp)
  rw [mem_invalidTenants (hu.rows t), hrows]
  change (db.rows t ++ [x] ≠ [] ∧ ¬ Shape _ _ (fun e : AuditEvent η => db.heads t = some e.head) _) ↔
    (db.rows t = [] ∨ x.previous ≠ some x.eventSha)
  cases hlast : (db.rows t).getLast? with
  | none =>
    have hempty := getLast?_eq_none_iff.mp hlast
    have hnone : db.heads t = none := by
      rcases h.head with hhead | hnone
      · rw [hhead, hlast]
        rfl
      · exact hnone
    rw [hempty]
    constructor
    · exact fun _ => .inl rfl
    · refine fun _ => ⟨by simp, fun hshape => ?_⟩
      obtain ⟨e, -, hhead, -⟩ := hshape.tip
      rw [hnone] at hhead
      cases hhead
  | some last =>
    obtain ⟨hhead, hiff⟩ := h.head_iff hlast hh
    have hmem := mem_of_getLast? hlast
    have hnot : ¬ db.heads t = some x.head := by
      rw [hhead]
      intro heq
      exact hfresh last hmem (congrArg AuditHead.eventSha (Option.some.inj heq))
    rw [h.chain.shape_snoc_iff (h.unique.keys t) hlast hiff hfresh hnot]
    constructor
    · exact fun hboth => .inr hboth.2
    · rintro (hempty | hprev)
      · rw [hempty] at hmem
        cases hmem
      · exact ⟨by simp, hprev⟩

theorem rows_change_stay (hu : Unique db) (he : e ∈ db.rows t)
    (hx : x.tenantId = t) : (tamper db (.change e.id x)).rows t =
      (db.rows t).map fun a => if a = e then x else a := by
  obtain ⟨hmem, hte⟩ := mem_filter.mp he
  rw [decide_eq_true_eq] at hte
  have hsame : ∀ a ∈ db.events, a.id = e.id ↔ a = e := fun a ha =>
    ⟨fun hid => inj_on_of_nodup_map hu.1 ha hmem hid, fun heq => heq ▸ rfl⟩
  unfold AuditDb.rows
  change List.filter _ (db.events.map _) = _
  rw [filter_map]
  have hfilter : db.events.filter
      ((fun a => decide (a.tenantId = t)) ∘ fun a => if a.id = e.id then x else a) =
        db.events.filter fun a => a.tenantId = t := by
    apply filter_congr
    intro a ha
    simp only [Function.comp, hsame a ha]
    split
    · rename_i heq
      rw [heq, hx, hte]
    · rfl
  rw [hfilter]
  apply map_congr_left
  intro a ha
  simp only [hsame a (mem_filter.mp ha).1]

omit [DecidableEq η] in
theorem rows_change_leave {id : Nat} (hx : x.tenantId ≠ t) :
    (tamper db (.change id x)).rows t = (db.rows t).filter fun e => e.id ≠ id := by
  unfold AuditDb.rows
  change List.filter _ (db.events.map _) = _
  rw [filter_map, filter_filter]
  have hfilter : db.events.filter
      ((fun a => decide (a.tenantId = t)) ∘ fun a => if a.id = id then x else a) =
        db.events.filter fun a => decide (a.id ≠ id) && decide (a.tenantId = t) := by
    apply filter_congr
    intro a _
    simp only [Function.comp]
    split
    · rename_i heq
      simp [heq, hx]
    · rename_i hne
      simp [hne]
  rw [hfilter]
  conv_rhs => rw [← map_id (db.events.filter _)]
  apply map_congr_left
  intro a ha
  have hne := (mem_filter.mp ha).2
  simp only [Bool.and_eq_true, decide_eq_true_eq] at hne
  exact if_neg hne.1

theorem Good.change_iff (h : Good db t) (hh : ¬ Headless db t) {id : Nat}
    (hhits : (Tampering.change id x).Hits db t) (hu : Unique (tamper db (.change id x))) :
    t ∈ invalidTenants (tamper db (.change id x)) ↔ Detected db t (.change id x) := by
  obtain ⟨e, he, rfl, -⟩ := hhits
  obtain ⟨last, hlast⟩ : ∃ last, (db.rows t).getLast? = some last :=
    Option.ne_none_iff_exists'.mp fun hnone => by
      rw [getLast?_eq_none_iff.mp hnone] at he
      cases he
  obtain ⟨hhead, hiff⟩ := h.head_iff hlast hh
  rw [mem_invalidTenants (hu.rows t)]
  change ((tamper db (.change e.id x)).rows t ≠ [] ∧
    ¬ Shape _ _ (fun a : AuditEvent η => db.heads t = some a.head)
      ((tamper db (.change e.id x)).rows t)) ↔
      if x.tenantId = t then _ else _
  split
  · rename_i hx
    rw [rows_change_stay h.unique he hx]
    have hheadkey : ∀ a : AuditEvent η, db.heads t = some a.head → a.eventSha = last.eventSha := by
      intro a ha
      rw [hhead] at ha
      exact (congrArg AuditHead.eventSha (Option.some.inj ha)).symm
    rw [h.chain.shape_change_iff (h.unique.keys t) hlast hiff hheadkey he]
    have hne : (db.rows t).map (fun a => if a = e then x else a) ≠ [] := by
      intro hnil
      rw [map_eq_nil_iff.mp hnil] at he
      cases he
    constructor
    · rintro ⟨-, hseen⟩
      refine ⟨e, he, rfl, ?_⟩
      by_cases hprev : x.previous = e.previous
      · by_cases hsha : x.eventSha = e.eventSha
        · refine .inr (.inr ⟨?_, ?_⟩)
          · by_contra hmid
            apply hseen
            refine ⟨hsha, hprev, fun heq => ?_⟩
            rw [heq] at hmid
            exact absurd hlast hmid
          · intro hid
            apply hseen
            refine ⟨hsha, hprev, ?_⟩
            rintro rfl
            rw [hhead, AuditEvent.head, AuditEvent.head, hid, hsha]
        · exact .inr (.inl hsha)
      · exact .inl hprev
    · rintro ⟨e', he', hid, hseen⟩
      have heq := inj_on_of_nodup_map (h.unique.ids t) he' he hid
      rw [heq] at hseen
      refine ⟨hne, ?_⟩
      rintro ⟨hsha, hprev, hkeep⟩
      rcases hseen with hdiff | hdiff | ⟨hend, hdiff⟩
      · exact hdiff hprev
      · exact hdiff hsha
      · rw [hlast] at hend
        have hx := hkeep (Option.some.inj hend).symm
        rw [hhead, Option.some.inj hend] at hx
        exact hdiff (congrArg AuditHead.eventId (Option.some.inj hx)).symm
  · rename_i hx
    rw [rows_change_leave hx]
    refine (h.filter_iff hh he (by simp)).trans ?_
    simp

theorem Good.detected_iff (h : Good db t) (hh : ¬ Headless db t) {T : Tampering η}
    (hhits : T.Hits db t) (hu : Unique (tamper db T)) :
    t ∈ invalidTenants (tamper db T) ↔ Detected db t T := by
  cases T with
  | delete ids => exact h.delete_iff hh hhits hu
  | insert x => exact h.insert_iff hh hhits hu
  | change id x => exact h.change_iff hh hhits hu

end Tampered

/-- After any history, a tampering with the events of a tenant that keeps the unique columns shows
on rows that were in order exactly when every missing head was read off the last event, the
tenant has a head again, and the tampering changes what the verification compares. -/
theorem tamperEvident_iff (digest : AuditBody η → η) (history : List AuditAction) (t : Int)
    (T : Tampering η) (hhits : T.Hits (run (step digest) {} history) t)
    (hu : Unique (tamper (run (step digest) {} history) T)) :
    TamperEvident (run (step digest) {} history) t T ↔
      Along (step digest) (Seeds digest t) {} history ∧
        ¬ Headless (run (step digest) {} history) t ∧
        Detected (run (step digest) {} history) t T := by
  obtain ⟨hgood, hfork⟩ := (good_empty t).run digest history
  have hstep : ∀ db a, Unique db → Unique (step digest db a) := unique_step digest
  have hunique : Unique (run (step digest) {} history) :=
    run_invariant_all hstep history ⟨nodup_nil, nodup_nil⟩
  constructor
  · rintro ⟨⟨hchain, -⟩, hreported⟩
    have hseeds : Along (step digest) (Seeds digest t) {} history := by
      by_contra hno
      exact hchain.not_forked hunique (hfork hno)
    have hh := hchain.not_headless
    exact ⟨hseeds, hh, ((hgood hseeds).detected_iff hh hhits hu).mp hreported⟩
  · rintro ⟨hseeds, hh, hdetected⟩
    have hg := hgood hseeds
    exact ⟨⟨hg.formsChain hh, hg.not_invalid hh⟩, (hg.detected_iff hh hhits hu).mpr hdetected⟩

inductive Seal where
  | first (id : Nat) (input : AuditInput) (createdAt : Int)
  | next (previous : Seal) (id : Nat) (input : AuditInput) (createdAt : Int)
  deriving DecidableEq

def sealOf (body : AuditBody Seal) : Seal :=
  match body.previous with
  | none => .first body.id body.input body.createdAt
  | some previous => .next previous body.id body.input body.createdAt

theorem sealOf_injective : Function.Injective sealOf := by
  rintro ⟨id, input, previous, createdAt⟩ ⟨id', input', previous', createdAt'⟩ h
  cases previous <;> cases previous' <;> cases h <;> rfl

def consent : AuditInput := ⟨1, [], "consent.recorded".toList, "lead".toList, none, none, []⟩

def twoCalls : List AuditAction := [.append consent 8 100 true, .append consent 5 101 true]

/-- The loss of the last event shows. -/
theorem tamperEvident_lastDeleted :
    TamperEvident (run (step sealOf) {} twoCalls) 1 (.delete [5]) :=
  (tamperEvident_iff sealOf twoCalls 1 (.delete [5]) (by decide +kernel) (by decide +kernel)).mpr
    ⟨by decide +kernel, by unfold Headless; decide +kernel, by decide +kernel⟩

/-- A change of what an event says does not show. -/
theorem not_tamperEvident_rewritten :
    ¬ ∀ digest : AuditBody Seal → Seal, Function.Injective digest →
      ∀ (history : List AuditAction) (t : Int) (T : Tampering Seal),
        T.Hits (run (step digest) {} history) t →
        Unique (tamper (run (step digest) {} history) T) →
        TamperEvident (run (step digest) {} history) t T := by
  intro hall
  have hseen := hall sealOf sealOf_injective twoCalls 1
    (.change 8 ⟨⟨8, ⟨1, [], "consent.revoked".toList, "lead".toList, none, none, []⟩, none, 100⟩,
      .first 8 consent 100⟩) (by decide +kernel) (by decide +kernel)
  have hreported := hseen.2
  revert hreported
  decide +kernel

end HomefrontFiber.CallingAudit
