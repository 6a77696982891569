import Mathlib.Data.List.Lex
import Mathlib.Data.List.Nodup
import Mathlib.Data.List.Perm.Basic
import Mathlib.Data.Rat.Defs
import HomefrontFiber.Foundation.IsoText

/-!
# Merging a pushed lead into a map pin

What another rep's phone shows after a push is decided field by field. A null of the first group is
no news; the assignment, the triage mark and the do-not-knock block are written whatever they are;
the outcome belongs to the push with the later clock. The merge answers with the pin itself when
nothing has moved, which is `none` here.
-/

namespace HomefrontFiber.LiveMap

open List Option

structure LeadStreamPin where
  id : Int
  address : Option Text
  city : Option Text
  state : Option Text
  zip : Option Text
  lat : Option Rat
  lng : Option Rat
  leadStatus : Option Text
  fiberStatus : Option Text
  leadTag : Option Text
  leadScore : Option Rat
  assignMark : Option Text
  doNotKnock : Bool
  lastOutcome : Option Text
  lastOutcomeAt : Option Text
  assignedRepId : Option Int
  assignedTerritoryId : Option Int

/-- A pin of the map. An absent field and a null are `none`; `joined` is what the map query adds. -/
structure StreamMergeablePin (X : Type) where
  id : Int
  address : Text
  city : Text
  state : Text
  zip : Text
  lat : Rat
  lng : Rat
  leadStatus : Text
  fiberStatus : Text
  assignedRepId : Option Int
  assignedTerritoryId : Option Int
  leadScore : Rat
  leadTag : Option Text
  visited : Option Bool
  lastOutcome : Option Text
  lastKnockedAt : Option Text
  lastOutcomeAt : Option Text
  assignMark : Option Text
  doNotKnock : Option Bool
  joined : X

variable {X : Type}

structure PinField (X β : Type) where
  get : StreamMergeablePin X → β
  set : β → StreamMergeablePin X → StreamMergeablePin X
  get_set : ∀ v p, get (set v p) = v := by intros; rfl
  set_get : ∀ p, set (get p) p = p := by intros; rfl

namespace PinField

def address : PinField X Text where
  get := (·.address)
  set v p := { p with address := v }

def city : PinField X Text where
  get := (·.city)
  set v p := { p with city := v }

def state : PinField X Text where
  get := (·.state)
  set v p := { p with state := v }

def zip : PinField X Text where
  get := (·.zip)
  set v p := { p with zip := v }

def lat : PinField X Rat where
  get := (·.lat)
  set v p := { p with lat := v }

def lng : PinField X Rat where
  get := (·.lng)
  set v p := { p with lng := v }

def fiberStatus : PinField X Text where
  get := (·.fiberStatus)
  set v p := { p with fiberStatus := v }

def leadTag : PinField X (Option Text) where
  get := (·.leadTag)
  set v p := { p with leadTag := v }

def leadScore : PinField X Rat where
  get := (·.leadScore)
  set v p := { p with leadScore := v }

def assignedRepId : PinField X (Option Int) where
  get := (·.assignedRepId)
  set v p := { p with assignedRepId := v }

def assignedTerritoryId : PinField X (Option Int) where
  get := (·.assignedTerritoryId)
  set v p := { p with assignedTerritoryId := v }

def assignMark : PinField X (Option Text) where
  get := (·.assignMark)
  set v p := { p with assignMark := v }

def doNotKnock : PinField X (Option Bool) where
  get := (·.doNotKnock)
  set v p := { p with doNotKnock := v }

def leadStatus : PinField X Text where
  get := (·.leadStatus)
  set v p := { p with leadStatus := v }

def lastOutcome : PinField X (Option Text) where
  get := (·.lastOutcome)
  set v p := { p with lastOutcome := v }

def lastOutcomeAt : PinField X (Option Text) where
  get := (·.lastOutcomeAt)
  set v p := { p with lastOutcomeAt := v }

def visited : PinField X (Option Bool) where
  get := (·.visited)
  set v p := { p with visited := v }

end PinField

/-- `write`: the copy of the pin is made when the first field moves. -/
def write {β : Type} [DecidableEq β] (prev : StreamMergeablePin X) (f : PinField X β) (value : β)
    (next : Option (StreamMergeablePin X)) : Option (StreamMergeablePin X) :=
  if f.get prev = value then next else some (f.set value (next.getD prev))

/-- `take`: null is no news. `wrap` puts a value into a field that may be absent. -/
def take {β γ : Type} [DecidableEq β] (prev : StreamMergeablePin X) (f : PinField X β)
    (wrap : γ → β) (value : Option γ) (next : Option (StreamMergeablePin X)) :
    Option (StreamMergeablePin X) :=
  value.elim next fun v => write prev f (wrap v) next

def StreamMergeablePin.localAt (prev : StreamMergeablePin X) : Option Text :=
  prev.lastOutcomeAt.or prev.lastKnockedAt

def outcomeWins (prev : StreamMergeablePin X) (pin : LeadStreamPin) : Bool :=
  match prev.localAt, pin.lastOutcomeAt with
  | none, _ => true
  | some _, none => false
  | some localAt, some pushedAt => localAt ≤ pushedAt

/-- An outcome text that is not empty. -/
def LeadStreamPin.worked (pin : LeadStreamPin) : Bool := pin.lastOutcome.any (· ≠ [])

def takeFields (prev : StreamMergeablePin X) (pin : LeadStreamPin)
    (next : Option (StreamMergeablePin X)) : Option (StreamMergeablePin X) :=
  next
  |> take prev .address id pin.address
  |> take prev .city id pin.city
  |> take prev .state id pin.state
  |> take prev .zip id pin.zip
  |> take prev .lat id pin.lat
  |> take prev .lng id pin.lng
  |> take prev .fiberStatus id pin.fiberStatus
  |> take prev .leadTag some pin.leadTag
  |> take prev .leadScore id pin.leadScore

/-- The fields whose null means cleared. -/
def writeClearedFields (prev : StreamMergeablePin X) (pin : LeadStreamPin)
    (next : Option (StreamMergeablePin X)) : Option (StreamMergeablePin X) :=
  next
  |> write prev .assignedRepId pin.assignedRepId
  |> write prev .assignedTerritoryId pin.assignedTerritoryId
  |> write prev .assignMark pin.assignMark
  |> fun next =>
      if prev.doNotKnock.getD false ≠ pin.doNotKnock then
        write prev .doNotKnock (some pin.doNotKnock) next
      else next

def takeOutcome (prev : StreamMergeablePin X) (pin : LeadStreamPin)
    (next : Option (StreamMergeablePin X)) : Option (StreamMergeablePin X) :=
  next
  |> take prev .leadStatus id pin.leadStatus
  |> take prev .lastOutcome some pin.lastOutcome
  |> take prev .lastOutcomeAt some pin.lastOutcomeAt
  |> fun next =>
      if pin.worked then write prev .visited (some true) next
      else next

def mergePushedPin (prev : StreamMergeablePin X) (pin : LeadStreamPin) :
    Option (StreamMergeablePin X) :=
  let next := writeClearedFields prev pin (takeFields prev pin none)
  if outcomeWins prev pin then takeOutcome prev pin next else next

def pushed (prev : StreamMergeablePin X) (pin : LeadStreamPin) : StreamMergeablePin X :=
  (mergePushedPin prev pin).getD prev

/-- What a field holds after a push that may carry news for it. -/
def news {β γ : Type} (wrap : γ → β) (value : Option γ) (old : β) : β := value.elim old wrap

variable {γ : Type} {at_ : Text}

@[simp] theorem news_none {β : Type} (wrap : γ → β) (old : β) : news wrap none old = old := rfl

@[simp] theorem news_some {β : Type} (wrap : γ → β) (value : γ) (old : β) :
    news wrap (some value) old = wrap value := rfl

structure Outcome where
  leadStatus : Text
  lastOutcome : Option Text
  lastOutcomeAt : Option Text
  visited : Option Bool

def StreamMergeablePin.outcome (p : StreamMergeablePin X) : Outcome where
  leadStatus := p.leadStatus
  lastOutcome := p.lastOutcome
  lastOutcomeAt := p.lastOutcomeAt
  visited := p.visited

def outcomeAfter (prev : StreamMergeablePin X) (pin : LeadStreamPin) : Outcome :=
  if outcomeWins prev pin then
    { leadStatus := news id pin.leadStatus prev.leadStatus
      lastOutcome := news some pin.lastOutcome prev.lastOutcome
      lastOutcomeAt := news some pin.lastOutcomeAt prev.lastOutcomeAt
      visited := if pin.worked then some true else prev.visited }
  else prev.outcome

def merged (prev : StreamMergeablePin X) (pin : LeadStreamPin) : StreamMergeablePin X :=
  { id := prev.id
    address := news id pin.address prev.address
    city := news id pin.city prev.city
    state := news id pin.state prev.state
    zip := news id pin.zip prev.zip
    lat := news id pin.lat prev.lat
    lng := news id pin.lng prev.lng
    leadStatus := (outcomeAfter prev pin).leadStatus
    fiberStatus := news id pin.fiberStatus prev.fiberStatus
    assignedRepId := pin.assignedRepId
    assignedTerritoryId := pin.assignedTerritoryId
    leadScore := news id pin.leadScore prev.leadScore
    leadTag := news some pin.leadTag prev.leadTag
    visited := (outcomeAfter prev pin).visited
    lastOutcome := (outcomeAfter prev pin).lastOutcome
    lastKnockedAt := prev.lastKnockedAt
    lastOutcomeAt := (outcomeAfter prev pin).lastOutcomeAt
    assignMark := pin.assignMark
    doNotKnock := if prev.doNotKnock.getD false ≠ pin.doNotKnock then some pin.doNotKnock
      else prev.doNotKnock
    joined := prev.joined }

section

variable {prev q : StreamMergeablePin X} {next : Option (StreamMergeablePin X)}

/-- The draft of a merge stands for the pin `q`: it is still the old pin exactly when `q` is. -/
def Drafts (prev : StreamMergeablePin X) (next : Option (StreamMergeablePin X))
    (q : StreamMergeablePin X) : Prop :=
  (next = none ∧ q = prev) ∨ (next = some q ∧ q ≠ prev)

theorem Drafts.getD (h : Drafts prev next q) : next.getD prev = q := by
  rcases h with ⟨rfl, rfl⟩ | ⟨rfl, -⟩ <;> rfl

variable {β : Type} [DecidableEq β]

theorem Drafts.write (h : Drafts prev next q) (f : PinField X β) (hold : f.get q = f.get prev)
    (value : β) : Drafts prev (write prev f value next) (f.set value q) := by
  unfold LiveMap.write
  split
  · rename_i hsame
    rw [← hsame, ← hold, f.set_get]
    exact h
  · rename_i hdiff
    rw [h.getD]
    refine Or.inr ⟨rfl, ?_⟩
    intro heq
    apply hdiff
    rw [← heq, f.get_set]

theorem Drafts.take (h : Drafts prev next q) (f : PinField X β)
    (hold : f.get q = f.get prev) (wrap : γ → β) (value : Option γ) :
    Drafts prev (take prev f wrap value next) (f.set (news wrap value (f.get q)) q) := by
  unfold LiveMap.take
  cases value with
  | none =>
    rw [news_none, f.set_get]
    exact h
  | some v => exact h.write f hold (wrap v)

end

section

variable (prev : StreamMergeablePin X) (pin : LeadStreamPin)

theorem drafts_start : Drafts prev none prev := Or.inl ⟨rfl, rfl⟩

def mergedFields : StreamMergeablePin X :=
  { merged prev pin with
    leadStatus := prev.leadStatus
    lastOutcome := prev.lastOutcome
    lastOutcomeAt := prev.lastOutcomeAt
    visited := prev.visited }

theorem drafts_fields :
    Drafts prev (writeClearedFields prev pin (takeFields prev pin none)) (mergedFields prev pin) := by
  have hcleared := (drafts_start prev)
    |>.take .address rfl id pin.address
    |>.take .city rfl id pin.city
    |>.take .state rfl id pin.state
    |>.take .zip rfl id pin.zip
    |>.take .lat rfl id pin.lat
    |>.take .lng rfl id pin.lng
    |>.take .fiberStatus rfl id pin.fiberStatus
    |>.take .leadTag rfl some pin.leadTag
    |>.take .leadScore rfl id pin.leadScore
    |>.write .assignedRepId rfl pin.assignedRepId
    |>.write .assignedTerritoryId rfl pin.assignedTerritoryId
    |>.write .assignMark rfl pin.assignMark
  unfold writeClearedFields mergedFields merged
  dsimp only
  by_cases hblock : prev.doNotKnock.getD false ≠ pin.doNotKnock
  · rw [if_pos hblock, if_pos hblock]
    exact hcleared.write .doNotKnock rfl (some pin.doNotKnock)
  · rw [if_neg hblock, if_neg hblock]
    exact hcleared

theorem mergePushedPin_drafts : Drafts prev (mergePushedPin prev pin) (merged prev pin) := by
  have hfields := drafts_fields prev pin
  unfold mergePushedPin merged outcomeAfter
  unfold mergedFields merged at hfields
  by_cases hwins : outcomeWins prev pin = true
  · have htaken := hfields
      |>.take .leadStatus rfl id pin.leadStatus
      |>.take .lastOutcome rfl some pin.lastOutcome
      |>.take .lastOutcomeAt rfl some pin.lastOutcomeAt
    unfold takeOutcome
    by_cases hworked : pin.worked = true
    · simp only [hwins, hworked, if_true]
      exact htaken.write .visited rfl (some true)
    · simp only [hwins, hworked, if_true, if_false, Bool.false_eq_true]
      exact htaken
  · simp only [hwins, if_false, Bool.false_eq_true]
    exact hfields

theorem pushed_eq : pushed prev pin = merged prev pin := (mergePushedPin_drafts prev pin).getD

theorem mergePushedPin_eq_none_iff : mergePushedPin prev pin = none ↔ merged prev pin = prev := by
  rcases mergePushedPin_drafts prev pin with ⟨hnone, heq⟩ | ⟨hsome, hne⟩
  · exact ⟨fun _ => heq, fun _ => hnone⟩
  · rw [hsome]
    exact ⟨fun h => absurd h (some_ne_none _), fun h => absurd h hne⟩

end

section

variable (p : StreamMergeablePin X) (e : LeadStreamPin)

theorem pushed_outcome : (pushed p e).outcome = outcomeAfter p e := by
  rw [pushed_eq]
  rfl

theorem pushed_lastKnockedAt : (pushed p e).lastKnockedAt = p.lastKnockedAt := by
  rw [pushed_eq]
  rfl

theorem pushed_lastOutcomeAt : (pushed p e).lastOutcomeAt = (outcomeAfter p e).lastOutcomeAt :=
  congrArg Outcome.lastOutcomeAt (pushed_outcome p e)

variable {p e}

theorem pushed_of_loses (h : outcomeWins p e = false) :
    (pushed p e).outcome = p.outcome ∧ (pushed p e).localAt = p.localAt := by
  have hafter : outcomeAfter p e = p.outcome := by
    unfold outcomeAfter
    rw [h]
    rfl
  have hclock : (pushed p e).lastOutcomeAt = p.lastOutcomeAt := by
    rw [pushed_lastOutcomeAt, hafter]
    rfl
  refine ⟨(pushed_outcome p e).trans hafter, ?_⟩
  unfold StreamMergeablePin.localAt
  rw [hclock, pushed_lastKnockedAt]

/-- The fields that an event carries are those of the outcome. -/
structure Carried (e : LeadStreamPin) (o : Outcome) : Prop where
  leadStatus : ∀ status, e.leadStatus = some status → o.leadStatus = status
  lastOutcome : ∀ outcome, e.lastOutcome = some outcome → o.lastOutcome = some outcome
  lastOutcomeAt : o.lastOutcomeAt = e.lastOutcomeAt
  visited : e.worked = true → o.visited = some true

theorem pushed_of_wins (h : outcomeWins p e = true) (hat : e.lastOutcomeAt = some at_) :
    Carried e (pushed p e).outcome ∧ (pushed p e).localAt = some at_ := by
  have hafter := pushed_outcome p e
  unfold outcomeAfter at hafter
  rw [if_pos h] at hafter
  rw [hafter]
  constructor
  · constructor
    · intro status hstatus
      simp [hstatus]
    · intro outcome houtcome
      simp [houtcome]
    · simp [hat]
    · intro hworked
      simp [hworked]
  · have hclock := congrArg Outcome.lastOutcomeAt hafter
    unfold StreamMergeablePin.localAt
    change (pushed p e).lastOutcomeAt = _ at hclock
    rw [hclock, hat]
    rfl

theorem outcomeWins_iff (hat : e.lastOutcomeAt = some at_) :
    outcomeWins p e = true ↔ ∀ local_ ∈ p.localAt, local_ ≤ at_ := by
  unfold outcomeWins
  rw [hat]
  cases p.localAt with
  | none => simp
  | some local_ => simp

theorem outcomeWins_pushed : outcomeWins (pushed p e) e = outcomeWins p e := by
  cases hwins : outcomeWins p e with
  | false =>
    obtain ⟨-, hlocal⟩ := pushed_of_loses hwins
    unfold outcomeWins at hwins ⊢
    rw [hlocal]
    exact hwins
  | true =>
    cases hat : e.lastOutcomeAt with
    | some at_ =>
      obtain ⟨-, hlocal⟩ := pushed_of_wins hwins hat
      rw [outcomeWins_iff hat, hlocal]
      rintro local_ ⟨⟩
      exact le_rfl
    | none =>
      -- Without a clock of its own a push wins only where the pin has none.
      have hnone : p.localAt = none := by
        unfold outcomeWins at hwins
        rw [hat] at hwins
        cases hlocal : p.localAt with
        | none => rfl
        | some _ =>
          rw [hlocal] at hwins
          cases hwins
      have hkept : (pushed p e).localAt = none := by
        obtain ⟨houtcome, hknocked⟩ := or_eq_none_iff.mp hnone
        unfold StreamMergeablePin.localAt
        rw [pushed_lastKnockedAt, pushed_lastOutcomeAt, outcomeAfter, if_pos hwins, hat]
        simp [houtcome, hknocked]
      unfold outcomeWins
      rw [hkept]

theorem merge_again (p : StreamMergeablePin X) (e : LeadStreamPin) :
    mergePushedPin (pushed p e) e = none := by
  rw [mergePushedPin_eq_none_iff]
  have hnews {β γ : Type} (wrap : γ → β) (value : Option γ) (old : β) :
      news wrap value (news wrap value old) = news wrap value old := by
    cases value <;> rfl
  have hwins := outcomeWins_pushed (p := p) (e := e)
  have houtcome : outcomeAfter (pushed p e) e = outcomeAfter p e := by
    have hfields := pushed_outcome p e
    unfold outcomeAfter
    rw [hwins]
    split
    · rename_i h
      unfold outcomeAfter at hfields
      rw [if_pos h] at hfields
      simp only [StreamMergeablePin.outcome, Outcome.mk.injEq] at hfields
      obtain ⟨hstatus, hout, hat, hvisited⟩ := hfields
      rw [hstatus, hout, hat, hvisited]
      simp only [hnews, Outcome.mk.injEq, true_and]
      split <;> rfl
    · rename_i h
      rw [Bool.not_eq_true] at h
      exact (pushed_of_loses h).1
  have hblock : (if (merged p e).doNotKnock.getD false ≠ e.doNotKnock then some e.doNotKnock
      else (merged p e).doNotKnock) = (merged p e).doNotKnock := by
    unfold merged
    split_ifs <;> simp_all
  rw [pushed_eq] at houtcome ⊢
  unfold merged at houtcome hblock ⊢
  simp only [hnews, houtcome, hblock]

end

section

def pushAll (p : StreamMergeablePin X) (events : List LeadStreamPin) : StreamMergeablePin X :=
  events.foldl pushed p

def LeadStreamPin.Before (e : LeadStreamPin) (at_ : Text) : Prop :=
  ∃ t, e.lastOutcomeAt = some t ∧ t < at_

theorem loses_of_before {p : StreamMergeablePin X} {e : LeadStreamPin}
    (hlocal : p.localAt = some at_) (h : e.Before at_) : outcomeWins p e = false := by
  obtain ⟨t, ht, hlt⟩ := h
  rw [← Bool.not_eq_true, outcomeWins_iff ht, hlocal]
  exact fun hle => absurd (hle at_ rfl) (not_le.mpr hlt)

theorem pushAll_of_before {p : StreamMergeablePin X} {events : List LeadStreamPin}
    (hlocal : p.localAt = some at_) (h : ∀ e ∈ events, e.Before at_) :
    (pushAll p events).outcome = p.outcome := by
  induction events generalizing p with
  | nil => rfl
  | cons e events ih =>
    obtain ⟨houtcome, hkept⟩ := pushed_of_loses (loses_of_before hlocal (h e mem_cons_self))
    rw [pushAll, foldl_cons, ← pushAll,
      ih (hkept.trans hlocal) fun e' he' => h e' (mem_cons_of_mem e he'), houtcome]

def NotLater (p : StreamMergeablePin X) (at_ : Text) : Prop := ∀ t ∈ p.localAt, t ≤ at_

theorem NotLater.pushAll {p : StreamMergeablePin X} {events : List LeadStreamPin}
    (hp : NotLater p at_) (h : ∀ e ∈ events, e.Before at_) : NotLater (pushAll p events) at_ := by
  induction events generalizing p with
  | nil => exact hp
  | cons e events ih =>
    apply ih _ fun e' he' => h e' (mem_cons_of_mem e he')
    obtain ⟨t, ht, hlt⟩ := h e mem_cons_self
    cases hwins : outcomeWins p e with
    | true =>
      intro t' ht'
      rw [(pushed_of_wins hwins ht).2, mem_some_iff] at ht'
      exact ht' ▸ le_of_lt hlt
    | false =>
      intro t' ht'
      rw [(pushed_of_loses hwins).2] at ht'
      exact hp t' ht'

theorem pushAll_latest {p : StreamMergeablePin X} {before after : List LeadStreamPin}
    {e : LeadStreamPin} (hat : e.lastOutcomeAt = some at_) (hp : NotLater p at_)
    (hbefore : ∀ e' ∈ before, e'.Before at_) (hafter : ∀ e' ∈ after, e'.Before at_) :
    Carried e (pushAll p (before ++ e :: after)).outcome := by
  have hwins : outcomeWins (pushAll p before) e = true :=
    (outcomeWins_iff hat).mpr (hp.pushAll hbefore)
  obtain ⟨hcarried, hlocal⟩ := pushed_of_wins hwins hat
  have hsplit : pushAll p (before ++ e :: after) = pushAll (pushed (pushAll p before) e) after := by
    unfold pushAll
    rw [foldl_append, foldl_cons]
  rw [hsplit, pushAll_of_before hlocal hafter]
  exact hcarried

def Latest (e : LeadStreamPin) (events : List LeadStreamPin) : Prop :=
  e ∈ events ∧ ∀ e' ∈ events, ∀ t ∈ e.lastOutcomeAt, ∀ t' ∈ e'.lastOutcomeAt, t' ≤ t

structure Clocked (events : List LeadStreamPin) : Prop where
  clocks : ∀ e ∈ events, e.lastOutcomeAt ≠ none
  distinct : (events.map (·.lastOutcomeAt)).Nodup

theorem Clocked.split {events order : List LeadStreamPin} (h : Clocked events)
    (horder : order.Perm events) {e : LeadStreamPin} (hlatest : Latest e events) :
    ∃ at_ before after, e.lastOutcomeAt = some at_ ∧ order = before ++ e :: after ∧
      (∀ e' ∈ before, e'.Before at_) ∧ ∀ e' ∈ after, e'.Before at_ := by
  obtain ⟨at_, hat⟩ := ne_none_iff_exists'.mp (h.clocks e hlatest.1)
  obtain ⟨before, after, hsplit⟩ := append_of_mem (horder.mem_iff.mpr hlatest.1)
  have hnodup := (horder.map (·.lastOutcomeAt)).nodup_iff.mpr h.distinct
  rw [hsplit, map_append, map_cons] at hnodup
  have hperm := nodup_middle.mp hnodup
  have holder : ∀ e' ∈ before ++ after, e'.Before at_ := by
    intro e' he'
    have hmem : e' ∈ events := by
      rw [← horder.mem_iff, hsplit]
      simp only [mem_append, mem_cons] at he' ⊢
      exact he'.imp id Or.inr
    obtain ⟨t, ht⟩ := ne_none_iff_exists'.mp (h.clocks e' hmem)
    refine ⟨t, ht, lt_of_le_of_ne (hlatest.2 e' hmem at_ hat t ht) ?_⟩
    rintro rfl
    apply (nodup_cons.mp hperm).1
    rw [hat, ← ht, ← map_append]
    exact mem_map_of_mem he'
  exact ⟨at_, before, after, hat, hsplit,
    fun e' he' => holder e' (mem_append_left after he'),
    fun e' he' => holder e' (mem_append_right before he')⟩

variable (p : StreamMergeablePin X) (events : List LeadStreamPin)

/-- In every order the pin ends with what the latest event carries, or keeps its own outcome where
that is later than every event. -/
structure Converges : Prop where
  latest : ∀ order, order.Perm events → ∀ e, Latest e events → (∀ t ∈ e.lastOutcomeAt, NotLater p t) →
    Carried e (pushAll p order).outcome
  defended : ∀ order, order.Perm events → ∀ at_, p.localAt = some at_ →
    (∀ e ∈ events, e.Before at_) → (pushAll p order).outcome = p.outcome

structure PushesSafely (p : StreamMergeablePin X) (e : LeadStreamPin) : Prop where
  again : mergePushedPin (pushed p e) e = none
  older : ∀ at_, p.localAt = some at_ → e.Before at_ → (pushed p e).outcome = p.outcome
  outcome_kept : p.lastOutcome ≠ none → (pushed p e).lastOutcome ≠ none
  clock_kept : p.lastOutcomeAt ≠ none → (pushed p e).lastOutcomeAt ≠ none
  visited_kept : p.visited = some true → (pushed p e).visited = some true
  block : (pushed p e).doNotKnock.getD false = e.doNotKnock

variable {p events}

theorem Clocked.converges (h : Clocked events) : Converges p events where
  latest order horder e hlatest hlocal := by
    obtain ⟨at_, before, after, hat, rfl, hbefore, hafter⟩ := h.split horder hlatest
    exact pushAll_latest hat (hlocal at_ hat) hbefore hafter
  defended order horder at_ hlocal hold :=
    pushAll_of_before hlocal fun e he => hold e (horder.mem_iff.mp he)

theorem pushesSafely (p : StreamMergeablePin X) (e : LeadStreamPin) : PushesSafely p e where
  again := merge_again p e
  older _ hlocal hbefore := (pushed_of_loses (loses_of_before hlocal hbefore)).1
  outcome_kept h := by
    rw [pushed_eq]
    unfold merged outcomeAfter
    split
    · cases e.lastOutcome with
      | none => exact h
      | some _ => exact some_ne_none _
    · exact h
  clock_kept h := by
    rw [pushed_eq]
    unfold merged outcomeAfter
    split
    · cases e.lastOutcomeAt with
      | none => exact h
      | some _ => exact some_ne_none _
    · exact h
  visited_kept h := by
    rw [pushed_eq]
    unfold merged outcomeAfter
    split
    · dsimp only
      split
      · rfl
      · exact h
    · exact h
  block := by
    rw [pushed_eq]
    unfold merged
    split_ifs with hblock
    · rfl
    · exact not_not.mp hblock

theorem pushedPins_converge (p : StreamMergeablePin X) (events : List LeadStreamPin)
    (h : Clocked events) : Converges p events ∧
      ∀ (p : StreamMergeablePin X) (e : LeadStreamPin), PushesSafely p e :=
  ⟨h.converges, pushesSafely⟩

end

/-- The outcome fields are those of the latest event, whatever the pin held. -/
def OutcomeOfLatest (p : StreamMergeablePin X) (events : List LeadStreamPin) : Prop :=
  ∀ order, order.Perm events → ∀ e, Latest e events →
    some (pushAll p order).leadStatus = e.leadStatus ∧
      (pushAll p order).lastOutcome = e.lastOutcome ∧
      (pushAll p order).lastOutcomeAt = e.lastOutcomeAt

/-- A push with an older clock leaves a do-not-knock block in place. -/
def BlockDefended (p : StreamMergeablePin X) (e : LeadStreamPin) : Prop :=
  ∀ at_, p.localAt = some at_ → e.Before at_ → p.doNotKnock = some true →
    (pushed p e).doNotKnock = some true

def blockedDoor : StreamMergeablePin Unit where
  id := 5
  address := "12 Oak St".toList
  city := "Concord".toList
  state := "NC".toList
  zip := "28027".toList
  lat := 35
  lng := -80
  leadStatus := "sold".toList
  fiberStatus := "fiber".toList
  assignedRepId := some 3
  assignedTerritoryId := none
  leadScore := 50
  leadTag := none
  visited := some true
  lastOutcome := some "sold".toList
  lastKnockedAt := none
  lastOutcomeAt := some "2026-07-02T10:00:00.000Z".toList
  assignMark := none
  doNotKnock := some true
  joined := ()

def junePush : LeadStreamPin where
  id := 5
  address := none
  city := none
  state := none
  zip := none
  lat := none
  lng := none
  leadStatus := some "not_home".toList
  fiberStatus := none
  leadTag := none
  leadScore := none
  assignMark := none
  doNotKnock := false
  lastOutcome := some "not_home".toList
  lastOutcomeAt := some "2026-06-02T10:00:00.000Z".toList
  assignedRepId := some 3
  assignedTerritoryId := none

/-- A later outcome of the pin's own stays, and a block is lifted by whichever push comes last. -/
theorem not_outcomeOfLatest_blockedDoor : Clocked [junePush] ∧
    ¬ OutcomeOfLatest blockedDoor [junePush] ∧ ¬ BlockDefended blockedDoor junePush := by
  refine ⟨⟨by decide, by decide⟩, ?_, ?_⟩
  · intro h
    have hlatest : Latest junePush [junePush] := by
      refine ⟨mem_singleton_self _, ?_⟩
      intro e' he' t ht t' ht'
      rw [mem_singleton.mp he', ht] at ht'
      exact le_of_eq (some.inj ht').symm
    have hstatus := (h [junePush] (List.Perm.refl _) junePush hlatest).1
    exact absurd hstatus (by decide)
  · intro h
    have hbefore : junePush.Before "2026-07-02T10:00:00.000Z".toList := ⟨_, rfl, by decide⟩
    exact absurd (h _ rfl hbefore rfl) (by decide)

/-- A push of July that comes before one of June. -/
theorem pushedPins_converge_julyFirst :
    Converges blockedDoor [{ junePush with lastOutcomeAt := blockedDoor.lastOutcomeAt }, junePush] ∧
      ∀ (p : StreamMergeablePin Unit) (e : LeadStreamPin), PushesSafely p e :=
  pushedPins_converge blockedDoor _ ⟨by decide, by decide⟩

end HomefrontFiber.LiveMap
