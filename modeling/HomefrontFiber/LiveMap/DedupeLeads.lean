import Mathlib.Data.Prod.Lex
import Mathlib.Data.Rat.Defs
import HomefrontFiber.Foundation.Election
import HomefrontFiber.Foundation.ScriptText
import HomefrontFiber.FreshFiber.AddressKey

/-!
# One pin for each house

Leads whose canonical addresses agree are one house, and houses that elect leads on one rooftop with
one house number are one door. Each merger keeps the lead of the higher priority, and the pin of a
merged door lists the ids of all its leads, its own first.
-/

namespace HomefrontFiber.LiveMap

open FreshFiber ScriptText

/-- What the browser provides: Unicode folding, the printed form of huge numbers, `Date.parse`. -/
structure Platform where
  unicode : Unicode
  large : Rat → Text
  parseDate : Text → Option Int

/-- A lead as the map reads it; a coordinate or a score that is not a finite number is `none`. -/
structure DedupableLead where
  id : Int
  lat : Option Rat
  lng : Option Rat
  address : Option Text
  city : Option Text
  state : Option Text
  leadScore : Option Rat
  leadTag : Option Text
  lastKnockedAt : Option Text

structure LeadRow extends DedupableLead where
  mergedLeadIds : Option (List Text) := none
  mergedCount : Option Nat := none

def DedupableLead.idText (lead : DedupableLead) : Text := decimal lead.id

variable (env : Platform)

def houseKey (lead : DedupableLead) : Option Text :=
  let part (text : Option Text) := canonicalAddressPart env.unicode (text.getD [])
  if part lead.address ≠ [] then
    some ("addr:".toList ++ part lead.address ++ '|' :: part lead.city ++ '|' :: part lead.state)
  else match lead.lat, lead.lng with
    | some lat, some lng =>
      some ("geo:".toList ++ toFixed env.large 5 lat ++ ',' :: toFixed env.large 5 lng)
    | _, _ => none

/-- `trim().split(/\s+/)[0]`. -/
def houseNumber (address : Option Text) : Text :=
  (trim (address.getD [])).takeWhile fun c => !isSpace c

def rooftopKey (lead : DedupableLead) : Option Text :=
  match lead.lat, lead.lng with
  | some lat, some lng =>
    let number := houseNumber lead.address
    if number ≠ [] ∧ number.all Char.isDigit then
      some ("roof:".toList ++ toFixed env.large 4 lat ++ ',' :: toFixed env.large 4 lng ++
        '|' :: number)
    else none
  | _, _ => none

/-- Fresh fiber, then the score, then the last knock, then the lowest id. -/
def priorityRank (lead : DedupableLead) : Int × Rat × Int × Int :=
  (if lead.leadTag = some "fresh_fiber_confirmed".toList then 1 else 0,
    lead.leadScore.getD 0,
    (lead.lastKnockedAt.bind env.parseDate).getD 0,
    -lead.id)

def isHigherPriority (candidate current : DedupableLead) : Bool :=
  let a := priorityRank env candidate
  let b := priorityRank env current
  if a.1 ≠ b.1 then b.1 < a.1
  else if a.2.1 ≠ b.2.1 then b.2.1 < a.2.1
  else if a.2.2.1 ≠ b.2.2.1 then b.2.2.1 < a.2.2.1
  else b.2.2.2 < a.2.2.2

/-- The houses met so far, by their keys, and the leads without one. -/
structure Houses where
  survivors : InsertionMap Text LeadRow
  groupIds : InsertionMap Text (List Text)
  passthrough : List LeadRow

namespace Houses

def empty : Houses := ⟨.empty, .empty, []⟩

def ids (h : Houses) (key : Text) : List Text := (h.groupIds.get? key).getD []

def add (h : Houses) (lead : LeadRow) : Houses :=
  match houseKey env lead.toDedupableLead with
  | none => { h with passthrough := h.passthrough ++ [lead] }
  | some key =>
    match h.survivors.get? key with
    | none =>
      { h with
        survivors := h.survivors.set key lead
        groupIds := h.groupIds.set key [lead.idText] }
    | some current =>
      if isHigherPriority env lead.toDedupableLead current.toDedupableLead then
        { h with
          survivors := h.survivors.set key lead
          groupIds := h.groupIds.set key (lead.idText :: h.ids key) }
      else { h with groupIds := h.groupIds.set key (h.ids key ++ [lead.idText]) }

/-- The house of `key` takes in the house of `loser`. -/
def absorb (h : Houses) (key loser : Text) : Houses :=
  { h with
    survivors := h.survivors.delete loser
    groupIds := (h.groupIds.set key (h.ids key ++ h.ids loser)).delete loser }

end Houses

/-- The second pass: the houses, and the house that stands for each rooftop. -/
structure Rooftops where
  houses : Houses
  byRoof : InsertionMap Text Text

/-- One house of the second pass. The survivor of the winner is always there. -/
def Rooftops.visit (r : Rooftops) (entry : Text × LeadRow) : Rooftops :=
  match rooftopKey env entry.2.toDedupableLead with
  | none => r
  | some roof =>
    match r.byRoof.get? roof with
    | none => { r with byRoof := r.byRoof.set roof entry.1 }
    | some winnerKey =>
      match r.houses.survivors.get? winnerKey with
      | none => r
      | some winner =>
        if isHigherPriority env entry.2.toDedupableLead winner.toDedupableLead then
          { houses := r.houses.absorb entry.1 winnerKey, byRoof := r.byRoof.set roof entry.1 }
        else { r with houses := r.houses.absorb winnerKey entry.1 }

def firstPass (leads : List LeadRow) : Houses := leads.foldl (Houses.add env) .empty

def secondPass (h : Houses) : Houses :=
  (h.survivors.entries.foldl (Rooftops.visit env) { houses := h, byRoof := .empty }).houses

/-- A merged house lists its leads; a single one stays as it is. -/
def Houses.row (h : Houses) (entry : Text × LeadRow) : LeadRow :=
  let ids := h.ids entry.1
  if 1 < ids.length then
    { entry.2 with mergedLeadIds := some ids, mergedCount := some ids.length }
  else entry.2

def dedupeLeads (leads : List LeadRow) : List LeadRow :=
  let h := secondPass env (firstPass env leads)
  h.survivors.entries.map h.row ++ h.passthrough

end HomefrontFiber.LiveMap
