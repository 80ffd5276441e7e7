import GameTable.Tree

/-!
# Turn loops

A loop passes the turn around its actors. They are kept in the order in which they joined; the
order of turns sorts them by their keys, the larger first unless the loop ascends. Actors without
a key come last, and actors with equal keys, or without keys, keep the order in which they
joined. The turn is a position in that order.
-/

namespace GameTable

structure Loop where
  active : Bool
  actors : List String
  order : Dict Int
  ascending : Bool
  current : Nat
deriving DecidableEq

namespace Loop

/-- A loop that has just been started: active and without actors. -/
def started : Loop := ⟨true, [], ∅, false, 0⟩

def contains (l : Loop) (actor : String) : Bool := actor ∈ l.actors

/-- Whether an actor may stand before another in the order of turns. -/
def precedes (l : Loop) (a b : String) : Bool :=
  match l.order.get? a, l.order.get? b with
  | some x, some y => if l.ascending then x ≤ y else y ≤ x
  | some _, none => true
  | none, some _ => false
  | none, none => true

/-- The actors in the order of turns. -/
def orderedActors (l : Loop) : List String := l.actors.mergeSort l.precedes

/-- Whose turn it is, if the loop is active and has actors. -/
def currentActor? (l : Loop) : Option String :=
  if l.active then l.orderedActors[l.current % max l.orderedActors.length 1]? else none

/-- Passes the turn on, after the last actor to the first. An inactive loop stays as it is. -/
def advance (l : Loop) : Loop :=
  if l.active && !l.actors.isEmpty then
    { l with current := (l.current + 1) % l.actors.length }
  else l

/-- Adds an actor at the end, unless it takes part already. -/
def enroll (l : Loop) (actor : String) : Loop :=
  if l.contains actor then l else { l with actors := l.actors ++ [actor] }

/-! ## Documents -/

def fieldNames : List String := ["active", "actors", "order", "ascending", "current"]

def toJson (l : Loop) : Json :=
  .obj [("active", .bool l.active), ("actors", .ofStrings l.actors),
    ("order", .ofDict (l.order.map .int)), ("ascending", .bool l.ascending),
    ("current", .int l.current)]

/-- A position: an integer that is not negative. -/
def position? {τ : Type} [Tree τ] (t : τ) : Option Nat :=
  (Tree.integer? t).bind fun n => if 0 ≤ n then some n.toNat else none

/-- Reads a loop. Every field may be missing. -/
def read? {τ : Type} [Tree τ] (t : τ) : Option Loop := do
  let look ← Tree.record? fieldNames t
  return {
    active := ← Tree.fieldOr look "active" Tree.flag? false
    actors := ← Tree.fieldOr look "actors" Tree.texts? []
    order := ← Tree.fieldOr look "order" (Tree.dict? Tree.integer64?) ∅
    ascending := ← Tree.fieldOr look "ascending" Tree.flag? false
    current := ← Tree.fieldOr look "current" position? 0 }

end Loop

end GameTable
