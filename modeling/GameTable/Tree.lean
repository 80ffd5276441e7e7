import GameTable.Json.Written

/-!
# Reading records from trees

Entities, loops and manifests arrive as trees: documents of the event log, or the nodes of a
campaign file. `Tree` is what reading a record needs to know of such a node. Types are strict: a
number is no text and a fraction no integer, and null is nothing but null.

A record names its fields. They are looked up by name in a mapping, where other names are ignored
and a repeated field is refused, or by position in a list, where trailing fields may be missing.
Not every notation has the second form.
-/

namespace GameTable

/-- Nodes that records are read from. -/
class Tree (τ : Type) where
  text? : τ → Option String
  integer? : τ → Option Int
  flag? : τ → Option Bool
  /-- The name of one of several alternatives. -/
  choice? : τ → Option String
  isNull : τ → Bool
  items? : τ → Option (List τ)
  /-- The named children in their order, repeated names included. -/
  fields? : τ → Option (List (String × τ))
  /-- The named children of a record with the given fields. Some notations may also tell a field by
  its position. -/
  recordFields? : List String → τ → Option (List (String × τ)) := fun _ t => fields? t
  /-- The children of a record in the order of its fields, where the notation allows for it. -/
  positions? : τ → Option (List τ) := items?

namespace Tree

variable {τ : Type} [Tree τ] {α : Type}

/-- Texts in a list. -/
def texts? (t : τ) : Option (List String) := do (← items? t).mapM text?

/-- A list whose items are read alike. -/
def list? (read : τ → Option α) (t : τ) : Option (List α) := do (← items? t).mapM read

/-- A value that null leaves out. -/
def unlessNull? (read : τ → Option α) (t : τ) : Option (Option α) :=
  if isNull t then some none else (read t).map some

/-- A mapping whose values are read alike; of two equal names the later counts. -/
def dict? (read : τ → Option α) (t : τ) : Option (Dict α) := do
  let entries ← (← fields? t).mapM fun (k, v) => return (k, ← read v)
  return .ofList entries

/-- An integer of 64 bits. -/
def integer64? (t : τ) : Option Int := (integer? t).filter fun n => decide (Fits n)

/-- How often a name stands in a list of named children. -/
def occurrences (k : String) (fields : List (String × τ)) : Nat := fields.countP (·.1 = k)

/-- The children of a mapping by name, where no name of the record may be repeated. -/
def named? (names : List String) (t : τ) : Option (String → Option τ) := do
  let fields ← recordFields? names t
  if names.all fun k => occurrences k fields ≤ 1 then some (Entries.get? fields) else none

/-- The children of a list by the position of their name in the record. -/
def positioned? (names : List String) (t : τ) : Option (String → Option τ) := do
  let items ← positions? t
  if items.length ≤ names.length then some fun k => (names.zip items).lookup k else none

/-- The fields of a record, given as a mapping or, where there is that form, as a list. -/
def record? (names : List String) (t : τ) : Option (String → Option τ) :=
  (named? names t).or (positioned? names t)

/-- A field that may be missing. -/
def fieldOr (look : String → Option τ) (k : String) (read : τ → Option α) (default : α) :
    Option α :=
  match look k with
  | some t => read t
  | none => some default

/-- A field that must be there. -/
def fieldOf (look : String → Option τ) (k : String) (read : τ → Option α) : Option α :=
  (look k).bind read

end Tree

/-- Nodes that may hold a document as a whole. -/
class DocumentTree (τ : Type) extends Tree τ where
  /-- The document in a node, if there is one, members in key order. -/
  document? : τ → Option Json

instance : DocumentTree Json where
  text?
    | .str s => some s
    | _ => none
  integer?
    | .int n => some n
    | _ => none
  flag?
    | .bool b => some b
    | _ => none
  choice?
    | .str s => some s
    | .obj [(s, .null)] => some s
    | _ => none
  isNull := Json.isNull
  items?
    | .arr items => some items
    | _ => none
  fields?
    | .obj members => some members
    | _ => none
  document? j := some j.normalized

instance : DocumentTree Json.Written where
  text?
    | .str s => some s
    | _ => none
  integer?
    | .int n => some n
    | _ => none
  flag?
    | .bool b => some b
    | _ => none
  choice?
    | .str s => some s
    | .obj [(s, .null)] => some s
    | _ => none
  isNull
    | .null => true
    | _ => false
  items?
    | .arr items => some items
    | _ => none
  fields?
    | .obj members => some members
    | _ => none
  document? w := w.toJson?.map Json.normalized

end GameTable
