import GameTable.Decimal.Reading
import GameTable.Tree
import GameTable.Value.Basic
import GameTable.Yaml.Node

/-!
# What plain texts mean

A plain text may look like null, a flag or a number. A manifest takes every text as the field
needs it: a name may be written `5` or `true`; and its records are maps. Character sheets and
weapon tables take it as what it looks like: there `5` is a number and nothing else, unless it is
put in quotes; and a record may also be a list of its fields. `Node` itself is read in the first
way, `Typed` nodes in the second.
-/

namespace GameTable.Yaml

/-! ## The looks of plain texts -/

def looksNull (s : String) : Bool := s ∈ ["", "~", "null", "Null", "NULL"]

def flagOf? (s : String) : Option Bool :=
  if s ∈ ["true", "True", "TRUE"] then some true
  else if s ∈ ["false", "False", "FALSE"] then some false
  else none

/-- Digits of which the first is a superfluous zero make no number. -/
def hasLeadingZero (cs : List Char) : Bool :=
  cs.length > 1 && cs.head? = some '0' && cs.all Char.isDigit

/-- A number in digits of a base. -/
def digitsIn? (base : Nat) (cs : List Char) : Option Nat := do
  if cs.isEmpty then none
  let digits ← cs.mapM hexDigit?
  if digits.all (· < base) then some (digits.foldl (fun n d => base * n + d) 0) else none

/-- A number without its sign: decimal, or with the mark of another base. -/
def magnitude? (cs : List Char) : Option Nat :=
  match cs with
  | '0' :: 'x' :: rest => digitsIn? 16 rest
  | '0' :: 'o' :: rest => digitsIn? 8 rest
  | '0' :: 'b' :: rest => digitsIn? 2 rest
  | cs => if hasLeadingZero cs then none else digitsIn? 10 cs

/-- An integer of any size. -/
def integerOf? (s : String) : Option Int :=
  match s.toList with
  | '+' :: cs => (magnitude? cs).map fun n => (n : Int)
  | '-' :: cs => (magnitude? cs).map fun n => -(n : Int)
  | cs => (magnitude? cs).map fun n => (n : Int)

/-- The digits of a float behind a plus sign, which only one sign may follow. -/
def afterPlus (cs : List Char) : Option (List Char) :=
  match cs with
  | '+' :: '+' :: _ | '+' :: '-' :: _ => none
  | '+' :: rest => some rest
  | cs => some cs

/-- A float: a finite number, or one of the marks of infinity and not-a-number. -/
def floatOf? (s : String) : Option Float := do
  let cs ← afterPlus s.toList
  if String.ofList cs ∈ [".inf", ".Inf", ".INF"] then return 1.0 / 0.0
  if s ∈ ["-.inf", "-.Inf", "-.INF"] then return -1.0 / 0.0
  if s ∈ [".nan", ".NaN", ".NAN"] then return 0.0 / 0.0
  let unsigned := match cs with
    | '-' :: rest => rest
    | cs => cs
  if hasLeadingZero unsigned then none
  (Decimal.readFloat (.ofList cs)).filter Float.isFinite

/-- What a plain text looks like. -/
inductive Look where
  | null
  | flag (b : Bool)
  | int (n : Int)
  | float (x : Float)
  | text
  /-- An integer that is too large for 64 bits, with a sign or without. -/
  | oversized

/-- The least integer of 128 bits with a sign. -/
def minLong : Int := -170141183460469231731687303715884105728

/-- The largest integer of 128 bits without a sign. -/
def maxLong : Int := 340282366920938463463374607431768211455

def lookOf (s : String) : Look :=
  if looksNull s then .null
  else match flagOf? s with
    | some b => .flag b
    | none =>
      let number := match floatOf? s with
        | some x => .float x
        | none => .text
      match integerOf? s with
      | some n =>
        if minInteger ≤ n ∧ n ≤ maxUnsigned then .int n
        else if minLong ≤ n ∧ n ≤ maxLong then .oversized
        else number
      | none => number

/-! ## Nodes by need -/

namespace Node

def text? : Node → Option String
  | .scalar _ s => some s
  | _ => none

/-- The content of a node that is plain. -/
def plain? : Node → Option String
  | .scalar true s => some s
  | _ => none

/-- The items of a list; a missing node has none. -/
def items? : Node → Option (List Node)
  | .seq items => some items
  | .scalar true "" => some []
  | _ => none

/-- The entries of a map whose keys are texts; a missing node has none. -/
def fields? : Node → Option (List (String × Node))
  | .map entries => entries.mapM fun (k, v) => return (← k.text?, v)
  | .scalar true "" => some []
  | _ => none

instance : Tree Node where
  text? := text?
  integer? t := t.plain?.bind fun s => match lookOf s with
    | .int n => some n
    | _ => none
  flag? t := t.plain?.bind flagOf?
  choice? := text?
  isNull t := t.plain?.any looksNull
  items? := items?
  fields? := fields?
  positions? _ := none

end Node

/-! ## Nodes by their looks -/

/-- A node that is taken as what it looks like. -/
structure Typed where
  node : Node

namespace Typed

/-- A text that looks like nothing else. -/
def textOf? : Node → Option String
  | .scalar true s => match lookOf s with
    | .text => some s
    | _ => none
  | .scalar false s => some s
  | _ => none

/-- The field of a record that a key stands for: the one of that name, or the one at that position,
counted from zero. A position beyond the last field stands for none, and no position has a minus
sign. -/
def fieldName? (names : List String) (key : Node) : Option (Option String) :=
  match textOf? key, key.plain? with
  | some s, _ => some s
  | none, some s => match lookOf s with
    | .int n => if s.toList.head? = some '-' then none else some names[n.toNat]?
    | _ => none
  | none, none => none

instance : Tree Typed where
  text? t := textOf? t.node
  integer? t := t.node.plain?.bind fun s => match lookOf s with
    | .int n => some n
    | _ => none
  flag? t := t.node.plain?.bind flagOf?
  choice? t := textOf? t.node
  isNull t := t.node.plain?.any looksNull
  items? t := match t.node with
    | .seq items => some (items.map Typed.mk)
    | _ => none
  fields? t := match t.node with
    | .map entries => entries.mapM fun (k, v) => return (← textOf? k, ⟨v⟩)
    | _ => none
  recordFields? names t := match t.node with
    | .map entries => do
      let fields ← entries.mapM fun (k, v) => return (← fieldName? names k).map (·, Typed.mk v)
      return fields.filterMap id
    | _ => none

end Typed

/-- How deep collections may be nested where nodes are taken as what they look like. -/
def maxDepth : Nat := 128

namespace Node

mutual

/-- Whether a node holds no integer that is too large. -/
def sizesFit : Node → Bool
  | .scalar true s => match lookOf s with
    | .oversized => false
    | _ => true
  | .scalar false _ => true
  | .seq items => itemsFit items
  | .map entries => entriesFit entries

def itemsFit : List Node → Bool
  | [] => true
  | x :: rest => sizesFit x && itemsFit rest

def entriesFit : List (Node × Node) → Bool
  | [] => true
  | (k, v) :: rest => sizesFit k && sizesFit v && entriesFit rest

end

/-- The node taken as what it looks like, if it is neither too deep nor holds too large an
integer. -/
def typed? (t : Node) : Option Typed :=
  if t.depth ≤ maxDepth && t.sizesFit then some ⟨t⟩ else none

/-- The value of a plain text. -/
def plainValue (s : String) : Value :=
  match lookOf s with
  | .null => .null
  | .flag b => .bool b
  | .int n => if Fits n then .int n else .double (Binary64.ofInt n)
  | .float x => .double x
  | .text | .oversized => .str s

mutual

/-- The value of a node that is taken as what it looks like. The keys of maps have to be texts. -/
def value? : Node → Option Value
  | .scalar true s => some (plainValue s)
  | .scalar false s => some (.str s)
  | .seq items => return .list (← itemValues? items)
  | .map entries => return .ofEntries (← entryValues? entries)

def itemValues? : List Node → Option (List Value)
  | [] => some []
  | x :: rest => return (← value? x) :: (← itemValues? rest)

def entryValues? : List (Node × Node) → Option (List (String × Value))
  | [] => some []
  | (k, v) :: rest => return (← Typed.textOf? k, ← value? v) :: (← entryValues? rest)

end

end Node

end GameTable.Yaml
