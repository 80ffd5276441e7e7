import GameTable.Yaml.Token

/-!
# Nodes of a document

The tokens of a document make a tree of texts, lists and maps. Where a key, a value or an entry is
missing, an empty plain text stands in its place. There may be only one document in a text; a text
without any is an empty one.
-/

namespace GameTable.Yaml

inductive Node where
  /-- A text, and whether it is written without quotes. -/
  | scalar (plain : Bool) (text : String)
  | seq (items : List Node)
  | map (entries : List (Node × Node))
deriving Repr

namespace Node

instance : Inhabited Node := ⟨.scalar true ""⟩

/-- What stands for a node that is missing. -/
def missing : Node := .scalar true ""

/-- How many collections stand inside one another. -/
def depth : Node → Nat
  | .scalar .. => 0
  | .seq items => 1 + depthItems items
  | .map entries => 1 + depthEntries entries
where
  depthItems : List Node → Nat
    | [] => 0
    | x :: rest => max (depth x) (depthItems rest)
  depthEntries : List (Node × Node) → Nat
    | [] => 0
    | (k, v) :: rest => max (max (depth k) (depth v)) (depthEntries rest)

end Node

/-- A reader of tokens: what it has read, and what is left. -/
abbrev Reader (α : Type) := List Token → Option (α × List Token)

/-- Whether one of these tokens comes next. -/
def comesNext (these : List Token) (ts : List Token) : Bool := ts.head?.any (· ∈ these)

/-- Reads a node, unless one of the tokens comes next that cannot start one: then the node is
missing. -/
def unlessNext (these : List Token) (read : Reader Node) : Reader Node := fun ts =>
  if comesNext these ts then some (.missing, ts) else read ts

mutual

/-- Reads a node. `block` tells whether collections may be laid out by indentation, `indentless`
whether a list may stand in the column of the map around it. -/
def readNode : Nat → Bool → Bool → Reader Node
  | 0, _, _, _ => none
  | n + 1, block, indentless, ts =>
    match ts with
    | .scalar plain text :: rest => some (.scalar plain text, rest)
    | .flowSeqStart :: rest => readFlowItems n [] rest
    | .flowMapStart :: rest => readFlowEntries n [] rest
    | .blockEntry :: rest => if indentless then readIndentless n [] (.blockEntry :: rest) else none
    | .blockSeqStart :: rest => if block then readBlockItems n [] rest else none
    | .blockMapStart :: rest => if block then readBlockEntries n [] rest else none
    | _ => none

/-- Reads the entries of a list that is laid out by indentation. -/
def readBlockItems : Nat → List Node → Reader Node
  | 0, _, _ => none
  | n + 1, items, ts =>
    match ts with
    | .blockEntry :: rest => do
      let (item, ts) ← unlessNext [.blockEntry, .blockEnd] (readNode n true false) rest
      readBlockItems n (items ++ [item]) ts
    | .blockEnd :: rest => some (.seq items, rest)
    | _ => none

/-- Reads the entries of a list in the column of the map around it. -/
def readIndentless : Nat → List Node → Reader Node
  | 0, _, _ => none
  | n + 1, items, ts =>
    match ts with
    | .blockEntry :: rest => do
      let (item, ts) ←
        unlessNext [.blockEntry, .key, .value, .blockEnd] (readNode n true false) rest
      readIndentless n (items ++ [item]) ts
    | ts => some (.seq items, ts)

/-- Reads the entries of a map that is laid out by indentation. -/
def readBlockEntries : Nat → List (Node × Node) → Reader Node
  | 0, _, _ => none
  | n + 1, entries, ts =>
    match ts with
    | .blockEnd :: rest => some (.map entries, rest)
    | .key :: rest => do
      let (key, ts) ← unlessNext [.key, .value, .blockEnd] (readNode n true true) rest
      let (value, ts) ← readBlockValue n ts
      readBlockEntries n (entries ++ [(key, value)]) ts
    | _ => none

/-- Reads the value of an entry, which may be missing. -/
def readBlockValue : Nat → Reader Node
  | 0, _ => none
  | n + 1, ts =>
    match ts with
    | .value :: rest => unlessNext [.key, .value, .blockEnd] (readNode n true true) rest
    | ts => some (.missing, ts)

/-- Reads the items of a list in brackets. A key among them begins a map with one entry; a key that
is missing takes the mark behind it. -/
def readFlowItems : Nat → List Node → Reader Node
  | 0, _, _ => none
  | n + 1, items, ts =>
    match ts with
    | .flowSeqEnd :: rest => some (.seq items, rest)
    | ts => do
      let ts ← if items.isEmpty then some ts else match ts with
        | .flowEntry :: rest => some rest
        | _ => none
      match ts with
      | .flowSeqEnd :: rest => some (.seq items, rest)
      | .key :: rest => do
        let (key, ts) ← if comesNext [.value, .flowEntry, .flowSeqEnd] rest then
            some (Node.missing, rest.tail)
          else readNode n false false rest
        let (value, ts) ← readFlowValue n [.flowEntry, .flowSeqEnd] ts
        readFlowItems n (items ++ [.map [(key, value)]]) ts
      | ts => do
        let (item, ts) ← readNode n false false ts
        readFlowItems n (items ++ [item]) ts

/-- Reads the entries of a map in brackets. What is no key has no value either. -/
def readFlowEntries : Nat → List (Node × Node) → Reader Node
  | 0, _, _ => none
  | n + 1, entries, ts =>
    match ts with
    | .flowMapEnd :: rest => some (.map entries, rest)
    | ts => do
      let ts ← if entries.isEmpty then some ts else match ts with
        | .flowEntry :: rest => some rest
        | _ => none
      match ts with
      | .flowMapEnd :: rest => some (.map entries, rest)
      | .key :: rest => do
        let (key, ts) ← unlessNext [.value, .flowEntry, .flowMapEnd] (readNode n false false) rest
        let (value, ts) ← readFlowValue n [.flowEntry, .flowMapEnd] ts
        readFlowEntries n (entries ++ [(key, value)]) ts
      | ts => do
        let (key, ts) ← readNode n false false ts
        readFlowEntries n (entries ++ [(key, .missing)]) ts

/-- Reads the value of an entry in brackets, which may be missing. -/
def readFlowValue : Nat → List Token → Reader Node
  | 0, _, _ => none
  | n + 1, ends, ts =>
    match ts with
    | .value :: rest => unlessNext ends (readNode n false false) rest
    | ts => some (.missing, ts)

end

/-- The content of a document, which may be missing. -/
def readContent (ts : List Token) : Option (Node × List Token) :=
  let fuel := 3 * ts.length + 3
  match ts with
  | .documentStart :: [] => some (.missing, [])
  | .documentStart :: rest =>
    unlessNext [.documentStart, .documentEnd] (readNode fuel true false) rest
  | ts => readNode fuel true false ts

/-- The tree of a text that holds at most one document. -/
def Node.parse? (s : String) : Option Node := do
  match ← tokens? s with
  | [] => return .missing
  | ts =>
    let (node, rest) ← readContent ts
    if rest.all (· = .documentEnd) then return node else none

end GameTable.Yaml
