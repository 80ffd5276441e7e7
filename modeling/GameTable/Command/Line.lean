import GameTable.Command.Request
import GameTable.Text.Alphabet
import GameTable.Text.Split

/-!
# Commands as they are typed

A line begins with the words of a command. A word with a colon at its end is a keyword and begins
a clause, which goes on to the next keyword:

    grapple by: fighter to: goblin
    encounter start with: fighter and goblin

The items of a clause are separated by commas or by `and`. The clause `by` names the one who acts,
`to` and `of` name targets, and every other clause is a parameter: a text if it has one item, a
list if it has more.
-/

namespace GameTable

/-- Why a line is no command. -/
inductive LineError where
  | empty
  | keywordFirst
  | emptyClause (key : String)
  | severalActors
deriving DecidableEq, Repr

namespace LineError

def message : LineError → String
  | .empty => "nothing to do: type a command"
  | .keywordFirst => "a command must come before its keywords"
  | .emptyClause key => "'" ++ key ++ ":' needs a value"
  | .severalActors => "'by:' names exactly one actor"

/-- How lines are written. -/
def usage : String :=
  "<command> [by: <actor>] [to: <target> and <target>] [<key>: <value>]..."

end LineError

namespace Line

/-- Whether a character may stand in a keyword. -/
def isKeyChar (c : Char) : Bool := Text.isAlphanumeric c || c = '_'

/-- The key of a keyword: letters, digits and underscores before a final colon, in lower case. -/
def keyword? (word : String) : Option String :=
  match word.toList.reverse with
  | ':' :: rest =>
    if !rest.isEmpty && rest.all isKeyChar then some (Text.lower (.ofList rest.reverse)) else none
  | _ => none

/-- A keyword and the words after it. -/
structure Clause where
  key : String
  words : List String
deriving DecidableEq, Repr

/-- The words before the first keyword, and the clauses. -/
def clauses : List String → List String × List Clause
  | [] => ([], [])
  | word :: rest =>
    let (before, clauses) := clauses rest
    match keyword? word with
    | some key => ([], ⟨key, before⟩ :: clauses)
    | none => (word :: before, clauses)

/-- The pieces of a text between the occurrences of `and` as a word between blanks. -/
def splitAnd : List Char → List (List Char)
  | [] => [[]]
  | ' ' :: 'a' :: 'n' :: 'd' :: ' ' :: rest => [] :: splitAnd rest
  | c :: rest =>
    match splitAnd rest with
    | [] => [[c]]
    | piece :: pieces => (c :: piece) :: pieces

/-- The items of a text. -/
def itemsOf (cs : List Char) : List (List Char) :=
  (((Text.splitChars ',' cs).flatMap splitAnd).map Text.trimChars).filter fun item => !item.isEmpty

def Clause.items (c : Clause) : List String :=
  (itemsOf (" ".intercalate c.words).toList).map .ofList

/-- A single item is a text, several are a list. -/
def itemsValue : List String → Value
  | [item] => .str item
  | items => .ofStrings items

/-- Adds what a clause says to the input. -/
def addClause (input : Input) (c : Clause) : Except LineError Input :=
  let items := c.items
  if items.isEmpty then .error (.emptyClause c.key)
  else if c.key = "by" then
    match items with
    | [actor] => .ok { input with actor }
    | _ => .error .severalActors
  else if c.key = "to" ∨ c.key = "of" then .ok { input with targets := input.targets ++ items }
  else .ok { input with params := input.params.insert c.key (itemsValue items) }

/-- Reads a line. Without a `by` clause the game master acts. -/
def parse (line : String) : Except LineError Input :=
  let (command, clauses) := clauses (Text.words line)
  if command.isEmpty then .error (if clauses.isEmpty then .empty else .keywordFirst)
  else clauses.foldlM addClause (.ofCommand (Text.lower ("_".intercalate command)))

example : (parse "Encounter Start by: gm with: a, b and c").toOption
    = some ⟨"encounter_start", "gm", [], .ofList [("with", .ofStrings ["a", "b", "c"])]⟩ := by
  decide +kernel

end Line

end GameTable
