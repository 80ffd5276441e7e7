import GameTable.Text.Blank
import GameTable.Text.LetterCase

/-!
# Names of commands

A command may be typed in several words and in any case; its canonical name joins the words with
underscores in lower case. Seven commands are built in and do not depend on the manifest.
-/

namespace GameTable

/-- The canonical name of a command: `Encounter  Start` is `encounter_start`. -/
def canonicalName (command : String) : String :=
  Text.lower ("_".intercalate (Text.words command))

/-- The commands that every table has. -/
inductive Builtin where
  | roll
  | help
  | hint
  | ask
  | allow
  | deny
  | adjudicate
deriving DecidableEq, Repr

namespace Builtin

def all : List Builtin := [.roll, .help, .hint, .ask, .allow, .deny, .adjudicate]

def name : Builtin → String
  | .roll => "roll"
  | .help => "help"
  | .hint => "hint"
  | .ask => "ask"
  | .allow => "allow"
  | .deny => "deny"
  | .adjudicate => "adjudicate"

def named? (name : String) : Option Builtin := all.find? (·.name = name)

theorem name_of_named? {name : String} {b : Builtin} (h : named? name = some b) : b.name = name := by
  simpa using List.find?_some h

end Builtin

/-- Whether a canonical name is that of a built-in command. -/
def isBuiltin (name : String) : Bool := (Builtin.named? name).isSome

example : canonicalName "  Encounter   END " = "encounter_end" := by decide +kernel

end GameTable
