import GameTable.Campaign.Basic
import GameTable.Decimal.Reading
import GameTable.Formula.Program
import GameTable.Text.Blank
import GameTable.Text.LetterCase

/-!
# Settings

Everything that a program needs to know to open a campaign is taken from variables. A variable
that is blank counts as missing, and a number that cannot be read leaves the default in place.
-/

namespace GameTable

structure Settings where
  /-- The directory of all worlds, if it is not the usual one. -/
  worlds : Option String
  world : String
  campaign : String
  /-- The directory for logs of the program itself, if it is not the usual one. -/
  logs : Option String
  /-- The seed of dice that fall alike every time. -/
  diceSeed : Option Nat
  stepLimit : Nat
  transcribe : Bool
  queueDepth : Nat
deriving DecidableEq, Repr

namespace Settings

/-- What turns a flag on, in capitals or not. -/
def isOn (s : String) : Bool := Text.lowerAscii (Text.trim s) ∈ ["1", "true", "yes", "on"]

/-- A number of 64 bits, with or without blanks around it. -/
def number? (s : String) : Option Nat := Decimal.readBelow (Nat.pow 2 64) (Text.trim s)

/-- The settings in variables that are looked up by name. -/
def ofVariables (look : String → Option String) : Settings :=
  let read := fun name => (look name).filter fun s => !(Text.trim s).isEmpty
  { worlds := read "TABLETOP_WORLDS_DIR"
    world := (read "TABLETOP_WORLD").getD "default"
    campaign := (read "TABLETOP_CAMPAIGN").getD "default"
    logs := read "TABLETOP_LOG_DIR"
    diceSeed := (read "TABLETOP_DICE_SEED").bind number?
    stepLimit := max 1 (((read "TABLETOP_STEP_LIMIT").bind number?).getD defaultStepLimit)
    transcribe := (read "TABLETOP_TRANSCRIBE_ROLLS").any isOn
    queueDepth := max 1 (((read "TABLETOP_QUEUE_DEPTH").bind number?).getD 32) }

/-- The campaign, where all worlds are in a directory. -/
def campaignIn (s : Settings) (worlds : String) : Campaign := .ofWorld worlds s.world s.campaign

/-- Where the program keeps logs of its own for the campaign. -/
def logsIn (s : Settings) (logs : String) : String := Path.join logs s.campaign

end Settings

end GameTable
