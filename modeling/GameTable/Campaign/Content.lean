import GameTable.Campaign.Error
import GameTable.Compendium
import GameTable.Manifest.Record
import GameTable.Yaml.Schema

/-!
# The files of a campaign

What the texts of the three kinds of files mean. A manifest must be free of errors. A character
file holds one character sheet or a list of them, on none of which more may be spent than there
is. A weapon table names weapons, in lower case however they are written, and may be left blank.
-/

namespace GameTable

/-- A form that a file should have. -/
def expected {α : Type} (step : LoadStep) : Option α → Except LoadError α
  | some a => .ok a
  | none => .error (.within step .malformed)

/-- Reads a manifest. Its warnings come with it. -/
def Manifest.ofYaml (content : String) : Except LoadError (Manifest × List LintWarning) := do
  let m ← expected .parseManifest ((Yaml.Node.parse? content).bind Manifest.read?)
  let m := m.normalized
  match m.lint with
  | .ok warnings => return (m, warnings)
  | .error e => throw (.manifest e)

namespace Entity

/-- One character sheet, or a list of them. -/
def readSheets? {τ : Type} [Tree τ] (t : τ) : Option (List Entity) :=
  match read? t with
  | some e => some [e]
  | none => Tree.list? read? t

/-- Refuses a character sheet on which too much is spent. -/
def admitSheet (e : Entity) : Except LoadError Unit :=
  match e.checkSpent with
  | .ok () => .ok ()
  | .error err => .error (.within (.checkSpent e.id) (.spent err))

/-- Reads a character file. -/
def sheetsOfYaml (content : String) : Except LoadError (List Entity) := do
  let sheets ← expected .parseCharacters do
    readSheets? (← (← Yaml.Node.parse? content).typed?)
  sheets.forM admitSheet
  return sheets

end Entity

namespace Compendium

/-- The weapons in a document. An empty document has none. -/
def readWeapons? (t : Yaml.Node) : Option (List (String × Value)) := do
  if Tree.isNull t then return []
  let Yaml.Node.map entries := t | none
  if t.depth > Yaml.maxDepth then none
  entries.mapM fun (k, w) => return (← k.text?, ← (← w.typed?).node.value?)

/-- Reads a weapon table. Of two names that differ in case only, the later in order counts. -/
def weaponsOfYaml (content : String) : Except LoadError (Dict Value) := do
  if (Text.trim content).isEmpty then return ∅
  let weapons ← expected .parseWeapons ((Yaml.Node.parse? content).bind readWeapons?)
  return .ofList ((Dict.ofList weapons).toList.map fun (name, w) => (Text.lower name, w))

end Compendium

end GameTable
