import GameTable.Campaign.Basic
import GameTable.Campaign.Content
import GameTable.Campaign.Storage

/-!
# Loading a campaign

The rules of a campaign, its characters and its weapons are read from storage. There must be a
manifest; characters and weapons may be missing. Every YAML file in the directory of characters
counts, in the order of the names, and no two character sheets of a campaign may have the same id.
-/

namespace GameTable

variable {m : Type → Type} [Monad m] [Storage m]

namespace Storage

/-- An operation of the storage, as a step that may fail. -/
def stepwise {α : Type} (step : LoadStep) (operation : m (Except String α)) :
    ExceptT LoadError m α := do
  match ← operation with
  | .ok a => return a
  | .error message => throw (.within step (.storage message))

/-- The text of a file. -/
def readText (path : String) : ExceptT LoadError m String := do
  let content ← stepwise (.read path) (Storage.read path)
  match String.fromUTF8? content with
  | some text => return text
  | none => throw (.within (.read path) (.storage "stream did not contain valid UTF-8"))

end Storage

/-- The extension of a file name: what follows its last dot, unless the name begins with it. -/
def Path.extension? (name : String) : Option String :=
  match (Text.split '.' name).reverse with
  | last :: first :: rest => if first.isEmpty && rest.isEmpty then none else some last
  | _ => none

example : Path.extension? "orc.old.yml" = some "yml" ∧ Path.extension? ".yaml" = none ∧
    Path.extension? "orc" = none ∧ Path.extension? "orc." = some "" := by decide +kernel

/-- Whether the name of a file makes it one of the character files. -/
def isSheetName (name : String) : Bool :=
  (Path.extension? name).any fun ext => Text.lowerAscii ext ∈ ["yaml", "yml"]

/-- Adds the character sheets of a file to those known so far. Each needs an id of its own. -/
def joinSheets (path : String) (known : List Entity) : List Entity → Except LoadError (List Entity)
  | [] => .ok known
  | e :: rest =>
    if e.id.isEmpty then .error (.nameless path)
    else if known.any (·.id = e.id) then .error (.duplicate path e.id)
    else joinSheets path (known ++ [e]) rest

namespace Campaign

def loadManifest (c : Campaign) : ExceptT LoadError m Manifest := do
  let content ← Storage.readText c.manifestPath
  let (manifest, _) ← (LoadStep.manifestFile c.manifestPath).wrap (Manifest.ofYaml content)
  return manifest

/-- The paths of the character files, in the order of their names. -/
def sheetPaths (c : Campaign) : ExceptT LoadError m (List String) := do
  let names ← Storage.stepwise (.list c.sheetsPath) (Storage.names c.sheetsPath)
  let paths := ((names.filter isSheetName).mergeSort (· ≤ ·)).map (Path.join c.sheetsPath)
  paths.filterM fun path => Storage.isFile path

/-- Loads one character file after the other. -/
def loadSheets (known : List Entity) : List String → ExceptT LoadError m (List Entity)
  | [] => return known
  | path :: rest => do
    let content ← Storage.readText path
    let sheets ← (LoadStep.characterFile path).wrap (Entity.sheetsOfYaml content)
    loadSheets (← joinSheets path known sheets) rest

def loadCharacters (c : Campaign) : ExceptT LoadError m (List Entity) := do
  if ← Storage.isDirectory c.sheetsPath then loadSheets [] (← c.sheetPaths) else return []

def loadWeapons (c : Campaign) : ExceptT LoadError m (Dict Value) := do
  if ← Storage.isFile c.weaponsPath then
    let content ← Storage.readText c.weaponsPath
    (LoadStep.weaponFile c.weaponsPath).wrap (Compendium.weaponsOfYaml content)
  else return ∅

/-- Loads the characters and then the weapons. -/
def loadCompendium (c : Campaign) : ExceptT LoadError m Compendium := do
  let entities ← c.loadCharacters
  return ⟨entities, ← c.loadWeapons⟩

end Campaign

end GameTable
