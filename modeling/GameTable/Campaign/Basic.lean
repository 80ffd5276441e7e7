/-!
# Where campaigns are kept

Every world is a directory and every campaign a directory inside it. A campaign is given by its
directory, which tells where its files are.
-/

namespace GameTable

namespace Path

/-- A path inside a directory. An absolute path stands for itself, and no separator is written
where the directory ends with one. -/
def join (directory path : String) : String :=
  if path.startsWith "/" || directory.isEmpty then path
  else if directory.endsWith "/" then directory ++ path
  else directory ++ "/" ++ path

example : join "worlds" "greyhawk" = "worlds/greyhawk" ∧ join "worlds/" "keep" = "worlds/keep" ∧
    join "worlds" "/keep" = "/keep" ∧ join "worlds" "" = "worlds/" ∧ join "" "keep" = "keep" := by
  decide +kernel

end Path

/-- A campaign, by the directory it is kept in. -/
structure Campaign where
  root : String
deriving DecidableEq, Repr

namespace Campaign

/-- A campaign of a world. -/
def ofWorld (worlds world campaign : String) : Campaign :=
  ⟨Path.join (Path.join worlds world) campaign⟩

/-- The log of its events. -/
def logPath (c : Campaign) : String := Path.join c.root "log.jsonl"

/-- Its rules. -/
def manifestPath (c : Campaign) : String := Path.join c.root "manifest.yaml"

def weaponsPath (c : Campaign) : String := Path.join c.root "weapons.yaml"

/-- What a bridge to a chat would need. -/
def bridgePath (c : Campaign) : String := Path.join c.root "telegram.yaml"

/-- The directory of the character sheets. -/
def sheetsPath (c : Campaign) : String := Path.join c.root "characters"

end Campaign

end GameTable
