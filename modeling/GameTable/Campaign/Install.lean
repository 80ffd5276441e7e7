import GameTable.Campaign.Load
import GameTable.Campaign.Starter

/-!
# New campaigns

A campaign without a manifest becomes the starter campaign. No file that is there is touched.
-/

namespace GameTable

variable {m : Type → Type} [Monad m] [Storage m]

/-- Writes a file unless there is something in its place. Tells whether it was written. -/
def Storage.writeMissing (path text : String) : ExceptT LoadError m Bool := do
  if (← Storage.isFile path) || (← Storage.isDirectory path) then return false
  Storage.stepwise (.write path) (Storage.write path text.toUTF8)
  return true

/-- Creates the directory of a campaign and the files of the starter campaign that are missing;
the characters are only added to a campaign without a manifest. Tells whether the manifest was
written. -/
def Campaign.install (c : Campaign) : ExceptT LoadError m Bool := do
  Storage.stepwise (.create c.sheetsPath) (Storage.createDirectories c.sheetsPath)
  let isNew ← Storage.writeMissing c.manifestPath Starter.manifestText
  let _ ← Storage.writeMissing c.weaponsPath Starter.weaponsText
  if isNew then
    Starter.characterFiles.forM fun (name, text) => do
      let _ ← Storage.writeMissing (Path.join c.sheetsPath name) text
  return isNew

end GameTable
