import GameTable.Campaign.Install
import GameTable.Log.File
import GameTable.Session.Basic
import GameTable.Settings

/-!
# Opening a campaign

A campaign is opened by loading its rules, its characters and its weapons, and by starting a
session on the events in its log. The log is created if it is missing, and afterwards put back.
-/

namespace GameTable.Campaign

variable {m : Type → Type} [Monad m] [Storage m]

/-- An operation on the storage of a log. -/
def logwise {α : Type} (c : Campaign) (operation : m (Except String α)) :
    ExceptT LoadError m α := do
  match ← operation with
  | .ok a => return a
  | .error message => throw (.within (.openLog c.root) (.log (.storage message)))

def openLog (c : Campaign) : ExceptT LoadError m FileLog := do
  c.logwise (Storage.createDirectories c.root)
  if ← Storage.isFile c.logPath then return .ofContent (← c.logwise (Storage.read c.logPath))
  c.logwise (Storage.write c.logPath .empty)
  return .ofContent .empty

def saveLog (c : Campaign) (log : FileLog) : ExceptT LoadError m Unit :=
  Storage.stepwise (.write c.logPath) (Storage.write c.logPath log.content)

/-- Starts a session on what is stored of a campaign. -/
def start {ρ : Type} (c : Campaign) (settings : Settings) (roller : ρ) :
    ExceptT LoadError m (Session ρ FileLog) := do
  let manifest ← (LoadStep.loadManifest c.root).wrapM c.loadManifest
  let compendium ← c.loadCompendium
  let log ← c.openLog
  let evaluator := Evaluator.new roller settings.stepLimit
  match Session.start ⟨manifest, compendium, settings.transcribe⟩ Line.parse evaluator log with
  | .ok s => return s
  | .error e => throw (.within (.startSession c.root) (.session e))

/-- Starts a session on a campaign, which becomes the starter campaign if it is new. -/
def startOrInstall {ρ : Type} (c : Campaign) (settings : Settings) (roller : ρ) :
    ExceptT LoadError m (Session ρ FileLog) := do
  let _ ← c.install
  c.start settings roller

end GameTable.Campaign
