import GameTable.Manifest.Lint
import GameTable.Session.Error

/-!
# What can go wrong when a campaign is opened

The cause of a failure stands inside the steps that it made fail. The trace of a failure lists the
messages from the outermost step to the cause, and where the cause has causes in turn, theirs.
-/

namespace GameTable

/-- A step of opening a campaign, with what it was about. -/
inductive LoadStep where
  | parseManifest
  | parseCharacters
  | parseWeapons
  | checkSpent (id : String)
  | manifestFile (path : String)
  | characterFile (path : String)
  | weaponFile (path : String)
  | read (path : String)
  | list (path : String)
  | create (path : String)
  | write (path : String)
  | loadManifest (root : String)
  | openLog (root : String)
  | startSession (root : String)
deriving DecidableEq, Repr

def LoadStep.message : LoadStep → String
  | .parseManifest => "failed to parse manifest YAML"
  | .parseCharacters => "failed to parse character YAML"
  | .parseWeapons => "failed to parse weapon YAML"
  | .checkSpent id => "invalid spent budget on '" ++ id ++ "'"
  | .manifestFile path => "invalid manifest " ++ path
  | .characterFile path => "invalid character file " ++ path
  | .weaponFile path => "invalid weapon table " ++ path
  | .read path => "failed to read " ++ path
  | .list path => "failed to list " ++ path
  | .create path => "failed to create " ++ path
  | .write path => "failed to write " ++ path
  | .loadManifest root => "failed to load manifest for campaign " ++ root
  | .openLog root => "failed to open event log for campaign " ++ root
  | .startSession root => "failed to start session for campaign " ++ root

inductive LoadError where
  /-- The storage fails, with its own message. -/
  | storage (message : String)
  /-- A file is not of the form it should have. -/
  | malformed
  | manifest (error : ManifestError)
  | spent (error : ApplyError)
  | nameless (path : String)
  | duplicate (path id : String)
  | log (error : LogError)
  | session (error : SessionError)
  /-- A step that failed, and why. -/
  | within (step : LoadStep) (cause : LoadError)
deriving DecidableEq

/-- The message of a log error, followed by that of its cause. -/
def LogError.trace (e : LogError) : List String :=
  match e with
  | .storage message => [e.message, message]
  | _ => [e.message]

/-- The message of a session error, followed by those of its causes. -/
def SessionError.trace (e : SessionError) : List String :=
  match e with
  | .storage cause => e.message :: cause.trace
  | .replay cause => [e.message, cause.message, cause.cause.message]
  | .invalidEvent _ _ cause => [e.message, cause.message]
  | _ => [e.message]

def LoadError.trace : LoadError → List String
  | .storage message => [message]
  | .malformed => ["unexpected content"]
  | .manifest e => [e.message, e.cause.message]
  | .spent e => [e.message]
  | .nameless path => [path ++ ": entity without an id"]
  | .duplicate path id => [path ++ ": duplicate entity id '" ++ id ++ "'"]
  | .log e => e.trace
  | .session e => e.trace
  | .within step cause => step.message :: cause.trace

namespace LoadStep

variable {α : Type}

/-- A result of a step, with the step added to a failure. -/
def wrap (step : LoadStep) : Except LoadError α → Except LoadError α
  | .ok a => .ok a
  | .error e => .error (.within step e)

/-- A step in a monad, added to a failure. -/
def wrapM {m : Type → Type} [Monad m] (step : LoadStep) (x : ExceptT LoadError m α) :
    ExceptT LoadError m α :=
  ExceptT.mk (do return step.wrap (← x.run))

end LoadStep

end GameTable
