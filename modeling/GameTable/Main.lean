import GameTable.Campaign.Open
import GameTable.Session.Terminal

/-!
# Command line

Opens the campaign that the environment names and talks to the terminal until the input ends. What
a line adds to the log is in the file before the answer to the line is written.
-/

namespace GameTable.Console

/-- A path that the system understands, seen from the directory the program runs in. -/
def locate (path : String) := do return (← IO.currentDir) / path

/-- The result of an operation, or the message of the system. -/
def guarded {α : Type} (operation : IO α) : IO (Except String α) := do
  try return .ok (← operation) catch e => return .error (toString e)

instance : Storage IO where
  isFile path := do
    let p ← locate path
    return (← p.pathExists) && !(← p.isDir)
  isDirectory path := do (← locate path).isDir
  read path := guarded do IO.FS.readBinFile (← locate path)
  write path content := guarded do IO.FS.writeBinFile (← locate path) content
  createDirectories path := guarded do IO.FS.createDirAll (← locate path)
  names path := guarded do return (← (← locate path).readDir).toList.map (·.fileName)

/-- The usual place for what programs keep: a directory named by one variable, or one inside the
home directory. -/
def usualDirectory (named inHome : String) : IO String := do
  let own := ((← IO.getEnv named).filter (·.startsWith "/")).map (Path.join · "tabletop")
  let shared := (← IO.getEnv "HOME").map fun home => Path.join (Path.join home inHome) "tabletop"
  return (own.or shared).getD "."

/-- The variables of the settings that are set. -/
def settingVariables : IO (List (String × String)) := do
  let names := ["WORLDS_DIR", "WORLD", "CAMPAIGN", "LOG_DIR", "DICE_SEED", "STEP_LIMIT",
    "TRANSCRIBE_ROLLS", "QUEUE_DEPTH"].map ("TABLETOP_" ++ ·)
  names.filterMapM fun name => return (← IO.getEnv name).map fun value => (name, value)

/-- Dice from the seed in the settings, or from one that is different every time. -/
def dice (settings : Settings) : IO DiceCup := do
  match settings.diceSeed with
  | some seed => return .ofSeed (.ofNat seed)
  | none =>
    let bytes ← IO.getRandomBytes 8
    return .ofSeed (.ofNat (bytes.toList.foldl (fun n b => 256 * n + b.toNat) 0))

/-- Appends to the file of a log what has been added since it had a size. -/
def appendSince (c : Campaign) (size : Nat) (log : FileLog) : IO Unit := do
  if size < log.content.size then
    let handle ← IO.FS.Handle.mk (← locate c.logPath) .append
    handle.write (log.content.extract size log.content.size)
    handle.flush

/-- Handles the lines of the input one after the other. The result is the error that ended the
conversation, if one did. -/
partial def converse (c : Campaign) (w : Worker DiceCup FileLog) : IO (Option SessionError) := do
  let line ← (← IO.getStdin).getLine
  if line.isEmpty then return none
  let size := w.session.log.content.size
  let (text, flow, w) := Terminal.handle w line
  appendSince c size w.session.log
  IO.print text
  (← IO.getStdout).flush
  match flow with
  | .proceed => converse c w
  | .quit => return none
  | .fail e => return some e

/-- Writes an error and what caused it. -/
def report (trace : List String) : IO UInt32 := do
  IO.eprintln ("Error: " ++ "\n  caused by: ".intercalate trace)
  return 1

def greeting (settings : Settings) (events : Nat) : String :=
  settings.world ++ "/" ++ settings.campaign ++ ": " ++ toString events
    ++ " events replayed. Type 'help' for commands, :quit to leave."

def run : IO UInt32 := do
  let found ← settingVariables
  let settings := Settings.ofVariables fun name => List.lookup name found
  let worlds := Path.join (← usualDirectory "XDG_DATA_HOME" ".local/share") "worlds"
  let c := settings.campaignIn (settings.worlds.getD worlds)
  match ← (c.startOrInstall settings (← dice settings)).run with
  | .error e => report e.trace
  | .ok session =>
    IO.println (greeting settings session.eventCount)
    match ← converse c (.spawn session settings.queueDepth) with
    | none => return 0
    | some e => report e.trace

end GameTable.Console

def main : IO UInt32 := GameTable.Console.run
