import GameTable.Log.File
import GameTable.Log.Memory

/-!
# The logs in use

A session is open to any kind of log. A `Journal` is one of those that the engine brings along,
for programs that choose the kind while they run.
-/

namespace GameTable

inductive Journal where
  | memory (log : MemoryLog)
  | limited (log : LimitedLog)
  | file (log : FileLog)

namespace Journal

/-- Appends to the log inside, and puts what becomes of it in its place. -/
def append (j : Journal) (e : Event) : Except LogError Nat × Journal :=
  match j with
  | .memory log => (EventLog.append log e).map id .memory
  | .limited log => (EventLog.append log e).map id .limited
  | .file log => (EventLog.append log e).map id .file

def load : Journal → Except LogError (List Event)
  | .memory log => EventLog.load log
  | .limited log => EventLog.load log
  | .file log => EventLog.load log

def size : Journal → Nat
  | .memory log => EventLog.size log
  | .limited log => EventLog.size log
  | .file log => EventLog.size log

def flush : Journal → Except LogError Unit × Journal
  | .memory log => (EventLog.flush log).map id .memory
  | .limited log => (EventLog.flush log).map id .limited
  | .file log => (EventLog.flush log).map id .file

def isTorn : Journal → Bool
  | .memory log => EventLog.isTorn log
  | .limited log => EventLog.isTorn log
  | .file log => EventLog.isTorn log

instance : EventLog Journal := ⟨append, load, size, flush, isTorn⟩

/-- Closes a journal to writing, or opens it again, if it is kept in memory. -/
def setReadOnly (readOnly : Bool) : Journal → Journal
  | .memory log => .memory { log with readOnly }
  | .limited ⟨log, room⟩ => .limited ⟨{ log with readOnly }, room⟩
  | .file log => .file log

/-- The events of a journal that is kept in memory. -/
def events? : Journal → Option (List Event)
  | .memory log => some log.events
  | .limited log => some log.log.events
  | .file _ => none

/-- Closes a journal and opens it again. What is in memory stays as it is; a limit counts from
`room` again. -/
def reopen (room : Nat) : Journal → Journal
  | .memory log => .memory log
  | .limited log => .limited { log with room }
  | .file log => .file log.reopen

end Journal

end GameTable
