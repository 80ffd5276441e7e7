import GameTable.Log.Basic

/-!
# Logs in memory

A list of events, which may be closed to writing. A `LimitedLog` is one with room for so many
events more; then appending fails as it does on a full disk.
-/

namespace GameTable

structure MemoryLog where
  events : List Event
  readOnly : Bool
deriving DecidableEq

namespace MemoryLog

def ofEvents (events : List Event) : MemoryLog := ⟨events, false⟩

/-- The offset of an event is its position. -/
def append (l : MemoryLog) (e : Event) : Except LogError Nat × MemoryLog :=
  if l.readOnly then (.error .readOnly, l)
  else (.ok l.events.length, { l with events := l.events ++ [e] })

instance : EventLog MemoryLog where
  append := append
  load l := .ok l.events
  size l := l.events.length
  flush l := (.ok (), l)
  isTorn _ := false

end MemoryLog

structure LimitedLog where
  log : MemoryLog
  room : Nat
deriving DecidableEq

namespace LimitedLog

def append (l : LimitedLog) (e : Event) : Except LogError Nat × LimitedLog :=
  match l.room with
  | 0 => (.error (.storage "no space left on device"), l)
  | n + 1 =>
    match l.log.append e with
    | (.ok offset, log) => (.ok offset, ⟨log, n⟩)
    | (.error err, log) => (.error err, { l with log })

instance : EventLog LimitedLog where
  append := append
  load l := .ok l.log.events
  size l := l.log.events.length
  flush l := (.ok (), l)
  isTorn _ := false

end LimitedLog

end GameTable
