import GameTable.Log.Basic
import GameTable.Text.Blank

/-!
# Logs in files

A file with one record on every line. Blank lines do not count, and carriage returns before the
end of a line are passed over. A record without the end of its line was not written completely,
even if it reads well. The log keeps count of the bytes and of the lines that it knows of, from
what it finds when it is opened.
-/

namespace GameTable

/-- A line of a file, and whether it has an end. -/
structure LogLine where
  text : List Char
  complete : Bool
deriving DecidableEq, Repr

/-- The lines of a file. What follows the last end of line is a line unless it is empty. -/
def logLines : List Char → List LogLine
  | [] => []
  | c :: rest =>
    if c = '\n' then ⟨[], true⟩ :: logLines rest
    else match logLines rest with
      | [] => [⟨[c], false⟩]
      | line :: more => { line with text := c :: line.text } :: more

namespace LogLine

/-- A record that is no event: its tag is unknown, if it has one, or it is malformed. -/
def faultOf (number : Nat) (record : String) : LogError :=
  match (Json.parse record).bind fun j => (j.normalized.member? "type").bind Json.str? with
  | some tag => if tag ∈ Event.tags then .malformed number else .unknownTag number tag
  | none => .malformed number

/-- The event on a line, if the line is not blank. -/
def read (number : Nat) (line : LogLine) : Except LogError (Option Event) :=
  if line.text.all Text.isBlank then .ok none
  else if !line.complete then .error (.truncated number)
  else
    let record := String.ofList (line.text.reverse.dropWhile (· = '\r')).reverse
    match Event.parse? record with
    | some e => .ok (some e)
    | none => .error (faultOf number record)

end LogLine

/-- The events on lines of which the first has the given number. -/
def readLogLines (number : Nat) : List LogLine → Except LogError (List Event)
  | [] => .ok []
  | line :: rest => do
    let event ← line.read number
    let events ← readLogLines (number + 1) rest
    return event.toList ++ events

/-- The events in the text of a file. -/
def readLog (content : String) : Except LogError (List Event) :=
  readLogLines 1 (logLines content.toList)

structure FileLog where
  content : ByteArray
  /-- Where the file ends, as far as the log knows. -/
  offset : Nat
  /-- How many events there are, as far as the log knows. -/
  count : Nat

namespace FileLog

/-- How many lines have an end. -/
def countLines (content : ByteArray) : Nat := content.toList.count 10

/-- Opens a file with the given content. -/
def ofContent (content : ByteArray) : FileLog := ⟨content, content.size, countLines content⟩

def ofText (text : String) : FileLog := ofContent text.toUTF8

/-- The line that stores an event. -/
def record (e : Event) : ByteArray := (e.line ++ "\n").toUTF8

/-- Writes an event at the end of the file. Its offset is where the log knows the end to be. -/
def append (l : FileLog) (e : Event) : Except LogError Nat × FileLog :=
  let record := record e
  (.ok l.offset, ⟨l.content ++ record, l.offset + record.size, l.count + 1⟩)

def load (l : FileLog) : Except LogError (List Event) :=
  match String.fromUTF8? l.content with
  | some content => readLog content
  | none => .error (.storage "stream did not contain valid UTF-8")

/-- Closes the log and opens the file again. -/
def reopen (l : FileLog) : FileLog := ofContent l.content

/-- The file with a text written behind its end by somebody else. -/
def tamper (l : FileLog) (tail : String) : FileLog :=
  { l with content := l.content ++ tail.toUTF8 }

instance : EventLog FileLog where
  append := append
  load := load
  size l := l.count
  flush l := (.ok (), l)
  isTorn _ := false

end FileLog

end GameTable
