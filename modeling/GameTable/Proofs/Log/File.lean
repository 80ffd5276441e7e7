import GameTable.Log.Memory
import GameTable.Proofs.Log.Bytes
import GameTable.Proofs.Log.Lawful
import GameTable.Proofs.Log.Lines

/-!
# Files serve like lists

A log in a file answers as one in memory does, however often it is closed and
opened again in between (`Holds.answers_agree`). The file holds the lines of the
events that were appended and nothing else (`FileLog.Holds`); opening it again
finds the same number of bytes, and as many ends of lines as there are events.

The offsets that appending answers cut the file into its records again
(`performAll_offsets`, `pieces_joined`).
-/

namespace GameTable

/-! ## Calls -/

/-- A call of a log. -/
inductive LogCall where
  | append (e : Event)
  | load
  | size
  | flush
  /-- Closes the log and opens it again. -/
  | reopen

/-- What a call answers. -/
inductive LogAnswer where
  | appended (offset : Except LogError Nat)
  | loaded (events : Except LogError (List Event))
  | counted (events : Nat)
  | flushed (outcome : Except LogError Unit)
  | reopened

namespace LogAnswer

/-- The offset of an event that is appended. -/
def offset? : LogAnswer → Option Nat
  | .appended (.ok offset) => some offset
  | _ => none

/-- The answer, without the offset of an event that is appended. -/
def withoutOffset : LogAnswer → LogAnswer
  | .appended (.ok _) => .appended (.ok 0)
  | answer => answer

end LogAnswer

namespace LogCall

/-- The event that a call appends. -/
def event? : LogCall → Option Event
  | .append e => some e
  | _ => none

/-- The events that calls append. -/
def events (calls : List LogCall) : List Event := calls.filterMap event?

theorem events_append_cons (e : Event) (rest : List LogCall) :
    events (.append e :: rest) = e :: events rest := rfl

variable {lg : Type} [EventLog lg]

/-- What a call answers, with the log as it is afterwards. -/
def perform (reopen : lg → lg) (l : lg) : LogCall → LogAnswer × lg
  | .append e => (EventLog.append l e).map .appended id
  | .load => (.loaded (EventLog.load l), l)
  | .size => (.counted (EventLog.size l), l)
  | .flush => (EventLog.flush l).map .flushed id
  | .reopen => (.reopened, reopen l)

/-- What calls answer one after the other, and the log that they leave. -/
def performAll (reopen : lg → lg) (l : lg) : List LogCall → List LogAnswer × lg
  | [] => ([], l)
  | call :: rest =>
    let (answer, m) := call.perform reopen l
    let (answers, n) := performAll reopen m rest
    (answer :: answers, n)

end LogCall

namespace FileLog

/-! ## What a file holds -/

/-- The file holds the lines of the events and nothing else, and the log knows
where it ends and how many there are. -/
structure Holds (l : FileLog) (events : List Event) : Prop where
  content : l.content = (String.ofList (logText events)).toUTF8
  offset : l.offset = l.content.size
  count : l.count = events.length

variable {l m : FileLog} {events : List Event}

@[simp] theorem append_content (l : FileLog) (e : Event) :
    (l.append e).2.content = l.content ++ record e := rfl

@[simp] theorem append_offset (l : FileLog) (e : Event) :
    (l.append e).2.offset = l.offset + (record e).size := rfl

theorem load_ofText (text : String) : (ofText text).load = readLog text := by
  rw [load, ofText, ofContent, fromUTF8?_toUTF8]

theorem count_ofText (text : String) : (ofText text).count = text.toList.count '\n' :=
  countLines_toUTF8 text

theorem ofList_logText_singleton (e : Event) : String.ofList (logText [e]) = e.line ++ "\n" := by
  rw [← String.toList_inj, String.toList_ofList, String.toList_append, logText_singleton]
  rfl

theorem count_logText (events : List Event) : (logText events).count '\n' = events.length := by
  induction events with
  | nil => rfl
  | cons e rest ih =>
      rw [logText_cons, List.count_append, List.count_cons_self, ih,
        List.count_eq_zero.mpr e.newline_not_mem_line, List.length_cons, Nat.zero_add]

/-- Appending leaves the file as if it had just been opened with the record
behind its text. -/
theorem append_ofText (text : String) (e : Event) :
    ((ofText text).append e).2 = ofText (text ++ .ofList (logText [e])) := by
  have hcontent : (ofText text).content ++ record e
      = (ofText (text ++ .ofList (logText [e]))).content := by
    rw [record, ← ofList_logText_singleton]
    exact String.toByteArray_append.symm
  have hoffset : (ofText text).offset + (record e).size
      = (ofText (text ++ .ofList (logText [e]))).offset :=
    ByteArray.size_append.symm.trans (congrArg ByteArray.size hcontent)
  have hcount : (ofText text).count + 1 = (ofText (text ++ .ofList (logText [e]))).count := by
    rw [count_ofText, count_ofText, String.toList_append, String.toList_ofList, List.count_append,
      count_logText, List.length_singleton]
  exact (FileLog.mk.injEq ..).mpr ⟨hcontent, hoffset, hcount⟩

/-- Appending leaves the file as if it had just been opened with the records
behind its text. -/
theorem after?_ofText (text : String) (more : List Event) :
    EventLog.after? (ofText text) more = some (ofText (text ++ .ofList (logText more))) := by
  induction more generalizing text with
  | nil => exact congrArg (some ∘ ofText) String.append_empty.symm
  | cons e rest ih =>
      change EventLog.after? ((ofText text).append e).2 rest = _
      have htext : logText (e :: rest) = logText [e] ++ logText rest := logText_append [e] rest
      rw [append_ofText, ih, htext, String.ofList_append, String.append_assoc]

/-- A file that holds events is one that is opened with their lines. -/
theorem holds_iff : l.Holds events ↔ l = ofText (.ofList (logText events)) := by
  have hcount : (ofText (.ofList (logText events))).count = events.length := by
    rw [count_ofText, String.toList_ofList, count_logText]
  constructor
  · intro h
    obtain ⟨content, offset, count⟩ := l
    refine (FileLog.mk.injEq ..).mpr ⟨h.content, ?_, h.count.trans hcount.symm⟩
    exact h.offset.trans (congrArg ByteArray.size h.content)
  · rintro rfl
    exact ⟨rfl, rfl, hcount⟩

theorem holds_empty : (ofText "").Holds [] := holds_iff.mpr rfl

theorem Holds.append (h : l.Holds events) (e : Event) : (l.append e).2.Holds (events ++ [e]) := by
  rw [holds_iff] at h ⊢
  rw [h, append_ofText, ← String.ofList_append, ← logText_append]

/-- A file holds what it has taken. -/
theorem Holds.after? (h : l.Holds events) {more : List Event}
    (hm : EventLog.after? l more = some m) : m.Holds (events ++ more) := by
  rw [holds_iff] at h ⊢
  rw [h, after?_ofText, ← String.ofList_append, ← logText_append] at hm
  exact (Option.some.inj hm).symm

theorem Holds.load (h : l.Holds events) (hevents : ∀ e ∈ events, e.Storable) :
    l.load = .ok events := by
  rw [holds_iff.mp h, load_ofText]
  exact readLog_logText hevents

/-- Opening a file finds what was known of it when it was closed. -/
theorem Holds.reopen (h : l.Holds events) : l.reopen.Holds events := by
  rw [holds_iff] at h ⊢
  rw [h]
  rfl

/-! ## Calls -/

section Calls

variable {calls : List LogCall}

/-- What a file holds after calls. -/
theorem Holds.performAll (h : l.Holds events) :
    (LogCall.performAll FileLog.reopen l calls).2.Holds
      (events ++ LogCall.events calls) := by
  induction calls generalizing l events with
  | nil => exact (List.append_nil events).symm ▸ h
  | cons call rest ih =>
      cases call with
      | append e =>
          rw [LogCall.events_append_cons, List.append_cons]
          exact ih (h.append e)
      | load => exact ih h
      | size => exact ih h
      | flush => exact ih h
      | reopen => exact ih h.reopen

theorem Holds.answers_agree (h : l.Holds events)
    (hevents : ∀ e ∈ events ++ LogCall.events calls, e.Storable) :
    (LogCall.performAll FileLog.reopen l calls).1.map LogAnswer.withoutOffset
      = (LogCall.performAll id (MemoryLog.ofEvents events) calls).1.map
          LogAnswer.withoutOffset := by
  induction calls generalizing l events with
  | nil => rfl
  | cons call rest ih =>
      have hhere : ∀ e ∈ events, e.Storable := fun e he => hevents e (List.mem_append_left _ he)
      cases call with
      | append e =>
          rw [LogCall.events_append_cons, List.append_cons] at hevents
          exact congrArg (List.cons _) (ih (h.append e) hevents)
      | load =>
          exact congrArg₂ List.cons (congrArg LogAnswer.loaded (h.load hhere)) (ih h hevents)
      | size => exact congrArg₂ List.cons (congrArg LogAnswer.counted h.count) (ih h hevents)
      | flush => exact congrArg (List.cons _) (ih h hevents)
      | reopen => exact congrArg (List.cons _) (ih h.reopen hevents)

end Calls

/-! ## Offsets -/

/-- The pieces of a file that start at the offsets. The last goes to the end. -/
def pieces (content : ByteArray) : List Nat → List ByteArray
  | [] => []
  | [start] => [content.extract start content.size]
  | start :: stop :: rest => content.extract start stop :: pieces content (stop :: rest)

/-- Where pieces start that stand one behind the other. -/
def startsFrom (start : Nat) : List ByteArray → List Nat
  | [] => []
  | piece :: rest => start :: startsFrom (start + piece.size) rest

/-- Pieces one behind the other. -/
def joined (before : ByteArray) : List ByteArray → ByteArray
  | [] => before
  | piece :: rest => joined (before ++ piece) rest

theorem exists_joined (before : ByteArray) (ps : List ByteArray) :
    ∃ more, joined before ps = before ++ more := by
  induction ps generalizing before with
  | nil => exact ⟨.empty, ByteArray.append_empty.symm⟩
  | cons piece rest ih =>
      obtain ⟨more, heq⟩ := ih (before ++ piece)
      exact ⟨piece ++ more, heq.trans ByteArray.append_assoc⟩

theorem extract_joined (before piece : ByteArray) (rest : List ByteArray) :
    (joined (before ++ piece) rest).extract before.size (before.size + piece.size) = piece := by
  obtain ⟨more, heq⟩ := exists_joined (before ++ piece) rest
  have hslice := ByteArray.extract_append_size_add (a := before) (b := piece ++ more) (i := 0)
    (j := piece.size)
  rw [Nat.add_zero] at hslice
  rw [heq, ByteArray.append_assoc, hslice, ByteArray.extract_append_eq_left rfl]

theorem pieces_joined (before : ByteArray) (ps : List ByteArray) :
    pieces (joined before ps) (startsFrom before.size ps) = ps := by
  induction ps generalizing before with
  | nil => rfl
  | cons piece rest ih =>
      have hrest := ih (before ++ piece)
      have hpiece := extract_joined before piece rest
      rw [ByteArray.size_append] at hrest
      cases rest with
      | nil =>
          rw [joined, joined, startsFrom, startsFrom, pieces, ByteArray.size_append]
          exact congrArg (· :: []) hpiece
      | cons next more =>
          rw [joined, startsFrom, startsFrom, pieces, hpiece, ← startsFrom, hrest]

/-- Appending puts the records one behind the other and answers where they
start. -/
theorem performAll_offsets (h : l.offset = l.content.size) (calls : List LogCall) :
    (LogCall.performAll reopen l calls).2.content
        = joined l.content ((LogCall.events calls).map record)
      ∧ (LogCall.performAll reopen l calls).1.filterMap LogAnswer.offset?
        = startsFrom l.content.size ((LogCall.events calls).map record) := by
  induction calls generalizing l with
  | nil => exact ⟨rfl, rfl⟩
  | cons call rest ih =>
      cases call with
      | append e =>
          have hend : (l.append e).2.offset = (l.append e).2.content.size := by
            rw [append_offset, append_content, h, ByteArray.size_append]
          obtain ⟨hcontent, hoffsets⟩ := ih hend
          rw [append_content] at hcontent hoffsets
          rw [LogCall.events_append_cons, List.map_cons, joined, startsFrom, ← h]
          refine ⟨hcontent, ?_⟩
          rw [ByteArray.size_append, ← h] at hoffsets
          exact congrArg (List.cons l.offset) hoffsets
      | load => exact ih h
      | size => exact ih h
      | flush => exact ih h
      | reopen => exact ih rfl

theorem parse?_record {e : Event} (h : e.Storable) :
    (String.fromUTF8? (record e)).bind Event.parse? = some e := by
  rw [record, fromUTF8?_toUTF8, Option.bind_some]
  exact Event.parse?_append_blanks h (by decide)

/-- What stands from one offset to the next is read as the event. -/
theorem read_pieces {calls : List LogCall} (h : l.offset = l.content.size)
    (hevents : ∀ e ∈ LogCall.events calls, e.Storable) :
    (pieces (LogCall.performAll reopen l calls).2.content
        ((LogCall.performAll reopen l calls).1.filterMap LogAnswer.offset?)).map
        (fun piece => (String.fromUTF8? piece).bind Event.parse?)
      = (LogCall.events calls).map some := by
  obtain ⟨hcontent, hoffsets⟩ := performAll_offsets h calls
  rw [hcontent, hoffsets, pieces_joined, List.map_map]
  refine List.map_congr_left fun e he => ?_
  rw [Function.comp_apply, parse?_record (hevents e he)]

/-- From an empty file on, whatever is called and however often the log is
closed and opened again: everything but the offsets is answered as a log in
memory answers it. The offset of an event is the length of the file before it;
there the file grows by one line, which has an end and no other end of a line;
and from one offset to the next, or to the end, stands what is read as the
event. -/
theorem serves_like_memory (calls : List LogCall)
    (hevents : ∀ e ∈ LogCall.events calls, e.Storable) :
    let run := LogCall.performAll FileLog.reopen (ofText "")
    (run calls).1.map LogAnswer.withoutOffset
        = (LogCall.performAll id (MemoryLog.ofEvents []) calls).1.map LogAnswer.withoutOffset
      ∧ (∀ before e after, calls = before ++ .append e :: after →
          let file := (run before).2
          (EventLog.append file e).1 = .ok file.content.size
            ∧ ∃ line : String, '\n' ∉ line.toList
              ∧ (EventLog.append file e).2.content = file.content ++ (line ++ "\n").toUTF8)
      ∧ (pieces (run calls).2.content ((run calls).1.filterMap LogAnswer.offset?)).map
          (fun piece => (String.fromUTF8? piece).bind Event.parse?)
        = (LogCall.events calls).map some := by
  intro run
  refine ⟨holds_empty.answers_agree hevents, ?_, ?_⟩
  · rintro before e after rfl
    have hfile : ((run before).2).Holds (LogCall.events before) := holds_empty.performAll
    refine ⟨congrArg Except.ok hfile.offset, e.line, e.newline_not_mem_line, ?_⟩
    exact append_content _ e
  · exact read_pieces holds_empty.offset hevents

/-- A text of two lines and a float, with the file opened again in between. -/
theorem serves_line_breaks_like_memory :
    let note := Event.hinted "one\r\ntwo"
    let odds := Event.metadataChanged "odds"
      (.arr [.float ⟨0.1, by decide +kernel⟩, .null, .int (-7)])
    let served := LogCall.performAll FileLog.reopen (ofText "")
      [.append note, .reopen, .append odds, .flush, .size, .load]
    served.1.map LogAnswer.withoutOffset
        = [.appended (.ok 0), .reopened, .appended (.ok 0), .flushed (.ok ()), .counted 2,
          .loaded (.ok [note, odds])]
      ∧ (pieces served.2.content (served.1.filterMap LogAnswer.offset?)).map
          (fun piece => (String.fromUTF8? piece).bind Event.parse?) = [some note, some odds] := by
  intro note odds served
  have hnote : note.Storable :=
    ⟨trivial, nofun, ⟨trivial, ⟨trivial, trivial⟩, trivial⟩, by decide +kernel⟩
  have hodds : odds.Storable := by
    refine ⟨trivial, ?_, ⟨trivial, ⟨trivial, ⟨?_, trivial, ?_, trivial⟩, trivial⟩, trivial⟩,
      by decide +kernel⟩
    · rintro j ⟨⟩
      exact ⟨trivial, trivial, trivial, trivial⟩
    · have hread : FiniteFloat.ReadsBack ⟨0.1, by decide +kernel⟩ := by decide +kernel
      exact hread
    · exact ⟨by decide, by decide⟩
  have hserves := serves_like_memory [.append note, .reopen, .append odds, .flush, .size, .load]
    (by
      rintro e (_ | ⟨_, (_ | ⟨_, ⟨⟩⟩)⟩)
      · exact hnote
      · exact hodds)
  exact ⟨hserves.1, hserves.2.2⟩

end FileLog

end GameTable
