import GameTable.Proofs.Event.Depth
import GameTable.Proofs.Log.File

/-!
# Files that cannot be read

A file takes every event, the ones that it cannot give back included
(`FileLog.after?_isSome`, `FileLog.Holds.after?`). If the records on it nest
too deeply, loading stops at the first of them, and reports its line as
malformed whatever follows (`Holds.load_of_deep`). A file of shallow records is
read as its events, so depth is all that decides (`Holds.load_eq_ok_iff`).
-/

namespace GameTable

theorem LogLine.read_line_of_deep {e : Event} (h : e.toJson.Exact)
    (hdeep : 128 ≤ e.toJson.levels) (number : Nat) :
    LogLine.read number ⟨e.line.toList, true⟩ = .error (.malformed number) := by
  obtain ⟨hevent, hdocument⟩ := Event.parse?_line_of_deep h hdeep
  rw [read_record, hevent, faultOf, hdocument]
  rfl

/-- Reading stops at the first record that is too deep. -/
theorem readLog_logText_of_deep {before after : List Event} {e : Event}
    (hbefore : ∀ x ∈ before, x.Storable) (h : e.toJson.Exact) (hdeep : 128 ≤ e.toJson.levels) :
    readLog (.ofList (logText (before ++ e :: after)))
      = .error (.malformed (before.length + 1)) := by
  rw [readLog, String.toList_ofList, logText_append, readLogLines_logText hbefore, logText_cons,
    logLines_append e.newline_not_mem_line, readLogLines, LogLine.read_line_of_deep h hdeep,
    Nat.add_comm]
  rfl

namespace FileLog

variable {l m : FileLog} {events more : List Event}

/-! ## Writing -/

theorem after?_isSome (l : FileLog) (events : List Event) :
    (EventLog.after? l events).isSome = true := by
  induction events generalizing l with
  | nil => rfl
  | cons e rest ih => exact ih (l.append e).2

/-- A file never refuses an event. -/
theorem steady (l : FileLog) : EventLog.Steady l := l.after?_isSome

/-! ## Reading -/

theorem load_reopen (l : FileLog) : EventLog.load l.reopen = EventLog.load l := rfl

/-- Loading stops at the first record that is too deep. -/
theorem Holds.load_of_deep {before after : List Event} {e : Event}
    (h : l.Holds (before ++ e :: after)) (hbefore : ∀ x ∈ before, x.Storable)
    (he : e.toJson.Exact) (hdeep : 128 ≤ e.toJson.levels) :
    EventLog.load l = .error (.malformed (before.length + 1)) := by
  change l.load = _
  rw [FileLog.load, h.content, fromUTF8?_toUTF8]
  exact readLog_logText_of_deep hbefore he hdeep

/-- Unless all of the records are shallow there is a first that is not. -/
theorem exists_first_deep (h : ∀ e ∈ events, e.Regular)
    (hdeep : ¬ ∀ e ∈ events, e.toJson.levels < 128) :
    ∃ before e after, events = before ++ e :: after ∧ (∀ x ∈ before, x.Storable)
      ∧ e.toJson.Exact ∧ 128 ≤ e.toJson.levels := by
  induction events with
  | nil => exact absurd nofun hdeep
  | cons e rest ih =>
      rw [List.forall_mem_cons] at h hdeep
      by_cases he : e.toJson.levels < 128
      · obtain ⟨before, d, after, rfl, hbefore, hd⟩ := ih h.2 fun hrest => hdeep ⟨he, hrest⟩
        exact ⟨e :: before, d, after, rfl,
          List.forall_mem_cons.mpr ⟨h.1.storable he, hbefore⟩, hd⟩
      · exact ⟨[], e, rest, rfl, nofun, h.1.exact, Nat.le_of_not_lt he⟩

/-- Depth decides whether a file can be read. -/
theorem Holds.load_eq_ok_iff (h : l.Holds events) (hevents : ∀ e ∈ events, e.Regular)
    {stored : List Event} :
    EventLog.load l = .ok stored ↔ stored = events ∧ ∀ e ∈ events, e.toJson.levels < 128 := by
  by_cases hshallow : ∀ e ∈ events, e.toJson.levels < 128
  · have hload : EventLog.load l = .ok events :=
      h.load fun e he => (hevents e he).storable (hshallow e he)
    rw [hload, Except.ok.injEq, eq_comm]
    exact ⟨fun heq => ⟨heq, hshallow⟩, fun heq => heq.1⟩
  · obtain ⟨before, e, after, rfl, hbefore, he, hdeep⟩ := exists_first_deep hevents hshallow
    rw [h.load_of_deep hbefore he hdeep]
    exact ⟨nofun, fun heq => absurd heq.2 hshallow⟩

end FileLog

end GameTable
