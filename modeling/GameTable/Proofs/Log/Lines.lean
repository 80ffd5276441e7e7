import GameTable.Log.File
import GameTable.Proofs.Event.Record

/-!
# Lines of a log

The text that a file of events holds (`logText`) is taken apart into the lines
that were written, because the line of an event holds no end of a line itself;
and each line is read as its event (`readLogLines_logText`).

A text that breaks off somewhere is a number of whole lines and a part of the
next (`exists_of_prefix_logText`). The part is never blank, since a record
begins with a brace, and has no end, since only the end of the whole line is
one; so it is reported, even if nothing but the end is missing.
-/

namespace GameTable

/-- The text that stores events: the line of each, with an end. -/
def logText (events : List Event) : List Char := events.flatMap fun e => e.line.toList ++ ['\n']

theorem logText_cons (e : Event) (events : List Event) :
    logText (e :: events) = e.line.toList ++ '\n' :: logText events := by
  rw [logText, List.flatMap_cons, List.append_assoc]
  rfl

theorem logText_singleton (e : Event) : logText [e] = e.line.toList ++ ['\n'] :=
  List.flatMap_singleton _ e

theorem logText_append (xs ys : List Event) : logText (xs ++ ys) = logText xs ++ logText ys :=
  List.flatMap_append

/-! ## Taking lines apart -/

theorem logLines_append {cs : List Char} (h : '\n' ∉ cs) (rest : List Char) :
    logLines (cs ++ '\n' :: rest) = ⟨cs, true⟩ :: logLines rest := by
  induction cs with
  | nil => rw [List.nil_append, logLines, if_pos rfl]
  | cons c cs ih =>
      obtain ⟨hc, hcs⟩ := List.ne_and_not_mem_of_not_mem_cons h
      rw [List.cons_append, logLines, if_neg hc.symm, ih hcs]

/-- Characters without an end of a line are one line that is not complete. -/
theorem logLines_of_not_mem {cs : List Char} (h : '\n' ∉ cs) (hne : cs ≠ []) :
    logLines cs = [⟨cs, false⟩] := by
  induction cs with
  | nil => exact absurd rfl hne
  | cons c cs ih =>
      obtain ⟨hc, hcs⟩ := List.ne_and_not_mem_of_not_mem_cons h
      rw [logLines, if_neg hc.symm]
      cases cs with
      | nil => rfl
      | cons d rest => rw [ih hcs (List.cons_ne_nil d rest)]

/-! ## Reading lines -/

namespace LogLine

/-- No part of a record is blank. -/
theorem not_all_isBlank {e : Event} {cs : List Char} (hne : cs ≠ [])
    (h : cs <+: e.line.toList) : cs.all Text.isBlank = false := by
  obtain ⟨more, hline⟩ := e.exists_toList_line
  cases cs with
  | nil => exact absurd rfl hne
  | cons c rest =>
      rw [hline, List.cons_append, List.cons_prefix_cons] at h
      rw [List.all_cons, h.1]
      rfl

/-- The line of an event is read from its first character to its last, with
what stands in front of it. -/
theorem read_behind (e : Event) (lead : List Char) (number : Nat) :
    LogLine.read number ⟨lead ++ e.line.toList, true⟩
      = match Event.parse? (.ofList (lead ++ e.line.toList)) with
        | some read => .ok (some read)
        | none => .error (faultOf number (.ofList (lead ++ e.line.toList))) := by
  obtain ⟨cs, hline⟩ := e.exists_toList_line
  have hne : e.line.toList ≠ [] := by simp [hline]
  have hblank : (lead ++ e.line.toList).all Text.isBlank = false := by
    rw [List.all_append, not_all_isBlank hne (List.prefix_refl _), Bool.and_false]
  have hrecord : ((lead ++ e.line.toList).reverse.dropWhile (· = '\r')).reverse
      = lead ++ e.line.toList := by
    simp [hline]
  rw [LogLine.read]
  simp only [hblank, hrecord]
  cases Event.parse? (.ofList (lead ++ e.line.toList)) <;> rfl

theorem read_record (e : Event) (number : Nat) :
    LogLine.read number ⟨e.line.toList, true⟩
      = match Event.parse? e.line with
        | some read => .ok (some read)
        | none => .error (faultOf number e.line) := by
  have hread := read_behind e [] number
  rwa [List.nil_append, String.ofList_toList] at hread

theorem read_line {e : Event} (h : e.Storable) (number : Nat) :
    LogLine.read number ⟨e.line.toList, true⟩ = .ok (some e) := by
  rw [read_record, Event.parse?_line h]

theorem read_part {e : Event} {cs : List Char} (hne : cs ≠ []) (h : cs <+: e.line.toList)
    (number : Nat) : LogLine.read number ⟨cs, false⟩ = .error (.truncated number) := by
  rw [LogLine.read]
  simp [not_all_isBlank hne h]

end LogLine

/-- Whole lines are read as their events, and then the rest is read. -/
theorem readLogLines_logText {events : List Event} (h : ∀ e ∈ events, e.Storable) (number : Nat)
    (rest : List Char) :
    readLogLines number (logLines (logText events ++ rest))
      = (readLogLines (number + events.length) (logLines rest)).map (events ++ ·) := by
  induction events generalizing number with
  | nil =>
      change readLogLines number (logLines rest) = _
      cases readLogLines number (logLines rest) <;> rfl
  | cons e events ih =>
      rw [List.forall_mem_cons] at h
      rw [logText_cons, List.append_assoc, List.cons_append,
        logLines_append (Event.newline_not_mem_line e), readLogLines, LogLine.read_line h.1,
        ih h.2, List.length_cons, Nat.add_assoc, Nat.add_comm 1]
      cases readLogLines (number + (events.length + 1)) (logLines rest) <;> rfl

theorem readLog_logText {events : List Event} (h : ∀ e ∈ events, e.Storable) :
    readLog (.ofList (logText events)) = .ok events := by
  have hread := readLogLines_logText h 1 []
  rw [List.append_nil] at hread
  rw [readLog, String.toList_ofList, hread]
  exact congrArg Except.ok (List.append_nil events)

/-- A part of a line behind whole lines is reported with its number. -/
theorem readLog_part {events : List Event} (h : ∀ e ∈ events, e.Storable) {e : Event}
    {part : List Char} (hne : part ≠ []) (hpart : part <+: e.line.toList) :
    readLog (.ofList (logText events ++ part)) = .error (.truncated (events.length + 1)) := by
  have hend : '\n' ∉ part := fun hmem => e.newline_not_mem_line (hpart.mem hmem)
  rw [readLog, String.toList_ofList, readLogLines_logText h, logLines_of_not_mem hend hne,
    readLogLines, LogLine.read_part hne hpart, Nat.add_comm]
  rfl

/-! ## Texts that break off -/

/-- A text that breaks off is whole lines and a part of the next. -/
theorem exists_of_prefix_logText {events : List Event} {cs : List Char}
    (h : cs <+: logText events) :
    ∃ k ≤ events.length, ∃ part, cs = logText (events.take k) ++ part
      ∧ (part = [] ∨ ∃ e, events[k]? = some e ∧ part ≠ [] ∧ part <+: e.line.toList) := by
  induction events generalizing cs with
  | nil => exact ⟨0, Nat.le_refl 0, [], List.prefix_nil.mp h, .inl rfl⟩
  | cons e events ih =>
      have hline : e.line.toList ++ ['\n'] <+: logText (e :: events) := ⟨logText events, rfl⟩
      rcases List.prefix_or_prefix_of_prefix h hline with hpart | ⟨behind, rfl⟩
      · rcases List.prefix_concat_iff.mp hpart with heq | hpart
        · exact ⟨1, Nat.le_add_left .., [], by simp [logText_singleton, heq], .inl rfl⟩
        · by_cases hne : cs = []
          · exact ⟨0, Nat.zero_le _, [], hne, .inl rfl⟩
          · exact ⟨0, Nat.zero_le _, cs, rfl, .inr ⟨e, rfl, hne, hpart⟩⟩
      · obtain ⟨k, hk, part, rfl, hpart⟩ := ih ((List.prefix_append_right_inj _).mp h)
        refine ⟨k + 1, Nat.succ_le_succ hk, part, ?_, hpart⟩
        rw [List.take_succ_cons, logText_cons]
        simp

end GameTable
