import GameTable.Proofs.Log.File

/-!
# What the length of a file counts

A file that is opened counts the ends of its lines, and reading it passes over
the lines that are blank. So the length of a file that can be read is the number
of its events and of its gaps, the blank lines that have an end
(`FileLog.size_counts_gaps`). It is the number of events just if there is no
gap, as in every file that this program has begun. Appending makes no gap and
closes none, whatever the file ends in.

What the file ends in decides whether it can still be read afterwards. The next
record is written on the last line if that has no end; spaces in front of a
record do not matter, but other blanks do, although a line of them is passed
over as long as nothing else is on it.
-/

namespace GameTable

namespace LogLine

/-- A blank line that has an end. -/
def isGap (line : LogLine) : Bool := line.complete && line.text.all Text.isBlank

/-- A line that can be read has an event, or is a gap, or has no end. -/
theorem countP_complete_of_read {line : LogLine} {number : Nat} {event : Option Event}
    (h : line.read number = .ok event) :
    [line].countP (·.complete) = event.toList.length + [line].countP (·.isGap) := by
  rw [read] at h
  split at h
  · rename_i hblank
    obtain rfl := Except.ok.inj h
    simp [List.countP_cons, isGap, hblank]
  · rename_i hblank
    split at h
    · cases h
    · rename_i hcomplete
      dsimp only at h
      split at h
      · obtain rfl := Except.ok.inj h
        simp only [Bool.not_eq_true, Bool.not_eq_false'] at hblank hcomplete
        simp [isGap, hblank, hcomplete]
      · cases h

end LogLine

/-! ## Lines -/

/-- How many gaps a text has. -/
def logGaps (cs : List Char) : Nat := (logLines cs).countP (·.isGap)

theorem countP_complete_of_readLogLines {lines : List LogLine} {number : Nat}
    {events : List Event} (h : readLogLines number lines = .ok events) :
    lines.countP (·.complete) = events.length + lines.countP (·.isGap) := by
  induction lines generalizing number events with
  | nil =>
      obtain rfl := Except.ok.inj h
      rfl
  | cons line rest ih =>
      rw [readLogLines] at h
      obtain ⟨event, hline, h⟩ := bind_eq_ok_iff.mp h
      obtain ⟨more, hrest, h⟩ := bind_eq_ok_iff.mp h
      obtain rfl := Except.ok.inj h
      have hcount := LogLine.countP_complete_of_read hline
      rw [← List.singleton_append, List.countP_append, List.countP_append, hcount, ih hrest,
        List.length_append]
      omega

/-- Every end of a line ends one of the lines. -/
theorem countP_complete_logLines (cs : List Char) :
    (logLines cs).countP (·.complete) = cs.count '\n' := by
  induction cs with
  | nil => rfl
  | cons c rest ih =>
      rw [logLines]
      split
      · rename_i hc
        rw [List.countP_cons, ih, hc, List.count_cons_self]
        rfl
      · rename_i hc
        rw [List.count_cons_of_ne hc, ← ih]
        cases logLines rest with
        | nil => rfl
        | cons line more => rfl

/-- The events and the gaps of a text that can be read are its ends of lines. -/
theorem length_of_readLog {text : String} {events : List Event} (h : readLog text = .ok events) :
    events.length + logGaps text.toList = text.toList.count '\n' := by
  rw [← countP_complete_logLines, countP_complete_of_readLogLines h, logGaps]

/-- A text is lines that have an end and what is behind the last of them, which
goes on with whatever follows. -/
theorem exists_ended_lines (cs : List Char) :
    ∃ ended tail, '\n' ∉ tail ∧ (∀ line ∈ ended, line.complete = true)
      ∧ ∀ rest, logLines (cs ++ rest) = ended ++ logLines (tail ++ rest) := by
  induction cs with
  | nil => exact ⟨[], [], List.not_mem_nil, nofun, fun _ => rfl⟩
  | cons c rest ih =>
      obtain ⟨ended, tail, htail, hended, hlines⟩ := ih
      by_cases hc : c = '\n'
      · refine ⟨⟨[], true⟩ :: ended, tail, htail, List.forall_mem_cons.mpr ⟨rfl, hended⟩,
          fun more => ?_⟩
        rw [List.cons_append, logLines, if_pos hc, hlines, List.cons_append]
      · cases ended with
        | nil =>
            refine ⟨[], c :: tail, ?_, nofun, fun more => ?_⟩
            · exact List.not_mem_cons_of_ne_of_not_mem (Ne.symm hc) htail
            · rw [List.nil_append, List.cons_append, List.cons_append, logLines, if_neg hc, hlines,
                List.nil_append, logLines.eq_def (c :: (tail ++ more))]
              simp [hc]
        | cons line others =>
            refine ⟨{ line with text := c :: line.text } :: others, tail, htail, ?_,
              fun more => ?_⟩
            · rw [List.forall_mem_cons] at hended ⊢
              exact hended
            · rw [List.cons_append, logLines, if_neg hc, hlines]
              rfl

/-- What is not ended is one line at most. -/
theorem logLines_of_open {tail : List Char} (h : '\n' ∉ tail) :
    logLines tail = if tail = [] then [] else [⟨tail, false⟩] := by
  split
  · rename_i hempty
    rw [hempty, logLines]
  · rename_i hne
    exact logLines_of_not_mem h hne

/-- The first record goes on the line that is open. -/
theorem logLines_append_record {tail : List Char} (h : '\n' ∉ tail) (e : Event)
    (events : List Event) :
    logLines (tail ++ logText (e :: events))
      = ⟨tail ++ e.line.toList, true⟩ :: logLines (logText events) := by
  have hline : '\n' ∉ tail ++ e.line.toList :=
    fun hmem => (List.mem_append.mp hmem).elim h e.newline_not_mem_line
  rw [logText_cons, ← List.append_assoc, logLines_append hline]

theorem isGap_append_record (tail : List Char) (e : Event) :
    LogLine.isGap ⟨tail ++ e.line.toList, true⟩ = false := by
  obtain ⟨cs, hline⟩ := e.exists_toList_line
  have hne : e.line.toList ≠ [] := by simp [hline]
  rw [LogLine.isGap, List.all_append, LogLine.not_all_isBlank hne (List.prefix_refl _),
    Bool.and_false, Bool.and_false]

theorem logGaps_logText (events : List Event) : logGaps (logText events) = 0 := by
  induction events with
  | nil => rfl
  | cons e rest ih =>
      have hlines := logLines_append_record List.not_mem_nil e rest
      rw [List.nil_append] at hlines
      rw [logGaps, hlines, List.countP_cons, isGap_append_record]
      exact ih

/-- Records neither make a gap nor close one, whatever they are written behind. -/
theorem logGaps_append (cs : List Char) (events : List Event) :
    logGaps (cs ++ logText events) = logGaps cs := by
  cases events with
  | nil => exact congrArg logGaps (List.append_nil cs)
  | cons e rest =>
      obtain ⟨ended, tail, htail, -, hlines⟩ := exists_ended_lines cs
      have hcs := hlines []
      rw [List.append_nil, List.append_nil] at hcs
      have hopen : (logLines tail).countP (·.isGap) = 0 := by
        rw [logLines_of_open htail]
        split <;> rfl
      have hrest : (logLines (logText rest)).countP (·.isGap) = 0 := logGaps_logText rest
      rw [logGaps, logGaps, hlines, hcs, logLines_append_record htail, List.countP_append,
        List.countP_append, List.countP_cons, isGap_append_record, hopen, hrest]
      rfl

/-! ## Writing behind a text -/

/-- Records can be written behind the text: if its last line has no end, there
are only spaces on it. -/
def TakesRecords (cs : List Char) : Prop :=
  ∀ line ∈ logLines cs, line.complete = false → line.text.all Json.isSpace = true

instance (cs : List Char) : Decidable (TakesRecords cs) :=
  inferInstanceAs (Decidable (∀ line ∈ logLines cs, _))

theorem readLogLines_append (number : Nat) (xs ys : List LogLine) :
    readLogLines number (xs ++ ys) = do
      let before ← readLogLines number xs
      let after ← readLogLines (number + xs.length) ys
      return before ++ after := by
  induction xs generalizing number with
  | nil =>
      rw [List.nil_append, readLogLines, ok_bind, List.length_nil, Nat.add_zero]
      cases readLogLines number ys <;> rfl
  | cons x xs ih =>
      rw [List.cons_append, readLogLines, readLogLines, ih, List.length_cons, Nat.add_assoc,
        Nat.add_comm 1]
      simp only [bind_assoc, pure_bind, List.append_assoc]

/-- A line without an end can be read if it is blank, and has no event. -/
theorem readLogLines_of_open {tail : List Char} (h : '\n' ∉ tail) {number : Nat}
    {events : List Event} (hread : readLogLines number (logLines tail) = .ok events) :
    tail.all Text.isBlank = true ∧ events = [] := by
  rw [logLines_of_open h] at hread
  split at hread
  · rename_i hempty
    exact ⟨hempty ▸ rfl, (Except.ok.inj hread).symm⟩
  · rw [readLogLines, LogLine.read] at hread
    split at hread
    · rename_i hblank
      exact ⟨hblank, (Except.ok.inj hread).symm⟩
    · cases hread

theorem takesRecords_iff {cs tail : List Char} {ended : List LogLine} (htail : '\n' ∉ tail)
    (hended : ∀ line ∈ ended, line.complete = true)
    (hlines : logLines cs = ended ++ logLines tail) :
    TakesRecords cs ↔ tail.all Json.isSpace = true := by
  have hcomplete : (∀ line ∈ ended, line.complete = false → line.text.all Json.isSpace = true)
      ↔ True :=
    iff_true_intro fun line hmem hopen => absurd (hended line hmem) (by simp [hopen])
  rw [TakesRecords, hlines, List.forall_mem_append, hcomplete, true_and, logLines_of_open htail]
  split
  · rename_i hempty
    simp [hempty]
  · simp

theorem Event.parse?_behind {e : Event} (h : e.Storable) {lead : List Char}
    (hblank : lead.all Text.isBlank = true) :
    parse? (.ofList (lead ++ e.line.toList)) = if lead.all Json.isSpace then some e else none := by
  split
  · rename_i hspaces
    rw [parse?, Json.read_append_of_spaces hspaces, ← parse?, parse?_line h]
  · rename_i hspaces
    rw [parse?, Json.read_append_of_blanks hblank (Bool.eq_false_iff.mpr hspaces)]
    rfl

/-- What can be read of records behind a text that can be read. -/
theorem readLog_append_iff {text : String} {before more loaded : List Event}
    (h : readLog text = .ok before) (hmore : ∀ e ∈ more, e.Storable) :
    readLog (text ++ .ofList (logText more)) = .ok loaded
      ↔ loaded = before ++ more ∧ (more = [] ∨ TakesRecords text.toList) := by
  obtain ⟨ended, tail, htail, hended, hlines⟩ := exists_ended_lines text.toList
  have htext := hlines []
  rw [List.append_nil, List.append_nil] at htext
  have hparts : readLogLines 1 ended = .ok before ∧ tail.all Text.isBlank = true := by
    rw [readLog, htext, readLogLines_append] at h
    obtain ⟨events, hbefore, h⟩ := bind_eq_ok_iff.mp h
    obtain ⟨rest, hrest, h⟩ := bind_eq_ok_iff.mp h
    obtain ⟨hblank, rfl⟩ := readLogLines_of_open htail hrest
    obtain rfl := Except.ok.inj h
    exact ⟨(List.append_nil events).symm ▸ hbefore, hblank⟩
  cases more with
  | nil =>
      have hsame : text ++ .ofList (logText []) = text := String.append_empty
      rw [hsame, h, List.append_nil, Except.ok.injEq, eq_comm]
      simp
  | cons e rest =>
      rw [List.forall_mem_cons] at hmore
      rw [takesRecords_iff htail hended htext, readLog, String.toList_append, String.toList_ofList,
        hlines, logLines_append_record htail, readLogLines_append, hparts.1, ok_bind, readLogLines,
        LogLine.read_behind, Event.parse?_behind hmore.1 hparts.2]
      have hrest := readLogLines_logText hmore.2 (1 + ended.length + 1) []
      rw [List.append_nil] at hrest
      cases hspaces : tail.all Json.isSpace with
      | true =>
          have hwhole : readLogLines (1 + ended.length + 1) (logLines (logText rest)) = .ok rest :=
            hrest.trans (congrArg Except.ok (List.append_nil rest))
          simp [hwhole, eq_comm]
      | false => simp

/-! ## Files -/

namespace FileLog

/-- What is loaded was a text. -/
theorem exists_text_of_load {content : ByteArray} {events : List Event}
    (h : EventLog.load (ofContent content) = .ok events) :
    ∃ text : String, content = text.toUTF8 ∧ readLog text = .ok events := by
  change (ofContent content).load = _ at h
  rw [load] at h
  split at h
  · rename_i text htext
    exact ⟨text, (toUTF8_of_fromUTF8? htext).symm, h⟩
  · cases h

/-- A file that can be read is as long as there are events and gaps in it.
Appending adds the events to its length and leaves the gaps, and opening the file
again finds the same length: whatever is loaded then, the length exceeds the
number of its events by the number of gaps. Events that can be read are loaded
behind those that were there just if the file ended with a line, or with nothing
but spaces behind it. -/
theorem size_counts_gaps {content : ByteArray} {before : List Event}
    (h : EventLog.load (ofContent content) = .ok before) :
    ∃ text : String, content = text.toUTF8 ∧ ∀ more grown,
      EventLog.after? (ofContent content) more = some grown →
        EventLog.size grown = before.length + more.length + logGaps text.toList
          ∧ EventLog.size grown.reopen = EventLog.size grown
          ∧ (∀ loaded, EventLog.load grown = .ok loaded →
            EventLog.size grown = loaded.length + logGaps text.toList)
          ∧ ((∀ e ∈ more, e.Storable) → ∀ loaded, EventLog.load grown = .ok loaded
            ↔ loaded = before ++ more ∧ (more = [] ∨ TakesRecords text.toList)) := by
  obtain ⟨text, rfl, hread⟩ := exists_text_of_load h
  refine ⟨text, rfl, fun more grown hgrown => ?_⟩
  obtain rfl := Option.some.inj ((after?_ofText text more).symm.trans hgrown)
  have hload : EventLog.load (ofText (text ++ .ofList (logText more)))
      = readLog (text ++ .ofList (logText more)) := load_ofText _
  have hsize : EventLog.size (ofText (text ++ .ofList (logText more)))
      = text.toList.count '\n' + more.length := by
    refine (count_ofText _).trans ?_
    rw [String.toList_append, String.toList_ofList, List.count_append, count_logText]
  have hbefore := length_of_readLog hread
  refine ⟨by omega, rfl, fun loaded hloaded => ?_, fun hmore loaded => ?_⟩
  · have hafter := length_of_readLog (hload ▸ hloaded)
    rw [String.toList_append, String.toList_ofList, logGaps_append, List.count_append,
      count_logText] at hafter
    omega
  · rw [hload]
    exact readLog_append_iff hread hmore

/-- A file with a gap and an open line takes a record on that line. -/
theorem size_counts_gaps_indented :
    let text := "\x7b\"type\":\"HintEvent\",\"data\":\x7b\"message\":\"hi\"\x7d\x7d\n\n\t"
    let grown := ((ofText text).append (.loopAdvanced "x")).2
    EventLog.load (ofText text) = .ok [.hinted "hi"] ∧ EventLog.size (ofText text) = 2
      ∧ EventLog.load grown = .ok [.hinted "hi", .loopAdvanced "x"] ∧ EventLog.size grown = 3
      ∧ EventLog.size grown.reopen = 3 := by
  intro text grown
  have hload : EventLog.load (ofText text) = .ok [.hinted "hi"] :=
    (load_ofText text).trans (by decide +kernel)
  have hadvanced : (Event.loopAdvanced "x").Storable :=
    ⟨trivial, nofun, ⟨trivial, ⟨trivial, trivial⟩, trivial⟩, by decide +kernel⟩
  obtain ⟨same, hsame, hcounts⟩ := size_counts_gaps hload
  obtain rfl : text = same := String.toByteArray_inj.mp hsame
  have hgaps : logGaps text.toList = 1 := by decide +kernel
  obtain ⟨hopened, -, -, -⟩ := hcounts [] (ofText text) rfl
  obtain ⟨hsize, hreopen, -, hloads⟩ := hcounts [.loopAdvanced "x"] grown rfl
  rw [hgaps] at hopened hsize
  refine ⟨hload, hopened, (hloads ?_ _).mpr ⟨rfl, .inr (by decide +kernel)⟩, hsize,
    hreopen.trans hsize⟩
  simpa using hadvanced

/-- Blank lines before and behind a record are counted and not loaded. -/
theorem blank_lines_are_counted :
    let text := "\n\x7b\"type\":\"HintEvent\",\"data\":\x7b\"message\":\"hi\"\x7d\x7d\n\n"
    EventLog.load (ofText text) = .ok [.hinted "hi"] ∧ EventLog.size (ofText text) = 3 := by
  refine ⟨(load_ofText _).trans ?_, (count_ofText _).trans ?_⟩
  · decide +kernel
  · decide +kernel

end FileLog

end GameTable
