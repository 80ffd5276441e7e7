import GameTable.Proofs.Log.File

/-!
# Files that break off

A file whose end is lost, at whatever byte, is never read as other events than
those that are left of it (`FileLog.load_cut_eq`). If the cut falls between two
records, they are the events before the cut. Everywhere else loading fails: the
file is no text, if the cut falls inside of a character, or else its last line
is reported, also where that line is a whole record and only lacks its end.
-/

namespace GameTable

/-- A number below a later value stands between two values in a row. -/
theorem exists_between {f : Nat → Nat} {n m : Nat} (hfirst : f 0 ≤ n) (hlast : n < f m) :
    ∃ k < m, f k ≤ n ∧ n < f (k + 1) := by
  induction m with
  | zero => exact absurd hlast (Nat.not_lt.mpr hfirst)
  | succ m ih =>
      by_cases h : n < f m
      · obtain ⟨k, hk, hbetween⟩ := ih h
        exact ⟨k, Nat.lt_succ_of_lt hk, hbetween⟩
      · exact ⟨m, Nat.lt_succ_self m, Nat.not_lt.mp h, hlast⟩

namespace FileLog

/-- The file after events are appended to an empty one. -/
def ofEvents (events : List Event) : FileLog :=
  events.foldl (fun l e => (l.append e).2) (ofText "")

/-- The file opened with no more of its content than the first bytes. -/
def cut (l : FileLog) (n : Nat) : FileLog := ofContent (l.content.extract 0 n)

/-- How long the file is when so many of the events are appended. -/
def boundary (events : List Event) (k : Nat) : Nat := (ofEvents (events.take k)).content.size

theorem Holds.foldl_append {l : FileLog} {before : List Event} (h : l.Holds before)
    (events : List Event) :
    (events.foldl (fun l e => (l.append e).2) l).Holds (before ++ events) := by
  induction events generalizing l before with
  | nil => exact (List.append_nil before).symm ▸ h
  | cons e rest ih => exact List.append_cons before e rest ▸ ih (h.append e)

theorem content_ofEvents (events : List Event) :
    (ofEvents events).content = (logText events).utf8Encode :=
  (holds_empty.foldl_append events).content.trans (toUTF8_ofList _)

variable {events : List Event}

theorem boundary_eq (events : List Event) (k : Nat) :
    boundary events k = (logText (events.take k)).utf8Encode.size := by
  rw [boundary, content_ofEvents]

/-- Between two boundaries stands a line with its end. -/
theorem boundary_succ {k : Nat} {e : Event} (he : events[k]? = some e) :
    boundary events (k + 1) = boundary events k + e.line.toList.utf8Encode.size + 1 := by
  have hend : ['\n'].utf8Encode.size = 1 := rfl
  rw [boundary_eq, boundary_eq, List.take_add_one, he, logText_append, size_utf8Encode_append,
    Option.toList_some, logText_singleton, size_utf8Encode_append, hend, Nat.add_assoc]

theorem load_cut {n : Nat} {cs : List Char}
    (hn : (ofEvents events).content.extract 0 n = cs.utf8Encode) :
    ((ofEvents events).cut n).load = readLog (.ofList cs) := by
  rw [FileLog.load, cut, ofContent, hn, ← toUTF8_ofList, fromUTF8?_toUTF8]

theorem extract_boundary (events : List Event) (k : Nat) :
    (ofEvents events).content.extract 0 (boundary events k)
      = (logText (events.take k)).utf8Encode := by
  have htext : logText events = logText (events.take k) ++ logText (events.drop k) := by
    rw [← logText_append, List.take_append_drop]
  rw [content_ofEvents, htext, List.utf8Encode_append, boundary_eq]
  exact ByteArray.extract_append_eq_left rfl

theorem load_cut_boundary (h : ∀ e ∈ events, e.Storable) (k : Nat) :
    ((ofEvents events).cut (boundary events k)).load = .ok (events.take k) := by
  rw [load_cut (extract_boundary events k)]
  exact readLog_logText fun e he => h e (List.mem_of_mem_take he)

/-- Behind whole records, a part of the next is reported. -/
theorem load_cut_part (h : ∀ e ∈ events, e.Storable) {k n : Nat} {e : Event}
    (he : events[k]? = some e) {part : List Char} (hne : part ≠ [])
    (hpart : part <+: e.line.toList)
    (hn : (ofEvents events).content.extract 0 n
      = (logText (events.take k) ++ part).utf8Encode) :
    ((ofEvents events).cut n).load = .error (.truncated (k + 1)) := by
  obtain ⟨hk, -⟩ := List.getElem?_eq_some_iff.mp he
  have hlength : (events.take k).length = k := List.length_take_of_le (Nat.le_of_lt hk)
  rw [load_cut hn, readLog_part (fun x hx => h x (List.mem_of_mem_take hx)) hne hpart, hlength]

theorem boundary_length (events : List Event) :
    boundary events events.length = (ofEvents events).content.size := by
  rw [boundary, List.take_length]

/-- A cut elsewhere is inside of a record, and the record is reported unless the
cut is inside of a character. -/
theorem load_cut_between (h : ∀ e ∈ events, e.Storable) {n : Nat}
    (hn : n < (ofEvents events).content.size) (hcut : ∀ k ≤ events.length, n ≠ boundary events k) :
    ∃ k < events.length, boundary events k < n ∧ n < boundary events (k + 1)
      ∧ ((ofEvents events).cut n).load
        = match String.fromUTF8? ((ofEvents events).content.extract 0 n) with
          | some _ => .error (.truncated (k + 1))
          | none => .error (.storage "stream did not contain valid UTF-8") := by
  cases hs : String.fromUTF8? ((ofEvents events).content.extract 0 n) with
  | none =>
      obtain ⟨k, hk, hle, hlt⟩ := exists_between (f := boundary events) (Nat.zero_le n)
        (boundary_length events ▸ hn)
      refine ⟨k, hk, Nat.lt_of_le_of_ne hle (hcut k (Nat.le_of_lt hk)).symm, hlt, ?_⟩
      rw [FileLog.load, cut, ofContent, hs]
  | some s =>
      have hprefix : s.toList <+: logText events := by
        rw [content_ofEvents] at hs
        exact prefix_of_fromUTF8?_extract hs
      obtain ⟨k, hk, part, hparts, hpart⟩ := exists_of_prefix_logText hprefix
      have hextract : (ofEvents events).content.extract 0 n
          = (logText (events.take k) ++ part).utf8Encode := by
        rw [← hparts, String.utf8Encode_toList, ← String.toUTF8_eq_toByteArray,
          toUTF8_of_fromUTF8? hs]
      have hsize : n = boundary events k + part.utf8Encode.size := by
        have := congrArg ByteArray.size hextract
        rw [ByteArray.size_extract, size_utf8Encode_append, ← boundary_eq] at this
        omega
      rcases hpart with rfl | ⟨e, he, hne, hpart⟩
      · exact absurd hsize (hcut k hk)
      · have hpos := size_utf8Encode_pos hne
        have hle := size_utf8Encode_le hpart
        have hend := boundary_succ he
        obtain ⟨hlt, -⟩ := List.getElem?_eq_some_iff.mp he
        exact ⟨k, hlt, by omega, by omega, load_cut_part h he hne hpart hextract⟩

/-- A record that lacks nothing but its end is reported. -/
theorem load_cut_unended (h : ∀ e ∈ events, e.Storable) {k : Nat} (hk : k < events.length) :
    ((ofEvents events).cut (boundary events (k + 1) - 1)).load = .error (.truncated (k + 1)) := by
  have he : events[k]? = some events[k] := List.getElem?_eq_getElem hk
  obtain ⟨cs, hline⟩ := events[k].exists_toList_line
  have hne : events[k].line.toList ≠ [] := by simp [hline]
  refine load_cut_part h he hne (List.prefix_refl _) ?_
  have htext : logText events = (logText (events.take k) ++ events[k].line.toList)
      ++ '\n' :: logText (events.drop (k + 1)) := by
    rw [List.append_assoc, ← logText_cons, List.getElem_cons_drop, ← logText_append,
      List.take_append_drop]
  have hend : boundary events (k + 1) - 1
      = (logText (events.take k) ++ events[k].line.toList).utf8Encode.size := by
    rw [boundary_succ he, boundary_eq, size_utf8Encode_append, Nat.add_sub_cancel]
  rw [content_ofEvents, htext, List.utf8Encode_append, hend]
  exact ByteArray.extract_append_eq_left rfl

/-- A file that breaks off between two records is read as those before. A file
that breaks off anywhere else is not read: the record in which it breaks off is
reported by its line, unless what is left is no text, and this cannot be where
only the end of the line is missing. So what a broken file is read as are the
first events of the whole, and it holds nothing but them. -/
theorem load_cut_eq (events : List Event) (h : ∀ e ∈ events, e.Storable) :
    let file := ofEvents events
    (∀ k ≤ events.length, (file.cut (boundary events k)).load = .ok (events.take k))
      ∧ (∀ n < file.content.size, (∀ k ≤ events.length, n ≠ boundary events k) →
          ∃ k < events.length, boundary events k < n ∧ n < boundary events (k + 1)
            ∧ (file.cut n).load = match String.fromUTF8? (file.content.extract 0 n) with
              | some _ => .error (.truncated (k + 1))
              | none => .error (.storage "stream did not contain valid UTF-8"))
      ∧ (∀ k < events.length,
          (file.cut (boundary events (k + 1) - 1)).load = .error (.truncated (k + 1)))
      ∧ ∀ n ≤ file.content.size, ∀ read, (file.cut n).load = .ok read →
          ∃ k ≤ events.length, n = boundary events k ∧ read = events.take k := by
  intro file
  refine ⟨fun k _ => load_cut_boundary h k, fun n => load_cut_between h,
    fun k => load_cut_unended h, fun n hn read hread => ?_⟩
  by_cases hcut : ∃ k ≤ events.length, n = boundary events k
  · obtain ⟨k, hk, rfl⟩ := hcut
    rw [load_cut_boundary h k] at hread
    exact ⟨k, hk, rfl, (Except.ok.inj hread).symm⟩
  · have hne : ∀ k ≤ events.length, n ≠ boundary events k := fun k hk heq => hcut ⟨k, hk, heq⟩
    have hlt : n < file.content.size :=
      Nat.lt_of_le_of_ne hn (boundary_length events ▸ hne _ (Nat.le_refl _))
    obtain ⟨k, -, -, -, hload⟩ := load_cut_between h hlt hne
    rw [hload] at hread
    split at hread <;> cases hread

/-- A letter of two bytes, cut in half and cut behind, and the records before
and without the last end of a line. -/
theorem load_cut_letter :
    let events := [Event.hinted "é", .loopAdvanced "x"]
    let file := ofEvents events
    (∀ e ∈ events, e.Storable)
      ∧ (file.cut 40).load = .error (.storage "stream did not contain valid UTF-8")
      ∧ (file.cut 41).load = .error (.truncated 1)
      ∧ (file.cut (boundary events 1)).load = .ok [.hinted "é"]
      ∧ (file.cut (boundary events 2 - 1)).load = .error (.truncated 2) := by
  intro events file
  have hevents : ∀ e ∈ events, e.Storable := by
    refine List.forall_mem_cons.mpr ⟨?_, List.forall_mem_cons.mpr ⟨?_, nofun⟩⟩
    · exact ⟨trivial, nofun, ⟨trivial, ⟨trivial, trivial⟩, trivial⟩, by decide +kernel⟩
    · exact ⟨trivial, nofun, ⟨trivial, ⟨trivial, trivial⟩, trivial⟩, by decide +kernel⟩
  obtain ⟨hwhole, hpart, hunended, -⟩ := load_cut_eq events hevents
  have hboundaries : ∀ k ≤ 2, boundary events k = [0, 45, 94].getD k 0 := by decide +kernel
  have hinside : ∀ n, 0 < n → n < 45 → ∀ k ≤ events.length, n ≠ boundary events k := by
    intro n hpos hlt k hk
    rw [hboundaries k hk]
    match k with
    | 0 => exact Nat.ne_of_gt hpos
    | 1 => exact Nat.ne_of_lt hlt
    | 2 => exact Nat.ne_of_lt (Nat.lt_trans hlt (by decide))
  refine ⟨hevents, ?_, ?_, hwhole 1 (by decide), hunended 1 (by decide)⟩
  · obtain ⟨k, -, -, -, hload⟩ := hpart 40 (by decide +kernel) (hinside 40 (by decide) (by decide))
    have hs : String.fromUTF8? (file.content.extract 0 40) = none := by decide +kernel
    rw [hload, hs]
  · obtain ⟨k, hk, hlt, -, hload⟩ :=
      hpart 41 (by decide +kernel) (hinside 41 (by decide) (by decide))
    have htext : (String.fromUTF8? (file.content.extract 0 41)).isSome := by decide +kernel
    obtain ⟨s, hs⟩ := Option.isSome_iff_exists.mp htext
    rw [hboundaries k (Nat.le_of_lt hk)] at hlt
    have hfirst : k = 0 := by
      by_contra hne
      obtain rfl : k = 1 := Nat.le_antisymm (Nat.le_of_lt_succ hk) (Nat.pos_of_ne_zero hne)
      exact absurd hlt (by decide)
    rw [hload, hs, hfirst]

end FileLog

end GameTable
