import GameTable.Proofs.Json.Document
import GameTable.Proofs.Json.Text
import GameTable.Proofs.Result

/-!
# Printed text under the reader

How the reader goes on at the places where printed text divides: the first
character of a document, the name of a member, the comma or the closing
character behind an item. A scalar is read whatever stands behind it, as long
as no number goes on there (`readScalar_print`).
-/

namespace GameTable.Json

/-! ## Scalars -/

section Reading

variable {depth : Nat} {cs tail : List Char}

theorem skipSpace_cons {c : Char} (h : isSpace c = false) (cs : List Char) :
    skipSpace (c :: cs) = c :: cs := by
  simp [skipSpace, h]

theorem value_scalar {c : Char} (hspace : isSpace c = false) (hlist : c ≠ '[')
    (hobject : c ≠ '\x7b') : value depth (c :: cs) = readScalar (c :: cs) := by
  rw [value, skipSpace_cons hspace]
  split
  · exact absurd (by assumption) (by simp [hlist])
  · exact absurd (by assumption) (by simp [hobject])
  · rfl

theorem ne_of_isNumeral {c d : Char} (hc : isNumeral c = true) (hd : isNumeral d = false) :
    c ≠ d := by
  rintro rfl
  exact absurd hc (by simp [hd])

theorem isSpace_of_isNumeral {c : Char} (hc : isNumeral c = true) : isSpace c = false := by
  have hne : ∀ d : Char, isNumeral d = false → c ≠ d := fun _ => ne_of_isNumeral hc
  simp [isSpace, hne ' ' rfl, hne '\n' rfl, hne '\r' rfl, hne '\t' rfl]

/-- What starts neither like a word nor like a text is read as a number. -/
theorem readScalar_of_ne {c : Char} (hnull : c ≠ 'n') (htrue : c ≠ 't') (hfalse : c ≠ 'f')
    (htext : c ≠ '"') : readScalar (c :: cs) = readNumber (c :: cs) := by
  rw [readScalar]
  · simp [hnull]
  · simp [htrue]
  · simp [hfalse]
  · simp [htext]

theorem readScalar_numeral {c : Char} (hc : isNumeral c = true) :
    readScalar (c :: cs) = readNumber (c :: cs) :=
  readScalar_of_ne (ne_of_isNumeral hc rfl) (ne_of_isNumeral hc rfl) (ne_of_isNumeral hc rfl)
    (ne_of_isNumeral hc rfl)

theorem readScalar_number {w : Written} (h : readNumber cs = some (w, []))
    (ht : EndsNumber tail) : readScalar (cs ++ tail) = some (w, tail) := by
  cases cs with
  | nil => cases h
  | cons c rest =>
      have hc : isNumeral c = true := isNumeral_of_readNumber h List.mem_cons_self
      rw [List.cons_append, readScalar_numeral hc]
      exact (takes_readNumber h).longer tail ht

theorem readScalar_printText (s : String) (tail : List Char) :
    readScalar (printText s ++ tail) = some (.str s, tail) := by
  have htext : printText s ++ tail = '"' :: (s.toList.flatMap escapeChar ++ '"' :: tail) := by
    simp [printText]
  rw [htext, readScalar, readText_printText]
  rfl

/-- What is neither a list nor an object is read whatever stands behind it. -/
theorem readScalar_print {j : Json} (h : j.Exact) (hscalar : j.levels = 0)
    (ht : EndsNumber tail) : readScalar (print j ++ tail) = some (written j, tail) := by
  cases j with
  | null => rfl
  | bool b => cases b <;> rfl
  | int n => exact readScalar_number (readNumber_printInt h.1 h.2) ht
  | float x => exact readScalar_number h ht
  | str s => exact readScalar_printText s tail
  | arr items => cases hscalar
  | obj members => cases hscalar

theorem head_of_readNumber {w : Written} (h : readNumber cs = some (w, [])) :
    ∃ c rest, cs = c :: rest ∧ isNumeral c = true := by
  cases cs with
  | nil => cases h
  | cons c rest => exact ⟨c, rest, rfl, isNumeral_of_readNumber h List.mem_cons_self⟩

theorem print_scalar_head {j : Json} (h : j.Exact) (hscalar : j.levels = 0) :
    ∃ c rest, print j = c :: rest ∧ isSpace c = false ∧ c ≠ '[' ∧ c ≠ '\x7b' ∧ c ≠ ']' := by
  have hnumber : ∀ {cs : List Char} {w : Written}, readNumber cs = some (w, []) →
      ∃ c rest, cs = c :: rest ∧ isSpace c = false ∧ c ≠ '[' ∧ c ≠ '\x7b' ∧ c ≠ ']' := by
    intro cs w hread
    obtain ⟨c, rest, rfl, hc⟩ := head_of_readNumber hread
    exact ⟨c, rest, rfl, isSpace_of_isNumeral hc, ne_of_isNumeral hc rfl,
      ne_of_isNumeral hc rfl, ne_of_isNumeral hc rfl⟩
  cases j with
  | null => exact ⟨_, _, rfl, rfl, by decide⟩
  | bool b => cases b <;> exact ⟨_, _, rfl, rfl, by decide⟩
  | int n => exact hnumber (readNumber_printInt h.1 h.2)
  | float x => exact hnumber h
  | str s => exact ⟨_, _, rfl, rfl, by decide⟩
  | arr items => cases hscalar
  | obj members => cases hscalar

theorem value_print_scalar {j : Json} (h : j.Exact) (hscalar : j.levels = 0)
    (ht : EndsNumber tail) : value depth (print j ++ tail) = some (written j, tail) := by
  obtain ⟨c, rest, heq, hspace, hlist, hobject, -⟩ := print_scalar_head h hscalar
  have hread := readScalar_print h hscalar ht
  rw [heq, List.cons_append] at hread ⊢
  rw [value_scalar hspace hlist hobject, hread]

/-! ## Lists and objects -/

theorem value_list {items : List Written}
    (h : readSequence (value depth) ']' cs = some (items, tail)) :
    value (depth + 1) ('[' :: cs) = some (.arr items, tail) := by
  rw [value, skipSpace_cons rfl]
  simp only [h]
  rfl

theorem value_object {members : List (Option String × Written)}
    (h : readSequence (readMember (value depth)) '\x7d' cs = some (members, tail)) :
    value (depth + 1) ('\x7b' :: cs) = some (objectOf members, tail) := by
  rw [value, skipSpace_cons rfl]
  simp only [h]
  rfl

variable {α : Type} {item : List Char → Option (α × List Char)} {close : Char} {fuel : Nat}

theorem readSequence_empty (hclose : isSpace close = false) :
    readSequence item close (close :: tail) = some ([], tail) := by
  rw [readSequence, skipSpace_cons hclose]
  simp

theorem readSequence_of_ne {c : Char} (hspace : isSpace c = false) (hc : c ≠ close) :
    readSequence item close (c :: cs)
      = readSeparated item close ((c :: cs).length + 1) (c :: cs) := by
  rw [readSequence, skipSpace_cons hspace]
  simp [hc]

theorem readSeparated_last {a : α} (hclose : isSpace close = false)
    (h : item cs = some (a, close :: tail)) :
    readSeparated item close (fuel + 1) cs = some ([a], tail) := by
  rw [readSeparated, h]
  simp [skipSpace_cons hclose]

theorem readSeparated_more {a : α} {more : List α} {rest : List Char} (hclose : close ≠ ',')
    (h : item cs = some (a, ',' :: rest))
    (hrest : readSeparated item close fuel rest = some (more, tail)) :
    readSeparated item close (fuel + 1) cs = some (a :: more, tail) := by
  rw [readSeparated, h]
  simp [skipSpace_cons (show isSpace ',' = false from rfl), hclose.symm, hrest]

theorem readName_printText (k : String) (cs : List Char) :
    readName (printText k ++ ':' :: cs) = some (some k, cs) := by
  have htext : printText k ++ ':' :: cs
      = '"' :: (k.toList.flatMap escapeChar ++ '"' :: ':' :: cs) := by
    simp [printText]
  rw [htext, readName, skipSpace_cons rfl]
  simp only [readText_printText]
  rfl

theorem readMember_printText {value : List Char → Option (Written × List Char)} {w : Written}
    (k : String) (h : value cs = some (w, tail)) :
    readMember value (printText k ++ ':' :: cs) = some ((some k, w), tail) := by
  rw [readMember, readName_printText]
  simp [h]

end Reading

/-! ## Beginnings and lengths -/

theorem print_head {j : Json} (h : j.Exact) :
    ∃ c rest, print j = c :: rest ∧ isSpace c = false ∧ c ≠ ']' := by
  by_cases hscalar : j.levels = 0
  · obtain ⟨c, rest, heq, hspace, -, -, hclose⟩ := print_scalar_head h hscalar
    exact ⟨c, rest, heq, hspace, hclose⟩
  · cases j with
    | arr items => exact ⟨_, _, rfl, rfl, by decide⟩
    | obj members => exact ⟨_, _, rfl, rfl, by decide⟩
    | _ => exact absurd rfl hscalar

theorem printItems_head {items : List Json} (hne : items ≠ []) (h : ExactItems items) :
    ∃ c rest, printItems items = c :: rest ∧ isSpace c = false ∧ c ≠ ']' := by
  match items with
  | [] => exact absurd rfl hne
  | [j] => exact print_head h.1
  | j :: j' :: rest =>
      obtain ⟨c, more, heq, hc⟩ := print_head h.1
      rw [printItems, heq]
      · exact ⟨c, _, rfl, hc⟩
      · simp

theorem printMembers_head {members : List (String × Json)} (hne : members ≠ []) :
    ∃ rest, printMembers members = '"' :: rest := by
  match members with
  | [] => exact absurd rfl hne
  | [(k, j)] => exact ⟨_, rfl⟩
  | (k, j) :: m :: rest =>
      rw [printMembers, printText]
      · exact ⟨_, rfl⟩
      · simp

theorem length_le_printItems : ∀ items : List Json,
    items.length ≤ (printItems items).length + 1
  | [] => Nat.zero_le _
  | [_] => Nat.succ_le_succ (Nat.zero_le _)
  | j :: j' :: rest => by
      have ih := length_le_printItems (j' :: rest)
      rw [printItems, List.length_append]
      · simp only [List.length_cons] at ih ⊢
        omega
      · simp

theorem length_le_printMembers : ∀ members : List (String × Json),
    members.length ≤ (printMembers members).length + 1
  | [] => Nat.zero_le _
  | [_] => Nat.succ_le_succ (Nat.zero_le _)
  | (k, j) :: m :: rest => by
      have ih := length_le_printMembers (m :: rest)
      rw [printMembers, List.length_append]
      · simp only [List.length_cons] at ih ⊢
        omega
      · simp

/-- The members of an object as they are read. -/
def namedMembers (members : List (String × Written)) : List (Option String × Written) :=
  members.map fun m => (some m.1, m.2)

theorem objectOf_namedMembers (members : List (String × Written)) :
    objectOf (namedMembers members) = .obj members := by
  have hnames : ∀ read : Option String × Written → Option (String × Written),
      (∀ k w, read (some k, w) = some (k, w)) →
        (namedMembers members).mapM read = some (members.map id) :=
    fun read hread => mapM_map_eq_some fun m _ => hread m.1 m.2
  rw [objectOf, hnames _ fun _ _ => rfl, List.map_id]

end GameTable.Json
