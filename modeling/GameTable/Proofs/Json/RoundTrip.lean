import GameTable.Proofs.Json.Depth
import GameTable.Text.Blank

/-!
# Documents that are read back

A document whose numbers are read as they are printed is read back from its
text as deep as the reader goes, whatever stands behind it
(`value_print_readTo`), and as a whole if it does not nest too deeply
(`read_print`). The proof follows the printer through lists and objects, one
theorem for each of its three functions; what they need to know of the reader
is how it goes on at each comma and at the closing character.

A printed document holds no end of a line (`newline_not_mem_print`), so it can
be stored as one. What stands in front of it on a line matters: spaces are
passed over, and any other blanks spoil it (`read_append_of_blanks`).
-/

namespace GameTable.Json

/-! ## The round trip -/

mutual

/-- A document is read as it is printed, as deep as the reader goes. -/
theorem value_print_readTo : ∀ (depth : Nat) (j : Json) (tail : List Char), j.Exact →
    EndsNumber tail → value depth (print j ++ tail) = some (readTo depth j, tail)
  | depth, .null, _, h, ht | depth, .bool _, _, h, ht | depth, .int _, _, h, ht
  | depth, .float _, _, h, ht | depth, .str _, _, h, ht => by
      rw [readTo_scalar rfl]
      exact value_print_scalar h rfl ht
  | 0, .arr items, tail, h, _ => by
      rw [print, List.append_assoc]
      exact readDeep_printItems h tail
  | 0, .obj members, tail, h, _ => by
      rw [print, List.append_assoc]
      exact readDeep_printMembers h tail
  | depth + 1, .arr [], _, _, _ => value_list (readSequence_empty rfl)
  | depth + 1, .arr (j :: rest), tail, h, _ => by
      have hfuel : (j :: rest).length
          ≤ (printItems (j :: rest) ++ ']' :: tail).length + 1 := by
        have hle := length_le_printItems (j :: rest)
        rw [List.length_append]
        omega
      have hitems := readSeparated_printItems depth (j :: rest) tail
        (List.cons_ne_nil _ _) h hfuel
      obtain ⟨c, more, heq, hspace, hclose⟩ := printItems_head (List.cons_ne_nil _ _) h
      rw [heq] at hitems
      rw [print, heq, List.append_assoc]
      exact value_list ((readSequence_of_ne hspace hclose).trans hitems)
  | depth + 1, .obj [], _, _, _ => value_object (readSequence_empty rfl)
  | depth + 1, .obj (m :: rest), tail, h, _ => by
      have hfuel : (m :: rest).length
          ≤ (printMembers (m :: rest) ++ '\x7d' :: tail).length + 1 := by
        have hle := length_le_printMembers (m :: rest)
        rw [List.length_append]
        omega
      have hmembers := readSeparated_printMembers depth (m :: rest) tail
        (List.cons_ne_nil _ _) h hfuel
      obtain ⟨more, heq⟩ := printMembers_head (List.cons_ne_nil m rest)
      rw [heq] at hmembers
      rw [print, heq, List.append_assoc, readTo, ← objectOf_namedMembers]
      exact value_object ((readSequence_of_ne rfl (by decide)).trans hmembers)

theorem readSeparated_printItems : ∀ (depth : Nat) {fuel : Nat} (items : List Json)
    (tail : List Char),
    items ≠ [] → ExactItems items → items.length ≤ fuel →
    readSeparated (value depth) ']' fuel (printItems items ++ ']' :: tail)
      = some (itemsReadTo depth items, tail)
  | _, _, [], _, hne, _, _ => absurd rfl hne
  | depth, fuel + 1, [j], tail, _, h, _ =>
      readSeparated_last rfl (value_print_readTo depth j (']' :: tail) h.1 (endsNumber_cons rfl))
  | depth, fuel + 1, j :: j' :: rest, tail, _, h, hfuel => by
      have hj := value_print_readTo depth j
        (',' :: (printItems (j' :: rest) ++ ']' :: tail)) h.1 (endsNumber_cons rfl)
      have hrest := readSeparated_printItems depth (j' :: rest) tail (by simp) h.2
        (Nat.le_of_succ_le_succ hfuel)
      rw [printItems, List.append_assoc]
      · exact readSeparated_more (by decide) hj hrest
      · simp

theorem readSeparated_printMembers : ∀ (depth : Nat) {fuel : Nat} (members : List (String × Json))
    (tail : List Char),
    members ≠ [] → ExactMembers members → members.length ≤ fuel →
    readSeparated (readMember (value depth)) '\x7d' fuel (printMembers members ++ '\x7d' :: tail)
      = some (namedMembers (membersReadTo depth members), tail)
  | _, _, [], _, hne, _, _ => absurd rfl hne
  | depth, fuel + 1, [(k, j)], tail, _, h, _ => by
      have hj := value_print_readTo depth j ('\x7d' :: tail) h.1 (endsNumber_cons rfl)
      rw [printMembers, List.append_assoc]
      exact readSeparated_last rfl (readMember_printText k hj)
  | depth, fuel + 1, (k, j) :: m :: rest, tail, _, h, hfuel => by
      have hj := value_print_readTo depth j
        (',' :: (printMembers (m :: rest) ++ '\x7d' :: tail)) h.1 (endsNumber_cons rfl)
      have hrest := readSeparated_printMembers depth (m :: rest) tail (by simp) h.2
        (Nat.le_of_succ_le_succ hfuel)
      rw [printMembers, List.append_assoc, List.append_assoc]
      · exact readSeparated_more (by decide) (readMember_printText k hj) hrest
      · simp

end

theorem endsNumber_of_spaces {cs : List Char} (h : cs.all isSpace = true) : EndsNumber cs := by
  intro c hc
  have hspace : isSpace c = true := List.all_eq_true.mp h c (List.mem_of_head? hc)
  by_contra hnumeral
  rw [Bool.not_eq_false] at hnumeral
  exact absurd hspace (by simp [isSpace_of_isNumeral hnumeral])

/-- The text of a document is read to its end, with or without blanks behind
it. -/
theorem read_print_readTo {j : Json} (h : j.Exact) {blanks : List Char}
    (hblanks : blanks.all isSpace = true) :
    read (.ofList (print j ++ blanks)) = some (readTo maxDepth j) := by
  have hrest : skipSpace blanks = [] := by
    simpa [skipSpace, List.dropWhile_eq_nil_iff] using hblanks
  rw [read, String.toList_ofList, value_print_readTo maxDepth j _ h (endsNumber_of_spaces hblanks)]
  simp [hrest]

/-- The text of a document that does not nest too deeply is read as the
document. -/
theorem read_print {j : Json} (h : j.Exact) (hlevels : j.levels ≤ maxDepth) {blanks : List Char}
    (hblanks : blanks.all isSpace = true) :
    read (.ofList (print j ++ blanks)) = some (written j) := by
  rw [read_print_readTo h hblanks, readTo_of_levels_le j hlevels]

/-! ## Blanks in front -/

theorem isDigit_of_isBlank {c : Char} (h : Text.isBlank c = true) : c.isDigit = false := by
  rw [Bool.eq_false_iff]
  intro hdigit
  rw [Char.isDigit_iff_toNat] at hdigit
  change 48 ≤ c.toNat ∧ c.toNat ≤ 57 at hdigit
  simp only [Text.isBlank, Bool.or_eq_true, Bool.and_eq_true, decide_eq_true_eq, beq_iff_eq] at h
  omega

/-- A document does not begin with a blank that is none of the spaces. -/
theorem value_cons_of_isBlank {c : Char} (h : Text.isBlank c = true) (hspace : isSpace c = false)
    (depth : Nat) (cs : List Char) : value depth (c :: cs) = none := by
  have hne : ∀ d, Text.isBlank d = false → c ≠ d := by
    rintro d hd rfl
    exact absurd h (by simp [hd])
  rw [value_scalar hspace (hne _ (by decide)) (hne _ (by decide)),
    readScalar_of_ne (hne _ (by decide)) (hne _ (by decide)) (hne _ (by decide))
      (hne _ (by decide)),
    readNumber_cons_of_ne (hne _ (by decide)) (isDigit_of_isBlank h)]

/-- Spaces in front of a document are passed over. -/
theorem value_append_of_spaces {lead : List Char} (h : lead.all isSpace = true) (depth : Nat)
    (cs : List Char) : value depth (lead ++ cs) = value depth cs := by
  have hskip : skipSpace (lead ++ cs) = skipSpace cs :=
    List.dropWhile_append_of_pos (List.all_eq_true.mp h)
  rw [value, value, hskip]

/-- Other blanks in front of it spoil a document. -/
theorem value_append_of_blanks {lead : List Char} (hblank : lead.all Text.isBlank = true)
    (h : lead.all isSpace = false) (depth : Nat) (cs : List Char) :
    value depth (lead ++ cs) = none := by
  induction lead with
  | nil => cases h
  | cons c rest ih =>
      rw [List.all_cons, Bool.and_eq_true] at hblank
      rw [List.all_cons] at h
      cases hspace : isSpace c with
      | true =>
          have hone : [c].all isSpace = true := by simp [hspace]
          rw [hspace, Bool.true_and] at h
          exact (value_append_of_spaces hone depth (rest ++ cs)).trans (ih hblank.2 h)
      | false => exact value_cons_of_isBlank hblank.1 hspace depth _

theorem read_append_of_spaces {lead : List Char} (h : lead.all isSpace = true) (s : String) :
    read (.ofList (lead ++ s.toList)) = read s := by
  rw [read, read, String.toList_ofList, value_append_of_spaces h]

theorem read_append_of_blanks {lead : List Char} (hblank : lead.all Text.isBlank = true)
    (h : lead.all isSpace = false) (s : String) : read (.ofList (lead ++ s.toList)) = none := by
  rw [read, String.toList_ofList, value_append_of_blanks hblank h]
  rfl

/-! ## Ends of lines -/

theorem newline_not_mem_toDigits (n : Nat) : '\n' ∉ Nat.toDigits 10 n := by
  intro hmem
  have hdigit : ('\n').isDigit = true :=
    Nat.isDigit_of_mem_toDigits (by decide) (by decide) hmem
  cases hdigit

theorem newline_not_mem_magnitude (l : Decimal.Layout) (d : Nat) (p : Int) :
    '\n' ∉ l.magnitude d p := by
  have hdigits := newline_not_mem_toDigits d
  have htake (n : Nat) : '\n' ∉ (Nat.toDigits 10 d).take n :=
    fun hmem => hdigits (List.mem_of_mem_take hmem)
  have hdrop (n : Nat) : '\n' ∉ (Nat.toDigits 10 d).drop n :=
    fun hmem => hdigits (List.mem_of_mem_drop hmem)
  unfold Decimal.Layout.magnitude
  dsimp only
  repeat' split
  all_goals simp [hdigits, htake, hdrop, newline_not_mem_toDigits, -List.drop_one]

theorem newline_not_mem_text (l : Decimal.Layout) (x : Float) : '\n' ∉ (l.text x).toList := by
  unfold Decimal.Layout.text
  repeat' split
  all_goals simp [newline_not_mem_magnitude]

theorem newline_not_mem_printInt (n : Int) : '\n' ∉ printInt n := by
  unfold printInt
  split
  all_goals simp [newline_not_mem_toDigits]

mutual

/-- A printed document stands on one line. -/
theorem newline_not_mem_print : ∀ j : Json, '\n' ∉ print j
  | .null => by decide
  | .bool true => by decide
  | .bool false => by decide
  | .int n => newline_not_mem_printInt n
  | .float x => newline_not_mem_text Decimal.stored x.val
  | .str s => newline_not_mem_printText s
  | .arr items => by
      simp [print, newline_not_mem_printItems items]
  | .obj members => by
      simp [print, newline_not_mem_printMembers members]

theorem newline_not_mem_printItems : ∀ items : List Json, '\n' ∉ printItems items
  | [] => by simp [printItems]
  | [j] => newline_not_mem_print j
  | j :: j' :: rest => by
      simp [printItems, newline_not_mem_print j, newline_not_mem_printItems (j' :: rest)]

theorem newline_not_mem_printMembers : ∀ members : List (String × Json),
    '\n' ∉ printMembers members
  | [] => by simp [printMembers]
  | [(k, j)] => by
      simp [printMembers, newline_not_mem_printText, newline_not_mem_print j]
  | (k, j) :: m :: rest => by
      simp [printMembers, newline_not_mem_printText, newline_not_mem_print j,
        newline_not_mem_printMembers (m :: rest)]

end

end GameTable.Json
