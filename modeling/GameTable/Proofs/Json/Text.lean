import GameTable.Json.Parser
import GameTable.Json.Printer

/-!
# Texts that are read back

A text is printed character by character, and reading undoes each escape
(`readCodes_escapeChar`). What the quotes hold comes back as codes first; they
are those of the characters, and no character is half of a surrogate pair, so
the codes decode to the text that was printed (`readText_printText`).
-/

namespace GameTable.Json

/-! ## Escapes -/

theorem readHex4_append {cs rest tail : List Char} {n : Nat} (h : readHex4 cs = some (n, rest)) :
    readHex4 (cs ++ tail) = some (n, rest ++ tail) := by
  match cs with
  | a :: b :: c :: d :: more =>
      rw [readHex4] at h
      obtain ⟨na, ha, h⟩ := Option.bind_eq_some_iff.mp h
      obtain ⟨nb, hb, h⟩ := Option.bind_eq_some_iff.mp h
      obtain ⟨nc, hc, h⟩ := Option.bind_eq_some_iff.mp h
      obtain ⟨nd, hd, h⟩ := Option.bind_eq_some_iff.mp h
      obtain ⟨rfl, rfl⟩ := Prod.mk.inj (Option.some.inj h)
      simp only [List.cons_append, readHex4, ha, hb, hc, hd]
      rfl
  | [] | [_] | [_, _] | [_, _, _] => cases h

theorem readHex4_hex4 : ∀ n < 32, readHex4 (hex4 n) = some (n, []) := by
  decide +kernel

theorem readCodes_escapeChar (fuel : Nat) (c : Char) (rest : List Char) :
    readCodes (fuel + 1) (escapeChar c ++ rest)
      = (readCodes fuel rest).map fun p => (c.toNat :: p.1, p.2) := by
  have hsimple : ∀ e, simpleEscape e = some c → e ≠ 'u' →
      readCodes (fuel + 1) ('\\' :: e :: rest)
        = (readCodes fuel rest).map fun p => (c.toNat :: p.1, p.2) := by
    intro e he hu
    rw [readCodes]
    · rw [he]
      cases readCodes fuel rest <;> rfl
    · simpa using hu
  have hcontrol : ∀ d : Char, c.toNat = d.toNat → c = d := fun d => Char.toNat_inj.mp
  unfold escapeChar
  split
  · rename_i hc
    exact hsimple '"' (by rw [hc]; rfl) (by decide)
  split
  · rename_i hc
    exact hsimple '\\' (by rw [hc]; rfl) (by decide)
  split
  · rename_i hc
    exact hsimple 'n' (by rw [hc]; rfl) (by decide)
  split
  · rename_i hc
    exact hsimple 'r' (by rw [hc]; rfl) (by decide)
  split
  · rename_i hc
    exact hsimple 't' (by rw [hc]; rfl) (by decide)
  split
  · rename_i hc
    exact hsimple 'b' (by rw [hcontrol '\x08' hc]; rfl) (by decide)
  split
  · rename_i hc
    exact hsimple 'f' (by rw [hcontrol '\x0c' hc]; rfl) (by decide)
  split
  · rename_i hc
    change readCodes (fuel + 1) ('\\' :: 'u' :: (hex4 c.toNat ++ rest)) = _
    rw [readCodes, readHex4_append (readHex4_hex4 _ hc)]
    change (readCodes fuel rest).bind _ = _
    cases readCodes fuel rest <;> rfl
  · rename_i hquote hslash _ _ _ _ _ hlow
    change readCodes (fuel + 1) (c :: rest) = _
    rw [readCodes, if_neg (by simp [hslash, hlow])]
    · cases readCodes fuel rest <;> rfl
    · exact hquote
    · exact fun _ h _ => hslash h
    · exact fun _ _ h _ => hslash h

/-- Reading up to the closing quote undoes the escapes. -/
theorem readCodes_flatMap_escapeChar {fuel : Nat} {cs : List Char} (hfuel : cs.length < fuel)
    (tail : List Char) :
    readCodes fuel (cs.flatMap escapeChar ++ '"' :: tail) = some (cs.map Char.toNat, tail) := by
  induction cs generalizing fuel with
  | nil =>
      obtain ⟨fuel, rfl⟩ := Nat.exists_eq_succ_of_ne_zero (Nat.ne_of_gt hfuel)
      rfl
  | cons c rest ih =>
      obtain ⟨fuel, rfl⟩ := Nat.exists_eq_succ_of_ne_zero (Nat.ne_zero_of_lt hfuel)
      rw [List.flatMap_cons, List.append_assoc, readCodes_escapeChar,
        ih (Nat.lt_of_succ_lt_succ hfuel)]
      rfl

/-! ## Codes of characters -/

/-- No character is half of a surrogate pair. -/
theorem not_isHalf (c : Char) : isHighHalf c.toNat = false ∧ isLowHalf c.toNat = false := by
  have hvalid : c.toNat < 0xD800 ∨ 0xDFFF < c.toNat ∧ c.toNat < 0x110000 := c.valid
  simp only [isHighHalf, isLowHalf, Bool.and_eq_false_iff, decide_eq_false_iff_not]
  omega

theorem decodeText_map_toNat (cs : List Char) : decodeText (cs.map Char.toNat) = some cs := by
  match cs with
  | [] => rfl
  | [c] =>
      obtain ⟨hhigh, hlow⟩ := not_isHalf c
      rw [List.map_cons, List.map_nil, decodeText, hhigh, hlow, Char.ofNat_toNat]
      rfl
  | c :: d :: rest =>
      have ih := decodeText_map_toNat (d :: rest)
      obtain ⟨hhigh, hlow⟩ := not_isHalf c
      rw [List.map_cons] at ih
      rw [List.map_cons, List.map_cons, decodeText, hhigh, hlow, ih, Char.ofNat_toNat]
      rfl

/-! ## Texts -/

theorem escapeChar_ne_nil (c : Char) : escapeChar c ≠ [] := by
  unfold escapeChar
  repeat' split
  all_goals simp

theorem length_le_length_flatMap_escapeChar (cs : List Char) :
    cs.length ≤ (cs.flatMap escapeChar).length := by
  induction cs with
  | nil => exact Nat.le_refl 0
  | cons c rest ih =>
      have hc := List.length_pos_iff.mpr (escapeChar_ne_nil c)
      rw [List.flatMap_cons, List.length_append, List.length_cons]
      omega

/-- A text is read as it is printed. -/
theorem readText_printText (s : String) (tail : List Char) :
    readText (s.toList.flatMap escapeChar ++ '"' :: tail) = some (some s, tail) := by
  have hfuel : s.toList.length < (s.toList.flatMap escapeChar ++ '"' :: tail).length + 1 := by
    have hle := length_le_length_flatMap_escapeChar s.toList
    rw [List.length_append]
    omega
  rw [readText, readCodes_flatMap_escapeChar hfuel]
  change some ((decodeText (s.toList.map Char.toNat)).map String.ofList, tail) = _
  rw [decodeText_map_toNat, Option.map_some, String.ofList_toList]

/-! ## Ends of lines -/

theorem newline_not_mem_hex4 : ∀ n < 32, '\n' ∉ hex4 n := by
  decide +kernel

theorem newline_not_mem_escapeChar (c : Char) : '\n' ∉ escapeChar c := by
  unfold escapeChar
  repeat' split
  all_goals simp_all [newline_not_mem_hex4, eq_comm]

/-- The end of a line is never printed inside of a text. -/
theorem newline_not_mem_printText (s : String) : '\n' ∉ printText s := by
  simp [printText, newline_not_mem_escapeChar]

end GameTable.Json
