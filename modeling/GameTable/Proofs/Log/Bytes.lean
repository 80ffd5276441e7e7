import GameTable.Log.File

/-!
# Texts as bytes

A file holds bytes. Those of a text decode to the text and to nothing else
(`fromUTF8?_toUTF8`, `toUTF8_of_fromUTF8?`), and the byte that ends a line does
not occur inside of any other character, so that counting it counts the ends of
lines (`countLines_toUTF8`). Bytes that break off inside of a character are no
text; all others break off where the text does
(`prefix_of_fromUTF8?_extract`).
-/

namespace GameTable

theorem fromUTF8?_toUTF8 (s : String) : String.fromUTF8? s.toUTF8 = some s := by
  rw [String.toUTF8_eq_toByteArray, String.fromUTF8?, dif_pos s.isValidUTF8]
  rfl

theorem toUTF8_of_fromUTF8? {b : ByteArray} {s : String} (h : String.fromUTF8? b = some s) :
    s.toUTF8 = b := by
  rw [String.fromUTF8?] at h
  split at h
  · obtain rfl := Option.some.inj h
    rfl
  · cases h

/-! ## Bytes of characters -/

theorem toUTF8_ofList (cs : List Char) : (String.ofList cs).toUTF8 = cs.utf8Encode := by
  rw [String.toUTF8_eq_toByteArray, String.toByteArray_ofList]

theorem size_utf8Encode_append (cs ds : List Char) :
    (cs ++ ds).utf8Encode.size = cs.utf8Encode.size + ds.utf8Encode.size := by
  rw [List.utf8Encode_append, ByteArray.size_append]

theorem size_utf8Encode_pos {cs : List Char} (h : cs ≠ []) : 0 < cs.utf8Encode.size := by
  cases cs with
  | nil => exact absurd rfl h
  | cons c rest =>
      rw [List.utf8Encode_cons, ByteArray.size_append, List.utf8Encode_singleton,
        List.size_toByteArray, String.length_utf8EncodeChar]
      exact Nat.lt_of_lt_of_le c.utf8Size_pos (Nat.le_add_right ..)

theorem size_utf8Encode_le {cs ds : List Char} (h : cs <+: ds) :
    cs.utf8Encode.size ≤ ds.utf8Encode.size := by
  obtain ⟨more, rfl⟩ := h
  rw [size_utf8Encode_append]
  exact Nat.le_add_right ..

/-- Where the bytes of a text break off and are those of a text nevertheless,
they break off between two characters. -/
theorem prefix_of_fromUTF8?_extract {cs : List Char} {n : Nat} {s : String}
    (h : String.fromUTF8? (cs.utf8Encode.extract 0 n) = some s) : s.toList <+: cs := by
  refine List.isPrefix_of_utf8Encode_append_eq_utf8Encode
    (cs.utf8Encode.extract n cs.utf8Encode.size) ?_
  rw [String.utf8Encode_toList, ← String.toUTF8_eq_toByteArray, toUTF8_of_fromUTF8? h,
    ByteArray.extract_append_extract, Nat.zero_min, ByteArray.extract_zero_max_size]

/-! ## Bytes in a list -/

theorem byteArray_toList_loop (b : ByteArray) (i : Nat) (acc : List UInt8) :
    ByteArray.toList.loop b i acc = acc.reverse ++ b.data.toList.drop i := by
  induction i, acc using ByteArray.toList.loop.induct b with
  | case1 i acc hi ih =>
      have hlt : i < b.data.toList.length := by simpa using hi
      rw [ByteArray.toList.loop, if_pos hi, ih, List.drop_eq_getElem_cons hlt,
        List.reverse_cons, List.append_assoc]
      simp [ByteArray.get!, hi]
  | case2 i acc hi =>
      have hle : b.data.toList.length ≤ i := by simpa using hi
      rw [ByteArray.toList.loop, if_neg hi, List.drop_eq_nil_of_le hle, List.append_nil]

theorem byteArray_toList_eq (b : ByteArray) : b.toList = b.data.toList :=
  byteArray_toList_loop b 0 []

theorem toList_toUTF8_injective {s t : String} (h : s.toUTF8.toList = t.toUTF8.toList) :
    s = t := by
  rw [byteArray_toList_eq, byteArray_toList_eq] at h
  exact String.toByteArray_inj.mp (ByteArray.ext (Array.toList_inj.mp h))

/-! ## Ends of lines -/

theorem ofNat_ne_newline {n : Nat} (h : n % 256 ≠ 10) : UInt8.ofNat n ≠ 10 := by
  intro heq
  exact h (by simpa using congrArg UInt8.toNat heq)

/-- In the bytes of a character the end of a line stands only for itself; the
bytes of a character of several are all beyond it. -/
theorem count_utf8EncodeChar (c : Char) :
    (String.utf8EncodeChar c).count 10 = if c = '\n' then 1 else 0 := by
  have hmany : ∀ l : List UInt8, (∀ b ∈ l, b ≠ 10) → 127 < c.val.toNat →
      l.count 10 = if c = '\n' then 1 else 0 := by
    intro l hl hc
    have hne : c ≠ '\n' := by
      rintro rfl
      exact absurd hc (by decide)
    rw [if_neg hne, List.count_eq_zero]
    exact fun hmem => hl 10 hmem rfl
  unfold String.utf8EncodeChar
  dsimp only
  split
  · rename_i hc
    by_cases heq : c = '\n'
    · subst heq
      rfl
    · have hcode : c.val.toNat ≠ 10 := fun h => heq (Char.toNat_inj.mp h)
      rw [if_neg heq, List.count_singleton, if_neg]
      rw [beq_iff_eq]
      exact ofNat_ne_newline (by omega)
  split
  · rename_i hc _
    refine hmany _ ?_ (by omega)
    simp only [List.forall_mem_cons]
    refine ⟨ofNat_ne_newline ?_, ofNat_ne_newline ?_, by simp⟩
    · omega
    · omega
  split
  · rename_i hc _ _
    refine hmany _ ?_ (by omega)
    simp only [List.forall_mem_cons]
    refine ⟨ofNat_ne_newline ?_, ofNat_ne_newline ?_, ofNat_ne_newline ?_, by simp⟩
    · omega
    · omega
    · omega
  · rename_i hc _ _
    refine hmany _ ?_ (by omega)
    simp only [List.forall_mem_cons]
    refine ⟨ofNat_ne_newline ?_, ofNat_ne_newline ?_, ofNat_ne_newline ?_, ofNat_ne_newline ?_,
      by simp⟩
    · omega
    · omega
    · omega
    · omega

theorem countLines_toUTF8 (s : String) : FileLog.countLines s.toUTF8 = s.toList.count '\n' := by
  rw [FileLog.countLines, byteArray_toList_eq, String.toUTF8_eq_toByteArray,
    ← String.utf8Encode_toList, List.utf8Encode, List.data_toByteArray]
  induction s.toList with
  | nil => rfl
  | cons c rest ih =>
      rw [List.flatMap_cons, List.count_append, count_utf8EncodeChar, ih, List.count_cons,
        Nat.add_comm]
      simp only [beq_iff_eq]

end GameTable
