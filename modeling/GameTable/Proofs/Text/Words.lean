import GameTable.Text.Blank

/-!
# Words between blanks

Cutting a text into words forgets the blanks and nothing else. Where a blank
stands between two texts, the words of both are the words of the one and then
those of the other (`words_append`), so a text that is put together from words
with blanks between them is cut into these words again (`words_intercalate`).
Blanks at the ends do not matter (`wordsOf_trimChars`).
-/

namespace GameTable.Text

/-- The text is one word: not empty, and without a blank. -/
def IsWord (w : String) : Prop := w ≠ "" ∧ ∀ c ∈ w.toList, isBlank c = false

-- The characters of the word are run through, not all that there are.
instance (w : String) : Decidable (IsWord w) :=
  @instDecidableAnd _ _ inferInstance (List.decidableBAll _ _)

/-! ## Characters -/

theorem wordsFrom_of_not_blank {w : List Char} (h : ∀ c ∈ w, isBlank c = false)
    (pending cs : List Char) : wordsFrom pending (w ++ cs) = wordsFrom (pending ++ w) cs := by
  induction w generalizing pending with
  | nil => rw [List.nil_append, List.append_nil]
  | cons c w ih =>
      rw [List.forall_mem_cons] at h
      rw [List.cons_append, wordsFrom, h.1, if_neg Bool.false_ne_true, ih h.2,
        List.append_assoc, List.singleton_append]

theorem wordsFrom_append_blank {c : Char} (hc : isBlank c = true) (xs ys : List Char)
    (pending : List Char) :
    wordsFrom pending (xs ++ c :: ys) = wordsFrom pending xs ++ wordsOf ys := by
  induction xs generalizing pending with
  | nil =>
      simp only [List.nil_append, wordsFrom, hc, if_true]
      split <;> rfl
  | cons x xs ih =>
      rw [List.cons_append, wordsFrom, wordsFrom]
      split
      · split
        · exact ih []
        · rw [ih [], List.cons_append]
      · exact ih (pending ++ [x])

/-- A blank between two texts keeps their words apart. -/
theorem wordsOf_append_blank {c : Char} (hc : isBlank c = true) (xs ys : List Char) :
    wordsOf (xs ++ c :: ys) = wordsOf xs ++ wordsOf ys :=
  wordsFrom_append_blank hc xs ys []

theorem wordsOf_cons_blank {c : Char} (hc : isBlank c = true) (cs : List Char) :
    wordsOf (c :: cs) = wordsOf cs :=
  wordsOf_append_blank hc [] cs

theorem wordsOf_of_not_blank {w : List Char} (hne : w ≠ []) (h : ∀ c ∈ w, isBlank c = false) :
    wordsOf w = [w] := by
  have hw := wordsFrom_of_not_blank h [] []
  rw [List.append_nil, List.nil_append, wordsFrom, if_neg (by simpa using hne)] at hw
  exact hw

/-- The words hold the characters of the text that are not blank, in their
order. -/
theorem flatten_wordsFrom (pending cs : List Char) :
    (wordsFrom pending cs).flatten = pending ++ cs.filter fun c => !isBlank c := by
  induction cs generalizing pending with
  | nil => cases pending <;> simp [wordsFrom]
  | cons c cs ih =>
      rw [wordsFrom]
      cases hc : isBlank c with
      | true => cases pending <;> simp [hc, ih]
      | false => simp [hc, ih]

theorem flatten_wordsOf (cs : List Char) :
    (wordsOf cs).flatten = cs.filter fun c => !isBlank c :=
  flatten_wordsFrom [] cs

theorem ne_nil_of_mem_wordsFrom {w : List Char} (pending cs : List Char)
    (h : w ∈ wordsFrom pending cs) : w ≠ [] := by
  induction cs generalizing pending with
  | nil =>
      rw [wordsFrom] at h
      split at h
      · cases h
      · rename_i hne
        obtain rfl := List.mem_singleton.mp h
        simpa using hne
  | cons c cs ih =>
      rw [wordsFrom] at h
      split at h
      · split at h
        · exact ih [] h
        · rename_i hne
          rcases List.mem_cons.mp h with rfl | h
          · simpa using hne
          · exact ih [] h
      · exact ih (pending ++ [c]) h

/-- No word is empty or holds a blank. -/
theorem not_blank_of_mem_wordsOf {w cs : List Char} (h : w ∈ wordsOf cs) :
    w ≠ [] ∧ ∀ c ∈ w, isBlank c = false := by
  refine ⟨ne_nil_of_mem_wordsFrom [] cs h, fun c hc => ?_⟩
  have hflat : c ∈ (wordsOf cs).flatten := List.mem_flatten.mpr ⟨w, h, hc⟩
  rw [flatten_wordsOf, List.mem_filter] at hflat
  simpa using hflat.2

theorem mem_of_mem_wordsOf {w cs : List Char} (h : w ∈ wordsOf cs) {c : Char} (hc : c ∈ w) :
    c ∈ cs := by
  have hflat : c ∈ (wordsOf cs).flatten := List.mem_flatten.mpr ⟨w, h, hc⟩
  rw [flatten_wordsOf] at hflat
  exact (List.mem_filter.mp hflat).1

theorem exists_mem_wordsOf {c : Char} {cs : List Char} (h : c ∈ cs) (hc : isBlank c = false) :
    ∃ w ∈ wordsOf cs, c ∈ w := by
  rw [← List.mem_flatten, flatten_wordsOf, List.mem_filter]
  exact ⟨h, by rw [hc, Bool.not_false]⟩

/-! ## Blanks at the ends -/

theorem wordsOf_blanks_append {blanks : List Char} (h : ∀ c ∈ blanks, isBlank c = true)
    (cs : List Char) : wordsOf (blanks ++ cs) = wordsOf cs := by
  induction blanks with
  | nil => rfl
  | cons c blanks ih =>
      rw [List.forall_mem_cons] at h
      rw [List.cons_append, wordsOf_cons_blank h.1, ih h.2]

theorem wordsOf_append_blanks {blanks : List Char} (h : ∀ c ∈ blanks, isBlank c = true)
    (cs : List Char) : wordsOf (cs ++ blanks) = wordsOf cs := by
  cases blanks with
  | nil => rw [List.append_nil]
  | cons c blanks =>
      rw [List.forall_mem_cons] at h
      have hrest := wordsOf_blanks_append h.2 []
      rw [List.append_nil] at hrest
      rw [wordsOf_append_blank h.1, hrest]
      exact List.append_nil _

theorem mem_takeWhile_isBlank {cs : List Char} : ∀ c ∈ cs.takeWhile isBlank, isBlank c = true :=
  List.all_eq_true.mp (List.all_takeWhile ..)

theorem wordsOf_dropTrailing (cs : List Char) : wordsOf (dropTrailing cs) = wordsOf cs := by
  have hcs : cs = dropTrailing cs ++ (cs.reverse.takeWhile isBlank).reverse := by
    rw [dropTrailing, ← List.reverse_append, List.takeWhile_append_dropWhile, List.reverse_reverse]
  conv => rhs; rw [hcs]
  refine (wordsOf_append_blanks (fun c hc => ?_) _).symm
  exact mem_takeWhile_isBlank c (List.mem_reverse.mp hc)

/-- Trimming a text does not change its words. -/
theorem wordsOf_trimChars (cs : List Char) : wordsOf (trimChars cs) = wordsOf cs := by
  rw [trimChars, wordsOf_dropTrailing]
  conv => rhs; rw [← List.takeWhile_append_dropWhile (p := isBlank) (l := cs)]
  exact (wordsOf_blanks_append mem_takeWhile_isBlank _).symm

/-- A text is not changed by trimming if there is no blank at either end. -/
theorem trimChars_of_not_blank {cs : List Char} (hhead : ∀ c, cs.head? = some c → isBlank c = false)
    (hlast : ∀ c, cs.getLast? = some c → isBlank c = false) : trimChars cs = cs := by
  have hleft : cs.dropWhile isBlank = cs := by
    cases cs with
    | nil => rfl
    | cons c rest => rw [List.dropWhile_cons, hhead c rfl, if_neg Bool.false_ne_true]
  have hright : cs.reverse.dropWhile isBlank = cs.reverse := by
    rw [← List.head?_reverse] at hlast
    cases hcs : cs.reverse with
    | nil => rfl
    | cons c rest =>
        rw [List.dropWhile_cons, hlast c (by rw [hcs]; rfl), if_neg Bool.false_ne_true]
  rw [trimChars, hleft, dropTrailing, hright, List.reverse_reverse]

theorem dropTrailing_isPrefix (cs : List Char) : dropTrailing cs <+: cs := by
  have hsuffix := List.dropWhile_suffix (l := cs.reverse) isBlank
  rwa [← List.reverse_prefix, List.reverse_reverse] at hsuffix

theorem trimChars_isInfix (cs : List Char) : trimChars cs <:+: cs :=
  (dropTrailing_isPrefix _).isInfix.trans (List.dropWhile_suffix isBlank).isInfix

/-- Trimming leaves no blank at the beginning. -/
theorem not_blank_of_head?_trimChars {cs : List Char} {c : Char}
    (h : (trimChars cs).head? = some c) : isBlank c = false := by
  have hfirst := List.head?_dropWhile_not isBlank cs
  obtain ⟨rest, hrest⟩ := dropTrailing_isPrefix (cs.dropWhile isBlank)
  rw [trimChars] at h
  rwa [← hrest, List.head?_append, h] at hfirst

/-- Or at the end. -/
theorem not_blank_of_getLast?_trimChars {cs : List Char} {c : Char}
    (h : (trimChars cs).getLast? = some c) : isBlank c = false := by
  have hlast := List.head?_dropWhile_not isBlank (cs.dropWhile isBlank).reverse
  rw [trimChars, dropTrailing, List.getLast?_reverse] at h
  rwa [h] at hlast

/-! ## Texts -/

theorem isWord_of_mem_words {w s : String} (h : w ∈ words s) : IsWord w := by
  obtain ⟨cs, hcs, rfl⟩ := List.mem_map.mp h
  obtain ⟨hne, hblank⟩ := not_blank_of_mem_wordsOf hcs
  refine ⟨fun heq => hne ?_, fun c hc => hblank c (by rwa [String.toList_ofList] at hc)⟩
  rw [← String.toList_ofList (l := cs), heq]
  rfl

theorem words_of_isWord {w : String} (h : IsWord w) : words w = [w] := by
  have hne : w.toList ≠ [] := fun heq => h.1 (String.toList_eq_nil_iff.mp heq)
  rw [words, wordsOf_of_not_blank hne h.2, List.map_singleton, String.ofList_toList]

/-- A text that begins with a blank adds its words. -/
theorem words_append {s t : String} (h : ∀ c, t.toList.head? = some c → isBlank c = true) :
    words (s ++ t) = words s ++ words t := by
  rw [words, words, words, String.toList_append]
  cases ht : t.toList with
  | nil => simp [wordsOf, wordsFrom]
  | cons c rest =>
      have hc : isBlank c = true := h c (by rw [ht]; rfl)
      rw [wordsOf_append_blank hc, wordsOf_cons_blank hc, List.map_append]

theorem words_blank_append (s : String) : words (" " ++ s) = words s := by
  rw [words, words, String.toList_append]
  exact congrArg _ (wordsOf_cons_blank rfl s.toList)

theorem words_append_blank_append (s t : String) :
    words (s ++ (" " ++ t)) = words s ++ words t := by
  rw [words_append, words_blank_append]
  intro c hc
  rw [String.toList_append] at hc
  obtain rfl := Option.some.inj hc
  rfl

/-- Words with single blanks between them are cut into these words. -/
theorem words_intercalate {ws : List String} (h : ∀ w ∈ ws, IsWord w) :
    words (" ".intercalate ws) = ws := by
  induction ws with
  | nil => rfl
  | cons w ws ih =>
      rw [List.forall_mem_cons] at h
      cases ws with
      | nil => exact words_of_isWord h.1
      | cons x ws =>
          rw [String.intercalate_cons_cons, String.append_assoc, words_append_blank_append,
            words_of_isWord h.1, ih h.2]
          rfl

/-- Such a text has no blank at either end. -/
theorem trimChars_intercalate {ws : List String} (h : ∀ w ∈ ws, IsWord w) :
    trimChars (" ".intercalate ws).toList = (" ".intercalate ws).toList := by
  have hne : ∀ w ∈ ws, w.toList ≠ [] := fun w hw heq => (h w hw).1 (String.toList_eq_nil_iff.mp heq)
  apply trimChars_of_not_blank
  · intro c hc
    cases ws with
    | nil => cases hc
    | cons w rest =>
        have hw : w ∈ w :: rest := List.mem_cons_self ..
        have hhead : w.toList.head? = some c := by
          cases rest with
          | nil => rwa [String.intercalate_singleton] at hc
          | cons x rest =>
              rw [String.intercalate_cons_cons, String.append_assoc, String.toList_append,
                List.head?_append, Option.or_of_isSome (by simpa using hne w hw)] at hc
              exact hc
        exact (h w hw).2 c (List.mem_of_head? hhead)
  · intro c hc
    rcases List.eq_nil_or_concat ws with rfl | ⟨rest, w, hconcat⟩
    · cases hc
    · rw [List.concat_eq_append] at hconcat
      subst hconcat
      have hw : w ∈ rest ++ [w] := List.mem_append_right _ (List.mem_singleton_self w)
      have hlast : w.toList.getLast? = some c := by
        by_cases hrest : rest = []
        · subst hrest
          rwa [List.nil_append, String.intercalate_singleton] at hc
        · rw [String.intercalate_append_of_ne_nil hrest (List.cons_ne_nil w []),
            String.intercalate_singleton, String.toList_append,
            List.getLast?_append, Option.or_of_isSome (by simpa using hne w hw)] at hc
          exact hc
      exact (h w hw).2 c (List.mem_of_getLast? hlast)

end GameTable.Text
