import GameTable.Command.Line
import GameTable.Proofs.Text.LowerCase
import GameTable.Proofs.Text.Pieces
import GameTable.Proofs.Text.Words

/-!
# Taking lines apart

A line is cut three times: into words, at the keywords among them into clauses,
and each clause at commas and at `and` into items. This file says of each cut
what it does to a text that was put together of such parts.

`IsItem` is what an item may be so that it comes back as it is
(`itemsOf_intercalate`). In the other direction, an item that is read never
holds a comma, and unless the clause held one, its words are words of the clause
(`item_of_mem_itemsOf`); with a comma it could hold a word that was none before.
-/

namespace GameTable.Line

open Text (IsWord isBlank words wordsOf)

/-! ## Keywords -/

/-- The word is a keyword: letters, digits and underscores, and a colon. -/
def IsKeyword (w : String) : Prop :=
  ∃ spelling : String, spelling ≠ "" ∧ (∀ c ∈ spelling.toList, isKeyChar c = true)
    ∧ w = spelling ++ ":"

theorem keyword?_eq_some_iff {w key : String} :
    keyword? w = some key ↔ ∃ spelling : String, spelling ≠ ""
      ∧ (∀ c ∈ spelling.toList, isKeyChar c = true) ∧ w = spelling ++ ":"
      ∧ Text.lower spelling = key := by
  constructor
  · intro h
    unfold keyword? at h
    split at h
    · rename_i rest hrest
      split at h
      · rename_i hkey
        rw [Bool.and_eq_true, List.all_eq_true] at hkey
        have hw : w.toList = rest.reverse ++ [':'] := by
          rw [← List.reverse_cons, ← hrest, List.reverse_reverse]
        refine ⟨.ofList rest.reverse, fun heq => ?_, fun c hc => ?_, ?_, Option.some.inj h⟩
        · have hnil : rest.reverse = [] := by
            rw [← String.toList_ofList (l := rest.reverse), heq]
            rfl
          simp [List.reverse_eq_nil_iff.mp hnil] at hkey
        · rw [String.toList_ofList] at hc
          exact hkey.2 c (List.mem_reverse.mp hc)
        · rw [← String.toList_inj, hw, String.toList_append, String.toList_ofList]
          rfl
      · cases h
    · cases h
  · rintro ⟨spelling, hne, hchars, rfl, rfl⟩
    have hw : (spelling ++ ":").toList.reverse = ':' :: spelling.toList.reverse := by
      rw [String.toList_append, List.reverse_append]
      rfl
    have hkey : (!spelling.toList.reverse.isEmpty
        && spelling.toList.reverse.all isKeyChar) = true := by
      rw [Bool.and_eq_true, List.all_eq_true]
      refine ⟨?_, fun c hc => hchars c (List.mem_reverse.mp hc)⟩
      simpa using hne
    unfold keyword?
    rw [hw]
    simp only [hkey, if_true, List.reverse_reverse, String.ofList_toList]

theorem keyword?_eq_none_iff {w : String} : keyword? w = none ↔ ¬ IsKeyword w := by
  rw [Option.eq_none_iff_forall_ne_some]
  constructor
  · rintro h ⟨spelling, hne, hchars, rfl⟩
    exact h _ (keyword?_eq_some_iff.mpr ⟨spelling, hne, hchars, rfl, rfl⟩)
  · intro h key hkey
    obtain ⟨spelling, hne, hchars, hw, -⟩ := keyword?_eq_some_iff.mp hkey
    exact h ⟨spelling, hne, hchars, hw⟩

instance (w : String) : Decidable (IsKeyword w) :=
  decidable_of_iff (keyword? w ≠ none) ((not_congr keyword?_eq_none_iff).trans Classical.not_not)

/-! ## Clauses -/

/-- Words that are no keywords belong to what comes before the first keyword. -/
theorem clauses_append {ws : List String} (h : ∀ w ∈ ws, keyword? w = none) (rest : List String) :
    clauses (ws ++ rest) = (ws ++ (clauses rest).1, (clauses rest).2) := by
  induction ws with
  | nil => rfl
  | cons w ws ih =>
      rw [List.forall_mem_cons] at h
      rw [List.cons_append, clauses, ih h.2]
      simp only [h.1]
      rfl

theorem clauses_cons_keyword {w key : String} (h : keyword? w = some key) (rest : List String) :
    clauses (w :: rest) = ([], ⟨key, (clauses rest).1⟩ :: (clauses rest).2) := by
  rw [clauses]
  simp only [h]

/-- What comes before the clauses are the words up to the first keyword. -/
theorem clauses_fst (ws : List String) :
    (clauses ws).1 = ws.takeWhile fun w => (keyword? w).isNone := by
  induction ws with
  | nil => rfl
  | cons w ws ih =>
      rw [clauses, List.takeWhile_cons]
      cases hw : keyword? w with
      | none => simp [ih]
      | some key => simp

/-- A clause has its key from a keyword, and words that are none. -/
theorem mem_clauses {ws : List String} {c : Clause} (h : c ∈ (clauses ws).2) :
    (∃ w ∈ ws, keyword? w = some c.key) ∧ ∀ w ∈ c.words, w ∈ ws ∧ keyword? w = none := by
  induction ws with
  | nil => cases h
  | cons w ws ih =>
      cases hw : keyword? w with
      | none =>
          rw [clauses] at h
          simp only [hw] at h
          obtain ⟨⟨v, hv, hkey⟩, hwords⟩ := ih h
          exact ⟨⟨v, List.mem_cons_of_mem w hv, hkey⟩,
            fun v hv => ⟨List.mem_cons_of_mem w (hwords v hv).1, (hwords v hv).2⟩⟩
      | some key =>
          rw [clauses_cons_keyword hw] at h
          rcases List.mem_cons.mp h with rfl | h
          · refine ⟨⟨w, List.mem_cons_self .., hw⟩, fun v hv => ?_⟩
            change v ∈ (clauses ws).1 at hv
            rw [clauses_fst] at hv
            have hnone := List.all_eq_true.mp List.all_takeWhile v hv
            exact ⟨List.mem_cons_of_mem w (List.takeWhile_subset _ hv), by simpa using hnone⟩
          · obtain ⟨⟨v, hv, hkey⟩, hwords⟩ := ih h
            exact ⟨⟨v, List.mem_cons_of_mem w hv, hkey⟩,
              fun v hv => ⟨List.mem_cons_of_mem w (hwords v hv).1, (hwords v hv).2⟩⟩

/-! ## Cutting at `and` -/

theorem splitAnd_ne_nil (cs : List Char) : splitAnd cs ≠ [] := by
  fun_cases splitAnd cs <;> simp_all

theorem splitAnd_cons {c : Char} {cs piece : List Char} {pieces : List (List Char)}
    (hand : ∀ rest, c :: cs ≠ ' ' :: 'a' :: 'n' :: 'd' :: ' ' :: rest)
    (h : splitAnd cs = piece :: pieces) : splitAnd (c :: cs) = (c :: piece) :: pieces := by
  rw [splitAnd]
  · rw [h]
  · intro rest hc hcs
    exact hand rest (by rw [hc, hcs])

/-- Without a blank there is no place to cut. -/
theorem splitAnd_append {w cs piece : List Char} {pieces : List (List Char)} (hw : ' ' ∉ w)
    (h : splitAnd cs = piece :: pieces) : splitAnd (w ++ cs) = (w ++ piece) :: pieces := by
  induction w with
  | nil => exact h
  | cons c w ih =>
      obtain ⟨hc, hw⟩ := List.ne_and_not_mem_of_not_mem_cons hw
      exact splitAnd_cons (fun rest heq => hc (List.cons.inj heq).1.symm) (ih hw)

/-- The pieces are what the text is put together of. -/
theorem intercalate_splitAnd (cs : List Char) :
    [' ', 'a', 'n', 'd', ' '].intercalate (splitAnd cs) = cs := by
  fun_induction splitAnd cs with
  | case1 => rfl
  | case2 rest ih =>
      rw [List.intercalate_cons_of_ne_nil (splitAnd_ne_nil rest), ih]
      rfl
  | case3 c rest _ hnil _ => exact absurd hnil (splitAnd_ne_nil rest)
  | case4 c rest _ piece pieces heq ih =>
      rw [heq] at ih
      rw [List.intercalate_cons_cons_left, ih]

/-! ## Items -/

/-- The text is an item: words with single blanks between them and without
commas, none of which is `and` or a keyword. -/
def IsItem (x : String) : Prop :=
  ∃ ws : List String, ws ≠ [] ∧ x = " ".intercalate ws
    ∧ ∀ w ∈ ws, IsWord w ∧ ',' ∉ w.toList ∧ w ≠ "and" ∧ ¬ IsKeyword w

theorem isItem_intercalate {ws : List String} (hne : ws ≠ [])
    (h : ∀ w ∈ ws, IsWord w ∧ ',' ∉ w.toList ∧ w ≠ "and" ∧ keyword? w = none) :
    IsItem (" ".intercalate ws) := by
  simp only [keyword?_eq_none_iff] at h
  exact ⟨ws, hne, rfl, h⟩

/-- Words are not cut before the place where the text goes on with `and`, or
ends. -/
theorem splitAnd_words {ws : List String} (hne : ws ≠ [])
    (h : ∀ w ∈ ws, IsWord w ∧ w ≠ "and") {rest : List Char} {pieces : List (List Char)}
    (hblank : ∀ c, rest.head? = some c → c = ' ') (hrest : splitAnd rest = [] :: pieces) :
    splitAnd ((" ".intercalate ws).toList ++ rest) = (" ".intercalate ws).toList :: pieces := by
  have hword : ∀ w ∈ ws, ' ' ∉ w.toList := fun w hw hmem => by
    have hfalse := (h w hw).1.2 ' ' hmem
    cases hfalse
  induction ws with
  | nil => exact absurd rfl hne
  | cons w ws ih =>
      rw [List.forall_mem_cons] at h hword
      cases ws with
      | nil =>
          rw [String.intercalate_singleton]
          simpa using splitAnd_append hword.1 hrest
      | cons x ws =>
          have hmore := ih (List.cons_ne_nil x ws) h.2 hword.2
          have htext : (" ".intercalate (w :: x :: ws)).toList
              = w.toList ++ ' ' :: (" ".intercalate (x :: ws)).toList := by
            rw [String.intercalate_cons_cons, String.toList_append, String.toList_append,
              List.append_assoc]
            rfl
          rw [htext, List.append_assoc]
          refine splitAnd_append hword.1 (splitAnd_cons (fun tail heq => ?_) hmore)
          -- The next word would be `and`.
          have hwords : words (" ".intercalate (x :: ws) ++ .ofList rest)
              = words ("and" ++ (" " ++ .ofList tail)) := by
            congr 1
            rw [← String.toList_inj, String.toList_append, String.toList_ofList]
            exact (List.cons.inj heq).2.trans (by simp)
          rw [Text.words_append_blank_append, Text.words_append, Text.words_intercalate
            fun w hw => (h.2 w hw).1] at hwords
          · exact (h.2 x (List.mem_cons_self ..)).2 (List.cons.inj hwords).1
          · intro c hc
            rw [String.toList_ofList] at hc
            rw [hblank c hc]
            rfl

theorem splitAnd_intercalate {items : List String} (hne : items ≠ [])
    (h : ∀ x ∈ items, IsItem x) :
    splitAnd (" and ".intercalate items).toList = items.map String.toList := by
  induction items with
  | nil => exact absurd rfl hne
  | cons x items ih =>
      rw [List.forall_mem_cons] at h
      obtain ⟨ws, hws, rfl, hwords⟩ := h.1
      have hplain : ∀ w ∈ ws, IsWord w ∧ w ≠ "and" :=
        fun w hw => ⟨(hwords w hw).1, (hwords w hw).2.2.1⟩
      cases items with
      | nil =>
          have hone : splitAnd ((" ".intercalate ws).toList ++ [])
              = [(" ".intercalate ws).toList] :=
            splitAnd_words hws hplain nofun rfl
          rwa [List.append_nil] at hone
      | cons y items =>
          have hmore := ih (List.cons_ne_nil y items) h.2
          rw [String.intercalate_cons_cons, String.append_assoc, String.toList_append,
            String.toList_append]
          refine splitAnd_words hws hplain (fun c hc => (Option.some.inj hc).symm) ?_
          change [] :: splitAnd (" and ".intercalate (y :: items)).toList = _
          rw [hmore]

theorem IsItem.toList_ne_nil {x : String} (h : IsItem x) : x.toList ≠ [] := by
  obtain ⟨ws, hne, rfl, hws⟩ := h
  obtain ⟨w, rest, rfl⟩ := List.exists_cons_of_ne_nil hne
  intro heq
  have hwords : words (" ".intercalate (w :: rest)) = w :: rest :=
    Text.words_intercalate fun v hv => (hws v hv).1
  rw [String.toList_eq_nil_iff.mp heq] at hwords
  cases hwords

theorem IsItem.trimChars_eq {x : String} (h : IsItem x) :
    Text.trimChars x.toList = x.toList := by
  obtain ⟨ws, -, rfl, hws⟩ := h
  exact Text.trimChars_intercalate fun w hw => (hws w hw).1

/-- Items with `and` between them are words of the same kind, apart from `and`. -/
theorem exists_words_intercalate {items : List String} (h : ∀ x ∈ items, IsItem x) :
    ∃ ws : List String, " and ".intercalate items = " ".intercalate ws
      ∧ (items ≠ [] → ws ≠ []) ∧ ∀ w ∈ ws, IsWord w ∧ ',' ∉ w.toList ∧ ¬ IsKeyword w := by
  induction items with
  | nil => exact ⟨[], rfl, fun hne => absurd rfl hne, nofun⟩
  | cons x items ih =>
      rw [List.forall_mem_cons] at h
      obtain ⟨ws, hws, rfl, hwords⟩ := h.1
      have hplain : ∀ w ∈ ws, IsWord w ∧ ',' ∉ w.toList ∧ ¬ IsKeyword w :=
        fun w hw => ⟨(hwords w hw).1, (hwords w hw).2.1, (hwords w hw).2.2.2⟩
      cases items with
      | nil => exact ⟨ws, String.intercalate_singleton, fun _ => hws, hplain⟩
      | cons y items =>
          obtain ⟨more, htext, hmore, hmoreWords⟩ := ih h.2
          refine ⟨ws ++ "and" :: more, ?_, fun _ => by simp, ?_⟩
          · rw [String.intercalate_cons_cons, htext,
              String.intercalate_append_of_ne_nil hws (List.cons_ne_nil _ _),
              String.intercalate_cons_of_ne_nil (hmore (List.cons_ne_nil y items))]
            simp only [String.append_assoc]
            rfl
          · intro w hw
            rcases List.mem_append.mp hw with hw | hw
            · exact hplain w hw
            · rcases List.mem_cons.mp hw with rfl | hw
              · exact ⟨by decide, by decide, keyword?_eq_none_iff.mp rfl⟩
              · exact hmoreWords w hw

theorem mem_intercalate {sep : String} {xs : List String} {c : Char}
    (h : c ∈ (sep.intercalate xs).toList) : c ∈ sep.toList ∨ ∃ x ∈ xs, c ∈ x.toList := by
  induction xs with
  | nil => cases h
  | cons x xs ih =>
      cases xs with
      | nil => exact .inr ⟨x, List.mem_singleton_self x, by rwa [String.intercalate_singleton] at h⟩
      | cons y xs =>
          rw [String.intercalate_cons_cons, String.toList_append, String.toList_append] at h
          rcases List.mem_append.mp h with h | h
          · rcases List.mem_append.mp h with h | h
            · exact .inr ⟨x, List.mem_cons_self .., h⟩
            · exact .inl h
          · exact (ih h).imp_right fun ⟨z, hz, hc⟩ => ⟨z, List.mem_cons_of_mem _ hz, hc⟩

/-- Items with `and` between them come back as they are. -/
theorem itemsOf_intercalate {items : List String} (hne : items ≠ []) (h : ∀ x ∈ items, IsItem x) :
    itemsOf (" and ".intercalate items).toList = items.map String.toList := by
  have hcomma : ',' ∉ (" and ".intercalate items).toList := by
    obtain ⟨ws, htext, -, hws⟩ := exists_words_intercalate h
    rw [htext]
    intro hmem
    rcases mem_intercalate hmem with hmem | ⟨w, hw, hmem⟩
    · exact absurd hmem (by decide)
    · exact (hws w hw).2.1 hmem
  have htrim : (items.map String.toList).map Text.trimChars = items.map String.toList := by
    rw [List.map_map]
    exact List.map_congr_left fun x hx => (h x hx).trimChars_eq
  rw [itemsOf, Text.splitChars_of_not_mem hcomma, List.flatMap_singleton, splitAnd_intercalate hne h,
    htrim, List.filter_eq_self]
  intro cs hcs
  obtain ⟨x, hx, rfl⟩ := List.mem_map.mp hcs
  simpa using (h x hx).toList_ne_nil

theorem wordsOf_subset_intercalate {pieces : List (List Char)} {piece : List Char}
    (h : piece ∈ pieces) :
    wordsOf piece ⊆ wordsOf ([' ', 'a', 'n', 'd', ' '].intercalate pieces) := by
  induction pieces with
  | nil => cases h
  | cons first rest ih =>
      cases rest with
      | nil =>
          obtain rfl := List.mem_singleton.mp h
          simp
      | cons second rest =>
          have hwords : wordsOf ([' ', 'a', 'n', 'd', ' '].intercalate (first :: second :: rest))
              = wordsOf first ++ (wordsOf ['a', 'n', 'd']
                ++ wordsOf ([' ', 'a', 'n', 'd', ' '].intercalate (second :: rest))) := by
            rw [← Text.wordsOf_append_blank (c := ' ') rfl,
              ← Text.wordsOf_append_blank (c := ' ') rfl,
              List.intercalate_cons_of_ne_nil (List.cons_ne_nil _ _), List.append_assoc]
            rfl
          rw [hwords]
          rcases List.mem_cons.mp h with rfl | h
          · exact List.subset_append_left _ _
          · exact List.Subset.trans (List.Subset.trans (ih h) (List.subset_append_right _ _))
              (List.subset_append_right _ _)

/-- Words of a piece are words of the whole, since there are blanks around
`and`. -/
theorem wordsOf_subset_of_mem_splitAnd {cs piece : List Char} (h : piece ∈ splitAnd cs) :
    wordsOf piece ⊆ wordsOf cs := by
  have hsubset := wordsOf_subset_intercalate h
  rwa [intercalate_splitAnd] at hsubset

/-- Whatever is read as an item is not empty and holds no comma. Its words are
words of the text, unless a comma has made two words of one. -/
theorem item_of_mem_itemsOf {cs item : List Char} (h : item ∈ itemsOf cs) :
    item ≠ [] ∧ ',' ∉ item ∧ (',' ∉ cs → wordsOf item ⊆ wordsOf cs) := by
  rw [itemsOf, List.mem_filter, List.mem_map] at h
  obtain ⟨⟨piece, hpieces, rfl⟩, hne⟩ := h
  obtain ⟨part, hpart, hpiece⟩ := List.mem_flatMap.mp hpieces
  have hwords : wordsOf (Text.trimChars piece) ⊆ wordsOf part := by
    rw [Text.wordsOf_trimChars]
    exact wordsOf_subset_of_mem_splitAnd hpiece
  refine ⟨by simpa using hne, fun hmem => ?_, fun hcomma => ?_⟩
  · obtain ⟨w, hw, hc⟩ := Text.exists_mem_wordsOf hmem rfl
    exact Text.not_mem_of_mem_splitChars hpart (Text.mem_of_mem_wordsOf (hwords hw) hc)
  · rw [Text.splitChars_of_not_mem hcomma] at hpart
    rwa [List.mem_singleton.mp hpart] at hwords

/-- The same for the items of a clause and its words. -/
theorem Clause.item_of_mem_items {c : Clause} {x : String} (h : x ∈ c.items) :
    x ≠ "" ∧ ',' ∉ x.toList
      ∧ ((∀ w ∈ c.words, IsWord w ∧ ',' ∉ w.toList) → Text.words x ⊆ c.words) := by
  obtain ⟨item, hitem, rfl⟩ := List.mem_map.mp h
  obtain ⟨hne, hcomma, hwords⟩ := item_of_mem_itemsOf hitem
  rw [String.toList_ofList]
  refine ⟨fun hempty => hne ?_, hcomma, fun hplain => ?_⟩
  · rw [← String.toList_ofList (l := item), hempty]
    rfl
  · have hback := Text.words_intercalate fun w hw => (hplain w hw).1
    have htext : ',' ∉ (" ".intercalate c.words).toList := by
      intro hmem
      rcases mem_intercalate hmem with hmem | ⟨w, hw, hmem⟩
      · exact absurd hmem (by decide)
      · exact (hplain w hw).2 hmem
    have hsubset := List.map_subset String.ofList (hwords htext)
    rw [Text.words] at hback
    rw [Text.words, String.toList_ofList]
    rwa [hback] at hsubset

/-! ## Texts of clauses -/

/-- What is read of a text that stands as a clause. -/
def itemsIn (text : String) : List String := (Clause.mk "" (words text)).items

/-- Nothing in the text begins a clause of its own. -/
def Unbroken (text : String) : Prop := ∀ w ∈ words text, keyword? w = none

instance (text : String) : Decidable (Unbroken text) := inferInstanceAs (Decidable (∀ _ ∈ _, _))

theorem unbroken_intercalate {items : List String} (h : ∀ x ∈ items, IsItem x) :
    Unbroken (" and ".intercalate items) := by
  obtain ⟨ws, htext, -, hws⟩ := exists_words_intercalate h
  rw [Unbroken, htext, Text.words_intercalate fun w hw => (hws w hw).1]
  exact fun w hw => keyword?_eq_none_iff.mpr (hws w hw).2.2

theorem itemsIn_intercalate {items : List String} (hne : items ≠ []) (h : ∀ x ∈ items, IsItem x) :
    itemsIn (" and ".intercalate items) = items := by
  obtain ⟨ws, htext, -, hws⟩ := exists_words_intercalate h
  have hwords : words (" and ".intercalate items) = ws := by
    rw [htext, Text.words_intercalate fun w hw => (hws w hw).1]
  rw [itemsIn, hwords, Clause.items, ← htext, itemsOf_intercalate hne h, List.map_map]
  simp only [Function.comp_def, String.ofList_toList, List.map_id']

end GameTable.Line
