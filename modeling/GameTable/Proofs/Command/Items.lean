import GameTable.Proofs.Command.Clause

/-!
# The items of a clause

A clause is cut at commas, then each part at `and` between blanks, and what is
left of the pieces without the blanks at their ends are the items. Since neither
separator can overlap the other, this comes to the same as going through the
text once, from the left, and cutting at whichever of them comes next
(`Cuts.eq`). Every text can be cut in this way (`exists_cuts`), and no piece
holds a separator, so no item does (`Clause.tidy_of_mem_items`).

From the left matters. The text `x and and y` holds the separator in two places
that overlap, and it is cut at the first.
-/

namespace GameTable.Line

open Text (isBlank)

/-- The word `and` between blanks. -/
def separator : List Char := [' ', 'a', 'n', 'd', ' ']

/-- The text is cut from the left at commas and at `and` into pieces. -/
inductive Cuts : List Char → List (List Char) → Prop
  | whole {cs : List Char} : ',' ∉ cs → ¬ separator <:+: cs → Cuts cs [cs]
  | comma {cs rest : List Char} {pieces : List (List Char)} :
      ',' ∉ cs → ¬ separator <:+: cs → Cuts rest pieces → Cuts (cs ++ ',' :: rest) (cs :: pieces)
  /-- No separator begins before this one. -/
  | and {cs rest : List Char} {pieces : List (List Char)} :
      ',' ∉ cs → ¬ separator <:+: cs ++ [' ', 'a', 'n', 'd'] → Cuts rest pieces →
      Cuts (cs ++ (separator ++ rest)) (cs :: pieces)

/-! ## Every text can be cut -/

/-- No separator begins at `c`, and none is in the characters after it. -/
theorem not_infix_cons {c : Char} {cs rest : List Char} (hcs : ¬ separator <:+: cs)
    (hhere : ¬ separator <+: c :: (cs ++ rest)) : ¬ separator <:+: c :: cs := by
  rw [List.infix_cons_iff]
  rintro (hhead | hinside)
  · exact hhere (hhead.trans (List.prefix_append (c :: cs) rest))
  · exact hcs hinside

/-- A character at which nothing is cut belongs to the first piece. -/
theorem Cuts.cons {c : Char} {cs : List Char} {pieces : List (List Char)} (h : Cuts cs pieces)
    (hcomma : c ≠ ',') (hand : ¬ separator <+: c :: cs) : ∃ pieces, Cuts (c :: cs) pieces := by
  have hplain {w : List Char} (hw : ',' ∉ w) : ',' ∉ c :: w :=
    List.not_mem_cons_of_ne_of_not_mem hcomma.symm hw
  cases h with
  | whole hw hs =>
      rw [← List.append_nil cs] at hand
      exact ⟨_, .whole (hplain hw) (not_infix_cons hs hand)⟩
  | comma hw hs hrest => exact ⟨_, .comma (hplain hw) (not_infix_cons hs hand) hrest⟩
  | @and w rest _ hw hs hrest =>
      have hlast : w ++ (separator ++ rest) = w ++ [' ', 'a', 'n', 'd'] ++ ' ' :: rest := by
        simp [separator]
      rw [hlast] at hand
      exact ⟨_, .and (hplain hw) (not_infix_cons hs hand) hrest⟩

theorem exists_cuts (cs : List Char) : ∃ pieces, Cuts cs pieces := by
  induction hlength : cs.length using Nat.strongRecOn generalizing cs with
  | ind n ih =>
      subst hlength
      cases cs with
      | nil => exact ⟨_, .whole List.not_mem_nil (by decide)⟩
      | cons c cs =>
          obtain ⟨pieces, hpieces⟩ := ih cs.length (Nat.lt_succ_self _) cs rfl
          by_cases hcomma : c = ','
          · subst hcomma
            have hcuts : Cuts ([] ++ ',' :: cs) _ := .comma List.not_mem_nil (by decide) hpieces
            exact ⟨_, hcuts⟩
          · by_cases hand : separator <+: c :: cs
            · obtain ⟨rest, hrest⟩ := hand
              rw [← hrest] at ih ⊢
              have hlt : rest.length < (separator ++ rest).length := by
                rw [List.length_append]
                exact Nat.lt_add_of_pos_left (by decide)
              obtain ⟨more, hmore⟩ := ih rest.length hlt rest rfl
              have hcuts : Cuts ([] ++ (separator ++ rest)) _ :=
                .and List.not_mem_nil (by decide) hmore
              exact ⟨_, hcuts⟩
            · exact hpieces.cons hcomma hand

/-! ## Cutting at commas first -/

theorem splitAnd_of_no_separator {cs : List Char} (h : ¬ separator <:+: cs) : splitAnd cs = [cs] := by
  induction cs with
  | nil => rfl
  | cons c cs ih =>
      rw [List.infix_cons_iff, not_or] at h
      refine splitAnd_cons (fun rest heq => h.1 ?_) (ih h.2)
      rw [heq]
      exact List.prefix_append separator rest

theorem splitAnd_append_separator {cs : List Char} (h : ¬ separator <:+: cs ++ [' ', 'a', 'n', 'd'])
    (rest : List Char) : splitAnd (cs ++ (separator ++ rest)) = cs :: splitAnd rest := by
  induction cs with
  | nil => rfl
  | cons c cs ih =>
      rw [List.cons_append, List.infix_cons_iff, not_or] at h
      refine splitAnd_cons (fun tail heq => h.1 ?_) (ih h.2)
      have hwhole : c :: (cs ++ [' ', 'a', 'n', 'd']) <+: c :: (cs ++ (separator ++ rest)) :=
        ⟨' ' :: rest, by simp [separator]⟩
      have htail : separator <+: c :: (cs ++ (separator ++ rest)) := heq ▸ List.prefix_append ..
      exact List.prefix_of_prefix_length_le htail hwhole (by simp [separator])

theorem splitChars_append_of_not_mem {sep : Char} {cs : List Char} (h : sep ∉ cs)
    {rest first : List Char} {others : List (List Char)}
    (hrest : Text.splitChars sep rest = first :: others) :
    Text.splitChars sep (cs ++ rest) = (cs ++ first) :: others := by
  induction cs with
  | nil => exact hrest
  | cons c cs ih =>
      obtain ⟨hc, hcs⟩ := List.ne_and_not_mem_of_not_mem_cons h
      rw [List.cons_append, Text.splitChars, if_neg hc.symm, ih hcs]
      rfl

theorem Cuts.eq {cs : List Char} {pieces : List (List Char)} (h : Cuts cs pieces) :
    (Text.splitChars ',' cs).flatMap splitAnd = pieces := by
  induction h with
  | whole hcomma hand =>
      rw [Text.splitChars_of_not_mem hcomma, List.flatMap_singleton, splitAnd_of_no_separator hand]
  | comma hcomma hand _ ih =>
      rw [Text.splitChars_append hcomma, List.flatMap_cons, splitAnd_of_no_separator hand, ih]
      rfl
  | @and cs rest pieces hcomma hand _ ih =>
      obtain ⟨first, others, hrest⟩ := List.exists_cons_of_ne_nil (Text.splitChars_ne_nil ',' rest)
      have hword : ',' ∉ cs ++ separator := by simp [hcomma, separator]
      rw [hrest, List.flatMap_cons] at ih
      rw [← List.append_assoc, splitChars_append_of_not_mem hword hrest, List.flatMap_cons,
        List.append_assoc, splitAnd_append_separator hand, List.cons_append, ih]

/-- No piece holds a separator. -/
theorem Cuts.not_mem {cs : List Char} {pieces : List (List Char)} (h : Cuts cs pieces) :
    ∀ piece ∈ pieces, ',' ∉ piece ∧ ¬ separator <:+: piece := by
  induction h with
  | whole hcomma hand =>
      intro piece hpiece
      rw [List.mem_singleton.mp hpiece]
      exact ⟨hcomma, hand⟩
  | comma hcomma hand _ ih => exact List.forall_mem_cons.mpr ⟨⟨hcomma, hand⟩, ih⟩
  | and hcomma hand _ ih =>
      refine List.forall_mem_cons.mpr ⟨⟨hcomma, fun hinside => hand ?_⟩, ih⟩
      exact hinside.trans (List.prefix_append ..).isInfix

/-! ## Items -/

/-- The items are what is left of the pieces without the blanks at their ends. -/
theorem Cuts.itemsOf_eq {cs : List Char} {pieces : List (List Char)} (h : Cuts cs pieces) :
    itemsOf cs = (pieces.map Text.trimChars).filter fun item => !item.isEmpty := by
  rw [itemsOf, h.eq]

/-- The text is something, has no blank at either end, and holds no separator. -/
structure Tidy (x : String) : Prop where
  ne_empty : x ≠ ""
  begins : ∀ c, x.toList.head? = some c → isBlank c = false
  ends : ∀ c, x.toList.getLast? = some c → isBlank c = false
  comma : ',' ∉ x.toList
  and : ¬ separator <:+: x.toList

theorem Clause.tidy_of_mem_items {c : Clause} {x : String} (h : x ∈ c.items) : Tidy x := by
  obtain ⟨hne, hcomma, -⟩ := c.item_of_mem_items h
  obtain ⟨item, hitem, rfl⟩ := List.mem_map.mp h
  obtain ⟨pieces, hpieces⟩ := exists_cuts (" ".intercalate c.words).toList
  rw [hpieces.itemsOf_eq] at hitem
  obtain ⟨piece, hpiece, rfl⟩ := List.mem_map.mp (List.mem_filter.mp hitem).1
  rw [String.toList_ofList] at hcomma
  refine ⟨hne, ?_, ?_, by rwa [String.toList_ofList], ?_⟩
  · intro d hd
    rw [String.toList_ofList] at hd
    exact Text.not_blank_of_head?_trimChars hd
  · intro d hd
    rw [String.toList_ofList] at hd
    exact Text.not_blank_of_getLast?_trimChars hd
  · rw [String.toList_ofList]
    exact fun hinside => (hpieces.not_mem piece hpiece).2 (hinside.trans (Text.trimChars_isInfix piece))

end GameTable.Line
