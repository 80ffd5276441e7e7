import GameTable.Text.Split

/-!
# Pieces between separators

No piece of a text that is cut at every separator has a separator in it. So
pieces without any, put together with separators between them, are cut into the
same pieces again (`split_intercalate`).
-/

namespace GameTable.Text

theorem splitChars_of_not_mem {sep : Char} {cs : List Char} (h : sep ∉ cs) :
    splitChars sep cs = [cs] := by
  induction cs with
  | nil => rfl
  | cons c cs ih =>
      obtain ⟨hc, hcs⟩ := List.ne_and_not_mem_of_not_mem_cons h
      rw [splitChars, if_neg hc.symm, ih hcs]

/-- What stands in front of a separator is a piece of its own. -/
theorem splitChars_append {sep : Char} {cs : List Char} (h : sep ∉ cs) (rest : List Char) :
    splitChars sep (cs ++ sep :: rest) = cs :: splitChars sep rest := by
  induction cs with
  | nil => rw [List.nil_append, splitChars, if_pos rfl]
  | cons c cs ih =>
      obtain ⟨hc, hcs⟩ := List.ne_and_not_mem_of_not_mem_cons h
      rw [List.cons_append, splitChars, if_neg hc.symm, ih hcs]

theorem not_mem_of_mem_splitChars {sep : Char} {cs piece : List Char}
    (h : piece ∈ splitChars sep cs) : sep ∉ piece := by
  induction cs generalizing piece with
  | nil =>
      obtain rfl := List.mem_singleton.mp h
      exact List.not_mem_nil
  | cons c cs ih =>
      rw [splitChars] at h
      split at h
      · rcases List.mem_cons.mp h with rfl | h
        · exact List.not_mem_nil
        · exact ih h
      · rename_i hc
        cases hcs : splitChars sep cs with
        | nil => exact absurd hcs (splitChars_ne_nil sep cs)
        | cons first rest =>
            rw [hcs] at h ih
            rcases List.mem_cons.mp h with rfl | h
            · exact List.not_mem_cons_of_ne_of_not_mem (Ne.symm hc) (ih (List.mem_cons_self ..))
            · exact ih (List.mem_cons_of_mem _ h)

/-- Pieces put together are cut where they were put together. -/
theorem split_intercalate {sep : Char} {pieces : List String} (hne : pieces ≠ [])
    (h : ∀ piece ∈ pieces, sep ∉ piece.toList) :
    split sep ((String.singleton sep).intercalate pieces) = pieces := by
  induction pieces with
  | nil => exact absurd rfl hne
  | cons piece pieces ih =>
      rw [List.forall_mem_cons] at h
      cases pieces with
      | nil =>
          rw [String.intercalate_singleton, split, splitChars_of_not_mem h.1, List.map_singleton,
            String.ofList_toList]
      | cons next pieces =>
          have hrest := ih (List.cons_ne_nil next pieces) h.2
          rw [split] at hrest
          rw [String.intercalate_cons_cons, split, String.append_assoc, String.toList_append,
            String.toList_append, String.toList_singleton, List.singleton_append,
            splitChars_append h.1, List.map_cons, hrest, String.ofList_toList]

end GameTable.Text
