import GameTable.Proofs.Json.Reading

/-!
# Documents that nest too deeply

The reader keeps as many levels of lists and objects as it is told to and
passes over what lies deeper. What it makes of a printed document is `readTo`:
the document with an unreadable part in place of every collection below. That
is the document itself if the levels suffice (`readTo_of_levels_le`), and
nothing if they do not (`toJson?_readTo_of_lt`).

Passing over does not recurse but keeps the closing characters that are due. A
printed document does not disturb them: whatever collections are open, it is
passed over as one item (`passItem_print`), so that a collection is left where
it ends (`readDeep_printItems`, `readDeep_printMembers`).
-/

namespace GameTable.Json

/-! ## What is left of a document -/

mutual

/-- The document as it is read with so many levels. -/
def readTo : Nat → Json → Written
  | 0, .arr _ => .unreadable
  | 0, .obj _ => .unreadable
  | depth + 1, .arr items => .arr (itemsReadTo depth items)
  | depth + 1, .obj members => .obj (membersReadTo depth members)
  | _, .null => .null
  | _, .bool b => .bool b
  | _, .int n => .int n
  | _, .float x => .float x
  | _, .str s => .str s

def itemsReadTo (depth : Nat) : List Json → List Written
  | [] => []
  | j :: rest => readTo depth j :: itemsReadTo depth rest

def membersReadTo (depth : Nat) : List (String × Json) → List (String × Written)
  | [] => []
  | (k, j) :: rest => (k, readTo depth j) :: membersReadTo depth rest

end

theorem readTo_scalar {j : Json} (hscalar : j.levels = 0) (depth : Nat) :
    readTo depth j = written j := by
  cases j with
  | arr items => cases hscalar
  | obj members => cases hscalar
  | _ => cases depth <;> rfl

mutual

/-- With enough levels all of the document is read. -/
theorem readTo_of_levels_le : ∀ {depth : Nat} (j : Json), j.levels ≤ depth →
    readTo depth j = written j
  | depth, .null, _ | depth, .bool _, _ | depth, .int _, _ | depth, .float _, _
  | depth, .str _, _ => readTo_scalar rfl depth
  | depth + 1, .arr items, h => by
      rw [readTo, written, itemsReadTo_of_levels_le items (Nat.le_of_succ_le_succ h)]
  | depth + 1, .obj members, h => by
      rw [readTo, written, membersReadTo_of_levels_le members (Nat.le_of_succ_le_succ h)]

theorem itemsReadTo_of_levels_le : ∀ {depth : Nat} (items : List Json),
    levelsItems items ≤ depth → itemsReadTo depth items = writtenItems items
  | _, [], _ => rfl
  | depth, j :: rest, h => by
      obtain ⟨hj, hrest⟩ := Nat.max_le.mp h
      rw [itemsReadTo, writtenItems, readTo_of_levels_le j hj, itemsReadTo_of_levels_le rest hrest]

theorem membersReadTo_of_levels_le : ∀ {depth : Nat} (members : List (String × Json)),
    levelsMembers members ≤ depth → membersReadTo depth members = writtenMembers members
  | _, [], _ => rfl
  | depth, (k, j) :: rest, h => by
      obtain ⟨hj, hrest⟩ := Nat.max_le.mp h
      rw [membersReadTo, writtenMembers, readTo_of_levels_le j hj,
        membersReadTo_of_levels_le rest hrest]

end

mutual

/-- A document with more levels than are read stands for nothing. -/
theorem toJson?_readTo_of_lt : ∀ {depth : Nat} (j : Json), depth < j.levels →
    (readTo depth j).toJson? = none
  | 0, .arr _, _ | 0, .obj _, _ => rfl
  | depth + 1, .arr items, h => by
      rw [readTo, Written.toJson?, itemsToJson?_readTo_of_lt items (Nat.lt_of_succ_lt_succ h)]
      rfl
  | depth + 1, .obj members, h => by
      rw [readTo, Written.toJson?, membersToJson?_readTo_of_lt members (Nat.lt_of_succ_lt_succ h)]
      rfl

theorem itemsToJson?_readTo_of_lt : ∀ {depth : Nat} (items : List Json),
    depth < levelsItems items → Written.itemsToJson? (itemsReadTo depth items) = none
  | depth, j :: rest, h => by
      have hdeep : depth < levels j ∨ depth < levelsItems rest := by
        rw [levelsItems] at h
        omega
      rw [itemsReadTo, Written.itemsToJson?]
      rcases hdeep with hj | hrest
      · rw [toJson?_readTo_of_lt j hj]
        rfl
      · rw [itemsToJson?_readTo_of_lt rest hrest]
        cases (readTo depth j).toJson? <;> rfl

theorem membersToJson?_readTo_of_lt : ∀ {depth : Nat} (members : List (String × Json)),
    depth < levelsMembers members → Written.membersToJson? (membersReadTo depth members) = none
  | depth, (k, j) :: rest, h => by
      have hdeep : depth < levels j ∨ depth < levelsMembers rest := by
        rw [levelsMembers] at h
        omega
      rw [membersReadTo, Written.membersToJson?]
      rcases hdeep with hj | hrest
      · rw [toJson?_readTo_of_lt j hj]
        rfl
      · rw [membersToJson?_readTo_of_lt rest hrest]
        cases (readTo depth j).toJson? <;> rfl

end

/-! ## Passing over -/

/-- Passes over one item inside of the innermost collection, and over what
follows. -/
def passItem (fuel : Nat) (closing cs : List Char) : Option (List Char) :=
  match skipSpace cs with
  | '[' :: rest => passOver fuel .itemOrClose (']' :: closing) rest
  | '\x7b' :: rest => passOver fuel .itemOrClose ('\x7d' :: closing) rest
  | cs => do
    let (_, rest) ← readScalar cs
    passOver fuel .commaOrClose closing rest

section Passing

variable {fuel : Nat} {closing cs tail : List Char} {c : Char}

theorem passOver_list (hspace : isSpace c = false) :
    passOver (fuel + 1) .item (']' :: closing) (c :: cs)
      = passItem fuel (']' :: closing) (c :: cs) := by
  rw [passOver, skipSpace_cons hspace]
  rfl

theorem passOver_object (k : String) :
    passOver (fuel + 1) .item ('\x7d' :: closing) (printText k ++ ':' :: cs)
      = passItem fuel ('\x7d' :: closing) cs := by
  have htext : printText k ++ ':' :: cs
      = '"' :: (k.toList.flatMap escapeChar ++ '"' :: ':' :: cs) := by
    simp [printText]
  rw [passOver, readName_printText, htext, skipSpace_cons rfl]
  rfl

theorem passOver_itemOrClose {close : Char} (hspace : isSpace c = false) (hc : c ≠ close) :
    passOver (fuel + 1) .itemOrClose (close :: closing) (c :: cs)
      = passOver (fuel + 1) .item (close :: closing) (c :: cs) := by
  rw [passOver, passOver, skipSpace_cons hspace]
  simp [hc]

theorem passOver_empty {close : Char} (hspace : isSpace close = false) :
    passOver (fuel + 1) .itemOrClose (close :: closing) (close :: cs)
      = passOver fuel .commaOrClose closing cs := by
  rw [passOver, skipSpace_cons hspace]
  simp

theorem passOver_close {close : Char} (hspace : isSpace close = false) :
    passOver (fuel + 1) .commaOrClose (close :: closing) (close :: cs)
      = passOver fuel .commaOrClose closing cs := by
  rw [passOver, skipSpace_cons hspace]
  simp

theorem passOver_comma {close : Char} (hclose : close ≠ ',') :
    passOver (fuel + 1) .commaOrClose (close :: closing) (',' :: cs)
      = passOver fuel .item (close :: closing) cs := by
  rw [passOver, skipSpace_cons rfl]
  simp [hclose.symm]

theorem passItem_list :
    passItem fuel closing ('[' :: cs) = passOver fuel .itemOrClose (']' :: closing) cs := by
  rw [passItem, skipSpace_cons rfl]
  rfl

theorem passItem_object :
    passItem fuel closing ('\x7b' :: cs) = passOver fuel .itemOrClose ('\x7d' :: closing) cs := by
  rw [passItem, skipSpace_cons rfl]
  rfl

theorem passItem_scalar {j : Json} (h : j.Exact) (hscalar : j.levels = 0)
    (ht : EndsNumber tail) :
    passItem fuel closing (print j ++ tail) = passOver fuel .commaOrClose closing tail := by
  obtain ⟨c, rest, heq, hspace, hlist, hobject, -⟩ := print_scalar_head h hscalar
  have hread := readScalar_print h hscalar ht
  rw [heq, List.cons_append] at hread ⊢
  rw [passItem, skipSpace_cons hspace]
  split
  · exact absurd (by assumption) (by simp [hlist])
  · exact absurd (by assumption) (by simp [hobject])
  · rw [hread]
    rfl

/-- Passing over goes on behind an item, with enough fuel for the rest. -/
def Reaches (outcome : Option (List Char)) (closing rest : List Char) : Prop :=
  ∃ fuel > rest.length, outcome = passOver fuel .commaOrClose closing rest

variable {outcome : Option (List Char)} {close : Char}

/-- At its closing character a collection is left. -/
theorem Reaches.leave (h : Reaches outcome (close :: closing) (close :: tail))
    (hspace : isSpace close = false) : Reaches outcome closing tail := by
  obtain ⟨fuel, hfuel, rfl⟩ := h
  obtain ⟨fuel, rfl⟩ := Nat.exists_eq_succ_of_ne_zero (Nat.ne_zero_of_lt hfuel)
  exact ⟨fuel, Nat.lt_of_succ_lt_succ hfuel, passOver_close hspace⟩

/-- At a comma the next item is passed over. -/
theorem Reaches.next (h : Reaches outcome (close :: closing) (',' :: cs)) (hclose : close ≠ ',')
    (hnext : ∀ fuel ≥ cs.length,
      Reaches (passOver (fuel + 1) .item (close :: closing) cs) closing tail) :
    Reaches outcome closing tail := by
  obtain ⟨fuel, hfuel, rfl⟩ := h
  obtain ⟨more, rfl⟩ := Nat.exists_eq_add_of_le' (Nat.le_trans (Nat.le_add_left 2 _) hfuel)
  rw [passOver_comma hclose]
  exact hnext more (Nat.le_of_succ_le_succ (Nat.le_of_succ_le_succ hfuel))

theorem le_of_printText_le {k : String} (h : (printText k ++ ':' :: cs).length ≤ fuel) :
    cs.length ≤ fuel := by
  rw [List.length_append, List.length_cons] at h
  omega

end Passing

mutual

/-- A document is passed over as one item, whatever collections are open. -/
theorem passItem_print : ∀ {fuel : Nat} (j : Json) (closing tail : List Char), j.Exact →
    EndsNumber tail → (print j ++ tail).length ≤ fuel →
    Reaches (passItem fuel closing (print j ++ tail)) closing tail
  | fuel, .null, _, tail, h, ht, hfuel | fuel, .bool _, _, tail, h, ht, hfuel
  | fuel, .int _, _, tail, h, ht, hfuel | fuel, .float _, _, tail, h, ht, hfuel
  | fuel, .str _, _, tail, h, ht, hfuel => by
      obtain ⟨c, rest, heq, -⟩ := print_head h
      rw [heq, List.length_append, List.length_cons] at hfuel
      exact ⟨fuel, by omega, passItem_scalar h rfl ht⟩
  | fuel + 1, .arr items, closing, tail, h, _, hfuel => by
      rw [print, List.append_assoc, List.cons_append, passItem_list]
      exact passOver_printItems_close items closing tail h (by simpa [print] using hfuel)
  | fuel + 1, .obj members, closing, tail, h, _, hfuel => by
      rw [print, List.append_assoc, List.cons_append, passItem_object]
      exact passOver_printMembers_close members closing tail h (by simpa [print] using hfuel)
termination_by _ j => (sizeOf j, 0)

theorem passOver_printItems_close : ∀ {fuel : Nat} (items : List Json) (closing tail : List Char),
    ExactItems items → (printItems items ++ ']' :: tail).length ≤ fuel →
    Reaches (passOver (fuel + 1) .itemOrClose (']' :: closing) (printItems items ++ ']' :: tail))
      closing tail
  | fuel, [], closing, tail, _, hfuel => ⟨fuel, hfuel, passOver_empty rfl⟩
  | fuel, j :: rest, closing, tail, h, hfuel => by
      have hitems := passOver_printItems (j :: rest) closing tail (List.cons_ne_nil _ _) h hfuel
      obtain ⟨c, more, heq, hspace, hclose⟩ := printItems_head (List.cons_ne_nil _ _) h
      rw [heq] at hitems ⊢
      exact (passOver_itemOrClose hspace hclose).symm ▸ hitems
termination_by _ items => (sizeOf items, 1)

theorem passOver_printItems : ∀ {fuel : Nat} (items : List Json) (closing tail : List Char),
    items ≠ [] → ExactItems items → (printItems items ++ ']' :: tail).length ≤ fuel →
    Reaches (passOver (fuel + 1) .item (']' :: closing) (printItems items ++ ']' :: tail))
      closing tail
  | _, [], _, _, hne, _, _ => absurd rfl hne
  | fuel, [j], closing, tail, _, h, hfuel => by
      obtain ⟨c, more, heq, hspace, -⟩ := print_head h.1
      have hj := passItem_print j (']' :: closing) (']' :: tail) h.1 (endsNumber_cons rfl) hfuel
      rw [printItems]
      rw [heq] at hj ⊢
      exact (passOver_list hspace).symm ▸ hj.leave rfl
  | fuel, j :: j' :: rest, closing, tail, _, h, hfuel => by
      obtain ⟨c, more, heq, hspace, -⟩ := print_head h.1
      have htext : printItems (j :: j' :: rest) ++ ']' :: tail
          = print j ++ ',' :: (printItems (j' :: rest) ++ ']' :: tail) := by
        simp [printItems]
      rw [htext] at hfuel ⊢
      have hj := passItem_print j (']' :: closing) _ h.1 (endsNumber_cons rfl) hfuel
      rw [heq] at hj ⊢
      refine (passOver_list hspace).symm ▸ hj.next (by decide) fun fuel hrest => ?_
      exact passOver_printItems (j' :: rest) closing tail (List.cons_ne_nil _ _) h.2 hrest
termination_by _ items => (sizeOf items, 0)

theorem passOver_printMembers_close : ∀ {fuel : Nat} (members : List (String × Json))
    (closing tail : List Char),
    ExactMembers members → (printMembers members ++ '\x7d' :: tail).length ≤ fuel →
    Reaches (passOver (fuel + 1) .itemOrClose ('\x7d' :: closing)
      (printMembers members ++ '\x7d' :: tail)) closing tail
  | fuel, [], closing, tail, _, hfuel => ⟨fuel, hfuel, passOver_empty rfl⟩
  | fuel, m :: rest, closing, tail, h, hfuel => by
      have hmembers := passOver_printMembers (m :: rest) closing tail (List.cons_ne_nil _ _) h hfuel
      obtain ⟨more, heq⟩ := printMembers_head (List.cons_ne_nil m rest)
      rw [heq] at hmembers ⊢
      have hopen : '"' ≠ '\x7d' := by decide
      exact (passOver_itemOrClose rfl hopen).symm ▸ hmembers
termination_by _ members => (sizeOf members, 1)

theorem passOver_printMembers : ∀ {fuel : Nat} (members : List (String × Json))
    (closing tail : List Char),
    members ≠ [] → ExactMembers members →
    (printMembers members ++ '\x7d' :: tail).length ≤ fuel →
    Reaches (passOver (fuel + 1) .item ('\x7d' :: closing)
      (printMembers members ++ '\x7d' :: tail)) closing tail
  | _, [], _, _, hne, _, _ => absurd rfl hne
  | fuel, [(k, j)], closing, tail, _, h, hfuel => by
      have htext : printMembers [(k, j)] ++ '\x7d' :: tail
          = printText k ++ ':' :: (print j ++ '\x7d' :: tail) := by
        simp [printMembers]
      rw [htext] at hfuel ⊢
      have hj := passItem_print j ('\x7d' :: closing) ('\x7d' :: tail) h.1 (endsNumber_cons rfl)
        (le_of_printText_le hfuel)
      exact (passOver_object k).symm ▸ hj.leave rfl
  | fuel, (k, j) :: m :: rest, closing, tail, _, h, hfuel => by
      have htext : printMembers ((k, j) :: m :: rest) ++ '\x7d' :: tail
          = printText k ++ ':' :: (print j
            ++ ',' :: (printMembers (m :: rest) ++ '\x7d' :: tail)) := by
        simp [printMembers]
      rw [htext] at hfuel ⊢
      have hj := passItem_print j ('\x7d' :: closing) _ h.1 (endsNumber_cons rfl)
        (le_of_printText_le hfuel)
      refine (passOver_object k).symm ▸ hj.next (by decide) fun fuel hrest => ?_
      exact passOver_printMembers (m :: rest) closing tail (List.cons_ne_nil _ _) h.2 hrest
termination_by _ members => (sizeOf members, 0)

end

/-- A list that lies too deep is left where it ends. -/
theorem readDeep_printItems {items : List Json} (h : ExactItems items) (tail : List Char) :
    readDeep ']' (printItems items ++ ']' :: tail) = some (.unreadable, tail) := by
  obtain ⟨fuel, hfuel, heq⟩ := passOver_printItems_close items [] tail h (Nat.le_refl _)
  obtain ⟨fuel, rfl⟩ := Nat.exists_eq_succ_of_ne_zero (Nat.ne_zero_of_lt hfuel)
  rw [readDeep, heq]
  rfl

/-- An object that lies too deep is left where it ends. -/
theorem readDeep_printMembers {members : List (String × Json)} (h : ExactMembers members)
    (tail : List Char) :
    readDeep '\x7d' (printMembers members ++ '\x7d' :: tail) = some (.unreadable, tail) := by
  obtain ⟨fuel, hfuel, heq⟩ := passOver_printMembers_close members [] tail h (Nat.le_refl _)
  obtain ⟨fuel, rfl⟩ := Nat.exists_eq_succ_of_ne_zero (Nat.ne_zero_of_lt hfuel)
  rw [readDeep, heq]
  rfl

end GameTable.Json
