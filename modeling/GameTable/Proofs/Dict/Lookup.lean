import GameTable.Dict

/-!
# Looking up and listing

A dictionary can be read in two ways, by name (`get?`) and as the list of its
entries. The two agree: in a list in key order an entry stands under a name
just if looking up the name finds it (`Entries.mem_iff_get?`). A dictionary
that is built from a list holds nothing but entries of the list
(`Dict.mem_of_get?_ofList`), and building one from its own entries gives it
back (`Dict.ofList_toList`).
-/

namespace GameTable

universe u

namespace Entries

variable {α : Type u}

theorem mem_of_get? {l : List (String × α)} {k : String} {a : α} (h : get? l k = some a) :
    (k, a) ∈ l := by
  induction l with
  | nil => cases h
  | cons e rest ih =>
      obtain ⟨k', a'⟩ := e
      rw [get?] at h
      split at h
      · rename_i heq
        obtain rfl := Option.some.inj h
        exact heq ▸ List.mem_cons_self ..
      · exact List.mem_cons_of_mem _ (ih h)

theorem mem_iff_get? {l : List (String × α)} (hl : Sorted l) {k : String} {a : α} :
    (k, a) ∈ l ↔ get? l k = some a := by
  refine ⟨fun h => ?_, mem_of_get?⟩
  induction l with
  | nil => cases h
  | cons e rest ih =>
      obtain ⟨k', a'⟩ := e
      obtain ⟨hlt, hrest⟩ := List.pairwise_cons.1 hl
      rw [get?]
      rcases List.mem_cons.1 h with heq | hmem
      · obtain ⟨rfl, rfl⟩ := Prod.mk.inj heq
        rw [if_pos rfl]
      · have hne : k' ≠ k := fun heq => String.lt_irrefl k (heq ▸ hlt _ hmem)
        rw [if_neg hne]
        exact ih hrest hmem

/-- In key order no name stands twice. -/
theorem Sorted.nodup {l : List (String × α)} (h : Sorted l) : (l.map Prod.fst).Nodup := by
  refine List.pairwise_map.mpr (h.imp ?_)
  intro x y hlt heq
  exact String.lt_irrefl y.1 (heq ▸ hlt)

theorem get?_map {β : Type u} (f : α → β) (l : List (String × α)) (k : String) :
    get? (l.map fun e => (e.1, f e.2)) k = (get? l k).map f := by
  induction l with
  | nil => rfl
  | cons e rest ih =>
      rw [List.map_cons, get?, get?]
      split
      · rfl
      · exact ih

theorem mem_of_mem_foldl_insert {l acc : List (String × α)} {e : String × α}
    (h : e ∈ l.foldl (fun acc e => insert acc e.1 e.2) acc) : e ∈ l ∨ e ∈ acc := by
  induction l generalizing acc with
  | nil => exact .inr h
  | cons x rest ih =>
      rcases ih h with hrest | hacc
      · exact .inl (List.mem_cons_of_mem _ hrest)
      · rcases mem_insert hacc with rfl | hacc
        · exact .inl (List.mem_cons_self ..)
        · exact .inr hacc

theorem mem_of_mem_ofList {l : List (String × α)} {e : String × α} (h : e ∈ ofList l) : e ∈ l :=
  (mem_of_mem_foldl_insert h).resolve_right List.not_mem_nil

theorem get?_insert (l : List (String × α)) (k q : String) (a : α) :
    get? (insert l k a) q = if k = q then some a else get? l q := by
  split
  · rename_i h
    rw [← h, get?_insert_self]
  · rename_i h
    exact get?_insert_of_ne l a h

theorem get?_erase (l : List (String × α)) (k q : String) :
    get? (erase l k) q = if k = q then none else get? l q := by
  split
  · rename_i h
    rw [← h, get?_erase_self]
  · rename_i h
    exact get?_erase_of_ne l h

/-- Of two values put in under one name the second is what is left. -/
theorem insert_insert (l : List (String × α)) (k : String) (a b : α) :
    insert (insert l k a) k b = insert l k b := by
  induction l with
  | nil => simp [insert]
  | cons e rest ih =>
      obtain ⟨k', a'⟩ := e
      rw [insert]
      split
      · rename_i hlt
        rw [insert, insert, if_neg (String.lt_irrefl k), if_pos rfl, if_pos hlt]
      · rename_i hlt
        split
        · rename_i heq
          rw [insert, insert, if_neg (String.lt_irrefl k), if_pos rfl, if_neg hlt, if_pos heq]
        · rename_i hne
          rw [insert, insert, if_neg hlt, if_neg hne, if_neg hlt, if_neg hne, ih]

theorem erase_erase (l : List (String × α)) (k : String) : erase (erase l k) k = erase l k := by
  rw [erase, erase, List.filter_filter]
  simp

/-- Putting in what is there already changes nothing. -/
theorem insert_of_get? {l : List (String × α)} (hl : Sorted l) {k : String} {a : α}
    (h : get? l k = some a) : insert l k a = l := by
  refine eq_of_get?_eq (hl.insert k a) hl fun q => ?_
  rw [get?_insert]
  split
  · rename_i heq
    rw [← heq, h]
  · rfl

theorem erase_of_get? {l : List (String × α)} (hl : Sorted l) {k : String}
    (h : get? l k = none) : erase l k = l := by
  refine eq_of_get?_eq (hl.erase k) hl fun q => ?_
  rw [get?_erase]
  split
  · rename_i heq
    rw [← heq, h]
  · rfl

/-- An entry behind all others is put at the end. -/
theorem insert_of_forall_lt {l : List (String × α)} {k : String} (h : ∀ e ∈ l, e.1 < k) (a : α) :
    insert l k a = l ++ [(k, a)] := by
  induction l with
  | nil => rfl
  | cons e rest ih =>
      obtain ⟨k', a'⟩ := e
      have hlt : k' < k := h _ (List.mem_cons_self ..)
      have hne : k ≠ k' := fun heq => String.lt_irrefl k (by rw [← heq] at hlt; exact hlt)
      rw [insert, if_neg (String.lt_asymm hlt), if_neg hne,
        ih fun e he => h e (List.mem_cons_of_mem _ he), List.cons_append]

theorem foldl_insert_of_sorted {l acc : List (String × α)} (h : Sorted (acc ++ l)) :
    l.foldl (fun acc e => insert acc e.1 e.2) acc = acc ++ l := by
  induction l generalizing acc with
  | nil => exact (List.append_nil acc).symm
  | cons e rest ih =>
      have hlast : ∀ x ∈ acc, x.1 < e.1 := fun x hx =>
        (List.pairwise_append.1 h).2.2 x hx e (List.mem_cons_self ..)
      have hsorted : Sorted (acc ++ [e] ++ rest) := List.append_cons acc e rest ▸ h
      rw [List.foldl_cons, insert_of_forall_lt hlast, ih hsorted, ← List.append_cons]

/-- Entries in key order are left in their order. -/
theorem ofList_of_sorted {l : List (String × α)} (h : Sorted l) : ofList l = l := by
  have hsorted : Sorted ([] ++ l) := h
  exact foldl_insert_of_sorted hsorted

end Entries

namespace Dict

variable {α : Type u}

theorem mem_toList_iff {d : Dict α} {k : String} {a : α} :
    (k, a) ∈ d.toList ↔ d.get? k = some a :=
  Entries.mem_iff_get? d.sorted

theorem get?_erase (d : Dict α) (k q : String) :
    (d.erase k).get? q = if k = q then none else d.get? q :=
  Entries.get?_erase ..

theorem insert_insert (d : Dict α) (k : String) (a b : α) :
    (d.insert k a).insert k b = d.insert k b :=
  ext (Entries.insert_insert ..)

theorem get?_map {β : Type u} (f : α → β) (d : Dict α) (k : String) :
    (d.map f).get? k = (d.get? k).map f :=
  Entries.get?_map ..

/-- What is found in a dictionary made from a list was in the list. -/
theorem mem_of_get?_ofList {l : List (String × α)} {k : String} {a : α}
    (h : (ofList l).get? k = some a) : (k, a) ∈ l :=
  Entries.mem_of_mem_ofList (Entries.mem_of_get? h)

@[simp] theorem map_id (d : Dict α) : d.map id = d :=
  ext (List.map_id d.entries)

@[simp] theorem ofList_toList (d : Dict α) : ofList d.toList = d :=
  ext (Entries.ofList_of_sorted d.sorted)

theorem entries_foldl_insert (l : List (String × α)) (d : Dict α) :
    (l.foldl (fun d e => d.insert e.1 e.2) d).entries
      = l.foldl (fun acc e => Entries.insert acc e.1 e.2) d.entries := by
  induction l generalizing d with
  | nil => rfl
  | cons e rest ih => exact ih (d.insert e.1 e.2)

/-- Building up a dictionary from its own entries, changed one by one. -/
theorem foldl_insert_map {β : Type u} (f : α → β) (d : Dict α) :
    d.toList.foldl (fun (acc : Dict β) e => acc.insert e.1 (f e.2)) ∅ = d.map f := by
  have hlist : d.toList.foldl (fun (acc : Dict β) e => acc.insert e.1 (f e.2)) ∅
      = (d.map f).toList.foldl (fun (acc : Dict β) e => acc.insert e.1 e.2) ∅ := by
    rw [toList, map, toList, List.foldl_map]
  rw [hlist]
  refine ext ((entries_foldl_insert ..).trans ?_)
  exact Entries.ofList_of_sorted (d.map f).sorted

end Dict

end GameTable
