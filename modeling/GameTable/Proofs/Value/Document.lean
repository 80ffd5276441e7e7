import GameTable.Value.Document

/-!
# What storing a value keeps

Values are stored as documents, and stored documents are seen as values. Either
way one kind of number has no place on the other side: a float that is infinite
or not-a-number is null in a document (`ofJson_toJson`), and an integer beyond
the signed range is a float in a value (`toJson_ofJson_iff`). Nothing else is
lost on the way there and back.

What is said of all numbers of a value or a document is said of its `scalars`,
the parts that are neither lists nor maps, at any depth.
-/

namespace GameTable

/-- What holds of all parts of one kind holds of them on either side. -/
theorem forall_mem_append {α β : Type} {kind : α → β} {P : α → Prop} {xs ys : List β} :
    (∀ a, kind a ∈ xs ++ ys → P a)
      ↔ (∀ a, kind a ∈ xs → P a) ∧ ∀ a, kind a ∈ ys → P a := by
  simp only [List.mem_append, or_imp, forall_and]

namespace Json

mutual

/-- The parts that are neither lists nor objects, at any depth. -/
def scalars : Json → List Json
  | .arr items => scalarsOfItems items
  | .obj members => scalarsOfMembers members
  | j => [j]

def scalarsOfItems : List Json → List Json
  | [] => []
  | j :: rest => scalars j ++ scalarsOfItems rest

def scalarsOfMembers : List (String × Json) → List Json
  | [] => []
  | (_, j) :: rest => scalars j ++ scalarsOfMembers rest

end

end Json

namespace Value

mutual

/-- The parts that are neither lists nor maps, at any depth. -/
def scalars : Value → List Value
  | .list items => scalarsOfItems items
  | .map entries => scalarsOfEntries entries
  | v => [v]

def scalarsOfItems : List Value → List Value
  | [] => []
  | v :: rest => scalars v ++ scalarsOfItems rest

def scalarsOfEntries : List (String × Value) → List Value
  | [] => []
  | (_, v) :: rest => scalars v ++ scalarsOfEntries rest

end

mutual

/-- The value with null in the place of every float that is not finite, at any
depth. -/
def finiteOnly : Value → Value
  | .double x => if x.isFinite then .double x else .null
  | .list items => .list (finiteItems items)
  | .map entries => .map (finiteEntries entries)
  | v => v

def finiteItems : List Value → List Value
  | [] => []
  | v :: rest => finiteOnly v :: finiteItems rest

def finiteEntries : List (String × Value) → List (String × Value)
  | [] => []
  | (k, v) :: rest => (k, finiteOnly v) :: finiteEntries rest

end

/-! ## Values -/

mutual

/-- A stored value is read back with null in the place of what is no finite
float. -/
theorem ofJson_toJson : ∀ v : Value, (∀ n, .int n ∈ v.scalars → Fits n) →
    ofJson (toJson v) = v.finiteOnly
  | .null, _ | .bool _, _ | .str _, _ => rfl
  | .int n, h => by
      rw [toJson, ofJson, if_pos (h n (List.mem_singleton_self _))]
      rfl
  | .double x, _ => by
      rw [toJson, FiniteFloat.ofFloat?, finiteOnly]
      split <;> rfl
  | .list items, h => by rw [toJson, ofJson, itemsOfJson_itemsToJson items h, finiteOnly]
  | .map entries, h => by rw [toJson, ofJson, entriesOfJson_entriesToJson entries h, finiteOnly]

theorem itemsOfJson_itemsToJson : ∀ items : List Value,
    (∀ n, .int n ∈ scalarsOfItems items → Fits n) →
    itemsOfJson (itemsToJson items) = finiteItems items
  | [], _ => rfl
  | v :: rest, h => by
      obtain ⟨hv, hrest⟩ := forall_mem_append.mp h
      rw [itemsToJson, itemsOfJson, ofJson_toJson v hv, itemsOfJson_itemsToJson rest hrest,
        finiteItems]

theorem entriesOfJson_entriesToJson : ∀ entries : List (String × Value),
    (∀ n, .int n ∈ scalarsOfEntries entries → Fits n) →
    entriesOfJson (entriesToJson entries) = finiteEntries entries
  | [], _ => rfl
  | (k, v) :: rest, h => by
      obtain ⟨hv, hrest⟩ := forall_mem_append.mp h
      rw [entriesToJson, entriesOfJson, ofJson_toJson v hv,
        entriesOfJson_entriesToJson rest hrest, finiteEntries]

end

mutual

/-- Nothing is replaced in a value just if all of its floats are finite. -/
theorem finiteOnly_eq_self_iff : ∀ v : Value,
    v.finiteOnly = v ↔ ∀ x, .double x ∈ v.scalars → x.isFinite = true
  | .null | .bool _ | .int _ | .str _ => by simp [finiteOnly, scalars]
  | .double x => by simp [finiteOnly, scalars]
  | .list items => by
      rw [finiteOnly, Value.list.injEq, scalars, finiteItems_eq_self_iff items]
  | .map entries => by
      rw [finiteOnly, Value.map.injEq, scalars, finiteEntries_eq_self_iff entries]

theorem finiteItems_eq_self_iff : ∀ items : List Value,
    finiteItems items = items ↔ ∀ x, .double x ∈ scalarsOfItems items → x.isFinite = true
  | [] => by simp [finiteItems, scalarsOfItems]
  | v :: rest => by
      rw [finiteItems, List.cons.injEq, scalarsOfItems, forall_mem_append,
        finiteOnly_eq_self_iff v, finiteItems_eq_self_iff rest]

theorem finiteEntries_eq_self_iff : ∀ entries : List (String × Value),
    finiteEntries entries = entries
      ↔ ∀ x, .double x ∈ scalarsOfEntries entries → x.isFinite = true
  | [] => by simp [finiteEntries, scalarsOfEntries]
  | (k, v) :: rest => by
      rw [finiteEntries, List.cons.injEq, Prod.mk.injEq, eq_self, true_and, scalarsOfEntries,
        forall_mem_append, finiteOnly_eq_self_iff v, finiteEntries_eq_self_iff rest]

end

/-! ## Documents -/

mutual

/-- A document is the same when it is stored again just if none of its integers
lies beyond the signed range. -/
theorem toJson_ofJson_iff : ∀ j : Json, (∀ n, .int n ∈ j.scalars → minInteger ≤ n) →
    (toJson (ofJson j) = j ↔ ∀ n, .int n ∈ j.scalars → n ≤ maxInteger)
  | .null, _ | .bool _, _ | .str _, _ => by simp [ofJson, toJson, Json.scalars]
  | .float x, _ => by simp [ofJson, toJson, Json.scalars, FiniteFloat.ofFloat?, x.finite]
  | .int n, h => by
      have hleast : minInteger ≤ n := h n (List.mem_singleton_self _)
      simp only [Json.scalars, List.mem_singleton, Json.int.injEq, forall_eq, ofJson]
      split
      · rename_i hfits
        exact iff_of_true rfl hfits.2
      · rename_i hwide
        refine iff_of_false ?_ fun hle => hwide ⟨hleast, hle⟩
        rw [toJson]
        cases FiniteFloat.ofFloat? (Binary64.ofInt n) <;> simp
  | .arr items, h => by
      rw [ofJson, toJson, Json.arr.injEq, Json.scalars, itemsToJson_itemsOfJson_iff items h]
  | .obj members, h => by
      rw [ofJson, toJson, Json.obj.injEq, Json.scalars,
        entriesToJson_entriesOfJson_iff members h]

theorem itemsToJson_itemsOfJson_iff : ∀ items : List Json,
    (∀ n, .int n ∈ Json.scalarsOfItems items → minInteger ≤ n) →
    (itemsToJson (itemsOfJson items) = items
      ↔ ∀ n, .int n ∈ Json.scalarsOfItems items → n ≤ maxInteger)
  | [], _ => by simp [itemsOfJson, itemsToJson, Json.scalarsOfItems]
  | j :: rest, h => by
      obtain ⟨hj, hrest⟩ := forall_mem_append.mp h
      rw [itemsOfJson, itemsToJson, List.cons.injEq, Json.scalarsOfItems, forall_mem_append,
        toJson_ofJson_iff j hj, itemsToJson_itemsOfJson_iff rest hrest]

theorem entriesToJson_entriesOfJson_iff : ∀ members : List (String × Json),
    (∀ n, .int n ∈ Json.scalarsOfMembers members → minInteger ≤ n) →
    (entriesToJson (entriesOfJson members) = members
      ↔ ∀ n, .int n ∈ Json.scalarsOfMembers members → n ≤ maxInteger)
  | [], _ => by simp [entriesOfJson, entriesToJson, Json.scalarsOfMembers]
  | (k, j) :: rest, h => by
      obtain ⟨hj, hrest⟩ := forall_mem_append.mp h
      rw [entriesOfJson, entriesToJson, List.cons.injEq, Prod.mk.injEq, eq_self, true_and,
        Json.scalarsOfMembers, forall_mem_append, toJson_ofJson_iff j hj,
        entriesToJson_entriesOfJson_iff rest hrest]

end

mutual

/-- The parts of a document become the parts of its value. -/
theorem scalars_ofJson : ∀ j : Json, (ofJson j).scalars = j.scalars.map ofJson
  | .null | .bool _ | .str _ | .float _ => rfl
  | .int n => by
      rw [Json.scalars, List.map_singleton, ofJson]
      · split <;> rfl
      all_goals exact nofun
  | .arr items => by rw [ofJson, scalars, Json.scalars, scalarsOfItems_itemsOfJson items]
  | .obj members => by
      rw [ofJson, scalars, Json.scalars, scalarsOfEntries_entriesOfJson members]

theorem scalarsOfItems_itemsOfJson : ∀ items : List Json,
    scalarsOfItems (itemsOfJson items) = (Json.scalarsOfItems items).map ofJson
  | [] => rfl
  | j :: rest => by
      rw [itemsOfJson, scalarsOfItems, Json.scalarsOfItems, List.map_append, scalars_ofJson j,
        scalarsOfItems_itemsOfJson rest]

theorem scalarsOfEntries_entriesOfJson : ∀ members : List (String × Json),
    scalarsOfEntries (entriesOfJson members) = (Json.scalarsOfMembers members).map ofJson
  | [] => rfl
  | (k, j) :: rest => by
      rw [entriesOfJson, scalarsOfEntries, Json.scalarsOfMembers, List.map_append,
        scalars_ofJson j, scalarsOfEntries_entriesOfJson rest]

end

theorem ofJson_eq_int_iff {j : Json} {n : Int} : ofJson j = .int n ↔ j = .int n ∧ Fits n := by
  cases j with
  | int m =>
      rw [ofJson, Json.int.injEq]
      by_cases hm : Fits m
      · rw [if_pos hm, int.injEq]
        exact ⟨fun heq => ⟨heq, heq ▸ hm⟩, fun heq => heq.1⟩
      · rw [if_neg hm]
        exact iff_of_false nofun fun heq => hm (heq.1 ▸ heq.2)
  | _ => simp [ofJson]

/-- A float of a value comes from a float of its document, or from an integer
that is none of the value. -/
theorem ofJson_eq_double_iff {j : Json} {x : Float} :
    ofJson j = .double x ↔ (∃ h, j = .float ⟨x, h⟩)
      ∨ ∃ n, j = .int n ∧ ¬ Fits n ∧ Binary64.ofInt n = x := by
  cases j with
  | int m =>
      rw [ofJson]
      by_cases hm : Fits m
      · simp [hm]
      · simp [hm]
  | float y =>
      simp only [ofJson, double.injEq, Json.float.injEq, reduceCtorEq, false_and, exists_false,
        or_false]
      exact ⟨fun heq => ⟨heq ▸ y.finite, by cases heq; rfl⟩, fun ⟨_, heq⟩ => heq ▸ rfl⟩
  | _ => simp [ofJson]

/-- The integers and the floats of a document whose integers are all in the
signed range are those of its value. -/
theorem numbers_ofJson {j : Json} (h : ∀ n, .int n ∈ j.scalars → Fits n) :
    (∀ n, .int n ∈ (ofJson j).scalars ↔ .int n ∈ j.scalars)
      ∧ ∀ x, .double x ∈ (ofJson j).scalars ↔ ∃ hx, .float ⟨x, hx⟩ ∈ j.scalars := by
  simp only [scalars_ofJson, List.mem_map, ofJson_eq_int_iff, ofJson_eq_double_iff]
  refine ⟨fun n => ?_, fun x => ?_⟩
  · constructor
    · rintro ⟨_, hmem, rfl, -⟩
      exact hmem
    · intro hmem
      exact ⟨_, hmem, rfl, h n hmem⟩
  · constructor
    · rintro ⟨_, hmem, ⟨hx, rfl⟩ | ⟨n, rfl, hwide, -⟩⟩
      · exact ⟨hx, hmem⟩
      · exact absurd (h n hmem) hwide
    · rintro ⟨hx, hmem⟩
      exact ⟨_, hmem, .inl ⟨hx, rfl⟩⟩

/-- A value that is stored comes back with null in the place of each float that
is not finite, at any depth, and so as it was just if there is none. A document
that is made a value and stored again is the same just if none of its integers
is beyond the largest signed one; then the integers of the value are those of
the document, and its floats are the floats, whether or not they are equal as
numbers. -/
theorem conversions_undo_each_other :
    (∀ v : Value, (∀ n, .int n ∈ v.scalars → Fits n) →
        ofJson v.toJson = v.finiteOnly
          ∧ (ofJson v.toJson = v ↔ ∀ x, .double x ∈ v.scalars → x.isFinite = true))
      ∧ ∀ j : Json, (∀ n, .int n ∈ j.scalars → minInteger ≤ n ∧ n ≤ maxUnsigned) →
        (toJson (ofJson j) = j ↔ ∀ n, .int n ∈ j.scalars → n ≤ maxInteger)
          ∧ ((∀ n, .int n ∈ j.scalars → n ≤ maxInteger) →
            (∀ n, .int n ∈ (ofJson j).scalars ↔ .int n ∈ j.scalars)
              ∧ ∀ x, .double x ∈ (ofJson j).scalars ↔ ∃ hx, .float ⟨x, hx⟩ ∈ j.scalars) := by
  refine ⟨fun v hv => ?_, fun j hj => ⟨?_, fun hmax => ?_⟩⟩
  · rw [ofJson_toJson v hv]
    exact ⟨rfl, finiteOnly_eq_self_iff v⟩
  · exact toJson_ofJson_iff j fun n hn => (hj n hn).1
  · exact numbers_ofJson fun n hn => ⟨(hj n hn).1, hmax n hn⟩

/-- Not-a-number inside of a list is lost. The integer one and the float one are
told apart, and both ends of the signed range are kept; what is beyond does not
come back. -/
theorem conversions_undo_each_other_nested :
    let odds (x : Value) : Value := .map [("odds", .list [x, .double 0.5, .int 7])]
    let one : Json := .obj [("one", .arr [.int 1, .float ⟨1.0, by decide +kernel⟩]),
      ("range", .arr [.int minInteger, .int maxInteger])]
    ofJson (odds (.double (0.0 / 0.0))).toJson = odds .null
      ∧ toJson (ofJson one) = one ∧ ofJson one
        = .map [("one", .list [.int 1, .double 1.0]),
          ("range", .list [.int minInteger, .int maxInteger])]
      ∧ toJson (ofJson (.int (maxInteger + 1))) ≠ .int (maxInteger + 1) := by
  intro odds one
  obtain ⟨hvalues, hdocuments⟩ := conversions_undo_each_other
  have hseven : Fits 7 := by decide
  have hodds : ∀ n, .int n ∈ (odds (.double (0.0 / 0.0))).scalars → Fits n := by
    simp [odds, scalars, scalarsOfEntries, scalarsOfItems, hseven]
  have hone : ∀ n, .int n ∈ one.scalars → n = 1 ∨ n = minInteger ∨ n = maxInteger := by
    simp [one, Json.scalars, Json.scalarsOfMembers, Json.scalarsOfItems]
  refine ⟨?_, ?_, rfl, ?_⟩
  · rw [(hvalues _ hodds).1]
    decide +kernel
  · refine (hdocuments one fun n hn => ?_).1.mpr fun n hn => ?_
    · rcases hone n hn with rfl | rfl | rfl <;> decide
    · rcases hone n hn with rfl | rfl | rfl <;> decide
  · intro heq
    have hmax := (hdocuments (.int (maxInteger + 1)) ?_).1.mp heq (maxInteger + 1)
      (List.mem_singleton_self _)
    · exact absurd hmax (by decide)
    · intro n hn
      obtain rfl := Json.int.inj (List.mem_singleton.mp hn)
      decide

end Value

end GameTable
