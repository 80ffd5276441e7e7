import GameTable.Proofs.Event.Course
import GameTable.Proofs.Event.Record

/-!
# Events that nest too deeply

A record adds two levels to what the event carries, and only a document has
levels without a bound (`levels_toJson_lt_iff`). Two events carry a document.
One of them sets an entry of an entity, which has to be a scalar to be accepted
(`levels_of_apply`); the other sets the metadata and takes anything. So what
may make a record unreadable is metadata of 126 levels, and it always does:
such a record stands for no event (`parse?_line_of_deep`), not even as a record
that only carries too much, since the document is among its fields.
-/

namespace GameTable

/-! ## Levels -/

namespace Json

theorem levelsItems_map_str (xs : List String) : levelsItems (xs.map .str) = 0 := by
  induction xs with
  | nil => rfl
  | cons x rest ih => rw [List.map_cons, levelsItems, ih]; rfl

theorem levels_ofStrings (xs : List String) : (ofStrings xs).levels = 1 := by
  rw [ofStrings, levels, levelsItems_map_str]

/-- A dictionary of scalars has one level. -/
theorem levels_ofDict {α : Type} {f : α → Json} (h : ∀ a, (f a).levels = 0) (d : Dict α) :
    (ofDict (d.map f)).levels = 1 := by
  have hmembers : ∀ entries : List (String × α),
      levelsMembers (entries.map fun e => (e.1, f e.2)) = 0 := by
    intro entries
    induction entries with
    | nil => rfl
    | cons e rest ih => rw [List.map_cons, levelsMembers, ih, h]; rfl
  rw [ofDict, levels, Dict.map, hmembers]

end Json

theorem Entity.levels_toJson (x : Entity) : x.toJson.levels = 2 := by
  have hnumbers : ∀ d, (numbersToJson d).levels = 1 := Json.levels_ofDict fun _ => rfl
  have htexts : ∀ d, (textsToJson d).levels = 1 := Json.levels_ofDict fun _ => rfl
  simp only [toJson, Json.levels, Json.levelsMembers, hnumbers, htexts, Json.levels_ofStrings]
  rfl

namespace Event

/-- How many levels a record has below its own two. -/
theorem levels_toJson (e : Event) : e.toJson.levels = Json.levelsMembers e.fields + 2 := by
  simp [toJson, Json.levels, Json.levelsMembers]

/-- Only a document makes a record deep. -/
theorem levels_toJson_lt_iff {e : Event} :
    e.toJson.levels < 128 ↔ ∀ j, e.document? = some j → j.levels < 126 := by
  rw [levels_toJson]
  cases e with
  | attributeChanged actor sec key value =>
      simp only [fields, document?, Json.levels, Json.levelsMembers, Option.some.injEq,
        forall_eq']
      omega
  | metadataChanged key value =>
      simp only [fields, document?, Json.levels, Json.levelsMembers, Option.some.injEq,
        forall_eq']
      omega
  | _ =>
      simp [fields, document?, Json.levels, Json.levelsMembers, Json.levels_ofStrings,
        Entity.levels_toJson]

/-- An entry of an entity is set to a scalar or not at all. -/
theorem levels_of_apply {actor sec key : String} {value : Json} {s t : State}
    (h : (attributeChanged actor sec key value).apply s = .ok t) : value.levels = 0 := by
  rw [apply] at h
  split at h
  · cases h
  · rename_i named hnamed
    obtain ⟨x, y, hx, hy, -⟩ := State.updateEntity_eq_ok_iff.mp h
    cases named with
    | numbers sec =>
        obtain ⟨number, hnumber, -⟩ := Entity.changeEntry_numbers.mp hy
        cases value with
        | arr items => cases hnumber
        | obj members => cases hnumber
        | _ => rfl
    | texts sec =>
        obtain ⟨text, htext, -⟩ := Entity.changeEntry_texts.mp hy
        cases value with
        | arr items => cases htext
        | obj members => cases htext
        | _ => rfl

/-! ## Records -/

/-- What is left of a document that is too deep is none. -/
theorem document?_readTo {depth : Nat} {j : Json} (h : depth < j.levels) :
    DocumentTree.document? (Json.readTo depth j) = none := by
  change (Json.readTo depth j).toJson?.map Json.normalized = none
  rw [Json.toJson?_readTo_of_lt j h]
  rfl

/-- A record that is too deep is that of no event. -/
theorem read?_readTo_of_deep {e : Event} (hdeep : 128 ≤ e.toJson.levels) :
    read? (Json.readTo Json.maxDepth e.toJson) = none := by
  have hdoc : ∃ j, e.document? = some j ∧ 125 < j.levels := by
    by_contra hno
    refine Nat.not_le_of_lt (levels_toJson_lt_iff.mpr fun j hj => ?_) hdeep
    exact Nat.lt_of_not_le fun hle => hno ⟨j, hj, hle⟩
  obtain ⟨j, hj, hlevels⟩ := hdoc
  have hnone := document?_readTo hlevels
  cases e with
  | attributeChanged actor sec key value =>
      obtain rfl := Option.some.inj hj
      change (DocumentTree.document? (Json.readTo 125 value)).bind
        (fun j => some (attributeChanged actor sec key j)) = _
      rw [hnone]
      rfl
  | metadataChanged key value =>
      obtain rfl := Option.some.inj hj
      change (DocumentTree.document? (Json.readTo 125 value)).bind
        (fun j => some (metadataChanged key j)) = _
      rw [hnone]
      rfl
  | _ => cases hj

/-- The event is one that the program can hold, and its numbers are read as
they are printed. -/
structure Regular (e : Event) : Prop where
  narrow : e.Narrow
  ordered : ∀ j, e.document? = some j → j.Ordered
  exact : e.toJson.Exact

theorem Regular.storable {e : Event} (h : e.Regular) (hlevels : e.toJson.levels < 128) :
    e.Storable :=
  ⟨h.narrow, h.ordered, h.exact, hlevels⟩

/-- The text of a record that is too deep is neither that of an event nor a
document. -/
theorem parse?_line_of_deep {e : Event} (h : e.toJson.Exact) (hdeep : 128 ≤ e.toJson.levels) :
    parse? e.line = none ∧ Json.parse e.line = none := by
  have hread : Json.read (.ofList (e.toJson.print ++ []))
      = some (Json.readTo Json.maxDepth e.toJson) := Json.read_print_readTo h rfl
  rw [List.append_nil] at hread
  change Json.read e.line = _ at hread
  rw [parse?, Json.parse, hread]
  exact ⟨read?_readTo_of_deep hdeep, Json.toJson?_readTo_of_lt _ hdeep⟩

end Event

end GameTable
