import GameTable.Effect
import GameTable.Proofs.State.Reading
import GameTable.View.Entity

/-!
# Entities that formulas return

A formula sees an entity as a map, and the effect that adds an entity reads a
map as one. A formula that returns what it was shown adds the same entity
(`Entity.view_adds_the_entity`): under each of the eleven names that are read
the map stores what the entity stores (`Entity.toJson_get?_view`), and the
entries that are derived have other names.
-/

namespace GameTable

namespace Value

theorem itemsToJson_eq_map (items : List Value) : itemsToJson items = items.map toJson := by
  induction items with
  | nil => rfl
  | cons v rest ih => rw [itemsToJson, ih, List.map_cons]

theorem entriesToJson_eq_map (entries : List (String × Value)) :
    entriesToJson entries = entries.map fun e => (e.1, toJson e.2) := by
  induction entries with
  | nil => rfl
  | cons e rest ih => rw [entriesToJson, ih, List.map_cons]

theorem toJson_ofStrings (xs : List String) : (ofStrings xs).toJson = .ofStrings xs := by
  rw [ofStrings, toJson, itemsToJson_eq_map, List.map_map]
  rfl

theorem toJson_ofDict {α : Type} (f : α → Value) (d : Dict α) :
    (ofDict (d.map f)).toJson = .ofDict (d.map fun a => (f a).toJson) := by
  rw [ofDict, toJson, entriesToJson_eq_map, Dict.map, List.map_map]
  rfl

end Value

namespace Entity

theorem toJson_numbersView (d : Dict Int) : (numbersView d).toJson = numbersToJson d :=
  Value.toJson_ofDict Value.int d

theorem toJson_textsView (d : Dict String) : (textsView d).toJson = textsToJson d :=
  Value.toJson_ofDict Value.str d

/-- What formulas see under a name that is read is what is stored there. -/
theorem toJson_get?_view (x : Entity) :
    ∀ k ∈ fieldNames, (x.view.get? k).map Value.toJson = x.toJson.member? k := by
  simp [fieldNames, view, Value.get?, Value.map?, Value.ofEntries, Entries.ofList,
    Entries.get?_insert_self, Entries.get?_insert_of_ne, toJson, Json.member?, Entries.get?,
    toJson_numbersView, toJson_textsView, Value.toJson_ofStrings, Value.toJson]

/-- A map in which the entity's fields are what formulas see of them is read as
the entity, whatever else is in the map. -/
theorem read?_toJson_of_agrees {x : Entity} (hx : x.Narrow) {entries : List (String × Value)}
    (hsorted : Entries.Sorted entries)
    (h : ∀ k ∈ fieldNames, Entries.get? entries k = x.view.get? k) :
    read? (Value.map entries).toJson = some x := by
  have hnodup : ((Value.entriesToJson entries).map Prod.fst).Nodup := by
    rw [Value.entriesToJson_eq_map, List.map_map]
    exact hsorted.nodup
  have hread : read? (Json.obj (Value.entriesToJson entries)) = read? x.toJson := by
    refine read?_congr (Json.record?_obj fieldNames hnodup) x.record?_toJson fun k hk => ?_
    rw [Value.entriesToJson_eq_map, Entries.get?_map, h k hk, toJson_get?_view x k hk]
  rw [Value.toJson, hread]
  exact read?_node Json.shows_id hx

/-- A map that agrees with what formulas see adds the entity, unless its id is
empty. -/
theorem entity_of_agrees {x : Entity} (hx : x.Narrow) {entries : List (String × Value)}
    (hsorted : Entries.Sorted entries)
    (h : ∀ k ∈ fieldNames, Entries.get? entries k = x.view.get? k) :
    Effect.entity (.map entries) = if x.id = "" then none else some (.entityAdded x) := by
  have hid : (Value.map entries).textAt? "id" = some x.id := by
    change (Entries.get? entries "id").bind Value.str? = some x.id
    rw [h "id" (List.mem_cons_self ..)]
    simp [view, Value.get?, Value.map?, Value.ofEntries, Entries.ofList, Value.str?,
      Entries.get?_insert_self, Entries.get?_insert_of_ne]
  rw [Effect.entity, hid, read?_toJson_of_agrees hx hsorted h]
  by_cases hempty : x.id = ""
  · simp [nonEmpty?, hempty]
  · simp [nonEmpty?, hempty]

/-- What a formula returns as it was shown it adds the entity that was shown,
and nothing else, for any origin, unless the id is empty, when nothing is added.
What else is in the map makes no difference, be it changed, missing or further:
the three entries that are derived among them. Of these the actions left are a
difference, which is one of 64 bits for an entity that passes its check. -/
theorem view_adds_the_entity {x : Entity} (hx : x.Narrow) (o : Origin) :
    (x.id ≠ "" → effectEvents "EntityAddedEvent" o x.view = [.entityAdded x])
      ∧ (x.id = "" → effectEvents "EntityAddedEvent" o x.view = [])
      ∧ (∀ entries, Entries.Sorted entries →
        (∀ k ∈ fieldNames, Entries.get? entries k = x.view.get? k) →
        effectEvents "EntityAddedEvent" o (.map entries)
          = effectEvents "EntityAddedEvent" o x.view)
      ∧ (x.checkSpent = .ok () → Fits x.actionsRemaining) := by
  have hevents : ∀ v, effectEvents "EntityAddedEvent" o v = (Effect.entity v).toList := by
    have hnamed : Effect.named? "EntityAddedEvent" = some .addEntity := by decide +kernel
    intro v
    rw [effectEvents, hnamed]
    rfl
  obtain ⟨shown, hshown, hordered⟩ : ∃ shown, x.view = .map shown ∧ Entries.Sorted shown :=
    ⟨_, rfl, Entries.Sorted.ofList _⟩
  have hview : Effect.entity x.view = if x.id = "" then none else some (.entityAdded x) := by
    have hagrees : ∀ k ∈ fieldNames, Entries.get? shown k = x.view.get? k := by
      intro k _
      rw [hshown]
      rfl
    rw [hshown]
    exact entity_of_agrees hx hordered hagrees
  refine ⟨fun hid => ?_, fun hid => ?_, fun entries hsorted h => ?_, fun hspent => ?_⟩
  · rw [hevents, hview, if_neg hid]
    rfl
  · rw [hevents, hview, if_pos hid]
    rfl
  · rw [hevents, hevents, hview, entity_of_agrees hx hsorted h]
  · exact (checkSpent_eq_ok_iff.mp hspent).fits_actionsRemaining hx

/-- An entity comes back as it was shown, and also with a remark and without
what is derived. -/
theorem view_adds_the_entity_remarked :
    let x : Entity := { Entity.blank "goblin" "Goblin" with
      types := .ofNames ["humanoid", "cave"]
      classes := .ofList [("size", "small")]
      resources := .ofList [("actions", 2)]
      spent := .ofList [("actions", 1), ("luck", maxInteger)]
      conditions := ["prone", "blessed"] }
    let o : Origin := ⟨"gm", "", "spawn", none⟩
    let remarked := Entries.ofList [("id", .str "goblin"), ("name", .str "Goblin"),
      ("types", .list [.str "cave", .str "humanoid"]), ("classes", .map [("size", .str "small")]),
      ("stats", .map []), ("resources", .map [("actions", .int 2)]),
      ("spent", .map [("actions", .int 1), ("luck", .int maxInteger)]),
      ("conditions", .list [.str "prone", .str "blessed"]), ("proficiencies", .map []),
      ("statuses", .map []), ("inventory", .map []), ("remark", .double 0.5)]
    effectEvents "EntityAddedEvent" o x.view = [.entityAdded x]
      ∧ effectEvents "EntityAddedEvent" o (.map remarked) = [.entityAdded x]
      ∧ effectEvents "EntityAddedEvent" o (Entity.blank "" "Goblin").view = []
      ∧ Fits x.actionsRemaining := by
  intro x o remarked
  have hx : x.Narrow := by decide +kernel
  have hblank : (Entity.blank "" "Goblin").Narrow := by decide +kernel
  have hid : x.id ≠ "" := by decide +kernel
  have hagrees : ∀ k ∈ fieldNames, Entries.get? remarked k = x.view.get? k := by decide +kernel
  obtain ⟨hadds, -, hother, hactions⟩ := view_adds_the_entity hx o
  refine ⟨hadds hid, ?_, (view_adds_the_entity hblank o).2.1 rfl, hactions (by decide +kernel)⟩
  exact (hother remarked (Entries.Sorted.ofList _) hagrees).trans (hadds hid)

end Entity

end GameTable
