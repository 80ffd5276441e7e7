import GameTable.State.Basic
import GameTable.Proofs.Json.Records
import GameTable.Proofs.State.Width

/-!
# States that are read back

An entity, a loop and a state are each read back from their documents, whether
from the document itself or from the tree of its text. Numbers are read back if
they are of 64 bits, and documents in the metadata if their members are in key
order.

An entity is read from its eleven fields alone (`Entity.read?_congr`): what else
a document says of it does not count.
-/

namespace GameTable

variable {τ : Type} [DocumentTree τ] {node : Json → τ}

/-! ## Entities -/

namespace Entity

theorem ofNames_keys (names : Names) : Names.ofNames names.keys = names := by
  rw [Names.ofNames, Dict.keys, List.map_map]
  exact (congrArg Dict.ofList (List.map_id names.entries)).trans (Dict.ofList_toList names)

/-- Two trees with the same fields are read as the same entity. -/
theorem read?_congr {σ : Type} [Tree σ] {t u : σ} {look look' : String → Option σ}
    (ht : Tree.record? fieldNames t = some look) (hu : Tree.record? fieldNames u = some look')
    (h : ∀ k ∈ fieldNames, look k = look' k) : read? t = read? u := by
  have hfield : ∀ k ∈ fieldNames, ∀ {α : Type} (read : σ → Option α) (default : α),
      Tree.fieldOr look k read default = Tree.fieldOr look' k read default := by
    intro k hk α read default
    rw [Tree.fieldOr, Tree.fieldOr, h k hk]
  simp only [fieldNames, List.forall_mem_cons] at hfield
  simp only [read?, ht, hu, Option.bind_eq_bind, Option.bind_some, hfield]

/-- The names of the fields are the names of the members. -/
theorem record?_toJson (x : Entity) : Tree.record? fieldNames x.toJson = some x.toJson.member? :=
  Json.record?_obj fieldNames (by decide : fieldNames.Nodup)

/-- An entity whose numbers are of 64 bits is read back. -/
theorem read?_node (hnode : Json.Shows node) {x : Entity} (h : x.Narrow) :
    read? (node x.toJson) = some x := by
  have hnumbers : ∀ sec, Tree.dict? Tree.integer64? (node (numbersToJson (x.numbers sec)))
      = some (x.numbers sec) :=
    fun sec => hnode.dict?_ofDict fun key n hn => hnode.integer64?_int (h sec key n hn)
  have htexts : ∀ sec, Tree.dict? Tree.text? (node (textsToJson (x.texts sec)))
      = some (x.texts sec) :=
    fun sec => hnode.dict?_ofDict fun _ s _ => hnode.text?_str s
  rw [read?, toJson, hnode.record?_obj]
  case hnodup => exact (by decide : fieldNames.Nodup)
  change (do
    let id ← Tree.text? (node (.str x.id))
    let name ← Tree.text? (node (.str x.name))
    let types ← Tree.texts? (node (.ofStrings x.types.keys))
    let classes ← Tree.dict? Tree.text? (node (textsToJson (x.texts .classes)))
    let stats ← Tree.dict? Tree.integer64? (node (numbersToJson (x.numbers .stats)))
    let resources ← Tree.dict? Tree.integer64? (node (numbersToJson (x.numbers .resources)))
    let spent ← Tree.dict? Tree.integer64? (node (numbersToJson (x.numbers .spent)))
    let conditions ← Tree.texts? (node (.ofStrings x.conditions))
    let proficiencies ←
      Tree.dict? Tree.integer64? (node (numbersToJson (x.numbers .proficiencies)))
    let statuses ← Tree.dict? Tree.text? (node (textsToJson (x.texts .statuses)))
    let inventory ← Tree.dict? Tree.integer64? (node (numbersToJson (x.numbers .inventory)))
    return Entity.mk id name (.ofNames types) classes stats resources spent conditions
      proficiencies statuses inventory) = some x
  simp only [hnumbers, htexts, hnode.texts?_ofStrings, hnode.text?_str]
  exact congrArg (fun types => some { x with types }) (ofNames_keys x.types)

end Entity

/-! ## Loops -/

namespace Loop

/-- The keys of the loop are of 64 bits, and so is its position, without a
sign. -/
structure Narrow (l : Loop) : Prop where
  order : ∀ actor n, l.order.get? actor = some n → Fits n
  current : l.current ≤ maxUnsigned

/-- A loop whose keys are of 64 bits is read back. -/
theorem read?_node (hnode : Json.Shows node) {l : Loop} (h : l.Narrow) :
    read? (node l.toJson) = some l := by
  have horder : Tree.dict? Tree.integer64? (node (.ofDict (l.order.map .int)))
      = some l.order :=
    hnode.dict?_ofDict fun actor n hn => hnode.integer64?_int (h.order actor n hn)
  have hcurrent : position? (node (.int l.current)) = some l.current := by
    rw [position?, hnode.integer?_int]
    simp
  rw [read?, toJson, hnode.record?_obj]
  case hnodup => exact (by decide : fieldNames.Nodup)
  change (do
    let active ← Tree.flag? (node (.bool l.active))
    let actors ← Tree.texts? (node (.ofStrings l.actors))
    let order ← Tree.dict? Tree.integer64? (node (.ofDict (l.order.map .int)))
    let ascending ← Tree.flag? (node (.bool l.ascending))
    let current ← position? (node (.int l.current))
    return Loop.mk active actors order ascending current) = some l
  simp only [horder, hcurrent, hnode.texts?_ofStrings, hnode.flag?_bool]
  rfl

end Loop

/-! ## States -/

/-- A state whose numbers are of 64 bits and whose metadata is in key order is
read back. -/
theorem State.read?_node (hnode : Json.Shows node) {s : State} (hentities : s.Narrow)
    (hloops : ∀ name l, s.loops.get? name = some l → l.Narrow)
    (hmetadata : (Json.ofDict s.metadata).Ordered) : read? (node s.toJson) = some s := by
  have hentities : Tree.dict? Entity.read? (node (.ofDict (s.entities.map Entity.toJson)))
      = some s.entities :=
    hnode.dict?_ofDict fun id x hx => Entity.read?_node hnode (hentities id x hx)
  have hloops : Tree.dict? Loop.read? (node (.ofDict (s.loops.map Loop.toJson)))
      = some s.loops :=
    hnode.dict?_ofDict fun name l hl => Loop.read?_node hnode (hloops name l hl)
  have hmetadata : Tree.dict? DocumentTree.document? (node (.ofDict (s.metadata.map id)))
      = some s.metadata :=
    hnode.dict?_ofDict fun key j hj => hnode.document?_of_ordered
      (Json.orderedMembers_iff.mp hmetadata.2 (key, j) (Dict.mem_toList_iff.mpr hj))
  rw [read?, toJson, hnode.record?_obj]
  case hnodup => exact (by decide : fieldNames.Nodup)
  change (do
    let entities ← Tree.dict? Entity.read? (node (.ofDict (s.entities.map Entity.toJson)))
    let loops ← Tree.dict? Loop.read? (node (.ofDict (s.loops.map Loop.toJson)))
    let metadata ← Tree.dict? DocumentTree.document? (node (.ofDict s.metadata))
    return State.mk entities loops metadata) = some s
  rw [Dict.map_id] at hmetadata
  rw [hentities, hloops, hmetadata]
  rfl

end GameTable
