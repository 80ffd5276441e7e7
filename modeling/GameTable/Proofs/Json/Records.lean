import Mathlib.Data.List.Nodup
import GameTable.Tree
import GameTable.Proofs.Json.Document
import GameTable.Proofs.Result

/-!
# Records in documents

A record is read from a document or from the tree of its text. Reading looks at
the nodes of either in the same few ways, and what it finds in them is what is
in the document (`Shows`); so what is said of a reader needs one proof for both.

The fields of a record are found by their names. It does not matter in which
order they stand, nor what else stands beside them (`Shows.record?_obj`).
-/

namespace GameTable.Json

/-- The nodes of documents hold what the documents hold. -/
structure Shows {τ : Type} [DocumentTree τ] (node : Json → τ) : Prop where
  text?_str (s : String) : Tree.text? (node (.str s)) = some s
  integer?_int (n : Int) : Tree.integer? (node (.int n)) = some n
  flag?_bool (b : Bool) : Tree.flag? (node (.bool b)) = some b
  items?_arr (items : List Json) : Tree.items? (node (.arr items)) = some (items.map node)
  fields?_obj (members : List (String × Json)) :
    Tree.fields? (node (.obj members)) = some (members.map fun m => (m.1, node m.2))
  recordFields?_obj (names : List String) (members : List (String × Json)) :
    Tree.recordFields? names (node (.obj members)) = some (members.map fun m => (m.1, node m.2))
  document?_of_ordered {j : Json} (h : j.Ordered) : DocumentTree.document? (node j) = some j

theorem shows_id : Shows (id : Json → Json) where
  text?_str _ := rfl
  integer?_int _ := rfl
  flag?_bool _ := rfl
  items?_arr items := congrArg some (List.map_id items).symm
  fields?_obj members := congrArg some (List.map_id members).symm
  recordFields?_obj _ members := congrArg some (List.map_id members).symm
  document?_of_ordered h := congrArg some (normalized_of_ordered h)

theorem writtenItems_eq_map (items : List Json) : writtenItems items = items.map written := by
  induction items with
  | nil => rfl
  | cons j rest ih => rw [writtenItems, ih, List.map_cons]

theorem writtenMembers_eq_map (members : List (String × Json)) :
    writtenMembers members = members.map fun m => (m.1, written m.2) := by
  induction members with
  | nil => rfl
  | cons m rest ih => rw [writtenMembers, ih, List.map_cons]

theorem shows_written : Shows written where
  text?_str _ := rfl
  integer?_int _ := rfl
  flag?_bool _ := rfl
  items?_arr items := congrArg some (writtenItems_eq_map items)
  fields?_obj members := congrArg some (writtenMembers_eq_map members)
  recordFields?_obj _ members := congrArg some (writtenMembers_eq_map members)
  document?_of_ordered {j} h := by
    change (written j).toJson?.map normalized = _
    rw [toJson?_written, Option.map_some, normalized_of_ordered h]

namespace Shows

variable {τ : Type} [DocumentTree τ] {node : Json → τ}

/-! ## Fields -/

/-- A record is seen as its fields by name. -/
theorem record?_obj (h : Shows node) (names : List String) {members : List (String × Json)}
    (hnodup : (members.map Prod.fst).Nodup) :
    Tree.record? names (node (.obj members))
      = some fun k => (Entries.get? members k).map node := by
  have honce : ∀ k ∈ names,
      Tree.occurrences k (members.map fun m => (m.1, node m.2)) ≤ 1 := by
    intro k _
    have hcount : (members.map Prod.fst).count k ≤ 1 := List.nodup_iff_count_le_one.mp hnodup k
    rw [List.count_eq_countP, List.countP_map] at hcount
    rw [Tree.occurrences, List.countP_map]
    exact hcount
  have hnamed : Tree.named? names (node (.obj members))
      = some fun k => (Entries.get? members k).map node := by
    rw [Tree.named?, h.recordFields?_obj]
    change (if (names.all fun k =>
        decide (Tree.occurrences k (members.map fun m => (m.1, node m.2)) ≤ 1)) = true
      then some (Entries.get? (members.map fun m => (m.1, node m.2))) else none) = _
    rw [if_pos (List.all_eq_true.mpr fun k hk => decide_eq_true (honce k hk))]
    exact congrArg some (funext fun k => Entries.get?_map node members k)
  rw [Tree.record?, hnamed, Option.some_or]

theorem texts?_ofStrings (h : Shows node) (xs : List String) :
    Tree.texts? (node (.ofStrings xs)) = some xs := by
  have hitems : (xs.map fun x => node (.str x)).mapM Tree.text? = some (xs.map id) :=
    mapM_map_eq_some fun x _ => h.text?_str x
  rw [ofStrings, Tree.texts?, h.items?_arr, List.map_map]
  exact hitems.trans (congrArg some (List.map_id xs))

theorem integer64?_int (h : Shows node) {n : Int} (hn : Fits n) :
    Tree.integer64? (node (.int n)) = some n := by
  rw [Tree.integer64?, h.integer?_int]
  simp [hn]

/-- A dictionary is read back if its values are. -/
theorem dict?_ofDict (h : Shows node) {α : Type} {f : α → Json} {read : τ → Option α}
    {d : Dict α} (hread : ∀ k a, d.get? k = some a → read (node (f a)) = some a) :
    Tree.dict? read (node (.ofDict (d.map f))) = some d := by
  have hentries : (d.entries.map fun e => (e.1, node (f e.2))).mapM
      (fun e => do return (e.1, ← read e.2)) = some (d.entries.map id) := by
    refine mapM_map_eq_some fun e he => ?_
    simp [hread e.1 e.2 (Dict.mem_toList_iff.mp he)]
  have hfields : Tree.fields? (node (.ofDict (d.map f)))
      = some (d.entries.map fun e => (e.1, node (f e.2))) := by
    rw [ofDict, h.fields?_obj, Dict.map, List.map_map]
    rfl
  rw [Tree.dict?, hfields]
  change Option.bind (List.mapM (m := Option) _ _) _ = _
  rw [hentries, List.map_id]
  exact congrArg some (Dict.ofList_toList d)

end Shows

/-- A record that is itself a document is its members by name. -/
theorem record?_obj (names : List String) {members : List (String × Json)}
    (hnodup : (members.map Prod.fst).Nodup) :
    Tree.record? names (obj members) = some (Entries.get? members) := by
  refine (shows_id.record?_obj names hnodup).trans (congrArg some (funext fun k => ?_))
  exact congrFun Option.map_id (Entries.get? members k)

end GameTable.Json
