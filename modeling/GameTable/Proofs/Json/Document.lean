import GameTable.Proofs.Dict.Lookup
import GameTable.Proofs.Json.Number

/-!
# What can be said of a document

Three properties decide whether a document survives being stored: how deeply it
nests (`levels`), whether its numbers are read as they are printed (`Exact`),
and whether the members of its objects stand in key order (`Ordered`), in which
case normalizing does not change it. What is read from a printed text is not the
document but the document as it stands in the text (`written`); all of it is
readable, and it stands for the document (`toJson?_written`).
-/

namespace GameTable.Json

mutual

/-- How deeply lists and objects nest. -/
def levels : Json → Nat
  | .arr items => levelsItems items + 1
  | .obj members => levelsMembers members + 1
  | _ => 0

def levelsItems : List Json → Nat
  | [] => 0
  | j :: rest => max (levels j) (levelsItems rest)

def levelsMembers : List (String × Json) → Nat
  | [] => 0
  | (_, j) :: rest => max (levels j) (levelsMembers rest)

end

mutual

/-- Every number is read as it is printed: the integers are of 64 bits, with or
without a sign, and the floats read back. -/
def Exact : Json → Prop
  | .int n => minInteger ≤ n ∧ n ≤ maxUnsigned
  | .float x => x.ReadsBack
  | .arr items => ExactItems items
  | .obj members => ExactMembers members
  | _ => True

def ExactItems : List Json → Prop
  | [] => True
  | j :: rest => Exact j ∧ ExactItems rest

def ExactMembers : List (String × Json) → Prop
  | [] => True
  | (_, j) :: rest => Exact j ∧ ExactMembers rest

end

mutual

/-- The members of every object are in key order, no name twice. -/
def Ordered : Json → Prop
  | .arr items => OrderedItems items
  | .obj members => Entries.Sorted members ∧ OrderedMembers members
  | _ => True

def OrderedItems : List Json → Prop
  | [] => True
  | j :: rest => Ordered j ∧ OrderedItems rest

def OrderedMembers : List (String × Json) → Prop
  | [] => True
  | (_, j) :: rest => Ordered j ∧ OrderedMembers rest

end

theorem orderedMembers_iff {members : List (String × Json)} :
    OrderedMembers members ↔ ∀ e ∈ members, e.2.Ordered := by
  induction members with
  | nil => simp [OrderedMembers]
  | cons e rest ih => simp [OrderedMembers, ih]

theorem exactMembers_iff {members : List (String × Json)} :
    ExactMembers members ↔ ∀ e ∈ members, e.2.Exact := by
  induction members with
  | nil => simp [ExactMembers]
  | cons e rest ih => simp [ExactMembers, ih]

theorem exact_ofStrings (xs : List String) : (ofStrings xs).Exact := by
  rw [ofStrings, Exact]
  induction xs with
  | nil => trivial
  | cons x rest ih => exact ⟨trivial, ih⟩

/-- A dictionary is exact if its values are. -/
theorem exact_ofDict {α : Type} {f : α → Json} {d : Dict α}
    (h : ∀ k a, d.get? k = some a → (f a).Exact) : (ofDict (d.map f)).Exact := by
  refine exactMembers_iff.mpr fun e he => ?_
  obtain ⟨⟨k, a⟩, hmem, rfl⟩ := List.mem_map.mp he
  exact h k a (Dict.mem_toList_iff.mp hmem)

theorem exact_int {n : Int} (h : Fits n) : (int n).Exact :=
  ⟨h.1, Int.le_trans h.2 (show maxInteger ≤ maxUnsigned by decide)⟩

mutual

/-- The document as it stands in a text. -/
def written : Json → Written
  | .null => .null
  | .bool b => .bool b
  | .int n => .int n
  | .float x => .float x
  | .str s => .str s
  | .arr items => .arr (writtenItems items)
  | .obj members => .obj (writtenMembers members)

def writtenItems : List Json → List Written
  | [] => []
  | j :: rest => written j :: writtenItems rest

def writtenMembers : List (String × Json) → List (String × Written)
  | [] => []
  | (k, j) :: rest => (k, written j) :: writtenMembers rest

end

mutual

theorem normalized_of_ordered : ∀ {j : Json}, j.Ordered → j.normalized = j
  | .null, _ | .bool _, _ | .int _, _ | .float _, _ | .str _, _ => rfl
  | .arr items, h => by rw [normalized, normalizedItems_of_ordered h]
  | .obj members, h => by
      rw [normalized, normalizedMembers_of_ordered h.2, Entries.ofList_of_sorted h.1]

theorem normalizedItems_of_ordered :
    ∀ {items : List Json}, OrderedItems items → normalizedItems items = items
  | [], _ => rfl
  | j :: rest, h => by
      rw [normalizedItems, normalized_of_ordered h.1, normalizedItems_of_ordered h.2]

theorem normalizedMembers_of_ordered :
    ∀ {members : List (String × Json)}, OrderedMembers members →
      normalizedMembers members = members
  | [], _ => rfl
  | (k, j) :: rest, h => by
      rw [normalizedMembers, normalized_of_ordered h.1, normalizedMembers_of_ordered h.2]

end

mutual

/-- Every part of a printed document is readable. -/
theorem toJson?_written : ∀ j : Json, (written j).toJson? = some j
  | .null | .bool _ | .int _ | .float _ | .str _ => rfl
  | .arr items => by rw [written, Written.toJson?, itemsToJson?_written items]; rfl
  | .obj members => by rw [written, Written.toJson?, membersToJson?_written members]; rfl

theorem itemsToJson?_written :
    ∀ items : List Json, Written.itemsToJson? (writtenItems items) = some items
  | [] => rfl
  | j :: rest => by
      rw [writtenItems, Written.itemsToJson?, toJson?_written j, itemsToJson?_written rest]
      rfl

theorem membersToJson?_written :
    ∀ members : List (String × Json),
      Written.membersToJson? (writtenMembers members) = some members
  | [] => rfl
  | (k, j) :: rest => by
      rw [writtenMembers, Written.membersToJson?, toJson?_written j, membersToJson?_written rest]
      rfl

end

end GameTable.Json
