import GameTable.Json.Basic
import GameTable.Text.Split

/-!
# Paths into the metadata

A key of the metadata may be a path: names joined by points lead through objects to a member.
Setting a value makes the objects on the way, and replaces whatever else stood in their place.
Setting null removes the member, and does nothing where there is no such member.
-/

namespace GameTable.Metadata

/-- The names of a path; none of them may be empty. -/
def path? (key : String) : Option (List String) :=
  let segments := Text.split '.' key
  if segments.any String.isEmpty then none else some segments

/-- The members with the value at a path set, or removed if it is null. -/
def setAt (value : Json) : List String → List (String × Json) → List (String × Json)
  | [], members => members
  | [k], members =>
    if value.isNull then Entries.erase members k else Entries.insert members k value
  | k :: rest, members =>
    match Entries.get? members k with
    | some (.obj child) => Entries.insert members k (.obj (setAt value rest child))
    | _ =>
      if value.isNull then members else Entries.insert members k (.obj (setAt value rest []))

/-- The value at a path, following objects. -/
def getAt (members : List (String × Json)) : List String → Option Json
  | [] => none
  | [k] => Entries.get? members k
  | k :: rest =>
    match Entries.get? members k with
    | some (.obj child) => getAt child rest
    | _ => none

theorem sorted_setAt (value : Json) (path : List String) {members : List (String × Json)}
    (h : Entries.Sorted members) : Entries.Sorted (setAt value path members) := by
  match path with
  | [] => exact h
  | [k] =>
    rw [setAt]
    split
    · exact h.erase k
    · exact h.insert k value
  | k :: k' :: rest =>
    rw [setAt]
    · split
      · exact h.insert k _
      · split
        · exact h
        · exact h.insert k _
    · simp

/-- The metadata with the value at a path set. -/
def set (value : Json) (path : List String) (d : Dict Json) : Dict Json :=
  ⟨setAt value path d.entries, sorted_setAt value path d.sorted⟩

/-- The metadata value at a path. -/
def get? (d : Dict Json) (path : List String) : Option Json := getAt d.entries path

end GameTable.Metadata
