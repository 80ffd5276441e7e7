import GameTable.Proofs.Event.Course
import GameTable.Proofs.Json.Document
import GameTable.Proofs.Text.Pieces

/-!
# Paths are kept apart

A path into the metadata leads through objects to a member, and setting a value
at a path makes and replaces objects on the way. What this comes to is told by
looking up paths again: a value is found where it was set, nothing is found
where null was set, and at a path that neither leads to the one that was set
nor goes on from it, the same is found as before
(`State.paths_are_apart`).

The objects on the way are taken out and put back one level at a time. Seen
from one level, setting is done in the object below (`membersOf_setAt`), or in an
empty one where there is none, and nothing else of that level changes. So each
of these facts is one induction along the path.

That a store comes out the same, and not only that the same is found in it, takes
objects whose members are in key order, as they are in every document that was
read. Setting keeps them so.
-/

namespace GameTable

namespace Metadata

/-! ## One level at a time -/

/-- The members of the object that stands under a name; none where there is no
object. -/
def membersOf (members : List (String × Json)) (k : String) : List (String × Json) :=
  match Entries.get? members k with
  | some (.obj child) => child
  | _ => []

variable {value : Json} {members : List (String × Json)} {k : String} {path rest : List String}

theorem membersOf_of_obj {child : List (String × Json)}
    (h : Entries.get? members k = some (.obj child)) : membersOf members k = child := by
  rw [membersOf, h]

theorem membersOf_of_not_obj
    (h : ∀ child, Entries.get? members k ≠ some (.obj child)) :
    membersOf members k = [] := by
  rw [membersOf]
  split
  · rename_i child hchild
    exact (h child hchild).elim
  · rfl

theorem membersOf_insert (members : List (String × Json)) (k : String)
    (child : List (String × Json)) :
    membersOf (Entries.insert members k (.obj child)) k = child :=
  membersOf_of_obj (Entries.get?_insert_self ..)

theorem membersOf_congr {other : List (String × Json)}
    (h : Entries.get? members k = Entries.get? other k) :
    membersOf members k = membersOf other k := by
  rw [membersOf, membersOf, h]

theorem getAt_nil (path : List String) : getAt [] path = none := by
  match path with
  | [] | [_] | _ :: _ :: _ => rfl

theorem getAt_cons (hrest : rest ≠ []) (members : List (String × Json)) (k : String) :
    getAt members (k :: rest) = getAt (membersOf members k) rest := by
  rw [getAt]
  · split
    · rename_i child hchild
      rw [membersOf_of_obj hchild]
    · rename_i hchild
      rw [membersOf_of_not_obj hchild, getAt_nil]
  · exact hrest

theorem setAt_cons_of_obj (hrest : rest ≠ []) {child : List (String × Json)}
    (h : Entries.get? members k = some (.obj child)) (value : Json) :
    setAt value (k :: rest) members = Entries.insert members k (.obj (setAt value rest child)) := by
  rw [setAt, h]
  exact hrest

/-- Where no object stands, one is made, unless it would be for null. -/
theorem setAt_cons_of_not_obj (hrest : rest ≠ [])
    (h : ∀ child, Entries.get? members k ≠ some (.obj child)) (value : Json) :
    setAt value (k :: rest) members
      = if value.isNull then members
        else Entries.insert members k (.obj (setAt value rest [])) := by
  rw [setAt]
  · split
    · rename_i child hchild
      exact (h child hchild).elim
    · rfl
  · exact hrest

theorem setAt_cons (hrest : rest ≠ []) (hvalue : value.isNull = false)
    (members : List (String × Json)) (k : String) :
    setAt value (k :: rest) members
      = Entries.insert members k (.obj (setAt value rest (membersOf members k))) := by
  by_cases h : ∃ child, Entries.get? members k = some (.obj child)
  · obtain ⟨child, hchild⟩ := h
    rw [setAt_cons_of_obj hrest hchild, membersOf_of_obj hchild]
  · have hnot := not_exists.mp h
    rw [setAt_cons_of_not_obj hrest hnot, membersOf_of_not_obj hnot, hvalue,
      if_neg Bool.false_ne_true]

theorem setAt_null_nil : ∀ path : List String, setAt .null path [] = []
  | [] | [_] => rfl
  | _ :: _ :: _ => rfl

/-- Setting below a name changes the object under that name. -/
theorem membersOf_setAt (hrest : rest ≠ []) (value : Json) (members : List (String × Json))
    (k : String) :
    membersOf (setAt value (k :: rest) members) k = setAt value rest (membersOf members k) := by
  by_cases h : ∃ child, Entries.get? members k = some (.obj child)
  · obtain ⟨child, hchild⟩ := h
    rw [setAt_cons_of_obj hrest hchild, membersOf_insert, membersOf_of_obj hchild]
  · have hnot := not_exists.mp h
    rw [setAt_cons_of_not_obj hrest hnot, membersOf_of_not_obj hnot]
    cases value with
    | null => rw [setAt_null_nil]; exact membersOf_of_not_obj hnot
    | _ => exact membersOf_insert ..

/-- A path that begins elsewhere leaves an entry alone. -/
theorem get?_setAt_of_ne (h : path.head? ≠ some k) (value : Json)
    (members : List (String × Json)) :
    Entries.get? (setAt value path members) k = Entries.get? members k := by
  cases path with
  | nil => rfl
  | cons q rest =>
      have hne : q ≠ k := fun heq => h (congrArg some heq)
      cases rest with
      | nil =>
          rw [setAt]
          split
          · exact Entries.get?_erase_of_ne members hne
          · exact Entries.get?_insert_of_ne members value hne
      | cons q' rest =>
          rw [setAt]
          · split
            · exact Entries.get?_insert_of_ne members _ hne
            · split
              · rfl
              · exact Entries.get?_insert_of_ne members _ hne
          · exact List.cons_ne_nil q' rest

/-! ## Along a path -/

/-- What was set is found, and nothing where it was null. -/
theorem getAt_setAt_self (hpath : path ≠ []) (value : Json) (members : List (String × Json)) :
    getAt (setAt value path members) path = if value.isNull then none else some value := by
  induction path generalizing members with
  | nil => exact absurd rfl hpath
  | cons k rest ih =>
      by_cases hrest : rest = []
      · subst hrest
        rw [getAt, setAt]
        split
        · exact Entries.get?_erase_self members k
        · exact Entries.get?_insert_self members k value
      · rw [getAt_cons hrest, membersOf_setAt hrest, ih hrest]

/-- Paths that part somewhere do not meet again. -/
theorem getAt_setAt_of_apart {q : List String} (hpq : ¬ path <+: q) (hqp : ¬ q <+: path)
    (value : Json) (members : List (String × Json)) :
    getAt (setAt value path members) q = getAt members q := by
  induction path generalizing q members with
  | nil => exact absurd List.nil_prefix hpq
  | cons k rest ih =>
      cases q with
      | nil => exact absurd List.nil_prefix hqp
      | cons j more =>
          by_cases hkj : k = j
          · subst hkj
            rw [List.cons_prefix_cons, and_iff_right rfl] at hpq hqp
            have hrest : rest ≠ [] := fun heq => hpq (heq ▸ List.nil_prefix)
            have hmore : more ≠ [] := fun heq => hqp (heq ▸ List.nil_prefix)
            rw [getAt_cons hmore, getAt_cons hmore, membersOf_setAt hrest, ih hpq hqp]
          · have hsame : Entries.get? (setAt value (k :: rest) members) j
                = Entries.get? members j :=
              get?_setAt_of_ne (by simpa using hkj) value members
            by_cases hmore : more = []
            · subst hmore
              exact hsame
            · rw [getAt_cons hmore, getAt_cons hmore, membersOf_congr hsame]

/-! ## The same store

With the members in key order a store is what is found in it. -/

theorem ordered_of_get? {j : Json} (h : (Json.obj members).Ordered)
    (hj : Entries.get? members k = some j) : j.Ordered :=
  Json.orderedMembers_iff.mp h.2 _ (Entries.mem_of_get? hj)

theorem ordered_membersOf (h : (Json.obj members).Ordered) (k : String) :
    (Json.obj (membersOf members k)).Ordered := by
  rw [membersOf]
  split
  · rename_i child hchild
    exact ordered_of_get? h hchild
  · exact ⟨.nil, trivial⟩

theorem ordered_insert {j : Json} (h : (Json.obj members).Ordered) (hj : j.Ordered) (k : String) :
    (Json.obj (Entries.insert members k j)).Ordered := by
  refine ⟨h.1.insert k j, Json.orderedMembers_iff.mpr fun e he => ?_⟩
  rcases Entries.mem_insert he with rfl | he
  · exact hj
  · exact Json.orderedMembers_iff.mp h.2 e he

theorem ordered_erase (h : (Json.obj members).Ordered) (k : String) :
    (Json.obj (Entries.erase members k)).Ordered :=
  ⟨h.1.erase k, Json.orderedMembers_iff.mpr fun e he =>
    Json.orderedMembers_iff.mp h.2 e (List.mem_filter.mp he).1⟩

theorem ordered_setAt (hvalue : value.Ordered) (path : List String)
    (h : (Json.obj members).Ordered) : (Json.obj (setAt value path members)).Ordered := by
  fun_induction setAt value path members with
  | case1 members => exact h
  | case2 k members _ => exact ordered_erase h k
  | case3 k members _ => exact ordered_insert h hvalue k
  | case4 k rest members _ child hchild ih =>
      exact ordered_insert h (ih (ordered_of_get? h hchild)) k
  | case5 k rest members _ _ => exact h
  | case6 k rest members _ _ _ ih => exact ordered_insert h (ih ⟨.nil, trivial⟩) k

/-- Null takes nothing away where nothing is found. -/
theorem setAt_null_of_getAt (hpath : path ≠ []) (h : (Json.obj members).Ordered)
    (hnone : getAt members path = none) : setAt .null path members = members := by
  induction path generalizing members with
  | nil => exact absurd rfl hpath
  | cons k rest ih =>
      by_cases hrest : rest = []
      · subst hrest
        exact Entries.erase_of_get? h.1 hnone
      · by_cases hobj : ∃ child, Entries.get? members k = some (.obj child)
        · obtain ⟨child, hchild⟩ := hobj
          rw [getAt_cons hrest, membersOf_of_obj hchild] at hnone
          rw [setAt_cons_of_obj hrest hchild, ih hrest (ordered_of_get? h hchild) hnone,
            Entries.insert_of_get? h.1 hchild]
        · exact setAt_cons_of_not_obj hrest (not_exists.mp hobj) .null

/-- Whatever was set below a name is gone when the name is given a value. -/
theorem insert_setAt (h : Entries.Sorted members) (value : Json) (k : String) (rest : List String)
    (w : Json) :
    Entries.insert (setAt value (k :: rest) members) k w = Entries.insert members k w := by
  refine Entries.eq_of_get?_eq ((sorted_setAt value (k :: rest) h).insert k w) (h.insert k w)
    fun q => ?_
  rw [Entries.get?_insert, Entries.get?_insert]
  split
  · rfl
  · rename_i hkq
    exact get?_setAt_of_ne (by simpa using hkq) value members

/-- Of two values that are set at a path, the second not null, the first might
as well not have been. -/
theorem setAt_setAt (hpath : path ≠ []) (h : (Json.obj members).Ordered) (value : Json) {w : Json}
    (hw : w.isNull = false) :
    setAt w path (setAt value path members) = setAt w path members := by
  induction path generalizing members with
  | nil => exact absurd rfl hpath
  | cons k rest ih =>
      by_cases hrest : rest = []
      · subst hrest
        have hset : ∀ members, setAt w [k] members = Entries.insert members k w := by
          intro members
          rw [setAt, hw, if_neg Bool.false_ne_true]
        rw [hset, hset, insert_setAt h.1]
      · rw [setAt_cons hrest hw, setAt_cons hrest hw, membersOf_setAt hrest,
          ih hrest (ordered_membersOf h k), insert_setAt h.1]

/-! ## Keys and paths -/

/-- The names of a path: at least one, none empty, and no point in any. -/
structure IsPath (path : List String) : Prop where
  ne_nil : path ≠ []
  names : ∀ name ∈ path, name ≠ "" ∧ '.' ∉ name.toList

theorem path?_eq_none_iff {key : String} : path? key = none ↔ "" ∈ Text.split '.' key := by
  simp [path?]

theorem IsPath.path?_intercalate {path : List String} (h : IsPath path) :
    path? (".".intercalate path) = some path := by
  have hsplit : Text.split '.' (".".intercalate path) = path :=
    Text.split_intercalate h.ne_nil fun name hname => (h.names name hname).2
  have hnames : "" ∉ path := fun hempty => (h.names _ hempty).1 rfl
  rw [path?, hsplit]
  simpa using hnames

/-- What setting values at a path does to a store, and what it does not. -/
structure SetsAlone (path : List String) (d : Dict Json) : Prop where
  found (v : Json) : v ≠ .null → get? (set v path d) path = some v
  absent : get? (set .null path d) path = none
  /-- A path that does not lead to the one that is set, or go on from it, is left alone. -/
  apart (v : Json) (q : List String) :
    ¬ path <+: q → ¬ q <+: path → get? (set v path d) q = get? d q
  idle : get? d path = none → set .null path d = d
  overwritten (v w : Json) : w ≠ .null → set w path (set v path d) = set w path d

theorem isNull_eq_false {v : Json} (h : v ≠ .null) : v.isNull = false := by
  cases v with
  | null => exact absurd rfl h
  | _ => rfl

theorem setsAlone {path : List String} (hpath : path ≠ []) {d : Dict Json}
    (hd : (Json.ofDict d).Ordered) : SetsAlone path d where
  found v hv := by
    rw [get?, set, getAt_setAt_self hpath, isNull_eq_false hv, if_neg Bool.false_ne_true]
  absent := getAt_setAt_self hpath .null d.entries
  apart v q hpq hqp := getAt_setAt_of_apart hpq hqp v d.entries
  idle h := Dict.ext (setAt_null_of_getAt hpath hd h)
  overwritten v w hw := Dict.ext (setAt_setAt hpath hd v (isNull_eq_false hw))

end Metadata

namespace State

/-- Every document in the metadata has the members of its objects in key order. -/
def MetadataOrdered (s : State) : Prop := (Json.ofDict s.metadata).Ordered

/-- The state with a value set at a path of the metadata. -/
def setPath (s : State) (path : List String) (v : Json) : State :=
  { s with metadata := Metadata.set v path s.metadata }

theorem apply_metadataChanged {path : List String} (h : Metadata.IsPath path) (s : State)
    (v : Json) :
    (Event.metadataChanged (".".intercalate path) v).apply s = .ok (s.setPath path v) := by
  rw [Event.apply, h.path?_intercalate, setPath]

/-- In any metadata, and for any names with points between them: a value other
than null is found where it was set, and nothing is found where null was set.
At all paths that neither lead there nor go on from there the same is found as
before. Null changes nothing where nothing is found, and what is set at the same
path afterwards is all that counts, unless it is null. The rest of the state is
left alone, and key order is kept. A key with an empty name is refused. -/
theorem paths_are_apart (s : State) (hs : s.MetadataOrdered) :
    (∀ path, Metadata.IsPath path →
      Metadata.SetsAlone path s.metadata
        ∧ ∀ v, (Event.metadataChanged (".".intercalate path) v).apply s = .ok (s.setPath path v)
          ∧ (v.Ordered → (s.setPath path v).MetadataOrdered)
          ∧ ∀ w, w ≠ .null →
            (Event.metadataChanged (".".intercalate path) w).apply (s.setPath path v)
              = .ok (s.setPath path w))
      ∧ ∀ key v, "" ∈ Text.split '.' key →
        (Event.metadataChanged key v).apply s = .error .emptyMetadataKey
          ∧ s.courseBy Event.apply [.metadataChanged key v] = s := by
  constructor
  · intro path hpath
    have halone := Metadata.setsAlone hpath.ne_nil hs
    refine ⟨halone, fun v => ⟨apply_metadataChanged hpath s v, ?_, fun w hw => ?_⟩⟩
    · exact fun hv => Metadata.ordered_setAt hv path hs
    · rw [apply_metadataChanged hpath, setPath, setPath, setPath, halone.overwritten v w hw]
  · intro key v hkey
    have hrefused : (Event.metadataChanged key v).apply s = .error .emptyMetadataKey := by
      rw [Event.apply, Metadata.path?_eq_none_iff.mpr hkey]
    refine ⟨hrefused, ?_⟩
    rw [courseBy, hrefused, courseBy]

/-- What is kept for the fighter is taken out, and what is kept for the goblin
stays. Below a number there is nothing to take out. -/
theorem paths_are_apart_checks :
    let s : State := { State.empty with
      metadata := .ofList [("checks", .obj [("fighter", .obj [("dc", .int 12)]),
        ("goblin", .int 3)]), ("round", .int 5)] }
    (Event.metadataChanged "checks.fighter.dc" .null).apply s
        = .ok (s.setPath ["checks", "fighter", "dc"] .null)
      ∧ Metadata.get? (s.setPath ["checks", "fighter", "dc"] .null).metadata
          ["checks", "fighter", "dc"] = none
      ∧ Metadata.get? (s.setPath ["checks", "fighter", "dc"] .null).metadata ["checks", "goblin"]
          = some (.int 3)
      ∧ (Event.metadataChanged "round.now" .null).apply s = .ok s
      ∧ (Event.metadataChanged "checks..dc" (.int 1)).apply s = .error .emptyMetadataKey := by
  intro s
  have hs : s.MetadataOrdered := by
    have hentries : s.metadata.entries = [("checks", .obj [("fighter", .obj [("dc", .int 12)]),
        ("goblin", .int 3)]), ("round", .int 5)] := by decide +kernel
    have hone (j : Json) : Entries.Sorted [("dc", j)] := List.pairwise_singleton ..
    have hlt : "fighter" < "goblin" := by decide
    have htwo (j j' : Json) : Entries.Sorted [("fighter", j), ("goblin", j')] :=
      List.pairwise_pair.mpr hlt
    refine ⟨s.metadata.sorted, ?_⟩
    rw [hentries]
    simp [Json.OrderedMembers, Json.Ordered, hone, htwo]
  have hchecks : Metadata.IsPath ["checks", "fighter", "dc"] := ⟨by decide, by decide⟩
  have hround : Metadata.IsPath ["round", "now"] := ⟨by decide, by decide⟩
  obtain ⟨hset, hrefused⟩ := paths_are_apart s hs
  obtain ⟨halone, happly⟩ := hset _ hchecks
  obtain ⟨hidle, hnow⟩ := hset _ hround
  have hnothing : s.setPath ["round", "now"] .null = s :=
    congrArg (fun d => { s with metadata := d }) (hidle.idle rfl)
  refine ⟨(happly .null).1, halone.absent, ?_, ?_, (hrefused _ _ (by decide)).1⟩
  · exact halone.apart .null ["checks", "goblin"] (by decide) (by decide)
  · exact (hnow .null).1.trans (congrArg Except.ok hnothing)

end State

end GameTable
