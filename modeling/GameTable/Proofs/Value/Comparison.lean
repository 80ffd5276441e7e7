import GameTable.Formula.Operator
import GameTable.Proofs.Dict.Lookup
import GameTable.Proofs.Result
import Mathlib.Data.List.Perm.Subperm

/-!
# Equality and order of values

Formulas compare values by two functions, and each has a table of its own of
what it takes for what: `Value.looseEq` says of any two values whether they are
equal, and `compareValues?` gives the order of those that have one. Nothing in
the two definitions refers to the other.

They agree all the same. Where two values have an order it is the opposite one
with the two swapped (`compareValues?_swap`), and it is that of equals just if
the values are equal (`looseEq_iff_of_compareValues?`). That is all there is to
the six operators, which are decided by the order and by the equality alone.

Both rest on the comparison of floats, which is none if one is not a number and
which changes sides with its operands. Nothing has to be assumed of it.

The equality of two maps goes through the entries of one of them. With as many
entries in the other, and no name twice in either, what each entry of the one
has in the other is all that the other has (`looseEqEntries_of_swap`).
-/

namespace GameTable

namespace Formula

/-! ## Floats -/

open Float.Model in
theorem compare_swap_unpacked (x y : UnpackedFloat) :
    y.compare x = (x.compare y).map Ordering.swap := by
  cases x with
  | notANumber =>
      cases y with
      | infinity s => cases s <;> rfl
      | finite s => cases s <;> rfl
      | _ => rfl
  | zero r =>
      cases y with
      | infinity s => cases s <;> rfl
      | finite s => cases s <;> rfl
      | _ => rfl
  | infinity r =>
      cases y with
      | infinity s => cases r <;> cases s <;> rfl
      | finite s => cases r <;> cases s <;> rfl
      | _ => cases r <;> rfl
  | finite r m e =>
      cases y with
      | infinity s => cases r <;> cases s <;> rfl
      | finite s m' e' =>
          cases r <;> cases s <;> dsimp only [UnpackedFloat.compare] <;>
            simp [Ordering.swap_then, Nat.compare_swap, Int.compare_swap]
      | _ => cases r <;> rfl

theorem float_lt_iff {x y : Float} : x < y ↔ x.toModel.compare y.toModel = some .lt := by
  show decide (x.toModel < y.toModel) = true ↔ _
  rw [decide_eq_true_iff]
  show (x.toModel.compare y.toModel == some .lt) = true ↔ _
  rw [beq_iff_eq]

theorem float_beq_iff {x y : Float} :
    (x == y) = true ↔ x.toModel.compare y.toModel = some .eq := by
  show (x.toModel.compare y.toModel == some .eq) = true ↔ _
  rw [beq_iff_eq]

theorem compare_swap_model (x y : Float) :
    y.toModel.compare x.toModel = (x.toModel.compare y.toModel).map Ordering.swap :=
  compare_swap_unpacked ..

theorem compareFloat?_eq (x y : Float) : compareFloat? x y = x.toModel.compare y.toModel := by
  unfold compareFloat?
  simp only [float_lt_iff, float_beq_iff, compare_swap_model x y]
  rcases x.toModel.compare y.toModel with _ | _ | _ | _ <;> rfl

theorem compareFloat?_swap (x y : Float) :
    compareFloat? y x = (compareFloat? x y).map Ordering.swap := by
  rw [compareFloat?_eq, compareFloat?_eq, compare_swap_model]

theorem beq_iff_compareFloat? {x y : Float} : (x == y) = true ↔ compareFloat? x y = some .eq := by
  rw [float_beq_iff, compareFloat?_eq]

theorem float_beq_comm (x y : Float) : (x == y) = (y == x) := by
  rw [Bool.eq_iff_iff, beq_iff_compareFloat?, beq_iff_compareFloat?, compareFloat?_swap x y]
  rcases compareFloat? x y with _ | _ | _ | _ <;> decide

/-! ## The order of two values -/

/-- Values have an order both ways or neither way, and it is the opposite one. -/
theorem compareValues?_swap (a b : Value) :
    compareValues? b a = (compareValues? a b).map Ordering.swap := by
  have hint (x y : Int) : compare y x = (compare x y).swap := (Int.compare_swap x y).symm
  have htext (s t : String) : compare t s = (compare s t).swap := Std.OrientedCmp.eq_swap
  have hflag (x y : Bool) : compare y x = (compare x y).swap := Std.OrientedCmp.eq_swap
  -- In each of the three tables the row of a pair is the row of the pair swapped.
  cases a <;> cases b <;> simp only [compareValues?, exactInt?, Value.toDouble?] <;>
    first
      | rfl
      | exact congrArg some (hint ..)
      | exact compareFloat?_swap ..
      | exact congrArg some (htext ..)
      | exact congrArg some (hflag ..)

theorem beq_iff_of_compareFloat? {x y : Float} {o : Ordering} (h : compareFloat? x y = some o) :
    (x == y) = true ↔ o = .eq := by
  rw [beq_iff_compareFloat?, h, Option.some.injEq]

/-- Of values that have an order those are equal that are ordered as equals. -/
theorem looseEq_iff_of_compareValues? {a b : Value} {o : Ordering}
    (h : compareValues? a b = some o) : a.looseEq b = true ↔ o = .eq := by
  have hzero (x : Float) : (!x != 0.0) = (x == 0.0) := Bool.not_not _
  cases a <;> cases b <;>
    simp only [compareValues?, exactInt?, Value.toDouble?, Option.some.injEq, reduceCtorEq] at h <;>
    simp only [Value.looseEq, Value.truthy, hzero]
  case null.double x => rw [float_beq_comm, beq_iff_of_compareFloat? h]
  case double.null x => rw [beq_iff_of_compareFloat? h]
  case int.double n x => rw [beq_iff_of_compareFloat? h]
  case double.int x n => rw [float_beq_comm, beq_iff_of_compareFloat? h]
  case double.double x y => rw [beq_iff_of_compareFloat? h]
  case null.int n =>
    subst h
    simpa using (eq_comm : n = 0 ↔ 0 = n)
  all_goals
    subst h
    simp

end Formula

/-! ## The equality of two values -/

namespace Value

mutual

/-- The entries of every map are in key order, no name twice. -/
def Ordered : Value → Prop
  | .list items => OrderedItems items
  | .map entries => Entries.Sorted entries ∧ OrderedEntries entries
  | _ => True

def OrderedItems : List Value → Prop
  | [] => True
  | v :: rest => Ordered v ∧ OrderedItems rest

def OrderedEntries : List (String × Value) → Prop
  | [] => True
  | (_, v) :: rest => Ordered v ∧ OrderedEntries rest

end

theorem orderedItems_iff {items : List Value} :
    OrderedItems items ↔ ∀ v ∈ items, v.Ordered := by
  induction items with
  | nil => simp [OrderedItems]
  | cons v rest ih => simp [OrderedItems, ih]

theorem orderedEntries_iff {entries : List (String × Value)} :
    OrderedEntries entries ↔ ∀ e ∈ entries, e.2.Ordered := by
  induction entries with
  | nil => simp [OrderedEntries]
  | cons e rest ih => simp [OrderedEntries, ih]

theorem looseEqEntries_iff {xs ys : List (String × Value)} :
    looseEqEntries xs ys = true
      ↔ ∀ e ∈ xs, ∃ v, Entries.get? ys e.1 = some v ∧ e.2.looseEq v = true := by
  induction xs with
  | nil => simp [looseEqEntries]
  | cons e rest ih =>
      rw [looseEqEntries, Bool.and_eq_true, ih, List.forall_mem_cons]
      refine and_congr_left fun _ => ?_
      cases Entries.get? ys e.1 with
      | none => simp
      | some v => simp

/-- A name of the one list that is among as many of the other is a name of both. -/
theorem exists_mem_of_length_eq {xs ys : List (String × Value)} (hxs : Entries.Sorted xs)
    (hlength : xs.length = ys.length) (hfound : ∀ e ∈ xs, ∃ v, Entries.get? ys e.1 = some v)
    {e : String × Value} (he : e ∈ ys) : ∃ v, (e.1, v) ∈ xs := by
  have hsubset : xs.map Prod.fst ⊆ ys.map Prod.fst := by
    intro k hk
    obtain ⟨x, hx, rfl⟩ := List.mem_map.mp hk
    obtain ⟨v, hv⟩ := hfound x hx
    exact List.mem_map.mpr ⟨(x.1, v), Entries.mem_of_get? hv, rfl⟩
  have hperm : (xs.map Prod.fst).Perm (ys.map Prod.fst) :=
    (List.subperm_of_subset hxs.nodup hsubset).perm_of_length_le (by simp [hlength])
  obtain ⟨x, hx, hname⟩ := List.mem_map.mp (hperm.mem_iff.mpr (List.mem_map_of_mem he))
  exact ⟨x.2, hname ▸ hx⟩

/-- If every entry of the one map is in the other, and there are as many of them, then every entry
of the other is in the one. -/
theorem looseEqEntries_of_swap {xs ys : List (String × Value)} (hxs : Entries.Sorted xs)
    (hys : Entries.Sorted ys) (hlength : xs.length = ys.length)
    (hcomm : ∀ e ∈ xs, ∀ e' ∈ ys, e.2.looseEq e'.2 = e'.2.looseEq e.2)
    (h : looseEqEntries xs ys = true) : looseEqEntries ys xs = true := by
  rw [looseEqEntries_iff] at h ⊢
  have hfound : ∀ e ∈ xs, ∃ v, Entries.get? ys e.1 = some v :=
    fun e he => (h e he).imp fun _ hv => hv.1
  intro e he
  obtain ⟨v, hv⟩ := exists_mem_of_length_eq hxs hlength hfound he
  obtain ⟨w, hw, heq⟩ := h _ hv
  obtain rfl : e.2 = w := Option.some.inj (((Entries.mem_iff_get? hys).mp he).symm.trans hw)
  exact ⟨v, (Entries.mem_iff_get? hxs).mp hv, hcomm _ hv _ he ▸ heq⟩

/-- Is equal to every value that is equal to it. -/
def Reciprocal (a : Value) : Prop := ∀ b : Value, b.Ordered → a.looseEq b = b.looseEq a

theorem looseEqItems_comm {xs ys : List Value} (hxs : ∀ v ∈ xs, v.Reciprocal)
    (hys : ∀ v ∈ ys, v.Ordered) : looseEqItems xs ys = looseEqItems ys xs := by
  induction xs generalizing ys with
  | nil => cases ys <;> rfl
  | cons x xs ih =>
      cases ys with
      | nil => rfl
      | cons y ys =>
          rw [List.forall_mem_cons] at hxs hys
          rw [looseEqItems, looseEqItems, hxs.1 y hys.1, ih hxs.2 hys.2]

theorem reciprocal_list {items : List Value} (hitems : ∀ v ∈ items, v.Reciprocal) :
    Reciprocal (.list items) := by
  intro b hb
  cases b with
  | list others =>
      simp only [looseEq]
      rw [looseEqItems_comm hitems (orderedItems_iff.mp hb), Bool.beq_comm]
  | _ => simp [looseEq]

theorem reciprocal_map {entries : List (String × Value)} (hsorted : Entries.Sorted entries)
    (hentries : ∀ e ∈ entries, e.2.Reciprocal) : Reciprocal (.map entries) := by
  intro b hb
  cases b with
  | map others =>
      have hcomm : ∀ e ∈ entries, ∀ e' ∈ others, e.2.looseEq e'.2 = e'.2.looseEq e.2 :=
        fun e he e' he' => hentries e he _ (orderedEntries_iff.mp hb.2 e' he')
      rw [Bool.eq_iff_iff]
      simp only [looseEq, Bool.and_eq_true, beq_iff_eq]
      refine ⟨fun ⟨hlength, h⟩ => ⟨hlength.symm, ?_⟩, fun ⟨hlength, h⟩ => ⟨hlength.symm, ?_⟩⟩
      · exact looseEqEntries_of_swap hsorted hb.1 hlength hcomm h
      · exact looseEqEntries_of_swap hb.1 hsorted hlength
          (fun e he e' he' => (hcomm e' he' e he).symm) h
  | _ => simp [looseEq]

mutual

theorem reciprocal_of_ordered : ∀ {a : Value}, a.Ordered → a.Reciprocal
  | .null, _ => fun b _ => by cases b <;> simp [looseEq]
  | .bool x, _ => fun b _ => by cases b <;> simp [looseEq, Bool.beq_comm]
  | .int x, _ => fun b _ => by cases b <;> simp [looseEq, Bool.beq_comm]
  | .double x, _ => fun b _ => by cases b <;> simp [looseEq, Formula.float_beq_comm]
  | .str x, _ => fun b _ => by cases b <;> simp [looseEq, Bool.beq_comm]
  | .list _, h => reciprocal_list (reciprocal_of_orderedItems h)
  | .map _, h => reciprocal_map h.1 (reciprocal_of_orderedEntries h.2)

theorem reciprocal_of_orderedItems :
    ∀ {items : List Value}, OrderedItems items → ∀ v ∈ items, v.Reciprocal
  | [], _ => nofun
  | _ :: _, h =>
      List.forall_mem_cons.mpr ⟨reciprocal_of_ordered h.1, reciprocal_of_orderedItems h.2⟩

theorem reciprocal_of_orderedEntries :
    ∀ {entries : List (String × Value)}, OrderedEntries entries → ∀ e ∈ entries, e.2.Reciprocal
  | [], _ => nofun
  | (_, _) :: _, h =>
      List.forall_mem_cons.mpr ⟨reciprocal_of_ordered h.1, reciprocal_of_orderedEntries h.2⟩

end

end Value

/-! ## The operators -/

namespace Formula

/-- What the operators say of two values of which the one is less than the
other, equal to it or greater. -/
structure Compared (a b : Value) (less equal greater : Bool) : Prop where
  eq : applyBinary .eq a b = .ok (.bool equal)
  ne : applyBinary .ne a b = .ok (.bool !equal)
  lt : applyBinary .lt a b = .ok (.bool less)
  le : applyBinary .le a b = .ok (.bool (less || equal))
  gt : applyBinary .gt a b = .ok (.bool greater)
  ge : applyBinary .ge a b = .ok (.bool (greater || equal))

theorem compared_of_compareValues? {a b : Value} {o : Ordering}
    (h : compareValues? a b = some o) :
    Compared a b (o == .lt) (o == .eq) (o == .gt) := by
  have hequal : a.looseEq b = (o == .eq) := by
    rw [Bool.eq_iff_iff, beq_iff_eq]
    exact looseEq_iff_of_compareValues? h
  constructor
  · rw [applyBinary, hequal]
  · rw [applyBinary, hequal]
  all_goals
    simp only [applyBinary, compareValues, h, ok_bind, pure_eq_ok]
    cases o <;> rfl

def orderings : List BinaryOp := [.lt, .le, .gt, .ge]

theorem exists_compareValues?_of_isOk {op : BinaryOp} (hop : op ∈ orderings) {a b : Value}
    (h : (applyBinary op a b).isOk) : ∃ o, compareValues? a b = some o := by
  cases ho : compareValues? a b with
  | some o => exact ⟨o, rfl⟩
  | none =>
      simp only [orderings, List.mem_cons, List.not_mem_nil, or_false] at hop
      rcases hop with rfl | rfl | rfl | rfl <;>
        simp [applyBinary, compareValues, ho, typeError, Except.isOk, Except.toBool] at h

/-- Two values are equal both ways or neither way, however deep their lists and
maps nest. If one of the four orderings has an answer for them then all four
have, both ways; just one of less, equal and greater holds, with the operands
swapped it is the opposite one, and `<=` and `>=` are what they say. -/
theorem comparisons_are_coherent {a b : Value} (ha : a.Ordered) (hb : b.Ordered) :
    applyBinary .eq a b = applyBinary .eq b a
      ∧ ∀ op ∈ orderings, (applyBinary op a b).isOk → ∃ less equal greater : Bool,
        Compared a b less equal greater ∧ Compared b a greater equal less
          ∧ less.toNat + equal.toNat + greater.toNat = 1 := by
  constructor
  · rw [applyBinary, applyBinary, Value.reciprocal_of_ordered ha b hb]
  · intro op hop h
    obtain ⟨o, ho⟩ := exists_compareValues?_of_isOk hop h
    have hswap : compareValues? b a = some o.swap := by rw [compareValues?_swap a b, ho]; rfl
    refine ⟨o == .lt, o == .eq, o == .gt, compared_of_compareValues? ho, ?_, ?_⟩
    · have hback := compared_of_compareValues? hswap
      cases o <;> exact hback
    · cases o <;> rfl

/-- Maps within lists are equal both ways, where null stands for zero and an
integer for the float of the same value. Of two numbers one is less. -/
theorem comparisons_are_coherent_nested :
    let a : Value := .list [.map [("hp", .int 3), ("name", .null)], .null]
    let b : Value := .list [.map [("hp", .double 3.0), ("name", .str "")], .int 0]
    (applyBinary .eq a b = .ok (.bool true) ∧ applyBinary .eq b a = .ok (.bool true))
      ∧ applyBinary .lt .null (.double 0.5) = .ok (.bool true)
      ∧ applyBinary .ge (.double 0.5) .null = .ok (.bool true)
      ∧ applyBinary .eq (.double 0.5) .null = .ok (.bool false) := by
  intro a b
  have hlt : "hp" < "name" := by decide
  have hsorted (hp name : Value) : Entries.Sorted [("hp", hp), ("name", name)] :=
    List.pairwise_pair.mpr hlt
  have ha : a.Ordered := by
    simp [a, Value.Ordered, Value.OrderedItems, Value.OrderedEntries, hsorted]
  have hb : b.Ordered := by
    simp [b, Value.Ordered, Value.OrderedItems, Value.OrderedEntries, hsorted]
  have hequal : applyBinary .eq a b = .ok (.bool true) := by decide +kernel
  have hless : applyBinary .lt .null (.double 0.5) = .ok (.bool true) := by decide +kernel
  have horder := (comparisons_are_coherent (a := .null) (b := .double 0.5) trivial trivial).2
    .lt (by decide) (by rw [hless]; rfl)
  obtain ⟨less, equal, greater, hcompared, hback, hone⟩ := horder
  obtain rfl : less = true := by simpa using hcompared.lt.symm.trans hless
  obtain ⟨rfl, rfl⟩ : equal = false ∧ greater = false := by
    revert hone; cases equal <;> cases greater <;> decide
  exact ⟨⟨hequal, (comparisons_are_coherent ha hb).1 ▸ hequal⟩, hless, hback.ge, hback.eq⟩

end Formula

end GameTable
