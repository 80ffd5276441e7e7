import GameTable.Proofs.Value.Comparison
import Mathlib.Data.List.Forall2

/-!
# Loose and strict equality

The operators compare values loosely and a search of a list does so strictly. The
two equalities walk a list the same way. They do not walk a map the same way:
the strict one compares entry by entry, and the loose one looks the names up. Of
maps whose entries are in order this comes to the same (`looseEq_map_iff`).

So what tells the two apart is at the leaves alone. Values that are strictly
equal are loosely equal too, and the converse holds as long as there is nothing
that stands for something else in them, which is null, that equals all that counts
as unset, and a float, that equals an integer (`matched`).
-/

namespace GameTable.Value

mutual

/-- There is neither a null nor a float in the value. -/
def Plain : Value → Prop
  | .null | .double _ => False
  | .list items => PlainItems items
  | .map entries => PlainEntries entries
  | _ => True

def PlainItems : List Value → Prop
  | [] => True
  | v :: rest => Plain v ∧ PlainItems rest

def PlainEntries : List (String × Value) → Prop
  | [] => True
  | (_, v) :: rest => Plain v ∧ PlainEntries rest

end

theorem plainItems_iff {items : List Value} : PlainItems items ↔ ∀ v ∈ items, v.Plain := by
  induction items with
  | nil => simp [PlainItems]
  | cons v rest ih => simp [PlainItems, ih]

theorem plainEntries_iff {entries : List (String × Value)} :
    PlainEntries entries ↔ ∀ e ∈ entries, e.2.Plain := by
  induction entries with
  | nil => simp [PlainEntries]
  | cons e rest ih => simp [PlainEntries, ih]

/-! ## Pair by pair -/

theorem looseEq_list_iff {xs ys : List Value} :
    looseEq (.list xs) (.list ys) = true
      ↔ List.Forall₂ (fun x y => x.looseEq y = true) xs ys := by
  rw [looseEq, Bool.and_eq_true, beq_iff_eq]
  induction xs generalizing ys with
  | nil => cases ys <;> simp [looseEqItems]
  | cons x xs ih =>
      cases ys with
      | nil => simp
      | cons y ys =>
          rw [List.forall₂_cons, ← ih, looseEqItems, Bool.and_eq_true, List.length_cons,
            List.length_cons, Nat.add_right_cancel_iff]
          exact and_left_comm

theorem strictEqItems_iff {xs ys : List Value} :
    strictEqItems xs ys = true ↔ List.Forall₂ (fun x y => x.strictEq y = true) xs ys := by
  induction xs generalizing ys with
  | nil => cases ys <;> simp [strictEqItems]
  | cons x xs ih => cases ys <;> simp [strictEqItems, ih]

/-- The entries of two maps have the same name, and their values are related. -/
def Named (R : Value → Value → Bool) (e e' : String × Value) : Prop :=
  e.1 = e'.1 ∧ R e.2 e'.2 = true

theorem strictEqEntries_iff {xs ys : List (String × Value)} :
    strictEqEntries xs ys = true ↔ List.Forall₂ (Named strictEq) xs ys := by
  induction xs generalizing ys with
  | nil => cases ys <;> simp [strictEqEntries]
  | cons x xs ih => cases ys <;> simp [strictEqEntries, Named, ih]

/-- Among entries in order the first has the least name. -/
theorem eq_or_lt_of_mem {e e' : String × Value} {rest : List (String × Value)}
    (h : Entries.Sorted (e :: rest)) (he' : e' ∈ e :: rest) : e.1 = e'.1 ∨ e.1 < e'.1 :=
  (List.mem_cons.mp he').imp (congrArg Prod.fst ·.symm) ((List.pairwise_cons.mp h).1 e')

/-- The same names in the same order: looking them up finds one after the other. -/
theorem forall₂_of_looseEqEntries {xs ys : List (String × Value)} (hxs : Entries.Sorted xs)
    (hys : Entries.Sorted ys) (hlength : xs.length = ys.length)
    (h : looseEqEntries xs ys = true) : List.Forall₂ (Named looseEq) xs ys := by
  induction xs generalizing ys with
  | nil =>
      obtain rfl := List.length_eq_zero_iff.mp hlength.symm
      exact .nil
  | cons x xs ih =>
      cases ys with
      | nil => cases hlength
      | cons y ys =>
          rw [looseEqEntries_iff] at h
          have hfound : ∀ e ∈ x :: xs, ∃ v, Entries.get? (y :: ys) e.1 = some v :=
            fun e he => (h e he).imp fun _ hv => hv.1
          obtain ⟨w, hw⟩ := exists_mem_of_length_eq hxs hlength hfound (List.mem_cons_self ..)
          obtain ⟨⟨v, hv, heq⟩, hrest⟩ := List.forall_mem_cons.mp h
          have hname : x.1 = y.1 := by
            rcases eq_or_lt_of_mem hxs hw with hxy | hxy
            · exact hxy
            · rcases eq_or_lt_of_mem hys (Entries.mem_of_get? hv) with hyx | hyx
              · exact hyx.symm
              · exact absurd hyx (String.lt_asymm hxy)
          have hvalue : v = y.2 := by
            rw [Entries.get?, if_pos hname.symm] at hv
            exact (Option.some.inj hv).symm
          refine .cons ⟨hname, hvalue ▸ heq⟩ (ih hxs.tail hys.tail (Nat.succ.inj hlength) ?_)
          rw [looseEqEntries_iff]
          intro e he
          obtain ⟨v', hv', heq'⟩ := hrest e he
          have hlt : y.1 < e.1 := hname ▸ (List.pairwise_cons.mp hxs).1 e he
          have hne : y.1 ≠ e.1 := fun heq => String.lt_irrefl e.1 (heq ▸ hlt)
          rw [Entries.get?, if_neg hne] at hv'
          exact ⟨v', hv', heq'⟩

theorem looseEqEntries_of_forall₂ {xs ys : List (String × Value)} (hys : Entries.Sorted ys)
    (h : List.Forall₂ (Named looseEq) xs ys) : looseEqEntries xs ys = true := by
  rw [looseEqEntries_iff]
  intro e he
  obtain ⟨i, hi, rfl⟩ := List.mem_iff_getElem.mp he
  have hj : i < ys.length := h.length_eq ▸ hi
  obtain ⟨hname, heq⟩ := h.get hi hj
  refine ⟨ys[i].2, (Entries.mem_iff_get? hys).mp ?_, heq⟩
  rw [show xs[i].1 = ys[i].1 from hname]
  exact List.getElem_mem hj

/-- Of maps with their entries in order, looking up comes to comparing entry by entry. -/
theorem looseEq_map_iff {xs ys : List (String × Value)} (hxs : Entries.Sorted xs)
    (hys : Entries.Sorted ys) :
    looseEq (.map xs) (.map ys) = true ↔ List.Forall₂ (Named looseEq) xs ys := by
  rw [looseEq, Bool.and_eq_true, beq_iff_eq]
  exact ⟨fun ⟨hlength, h⟩ => forall₂_of_looseEqEntries hxs hys hlength h,
    fun h => ⟨h.length_eq, looseEqEntries_of_forall₂ hys h⟩⟩

/-! ## The one and the other -/

/-- What is strictly equal is loosely equal, and the other way round if both are plain. -/
structure Matched (a b : Value) : Prop where
  loose : a.strictEq b = true → a.looseEq b = true
  strict : a.Plain → b.Plain → a.looseEq b = true → a.strictEq b = true

theorem forall₂_imp_of_mem {α β : Type} {R S : α → β → Prop} {xs : List α} {ys : List β}
    (himp : ∀ x ∈ xs, ∀ y ∈ ys, R x y → S x y) (h : List.Forall₂ R xs ys) :
    List.Forall₂ S xs ys := by
  induction h with
  | nil => exact .nil
  | cons hxy _ ih =>
      refine .cons (himp _ (List.mem_cons_self ..) _ (List.mem_cons_self ..) hxy) (ih ?_)
      exact fun x hx y hy => himp x (List.mem_cons_of_mem _ hx) y (List.mem_cons_of_mem _ hy)

theorem matched_list {xs ys : List Value} (h : ∀ x ∈ xs, ∀ y ∈ ys, Matched x y) :
    Matched (.list xs) (.list ys) where
  loose hstrict := by
    rw [strictEq, strictEqItems_iff] at hstrict
    exact looseEq_list_iff.mpr (forall₂_imp_of_mem (fun x hx y hy => (h x hx y hy).loose) hstrict)
  strict hxs hys hloose := by
    rw [strictEq, strictEqItems_iff]
    refine forall₂_imp_of_mem (fun x hx y hy => (h x hx y hy).strict ?_ ?_)
      (looseEq_list_iff.mp hloose)
    · exact plainItems_iff.mp hxs x hx
    · exact plainItems_iff.mp hys y hy

theorem matched_map {xs ys : List (String × Value)} (hxs : Entries.Sorted xs)
    (hys : Entries.Sorted ys) (h : ∀ e ∈ xs, ∀ e' ∈ ys, Matched e.2 e'.2) :
    Matched (.map xs) (.map ys) where
  loose hstrict := by
    rw [strictEq, strictEqEntries_iff] at hstrict
    exact (looseEq_map_iff hxs hys).mpr
      (forall₂_imp_of_mem (fun e he e' he' => .imp_right (h e he e' he').loose) hstrict)
  strict hplain hplain' hloose := by
    rw [strictEq, strictEqEntries_iff]
    refine forall₂_imp_of_mem (fun e he e' he' => .imp_right ((h e he e' he').strict ?_ ?_))
      ((looseEq_map_iff hxs hys).mp hloose)
    · exact plainEntries_iff.mp hplain e he
    · exact plainEntries_iff.mp hplain' e' he'

/-- By recursion on the first value. Of two leaves that the equalities judge differently one is a
null or a float. -/
theorem matched : ∀ {a b : Value}, a.Ordered → b.Ordered → Matched a b
  | .list xs, b, ha, hb => by
      cases b with
      | list ys =>
          exact matched_list fun x hx y hy =>
            matched (orderedItems_iff.mp ha x hx) (orderedItems_iff.mp hb y hy)
      | _ => constructor <;> simp [strictEq, looseEq, Plain]
  | .map xs, b, ha, hb => by
      cases b with
      | map ys =>
          exact matched_map ha.1 hb.1 fun e he e' he' =>
            matched (orderedEntries_iff.mp ha.2 e he) (orderedEntries_iff.mp hb.2 e' he')
      | _ => constructor <;> simp [strictEq, looseEq, Plain]
  | .null, b, _, _ | .bool _, b, _, _ | .int _, b, _, _ | .double _, b, _, _ | .str _, b, _, _ => by
      cases b <;> constructor <;> simp [strictEq, looseEq, Plain, truthy]
termination_by a => a
decreasing_by
  · have := List.sizeOf_lt_of_mem hx
    simp_wf
    omega
  · have := List.sizeOf_lt_of_mem he
    cases e
    simp_wf
    simp only [Prod.mk.sizeOf_spec] at this
    omega

end GameTable.Value
