import Mathlib.Algebra.BigOperators.Fin
import Mathlib.Algebra.Order.BigOperators.Group.Finset
import Mathlib.Data.List.NodupEquivFin
import Mathlib.Data.List.Sort
import Mathlib.Order.Bounds.Basic
import GameTable.Proofs.Dice.Throw

/-!
# The dice that are kept

The highest `k` of some dice come to the most, and the lowest `k` to the least,
that any `k` of them come to (`choiceSums`). Which dice these are does not
matter where several show the same.

The argument is about sorted faces alone: of a list that falls, no part of the
same length comes to more than the front (`sum_le_sum_take`). The lowest dice
need no second one, since the lowest `n - k` are what the highest `k` leave
over (`sum_highest_add_sum_lowest`).
-/

namespace GameTable

/-! ## The front of a falling list -/

theorem sum_take_succ_le {a : Nat} {l : List Nat} (h : ∀ b ∈ l, b ≤ a) (k : Nat) :
    (l.take (k + 1)).sum ≤ a + (l.take k).sum := by
  rw [List.take_add_one, List.sum_append, Nat.add_comm]
  refine Nat.add_le_add_right ?_ _
  cases hk : l[k]? with
  | none => exact Nat.zero_le a
  | some b => simpa using h b (List.mem_of_getElem? hk)

theorem sum_le_sum_take {l part : List Nat} (hl : l.Pairwise (· ≥ ·))
    (hpart : part.Sublist l) : part.sum ≤ (l.take part.length).sum := by
  induction hpart with
  | slnil => exact Nat.le_refl 0
  | @cons part l a hpart ih =>
      rw [List.pairwise_cons] at hl
      cases part with
      | nil => exact Nat.zero_le _
      | cons b part =>
          calc (b :: part).sum
              ≤ (l.take (part.length + 1)).sum := ih hl.2
            _ ≤ a + (l.take part.length).sum := sum_take_succ_le hl.1 _
            _ = ((a :: l).take (part.length + 1)).sum := by rw [List.take_succ_cons, List.sum_cons]
  | @cons_cons part l a _ ih =>
      rw [List.length_cons, List.take_succ_cons, List.sum_cons, List.sum_cons]
      exact Nat.add_le_add_left (ih hl.of_cons) a

/-! ## Falling and rising faces -/

/-- The faces, the highest first. -/
def falling (faces : List Nat) : List Nat := faces.mergeSort fun a b => b ≤ a

theorem falling_perm (faces : List Nat) : (falling faces).Perm faces :=
  List.mergeSort_perm ..

theorem pairwise_falling (faces : List Nat) : (falling faces).Pairwise (· ≥ ·) :=
  List.pairwise_mergeSort' (· ≥ ·) faces

/-- The faces with the lowest first are the others turned around. -/
theorem mergeSort_le_eq_reverse (faces : List Nat) :
    (faces.mergeSort fun a b => a ≤ b) = (falling faces).reverse := by
  have hrising : (faces.mergeSort fun a b => a ≤ b).Pairwise (· ≤ ·) :=
    List.pairwise_mergeSort' (· ≤ ·) faces
  have hperm : (faces.mergeSort fun a b => a ≤ b).Perm (falling faces).reverse :=
    (List.mergeSort_perm ..).trans
      ((falling_perm faces).symm.trans (List.reverse_perm _).symm)
  exact hperm.eq_of_pairwise' hrising (List.pairwise_reverse.mpr (pairwise_falling faces))

namespace DiceTerm

theorem keptFaces_highest (faces : List Nat) (k : Nat) :
    keptFaces faces (some (.highest k)) = (falling faces).take k := rfl

/-- The lowest of the faces are those that the highest leave over. -/
theorem sum_highest_add_sum_lowest {faces : List Nat} {k : Nat} (hk : k ≤ faces.length) :
    (keptFaces faces (some (.highest k))).sum
      + (keptFaces faces (some (.lowest (faces.length - k)))).sum = faces.sum := by
  have hlength : (falling faces).length = faces.length := (falling_perm faces).length_eq
  have hdrop : faces.length - (faces.length - k) = k := by omega
  rw [keptFaces_highest, keptFaces, mergeSort_le_eq_reverse, List.take_reverse, hlength, hdrop,
    List.sum_reverse, List.sum_take_add_sum_drop, (falling_perm faces).sum_eq]

end DiceTerm

/-! ## All ways to choose -/

/-- What the dice come to that are chosen, for all ways to choose `k` of them. -/
def choiceSums (faces : List Nat) (k : Nat) : Set Int :=
  {x | ∃ chosen : Finset (Fin faces.length), chosen.card = k
    ∧ ∑ i ∈ chosen, (faces.get i : Int) = x}

theorem sum_univ_get (faces : List Nat) : ∑ i, (faces.get i : Int) = faces.sum := by
  rw [← Nat.cast_sum, ← List.sum_ofFn, List.ofFn_get]

/-- The faces of the dice that are chosen, in any order. -/
theorem mem_choiceSums_iff {faces : List Nat} {k : Nat} {x : Int} :
    x ∈ choiceSums faces k
      ↔ ∃ part : List Nat, part.Subperm faces ∧ part.length = k ∧ (part.sum : Int) = x := by
  constructor
  · rintro ⟨chosen, hcard, rfl⟩
    have hall : Multiset.map faces.get Finset.univ.val = ↑faces := by
      rw [Fin.univ_val_map, List.ofFn_get]
    obtain ⟨part, hpart⟩ := Quot.exists_rep (chosen.val.map faces.get)
    replace hpart : (part : Multiset Nat) = chosen.val.map faces.get := hpart
    refine ⟨part, ?_, ?_, ?_⟩
    · rw [← Multiset.coe_le, hpart, ← hall]
      exact Multiset.map_le_map (Finset.val_le_iff.mpr (Finset.subset_univ chosen))
    · rw [← Multiset.coe_card, hpart, Multiset.card_map, ← hcard]
      rfl
    · rw [← Multiset.sum_coe, hpart, ← Nat.cast_sum]
      rfl
  · rintro ⟨part, ⟨inOrder, hperm, hsub⟩, rfl, rfl⟩
    obtain ⟨place, hplace⟩ := List.sublist_iff_exists_fin_orderEmbedding_get_eq.mp hsub
    refine ⟨Finset.univ.map place.toEmbedding, ?_, ?_⟩
    · rw [Finset.card_map, Finset.card_univ, Fintype.card_fin, hperm.length_eq]
    · rw [Finset.sum_map, ← hperm.sum_eq, ← sum_univ_get]
      exact Finset.sum_congr rfl fun i _ => congrArg Nat.cast (hplace i).symm

namespace DiceTerm

theorem isGreatest_highest {faces : List Nat} {k : Nat} (hk : k ≤ faces.length) :
    IsGreatest (choiceSums faces k) ((keptFaces faces (some (.highest k))).sum : Nat) := by
  have hlength : (falling faces).length = faces.length := (falling_perm faces).length_eq
  constructor
  · refine mem_choiceSums_iff.mpr ⟨_, ?_, ?_, rfl⟩
    · exact (List.take_sublist ..).subperm.trans (falling_perm faces).subperm
    · rw [keptFaces_highest, List.length_take, hlength, Nat.min_eq_left hk]
  · intro x hx
    obtain ⟨part, hpart, rfl, rfl⟩ := mem_choiceSums_iff.mp hx
    obtain ⟨inOrder, hperm, hsub⟩ := hpart.trans (falling_perm faces).symm.subperm
    rw [← hperm.sum_eq, ← hperm.length_eq]
    exact Int.ofNat_le.mpr (sum_le_sum_take (pairwise_falling faces) hsub)

/-- The dice that are not chosen are a choice as well. -/
theorem compl_mem_choiceSums {faces : List Nat} {k : Nat} {x : Int} (h : x ∈ choiceSums faces k) :
    faces.sum - x ∈ choiceSums faces (faces.length - k) := by
  obtain ⟨chosen, rfl, rfl⟩ := h
  refine ⟨chosenᶜ, ?_, ?_⟩
  · rw [Finset.card_compl, Fintype.card_fin]
  · rw [← sum_univ_get, ← Finset.sum_add_sum_compl chosen, add_sub_cancel_left]

theorem isLeast_lowest {faces : List Nat} {k : Nat} (hk : k ≤ faces.length) :
    IsLeast (choiceSums faces k) ((keptFaces faces (some (.lowest k))).sum : Nat) := by
  have hrest : faces.length - (faces.length - k) = k := by omega
  obtain ⟨hmem, hmost⟩ := isGreatest_highest (Nat.sub_le faces.length k)
  have hsum := sum_highest_add_sum_lowest (Nat.sub_le faces.length k)
  rw [hrest] at hsum
  constructor
  · have hleft := compl_mem_choiceSums hmem
    rw [hrest] at hleft
    convert hleft using 1
    omega
  · intro x hx
    have hle := hmost (compl_mem_choiceSums hx)
    omega

/-- Numerals in front of a `d` and behind it, and what is kept behind these. -/
theorem parse_kept {before sideText suffix : List Char} {n sides : Nat} {keep : Keep}
    (hbefore : Numeral before n) (hn : n ≤ maxDice) (hside : Numeral sideText sides)
    (hpos : 1 ≤ sides) (hsides : sides ≤ maxSides) (hkeep : KeepText n suffix (some keep)) :
    parse (before ++ 'd' :: (sideText ++ suffix)) = .ok (.dice n sides (some keep)) := by
  have hterm : TermText (before ++ 'd' :: (sideText ++ suffix)) (.dice n sides (some keep)) :=
    .dice (.given hbefore) hn hside hpos hsides hkeep
  exact (parse_eq_ok_iff hterm.isSign_eq_false).mpr hterm

/-- Of all ways to choose `k` of `n` dice, the highest `k` come to the most and the lowest `k` to
the least. On the same faces the highest `k` and the lowest of the others come to what all dice
show. This is what `NdSkhK` and `NdSklK` come to when the dice are thrown. -/
theorem kept_dice_are_extremal {faces : List Nat} {n k : Nat} (sides : Nat)
    (hfaces : faces.length = n) (hk : 1 ≤ k) (hkn : k ≤ n) :
    IsGreatest (choiceSums faces k) ((DiceTerm.dice n sides (some (.highest k))).value faces)
      ∧ IsLeast (choiceSums faces k) ((DiceTerm.dice n sides (some (.lowest k))).value faces)
      ∧ (k < n → (DiceTerm.dice n sides (some (.highest k))).value faces
          + (DiceTerm.dice n sides (some (.lowest (n - k)))).value faces
        = (DiceTerm.dice n sides none).value faces)
      ∧ (∀ (σ : Type) (draw : Nat → σ → Nat × σ) s, (drawFaces draw sides n s).1 = faces →
          ∀ keep, ((DiceTerm.dice n sides keep).throw draw s).1
            = (DiceTerm.dice n sides keep).value faces)
      ∧ (n ≤ maxDice → 1 ≤ sides → sides ≤ maxSides →
          ∀ before sideText kept, Numeral before n → Numeral sideText sides → Numeral kept k →
            parse (before ++ 'd' :: (sideText ++ 'k' :: 'h' :: kept))
                = .ok (.dice n sides (some (.highest k)))
              ∧ parse (before ++ 'd' :: (sideText ++ 'k' :: 'l' :: kept))
                = .ok (.dice n sides (some (.lowest k)))) := by
  subst hfaces
  refine ⟨isGreatest_highest hkn, isLeast_lowest hkn, fun _ => ?_, fun σ draw s hdrawn keep => ?_,
    fun hn hpos hsides before sideText kept hbefore hside hkept => ⟨?_, ?_⟩⟩
  · rw [value_dice, value_dice, value_dice, ← Nat.cast_add, sum_highest_add_sum_lowest hkn]
    rfl
  · exact congrArg (value · (.dice faces.length sides keep)) hdrawn
  · exact parse_kept hbefore hn hside hpos hsides (.highest (.given hkept) hk hkn)
  · exact parse_kept hbefore hn hside hpos hsides (.lowest (.given hkept) hk hkn)

/-- Two of four dice, three of which show the same. -/
theorem kept_dice_are_extremal_with_ties :
    IsGreatest (choiceSums [5, 2, 5, 5] 2) 10 ∧ IsLeast (choiceSums [5, 2, 5, 5] 2) 7
      ∧ parse "4d6kh2".toList = .ok (.dice 4 6 (some (.highest 2))) := by
  obtain ⟨hmost, hleast, -, -, hparse⟩ :=
    @kept_dice_are_extremal [5, 2, 5, 5] 4 2 6 rfl (by decide) (by decide)
  have hdigit (c : Char) (h : c.isDigit = true) : Numeral [c] (Decimal.digitValue c) := .digit h
  obtain ⟨hread, -⟩ := hparse (by decide) (by decide) (by decide) ['4'] ['6'] ['2']
    (hdigit '4' rfl) (hdigit '6' rfl) (hdigit '2' rfl)
  have hsorted : falling [5, 2, 5, 5] = [5, 5, 5, 2] :=
    ((falling_perm _).trans (by decide)).eq_of_pairwise' (pairwise_falling _) (by decide)
  rw [value_dice, keptFaces_highest, hsorted] at hmost
  rw [value_dice, keptFaces, mergeSort_le_eq_reverse, hsorted] at hleast
  exact ⟨hmost, hleast, hread⟩

end DiceTerm

end GameTable
