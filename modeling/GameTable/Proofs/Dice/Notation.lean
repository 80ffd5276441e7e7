import GameTable.Proofs.Dice.Reading

/-!
# What dice notation may say

A term that is read keeps within the limits of the notation (`DiceTerm.Proper`):
it throws so many dice at most, of so many sides at most, and keeps no more of
them than it throws; or it is a constant of 64 bits. Signs stand between terms
and never within one, so a constant is not negative, and its negation fits 64
bits as well.
-/

namespace GameTable

/-- Within the limits of the notation. -/
inductive DiceTerm.Proper : DiceTerm → Prop
  | constant {n : Int} : 0 ≤ n → n ≤ maxInteger → Proper (.constant n)
  | dice {count sides : Nat} {keep : Option Keep} :
      count ≤ maxDice → 1 ≤ sides → sides ≤ maxSides → (∀ k ∈ keep, k.count ≤ count) →
      Proper (.dice count sides keep)

theorem KeepText.count_le {count : Nat} {cs : List Char} {keep : Option Keep}
    (h : KeepText count cs keep) : ∀ k ∈ keep, k.count ≤ count := by
  cases h with
  | all => exact fun k hk => by cases hk
  | highest _ _ hle | lowest _ _ hle =>
      intro k hk
      obtain rfl := Option.some.inj hk
      exact hle

theorem TermText.proper {cs : List Char} {t : DiceTerm} (h : TermText cs t) : t.Proper := by
  cases h with
  | constant _ hle => exact .constant (Int.natCast_nonneg _) hle
  | dice _ hcount _ hpos hsides hkeep => exact .dice hcount hpos hsides hkeep.count_le

theorem SumText.proper {negative : Bool} {cs : List Char} {ts : List SignedTerm}
    (h : SumText negative cs ts) : ∀ t ∈ ts, t.term.Proper := by
  induction h with
  | last h => exact List.forall_mem_singleton.mpr h.proper
  | more h _ _ ih => exact List.forall_mem_cons.mpr ⟨h.proper, ih⟩

theorem Accepted.proper {cs : List Char} {ts : List SignedTerm} (h : Accepted cs ts) :
    ∀ t ∈ ts, t.term.Proper := by
  induction h with
  | plus _ ih => exact ih
  | plain h =>
      cases h with
      | unsigned h | signed _ h => exact h.proper

/-- Every term of a notation that is accepted is within the limits. -/
theorem DiceExpr.proper_of_parse {s : String} {e : DiceExpr} (h : parse s = .ok e) :
    ∀ t ∈ e.terms, t.term.Proper := (parse_eq_ok_iff.mp h).1.proper

end GameTable
