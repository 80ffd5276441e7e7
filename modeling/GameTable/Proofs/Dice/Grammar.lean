import Mathlib.Data.List.Chain
import GameTable.Dice.Expr

/-!
# The grammar of dice notation

Which characters are a notation, and of which terms, without a word on how they
are read. There are no blanks in them, and no capital letters:

```
notation  := [sign] sum
sum       := term, then any number of sign term
term      := numeral | [numeral] 'd' numeral keep
keep      := nothing | 'k' ('h' | 'l') [numeral]
```

A numeral that is left out is one. The limits on the numbers are part of the
grammar.

No sign stands within a term, so two signs never stand side by side
(`Notation.isChain`).
-/

namespace GameTable

/-- A number in decimal digits. -/
inductive Numeral : List Char → Nat → Prop
  | digit {c : Char} : c.isDigit = true → Numeral [c] (Decimal.digitValue c)
  | more {cs : List Char} {n : Nat} {c : Char} : Numeral cs n → c.isDigit = true →
      Numeral (cs ++ [c]) (10 * n + Decimal.digitValue c)

/-- A number that may be left out, and is one then. -/
inductive OptionalNumeral : List Char → Nat → Prop
  | omitted : OptionalNumeral [] 1
  | given {cs : List Char} {n : Nat} : Numeral cs n → OptionalNumeral cs n

/-- Which of the dice are kept: all of them, or so many of the highest or of the lowest. -/
inductive KeepText (count : Nat) : List Char → Option Keep → Prop
  | all : KeepText count [] none
  | highest {cs : List Char} {n : Nat} : OptionalNumeral cs n → 1 ≤ n → n ≤ count →
      KeepText count ('k' :: 'h' :: cs) (some (.highest n))
  | lowest {cs : List Char} {n : Nat} : OptionalNumeral cs n → 1 ≤ n → n ≤ count →
      KeepText count ('k' :: 'l' :: cs) (some (.lowest n))

/-- A constant, or some dice. -/
inductive TermText : List Char → DiceTerm → Prop
  | constant {cs : List Char} {n : Nat} : Numeral cs n → n ≤ maxInteger → TermText cs (.constant n)
  | dice {before sideText suffix : List Char} {count sides : Nat} {keep : Option Keep} :
      OptionalNumeral before count → count ≤ maxDice →
      Numeral sideText sides → 1 ≤ sides → sides ≤ maxSides → KeepText count suffix keep →
      TermText (before ++ 'd' :: (sideText ++ suffix)) (.dice count sides keep)

/-- A sign, and whether it is a minus. -/
inductive Sign : Char → Bool → Prop
  | plus : Sign '+' false
  | minus : Sign '-' true

/-- Terms with a sign between any two of them. The sign of the first is known. -/
inductive SumText : Bool → List Char → List SignedTerm → Prop
  | last {negative : Bool} {cs : List Char} {t : DiceTerm} :
      TermText cs t → SumText negative cs [⟨negative, t⟩]
  | more {negative next : Bool} {cs rest : List Char} {c : Char} {t : DiceTerm}
      {ts : List SignedTerm} : TermText cs t → Sign c next → SumText next rest ts →
      SumText negative (cs ++ c :: rest) (⟨negative, t⟩ :: ts)

/-- A sum with one sign in front of it, or none. -/
inductive Notation : List Char → List SignedTerm → Prop
  | unsigned {cs : List Char} {ts : List SignedTerm} : SumText false cs ts → Notation cs ts
  | signed {c : Char} {negative : Bool} {cs : List Char} {ts : List SignedTerm} :
      Sign c negative → SumText negative cs ts → Notation (c :: cs) ts

/-! ## Digits and signs -/

def isSign (c : Char) : Bool := c = '+' || c = '-'

theorem isSign_iff {c : Char} : isSign c = true ↔ Sign c (decide (c = '-')) := by
  constructor
  · intro h
    simp only [isSign, Bool.or_eq_true, decide_eq_true_eq] at h
    rcases h with rfl | rfl
    · exact .plus
    · exact .minus
  · intro h
    generalize decide (c = '-') = negative at h
    cases h <;> rfl

theorem Sign.isSign {c : Char} {negative : Bool} (h : Sign c negative) : isSign c = true := by
  cases h <;> rfl

theorem Sign.negative_eq {c : Char} {negative : Bool} (h : Sign c negative) :
    negative = decide (c = '-') := by
  cases h <;> rfl

theorem Numeral.ne_nil {cs : List Char} {n : Nat} (h : Numeral cs n) : cs ≠ [] := by
  cases h <;> simp

theorem Numeral.isDigit {cs : List Char} {n : Nat} (h : Numeral cs n) :
    ∀ c ∈ cs, c.isDigit = true := by
  induction h with
  | digit hc => simpa using hc
  | more _ hc ih =>
      intro d hd
      rcases List.mem_append.mp hd with hd | hd
      · exact ih d hd
      · rw [List.mem_singleton.mp hd]
        exact hc

theorem OptionalNumeral.isDigit {cs : List Char} {n : Nat} (h : OptionalNumeral cs n) :
    ∀ c ∈ cs, c.isDigit = true := by
  cases h with
  | omitted => exact fun c hc => by cases hc
  | given h => exact h.isDigit

theorem isSign_eq_false_of_isDigit {c : Char} (h : c.isDigit = true) : isSign c = false := by
  rw [isSign, Bool.or_eq_false_iff, decide_eq_false_iff_not, decide_eq_false_iff_not]
  constructor
  · rintro rfl
    cases h
  · rintro rfl
    cases h

theorem KeepText.isSign_eq_false {count : Nat} {cs : List Char} {keep : Option Keep}
    (h : KeepText count cs keep) : ∀ c ∈ cs, isSign c = false := by
  have hdigits {cs : List Char} {n : Nat} (h : OptionalNumeral cs n) :
      ∀ c ∈ cs, isSign c = false := fun c hc => isSign_eq_false_of_isDigit (h.isDigit c hc)
  cases h with
  | all => exact fun c hc => by cases hc
  | highest h | lowest h =>
      exact List.forall_mem_cons.mpr ⟨rfl, List.forall_mem_cons.mpr ⟨rfl, hdigits h⟩⟩

theorem KeepText.exists_cons {count : Nat} {cs : List Char} {keep : Keep}
    (h : KeepText count cs (some keep)) : ∃ rest, cs = 'k' :: rest := by
  cases h <;> exact ⟨_, rfl⟩

/-- There is no sign within a term. -/
theorem TermText.isSign_eq_false {cs : List Char} {t : DiceTerm} (h : TermText cs t) :
    ∀ c ∈ cs, isSign c = false := by
  cases h with
  | constant h => exact fun c hc => isSign_eq_false_of_isDigit (h.isDigit c hc)
  | dice hcount _ hsides _ _ hkeep =>
      intro c hc
      rcases List.mem_append.mp hc with hc | hc
      · exact isSign_eq_false_of_isDigit (hcount.isDigit c hc)
      · rcases List.mem_cons.mp hc with rfl | hc
        · rfl
        · rcases List.mem_append.mp hc with hc | hc
          · exact isSign_eq_false_of_isDigit (hsides.isDigit c hc)
          · exact hkeep.isSign_eq_false c hc

theorem TermText.ne_nil {cs : List Char} {t : DiceTerm} (h : TermText cs t) : cs ≠ [] := by
  cases h with
  | constant h => exact h.ne_nil
  | dice => simp

/-! ## Where signs stand -/

/-- A sum begins with a term. -/
theorem SumText.exists_cons {negative : Bool} {cs : List Char} {ts : List SignedTerm}
    (h : SumText negative cs ts) : ∃ c rest, cs = c :: rest ∧ isSign c = false := by
  have hterm {cs : List Char} {t : DiceTerm} (h : TermText cs t) (more : List Char) :
      ∃ c rest, cs ++ more = c :: rest ∧ isSign c = false := by
    obtain ⟨c, rest, rfl⟩ := List.exists_cons_of_ne_nil h.ne_nil
    exact ⟨c, rest ++ more, rfl, h.isSign_eq_false c (List.mem_cons_self ..)⟩
  cases h with
  | last h => simpa using hterm h []
  | more h => exact hterm h _

theorem SumText.not_sign {negative : Bool} {c : Char} {cs : List Char} {ts : List SignedTerm}
    (h : SumText negative (c :: cs) ts) : isSign c = false := by
  obtain ⟨d, rest, heq, hd⟩ := h.exists_cons
  obtain ⟨rfl, -⟩ := List.cons.inj heq
  exact hd

/-- Not two signs side by side. -/
def Apart (c d : Char) : Prop := isSign c = true → isSign d = false

theorem Apart.of_left {c d : Char} (h : isSign c = false) : Apart c d := fun hc => by
  rw [h] at hc
  cases hc

theorem isChain_of_isSign_eq_false {cs : List Char} (h : ∀ c ∈ cs, isSign c = false) :
    cs.IsChain Apart := by
  induction cs with
  | nil => exact .nil
  | cons c cs ih =>
      rw [List.forall_mem_cons] at h
      exact List.isChain_cons.mpr ⟨fun _ _ => .of_left h.1, ih h.2⟩

theorem SumText.isChain_sign_cons {negative : Bool} {cs : List Char} {ts : List SignedTerm}
    (h : SumText negative cs ts) (hchain : cs.IsChain Apart) (c : Char) :
    (c :: cs).IsChain Apart := by
  obtain ⟨d, rest, rfl, hd⟩ := h.exists_cons
  exact List.isChain_cons_cons.mpr ⟨fun _ => hd, hchain⟩

theorem SumText.isChain {negative : Bool} {cs : List Char} {ts : List SignedTerm}
    (h : SumText negative cs ts) : cs.IsChain Apart := by
  induction h with
  | last h => exact isChain_of_isSign_eq_false h.isSign_eq_false
  | more h _ hrest ih =>
      refine List.isChain_append.mpr
        ⟨isChain_of_isSign_eq_false h.isSign_eq_false, hrest.isChain_sign_cons ih _, ?_⟩
      exact fun d hd _ _ => .of_left (h.isSign_eq_false d (List.mem_of_getLast? hd))

theorem Notation.isChain {cs : List Char} {ts : List SignedTerm} (h : Notation cs ts) :
    cs.IsChain Apart := by
  cases h with
  | unsigned h => exact h.isChain
  | signed _ h => exact h.isChain_sign_cons h.isChain _

/-! ## More plus signs than one -/

/-- A notation, with any number of plus signs in front of it. -/
inductive Accepted : List Char → List SignedTerm → Prop
  | plain {cs : List Char} {ts : List SignedTerm} : Notation cs ts → Accepted cs ts
  | plus {cs : List Char} {ts : List SignedTerm} : Accepted cs ts → Accepted ('+' :: cs) ts

section

variable {c : Char} {cs : List Char} {ts : List SignedTerm}

theorem notation_sign_iff {negative : Bool} (hc : Sign c negative) :
    Notation (c :: cs) ts ↔ SumText negative cs ts := by
  constructor
  · intro h
    cases h with
    | unsigned h => cases hc.isSign.symm.trans h.not_sign
    | signed hsign h =>
        rw [hc.negative_eq, ← hsign.negative_eq]
        exact h
  · exact .signed hc

theorem notation_iff_of_not_sign (hc : isSign c = false) :
    Notation (c :: cs) ts ↔ SumText false (c :: cs) ts := by
  constructor
  · intro h
    cases h with
    | unsigned h => exact h
    | signed hsign _ => cases hc.symm.trans hsign.isSign
  · exact .unsigned

theorem accepted_plus_iff : Accepted ('+' :: cs) ts ↔ Accepted cs ts := by
  constructor
  · intro h
    cases h with
    | plain h => exact .plain (.unsigned ((notation_sign_iff .plus).mp h))
    | plus h => exact h
  · exact .plus

theorem accepted_iff_of_ne_plus (hc : c ≠ '+') : Accepted (c :: cs) ts ↔ Notation (c :: cs) ts := by
  constructor
  · intro h
    cases h with
    | plain h => exact h
    | plus => exact absurd rfl hc
  · exact .plain

theorem Accepted.exists_cons (h : Accepted cs ts) : ∃ c rest, cs = c :: rest := by
  cases h with
  | plus => exact ⟨_, _, rfl⟩
  | plain h =>
      cases h with
      | signed => exact ⟨_, _, rfl⟩
      | unsigned h =>
          obtain ⟨c, rest, heq, -⟩ := h.exists_cons
          exact ⟨c, rest, heq⟩

/-- What is accepted besides the grammar begins with a plus sign in front of another sign. -/
theorem accepted_and_not_notation_iff :
    Accepted cs ts ∧ ¬ Notation cs ts
      ↔ ∃ c rest, cs = '+' :: c :: rest ∧ isSign c = true ∧ Accepted (c :: rest) ts := by
  constructor
  · rintro ⟨h, hnot⟩
    cases h with
    | plain h => exact absurd h hnot
    | plus h =>
        obtain ⟨c, rest, rfl⟩ := h.exists_cons
        cases hc : isSign c with
        | true => exact ⟨c, rest, rfl, hc, h⟩
        | false =>
            have hne : c ≠ '+' := by
              rintro rfl
              cases hc
            have hsum := (notation_iff_of_not_sign hc).mp ((accepted_iff_of_ne_plus hne).mp h)
            exact absurd ((notation_sign_iff .plus).mpr hsum) hnot
  · rintro ⟨c, rest, rfl, hc, h⟩
    refine ⟨.plus h, fun hnotation => ?_⟩
    cases hc.symm.trans ((notation_sign_iff .plus).mp hnotation).not_sign

/-- Signs stand side by side in front of the first term only, and all but the last of them are plus
signs. -/
theorem Accepted.eq_plus_of_signs (h : Accepted cs ts) {before after : List Char} {d : Char}
    (heq : cs = before ++ c :: d :: after) (hc : isSign c = true) (hd : isSign d = true) :
    ∀ x ∈ before ++ [c], x = '+' := by
  induction h generalizing before with
  | plain h =>
      have hchain := h.isChain
      rw [heq, List.isChain_append_cons_cons] at hchain
      cases (hchain.2.1 hc).symm.trans hd
  | plus _ ih =>
      cases before with
      | nil =>
          obtain ⟨rfl, -⟩ := List.cons.inj heq
          simp
      | cons b before =>
          obtain ⟨rfl, hrest⟩ := List.cons.inj heq
          exact List.forall_mem_cons.mpr ⟨rfl, ih hrest⟩

end

end GameTable
