import Mathlib.Data.List.TakeDrop
import Mathlib.Data.List.TakeWhile
import GameTable.Json.Parser
import GameTable.Json.Printer

/-!
# Numbers that are read back

The readers of a number take all they can, so whatever stands behind a number
is left alone as long as it does not look like more of it (`EndsNumber`). What
is said of reading a number on its own therefore holds of the same number
inside a document (`takes_readNumber`).

An integer that is printed is read back exactly. Floats are another matter:
their digits are calculated when they are printed and again when they are read,
and the cheap rule by which stored floats are read need not give every float
back. `FiniteFloat.ReadsBack` says of a float that it does.
-/

namespace GameTable.Json

/-- The characters that numbers are made of. -/
def isNumeral (c : Char) : Bool :=
  c.isDigit || c = '-' || c = '+' || c = '.' || c = 'e' || c = 'E'

/-- The text does not start with more of a number. -/
def EndsNumber (tail : List Char) : Prop := ∀ c ∈ tail.head?, isNumeral c = false

theorem endsNumber_cons {c : Char} {rest : List Char} (h : isNumeral c = false) :
    EndsNumber (c :: rest) := by
  rintro _ ⟨⟩
  exact h

theorem isNumeral_eq_false {c : Char} : isNumeral c = false
    ↔ c.isDigit = false ∧ c ≠ '-' ∧ c ≠ '+' ∧ c ≠ '.' ∧ c ≠ 'e' ∧ c ≠ 'E' := by
  simp [isNumeral, and_assoc]

/-- The part of a number behind its sign. -/
def readMagnitude (negative : Bool) (cs : List Char) : Option (Written × List Char) := do
  let (whole, rest) := cs.span Char.isDigit
  if whole.isEmpty || (whole.length > 1 && whole.head? == some '0') then none
  let (fraction, rest) ← readFraction rest
  let (exponent, rest) ← readExponent rest
  pure (numberOf negative whole fraction exponent, rest)

theorem readNumber_minus (cs : List Char) : readNumber ('-' :: cs) = readMagnitude true cs := rfl

theorem readNumber_of_ne {cs : List Char} (h : cs.head? ≠ some '-') :
    readNumber cs = readMagnitude false cs := by
  rw [readNumber]
  · rfl
  · rintro rest rfl
    exact h rfl

theorem readNumber_cons_of_ne {c : Char} (hsign : c ≠ '-') (hdigit : c.isDigit = false)
    (cs : List Char) : readNumber (c :: cs) = none := by
  have hhead : (c :: cs).head? ≠ some '-' := by simpa using hsign
  rw [readNumber_of_ne hhead, readMagnitude, List.span_eq_takeWhile_dropWhile]
  simp [hdigit]

/-! ## What a number takes of a text -/

/-- A reader takes a text up to the rest: nothing but characters of numbers, and
the same of a longer text that does not go on with a number. -/
structure Takes {α : Type} (read : List Char → Option (α × List Char)) (cs : List Char) (a : α)
    (rest : List Char) : Prop where
  numerals : ∀ c ∈ cs, isNumeral c = true ∨ c ∈ rest
  longer : ∀ tail, EndsNumber tail → read (cs ++ tail) = some (a, rest ++ tail)

section Taking

variable {cs rest tail : List Char} {c : Char}

theorem isNumeral_of_isDigit (h : c.isDigit = true) : isNumeral c = true := by
  simp [isNumeral, h]

theorem mem_span_isDigit (hc : c ∈ cs) :
    isNumeral c = true ∨ c ∈ (cs.span Char.isDigit).2 := by
  rw [List.span_eq_takeWhile_dropWhile]
  rw [← List.takeWhile_append_dropWhile (p := Char.isDigit) (l := cs)] at hc
  rcases List.mem_append.mp hc with htake | hdrop
  · exact .inl (isNumeral_of_isDigit (List.mem_takeWhile_imp htake))
  · exact .inr hdrop

theorem span_isDigit_append (ht : EndsNumber tail) (cs : List Char) :
    (cs ++ tail).span Char.isDigit
      = ((cs.span Char.isDigit).1, (cs.span Char.isDigit).2 ++ tail) := by
  simp only [List.span_eq_takeWhile_dropWhile]
  induction cs with
  | nil =>
      cases tail with
      | nil => rfl
      | cons c _ => simp [(isNumeral_eq_false.mp (ht c rfl)).1]
  | cons c rest ih =>
      obtain ⟨htake, hdrop⟩ := Prod.mk.inj ih
      by_cases hc : c.isDigit
      · simp [hc, htake, hdrop]
      · simp [hc]

theorem takes_readFraction {digits : List Char} (h : readFraction cs = some (digits, rest)) :
    Takes readFraction cs digits rest := by
  unfold readFraction at h
  split at h
  · dsimp only at h
    split at h
    · cases h
    · rename_i hdigits
      obtain ⟨rfl, rfl⟩ := Prod.mk.inj (Option.some.inj h)
      refine ⟨fun c hc => ?_, fun tail ht => ?_⟩
      · rcases List.mem_cons.mp hc with rfl | hc
        · exact .inl rfl
        · exact mem_span_isDigit hc
      · rw [List.cons_append, readFraction, span_isDigit_append ht]
        exact if_neg hdigits
  · rename_i hpoint
    obtain ⟨rfl, rfl⟩ := Prod.mk.inj (Option.some.inj h)
    refine ⟨fun c hc => .inr hc, fun tail ht => ?_⟩
    unfold readFraction
    split
    · rename_i more heq
      cases cs with
      | nil =>
          rw [List.nil_append] at heq
          exact absurd rfl (isNumeral_eq_false.mp (ht '.' (by rw [heq]; rfl))).2.2.2.1
      | cons c _ => exact (hpoint _ (by rw [(List.cons.inj heq).1])).elim
    · rfl

theorem mem_readSign (hc : c ∈ cs) : isNumeral c = true ∨ c ∈ (Decimal.readSign cs).2 := by
  unfold Decimal.readSign
  split
  · rcases List.mem_cons.mp hc with rfl | hc
    · exact .inl rfl
    · exact .inr hc
  · rcases List.mem_cons.mp hc with rfl | hc
    · exact .inl rfl
    · exact .inr hc
  · exact .inr hc

theorem readSign_append (ht : EndsNumber tail) (cs : List Char) :
    Decimal.readSign (cs ++ tail)
      = ((Decimal.readSign cs).1, (Decimal.readSign cs).2 ++ tail) := by
  cases cs with
  | nil =>
      cases tail with
      | nil => rfl
      | cons c more =>
          obtain ⟨-, hminus, hplus, -⟩ := isNumeral_eq_false.mp (ht c rfl)
          rw [List.nil_append, Decimal.readSign.eq_3]
          · rfl
          all_goals simp [hminus, hplus]
  | cons c more =>
      rw [List.cons_append]
      unfold Decimal.readSign
      split <;> simp_all

theorem takes_readExponent {exponent : Option Int} (h : readExponent cs = some (exponent, rest)) :
    Takes readExponent cs exponent rest := by
  unfold readExponent at h
  split at h
  · rename_i e more
    split at h
    · rename_i he
      dsimp only at h
      split at h
      · cases h
      · rename_i hdigits
        obtain ⟨rfl, rfl⟩ := Prod.mk.inj (Option.some.inj h)
        refine ⟨fun c hc => ?_, fun tail ht => ?_⟩
        · rcases List.mem_cons.mp hc with rfl | hc
          · rcases Bool.or_eq_true_iff.mp he with he | he
            · exact .inl (of_decide_eq_true he ▸ rfl)
            · exact .inl (of_decide_eq_true he ▸ rfl)
          · rcases mem_readSign hc with hsign | hc
            · exact .inl hsign
            · exact mem_span_isDigit hc
        · rw [List.cons_append, readExponent, if_pos he, readSign_append ht]
          dsimp only
          rw [span_isDigit_append ht]
          exact if_neg hdigits
    · rename_i he
      obtain ⟨rfl, rfl⟩ := Prod.mk.inj (Option.some.inj h)
      refine ⟨fun c hc => .inr hc, fun tail _ => ?_⟩
      rw [List.cons_append, readExponent, if_neg he]
  · obtain ⟨rfl, rfl⟩ := Prod.mk.inj (Option.some.inj h)
    refine ⟨nofun, fun tail ht => ?_⟩
    cases tail with
    | nil => rfl
    | cons c more =>
        obtain ⟨-, -, -, -, he, hE⟩ := isNumeral_eq_false.mp (ht c rfl)
        rw [List.nil_append, readExponent, if_neg (by simp [he, hE])]

theorem takes_readMagnitude {negative : Bool} {w : Written}
    (h : readMagnitude negative cs = some (w, rest)) :
    Takes (readMagnitude negative) cs w rest := by
  unfold readMagnitude at h
  dsimp only at h
  split at h
  · cases h
  · rename_i hwhole
    obtain ⟨⟨fraction, behind⟩, hfraction, h⟩ := Option.bind_eq_some_iff.mp h
    obtain ⟨⟨exponent, behind'⟩, hexponent, h⟩ := Option.bind_eq_some_iff.mp h
    obtain ⟨rfl, rfl⟩ := Prod.mk.inj (Option.some.inj h)
    obtain ⟨hpoint, hlonger⟩ := takes_readFraction hfraction
    obtain ⟨hpower, hlongest⟩ := takes_readExponent hexponent
    refine ⟨fun c hc => ?_, fun tail ht => ?_⟩
    · rcases mem_span_isDigit hc with hdigit | hc
      · exact .inl hdigit
      · exact (hpoint c hc).elim .inl (hpower c)
    · rw [readMagnitude, span_isDigit_append ht]
      dsimp only
      rw [if_neg hwhole, hlonger tail ht]
      change (readExponent _).bind _ = _
      rw [hlongest tail ht]
      rfl

/-- A number is nothing but characters of numbers, and it is read in the same
way when something else stands behind it. -/
theorem takes_readNumber {w : Written} (h : readNumber cs = some (w, rest)) :
    Takes readNumber cs w rest := by
  cases cs with
  | nil => cases h
  | cons c more =>
      by_cases hc : c = '-'
      · subst hc
        obtain ⟨hnumerals, hlonger⟩ := takes_readMagnitude h
        refine ⟨fun d hd => ?_, hlonger⟩
        rcases List.mem_cons.mp hd with rfl | hd
        · exact .inl rfl
        · exact hnumerals d hd
      · have hne : ∀ more : List Char, (c :: more).head? ≠ some '-' := by simp [hc]
        rw [readNumber_of_ne (hne _)] at h
        obtain ⟨hnumerals, hlonger⟩ := takes_readMagnitude h
        refine ⟨hnumerals, fun tail ht => ?_⟩
        rw [List.cons_append, readNumber_of_ne (hne _)]
        exact hlonger tail ht

theorem isNumeral_of_readNumber {w : Written} (h : readNumber cs = some (w, [])) (hc : c ∈ cs) :
    isNumeral c = true :=
  ((takes_readNumber h).numerals c hc).resolve_right List.not_mem_nil

end Taking

/-! ## Integers -/

theorem head?_toDigits_ne_zero {n : Nat} (hn : 0 < n) : (Nat.toDigits 10 n).head? ≠ some '0' := by
  induction n using Nat.strongRecOn with
  | ind n ih =>
      rw [Nat.toDigits_eq_if (by decide)]
      split
      · rename_i hlt
        have hdigits : ∀ d < 10, 0 < d → [Nat.digitChar d].head? ≠ some '0' := by decide
        exact hdigits n hlt hn
      · rw [List.head?_append, Option.or_of_isSome (by simp [Nat.toDigits_ne_nil])]
        exact ih (n / 10) (by omega) (by omega)

theorem digitsValue_toDigits (n : Nat) : Decimal.digitsValue (Nat.toDigits 10 n) = n :=
  Nat.ofDigitChars_ten_toDigits

theorem readMagnitude_toDigits (negative : Bool) (n : Nat) :
    readMagnitude negative (Nat.toDigits 10 n)
      = some (numberOf negative (Nat.toDigits 10 n) [] none, []) := by
  have hdigits : (Nat.toDigits 10 n).span Char.isDigit = (Nat.toDigits 10 n, []) := by
    have hall : ∀ c ∈ Nat.toDigits 10 n, c.isDigit = true :=
      fun c => Nat.isDigit_of_mem_toDigits (by decide) (by decide)
    rw [List.span_eq_takeWhile_dropWhile, List.takeWhile_eq_self_iff.mpr hall,
      List.dropWhile_eq_nil_iff.mpr hall]
  have hwhole : ((Nat.toDigits 10 n).isEmpty
      || (decide ((Nat.toDigits 10 n).length > 1)
        && (Nat.toDigits 10 n).head? == some '0')) = false := by
    have hne : (Nat.toDigits 10 n).isEmpty = false := by
      simp [Nat.toDigits_ne_nil]
    rw [hne, Bool.false_or]
    rcases Nat.eq_zero_or_pos n with rfl | hpos
    · rfl
    · simp [head?_toDigits_ne_zero hpos]
  rw [readMagnitude, hdigits]
  dsimp only
  rw [hwhole]
  rfl

/-- An integer of 64 bits, with or without a sign, is read as it is printed. -/
theorem readNumber_printInt {n : Int} (hmin : minInteger ≤ n) (hmax : n ≤ maxUnsigned) :
    readNumber (printInt n) = some (.int n, []) := by
  rw [printInt]
  by_cases hneg : n < 0
  · have hvalue : -((n.natAbs : Int)) = n := by omega
    rw [if_pos hneg, readNumber_minus, readMagnitude_toDigits, numberOf, digitsValue_toDigits,
      if_pos rfl, hvalue, if_pos (by simp [hmin, hmax, Int.ne_of_lt hneg])]
  · have hvalue : ((n.natAbs : Nat) : Int) = n := by omega
    have hsign : (Nat.toDigits 10 n.natAbs).head? ≠ some '-' := by
      intro h
      obtain ⟨rest, hdigits⟩ := List.head?_eq_some_iff.mp h
      have hdigit : ('-').isDigit = true :=
        Nat.isDigit_of_mem_toDigits (b := 10) (n := n.natAbs) (by decide) (by decide)
          (hdigits ▸ List.mem_cons_self ..)
      exact absurd hdigit (by decide)
    rw [if_neg hneg, readNumber_of_ne hsign, readMagnitude_toDigits, numberOf,
      digitsValue_toDigits, if_neg Bool.false_ne_true, hvalue, if_pos (by simp [hmin, hmax])]

end GameTable.Json

namespace GameTable

namespace FiniteFloat

/-- The float is read as it is written. -/
def ReadsBack (x : FiniteFloat) : Prop :=
  Json.readNumber (Decimal.stored.text x.val).toList = some (.float x, [])

/-- The float that a text is read as, if nothing stands behind it. -/
def ofStored? (cs : List Char) : Option FiniteFloat :=
  match Json.readNumber cs with
  | some (.float x, []) => some x
  | _ => none

theorem readsBack_iff {x : FiniteFloat} :
    x.ReadsBack ↔ ofStored? (Decimal.stored.text x.val).toList = some x := by
  rw [ReadsBack, ofStored?]
  constructor
  · intro h
    rw [h]
  · intro h
    split at h
    · rename_i y heq
      rw [heq, Option.some.inj h]
    · cases h

instance (x : FiniteFloat) : Decidable x.ReadsBack := decidable_of_iff _ readsBack_iff.symm

example : ReadsBack ⟨0.1, by decide +kernel⟩ := by decide +kernel

end FiniteFloat

end GameTable
