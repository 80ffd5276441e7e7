import Mathlib.Data.List.TakeWhile
import GameTable.Proofs.Dice.Grammar
import GameTable.Proofs.Result

/-!
# How dice notation is read

A term is read just if its characters are one (`DiceTerm.parse_eq_ok_iff`), and
a sum is read just if it is one, sign for sign (`DiceExpr.readTerms_eq_ok_iff`).
The reader of sums keeps the term in progress apart from what is still to come;
what it reads is a sum of the two put together.

It refuses a sign behind a sign by what it has read so far, and where this is
nothing but plus signs it cannot tell that there was any. So a notation may have
more plus signs in front than the grammar gives it (`Accepted`), and this is all
that is accepted besides (`accepted_and_not_notation_iff`).
-/

namespace GameTable

/-! ## Numerals -/

theorem digitsValue_concat (cs : List Char) (c : Char) :
    Decimal.digitsValue (cs ++ [c]) = 10 * Decimal.digitsValue cs + Decimal.digitValue c := by
  simp [Decimal.digitsValue]

theorem Numeral.value_eq {cs : List Char} {n : Nat} (h : Numeral cs n) :
    Decimal.digitsValue cs = n := by
  induction h with
  | digit => simp [Decimal.digitsValue]
  | more _ _ ih => rw [digitsValue_concat, ih]

theorem numeral_of_isDigit {cs : List Char} (hne : cs ≠ []) (h : ∀ c ∈ cs, c.isDigit = true) :
    Numeral cs (Decimal.digitsValue cs) := by
  induction cs using List.reverseRecOn with
  | nil => exact absurd rfl hne
  | append_singleton cs c ih =>
      rw [List.forall_mem_append, List.forall_mem_singleton] at h
      by_cases hfirst : cs = []
      · subst hfirst
        simpa [Decimal.digitsValue] using Numeral.digit h.2
      · rw [digitsValue_concat]
        exact .more (ih hfirst h.1) h.2

theorem readNat_eq_some_iff {cs : List Char} {n : Nat} :
    Decimal.readNat cs = some n ↔ Numeral cs n := by
  rw [Decimal.readNat]
  constructor
  · intro h
    split at h
    · cases h
    · rename_i hdigits
      simp only [Bool.or_eq_true, List.isEmpty_iff, Bool.not_eq_true', not_or,
        Bool.not_eq_false, List.all_eq_true] at hdigits
      obtain rfl := Option.some.inj h
      exact numeral_of_isDigit hdigits.1 hdigits.2
  · intro h
    have hdigits : (cs.isEmpty || !cs.all Char.isDigit) = false := by
      simpa using ⟨h.ne_nil, h.isDigit⟩
    rw [hdigits, if_neg Bool.false_ne_true, h.value_eq]

theorem readInteger_eq_some_iff {cs : List Char} (hsigns : ∀ c ∈ cs, isSign c = false) {n : Int} :
    Decimal.readInteger (.ofList cs) = some n
      ↔ ∃ m : Nat, n = m ∧ Numeral cs m ∧ m ≤ maxInteger := by
  have hunsigned : Decimal.readSign cs = (false, cs) := by
    rw [Decimal.readSign.eq_def]
    split
    · cases hsigns '-' (List.mem_cons_self ..)
    · cases hsigns '+' (List.mem_cons_self ..)
    · rfl
  rw [Decimal.readInteger, String.toList_ofList, Decimal.readInt, hunsigned]
  simp only [Bool.false_eq_true, if_false, Option.filter_eq_some_iff, Option.map_eq_some_iff,
    Option.bind_eq_bind, Option.bind_eq_some_iff, Option.pure_def, Option.some.injEq,
    decide_eq_true_eq, readNat_eq_some_iff]
  constructor
  · rintro ⟨⟨_, ⟨m, hm, rfl⟩, rfl⟩, hfits⟩
    exact ⟨m, rfl, hm, hfits.2⟩
  · rintro ⟨m, rfl, hm, hle⟩
    refine ⟨⟨m, ⟨m, hm, rfl⟩, rfl⟩, ?_, hle⟩
    simp only [minInteger]
    omega

namespace DiceTerm

/-! ## The parts of a term -/

theorem readNumber_eq_ok_iff {term : String} {cs : List Char} {n : Nat} :
    readNumber term cs = .ok n ↔ Numeral cs n ∧ n < Nat.pow 2 32 := by
  have hcount : readCount cs = some n ↔ Numeral cs n ∧ n < Nat.pow 2 32 := by
    rw [readCount, Option.filter_eq_some_iff, readNat_eq_some_iff, decide_eq_true_eq]
  rw [readNumber, ← hcount]
  cases readCount cs <;> simp

theorem readOptional_eq_ok_iff {term : String} {cs : List Char} {n : Nat} :
    readOptional term cs = .ok n ↔ OptionalNumeral cs n ∧ n < Nat.pow 2 32 := by
  rw [readOptional]
  cases cs with
  | nil =>
      rw [List.isEmpty_nil, if_pos rfl]
      constructor
      · intro h
        obtain rfl := Except.ok.inj h
        exact ⟨.omitted, by decide⟩
      · rintro ⟨_ | h, -⟩
        · rfl
        · exact absurd rfl h.ne_nil
  | cons c cs =>
      rw [List.isEmpty_cons, if_neg Bool.false_ne_true, readNumber_eq_ok_iff]
      refine and_congr_left fun _ => ⟨.given, fun h => ?_⟩
      cases h with
      | given h => exact h

/-- A number within its limits is small enough to be read. -/
theorem lt_of_le_maxDice {n : Nat} (h : n ≤ maxDice) : n < Nat.pow 2 32 :=
  h.trans_lt (by decide)

theorem readDice_eq_ok_iff {term : String} {cs : List Char} {count : Nat} :
    readDice term cs = .ok count ↔ OptionalNumeral cs count ∧ count ≤ maxDice := by
  rw [readDice, bind_eq_ok_iff]
  constructor
  · rintro ⟨n, hn, h⟩
    split at h
    · obtain rfl := Except.ok.inj h
      exact ⟨(readOptional_eq_ok_iff.mp hn).1, ‹_›⟩
    · cases h
  · rintro ⟨h, hle⟩
    exact ⟨count, readOptional_eq_ok_iff.mpr ⟨h, lt_of_le_maxDice hle⟩, if_pos hle⟩

theorem readSides_eq_ok_iff {term : String} {cs : List Char} {sides : Nat} :
    readSides term cs = .ok sides ↔ Numeral cs sides ∧ 1 ≤ sides ∧ sides ≤ maxSides := by
  rw [readSides, bind_eq_ok_iff]
  constructor
  · rintro ⟨n, hn, h⟩
    split at h
    · obtain rfl := Except.ok.inj h
      exact ⟨(readNumber_eq_ok_iff.mp hn).1, ‹_›⟩
    · cases h
  · rintro ⟨h, hle⟩
    exact ⟨sides, readNumber_eq_ok_iff.mpr ⟨h, lt_of_le_maxDice hle.2⟩, if_pos hle⟩

section Throw

variable {term : String} {count : Nat} (hcount : count ≤ maxDice)
include hcount

theorem readKept_eq_ok_iff {cs : List Char} {n : Nat} :
    readKept count term cs = .ok n ↔ OptionalNumeral cs n ∧ 1 ≤ n ∧ n ≤ count := by
  rw [readKept, bind_eq_ok_iff]
  constructor
  · rintro ⟨m, hm, h⟩
    split at h
    · obtain rfl := Except.ok.inj h
      exact ⟨(readOptional_eq_ok_iff.mp hm).1, ‹_›⟩
    · cases h
  · rintro ⟨h, hle⟩
    have hsmall := lt_of_le_maxDice (hle.2.trans hcount)
    exact ⟨n, readOptional_eq_ok_iff.mpr ⟨h, hsmall⟩, if_pos hle⟩

theorem readKeep_eq_ok_iff {cs : List Char} {keep : Keep} :
    readKeep count term cs = .ok keep ↔ KeepText count ('k' :: cs) (some keep) := by
  constructor
  · intro h
    rw [readKeep.eq_def] at h
    split at h
    · obtain ⟨n, hn, rfl⟩ := map_eq_ok_iff.mp h
      obtain ⟨hn, hpos, hle⟩ := (readKept_eq_ok_iff hcount).mp hn
      exact .highest hn hpos hle
    · obtain ⟨n, hn, rfl⟩ := map_eq_ok_iff.mp h
      obtain ⟨hn, hpos, hle⟩ := (readKept_eq_ok_iff hcount).mp hn
      exact .lowest hn hpos hle
    · cases h
  · intro h
    cases h with
    | highest hn hpos hle | lowest hn hpos hle =>
        rw [readKeep, (readKept_eq_ok_iff hcount).mpr ⟨hn, hpos, hle⟩]
        rfl

end Throw

/-! ## Splitting a term -/

theorem splitAtFirst_of_not_mem {c : Char} {before : List Char} (h : c ∉ before)
    (after : List Char) : splitAtFirst c (before ++ c :: after) = (before, some after) := by
  have hpass : ∀ d ∈ before, (d != c) = true := fun d hd => by
    rw [bne_iff_ne]
    rintro rfl
    exact h hd
  rw [splitAtFirst, List.dropWhile_append_of_pos hpass, List.takeWhile_append_of_pos hpass]
  simp

theorem splitAtFirst_of_not_mem_all {c : Char} {cs : List Char} (h : c ∉ cs) :
    splitAtFirst c cs = (cs, none) := by
  have hpass : ∀ d ∈ cs, (d != c) = true := fun d hd => by
    rw [bne_iff_ne]
    rintro rfl
    exact h hd
  have hdrop : cs.dropWhile (· != c) = [] := List.dropWhile_eq_nil_iff.mpr hpass
  rw [splitAtFirst, hdrop, List.takeWhile_eq_self_iff.mpr hpass]

theorem splitAtFirst_cases (c : Char) (cs : List Char) :
    c ∉ cs ∧ splitAtFirst c cs = (cs, none)
      ∨ ∃ before after, c ∉ before ∧ cs = before ++ c :: after
        ∧ splitAtFirst c cs = (before, some after) := by
  by_cases h : c ∈ cs
  · obtain ⟨before, after, rfl, hbefore⟩ := List.eq_append_cons_of_mem h
    exact .inr ⟨before, after, hbefore, rfl, splitAtFirst_of_not_mem hbefore after⟩
  · exact .inl ⟨h, splitAtFirst_of_not_mem_all h⟩

theorem not_mem_of_isDigit {c : Char} {cs : List Char} (hc : c.isDigit = false)
    (h : ∀ d ∈ cs, d.isDigit = true) : c ∉ cs := fun hmem => by
  rw [h c hmem] at hc
  cases hc

/-! ## Whole terms -/

theorem readThrow_eq_ok_iff {term : String} {before after : List Char} {t : DiceTerm} :
    readThrow term before after = .ok t
      ↔ ∃ sideText suffix count sides keep, after = sideText ++ suffix
        ∧ OptionalNumeral before count ∧ count ≤ maxDice
        ∧ Numeral sideText sides ∧ 1 ≤ sides ∧ sides ≤ maxSides
        ∧ KeepText count suffix keep ∧ t = .dice count sides keep := by
  rw [readThrow, bind_eq_ok_iff]
  constructor
  · rintro ⟨count, hcount, h⟩
    obtain ⟨hcount, hmost⟩ := readDice_eq_ok_iff.mp hcount
    rcases splitAtFirst_cases 'k' after with ⟨-, hsplit⟩ | ⟨sideText, suffix, -, rfl, hsplit⟩
    · rw [hsplit] at h
      obtain ⟨sides, hsides, h⟩ := bind_eq_ok_iff.mp h
      obtain rfl := Except.ok.inj h
      obtain ⟨hsides, hpos, hle⟩ := readSides_eq_ok_iff.mp hsides
      exact ⟨after, [], count, sides, none, (List.append_nil _).symm, hcount, hmost, hsides, hpos,
        hle, .all, rfl⟩
    · rw [hsplit] at h
      obtain ⟨sides, hsides, h⟩ := bind_eq_ok_iff.mp h
      obtain ⟨keep, hkeep, rfl⟩ := map_eq_ok_iff.mp h
      obtain ⟨hsides, hpos, hle⟩ := readSides_eq_ok_iff.mp hsides
      exact ⟨sideText, 'k' :: suffix, count, sides, some keep, rfl, hcount, hmost, hsides, hpos,
        hle, (readKeep_eq_ok_iff hmost).mp hkeep, rfl⟩
  · rintro ⟨sideText, suffix, count, sides, keep, rfl, hcount, hmost, hsides, hpos, hle, hkeep, rfl⟩
    have hside : 'k' ∉ sideText := not_mem_of_isDigit rfl hsides.isDigit
    have hread : readSides term sideText = .ok sides :=
      readSides_eq_ok_iff.mpr ⟨hsides, hpos, hle⟩
    refine ⟨count, readDice_eq_ok_iff.mpr ⟨hcount, hmost⟩, ?_⟩
    cases keep with
    | none =>
        cases hkeep
        rw [List.append_nil, splitAtFirst_of_not_mem_all hside]
        dsimp only
        rw [hread, ok_bind]
    | some keep =>
        obtain ⟨rest, rfl⟩ := hkeep.exists_cons
        rw [splitAtFirst_of_not_mem hside]
        dsimp only
        rw [hread, ok_bind, (readKeep_eq_ok_iff hmost).mpr hkeep]
        rfl

/-- A term is read just if its characters are one. -/
theorem parse_eq_ok_iff {cs : List Char} (hsigns : ∀ c ∈ cs, isSign c = false) {t : DiceTerm} :
    parse cs = .ok t ↔ TermText cs t := by
  rw [parse]
  constructor
  · intro h
    rcases splitAtFirst_cases 'd' cs with ⟨-, hsplit⟩ | ⟨before, after, -, rfl, hsplit⟩
    · rw [hsplit] at h
      dsimp only at h
      split at h
      · rename_i n hn
        obtain rfl := Except.ok.inj h
        obtain ⟨m, rfl, hm, hle⟩ := (readInteger_eq_some_iff hsigns).mp hn
        exact .constant hm hle
      · cases h
    · rw [hsplit] at h
      obtain ⟨sideText, suffix, count, sides, keep, rfl, hcount, hmost, hsides, hpos, hle, hkeep,
        rfl⟩ := readThrow_eq_ok_iff.mp h
      exact .dice hcount hmost hsides hpos hle hkeep
  · intro h
    cases h with
    | constant hn hle =>
        rw [splitAtFirst_of_not_mem_all (not_mem_of_isDigit rfl hn.isDigit)]
        dsimp only
        rw [(readInteger_eq_some_iff hsigns).mpr ⟨_, rfl, hn, hle⟩]
    | dice hcount hmost hsides hpos hle hkeep =>
        rw [splitAtFirst_of_not_mem (not_mem_of_isDigit rfl hcount.isDigit)]
        exact readThrow_eq_ok_iff.mpr
          ⟨_, _, _, _, _, rfl, hcount, hmost, hsides, hpos, hle, hkeep, rfl⟩

end DiceTerm

/-! ## Sums -/

/-- A text is split at its first sign in one way only. -/
theorem append_sign_inj {xs ys rest rest' : List Char} {c d : Char}
    (hxs : ∀ x ∈ xs, isSign x = false) (hc : isSign c = true)
    (hys : ∀ y ∈ ys, isSign y = false) (hd : isSign d = true)
    (h : xs ++ c :: rest = ys ++ d :: rest') : xs = ys ∧ c = d ∧ rest = rest' := by
  have htake {xs : List Char} {c : Char} (rest : List Char) (hxs : ∀ x ∈ xs, isSign x = false)
      (hc : isSign c = true) : (xs ++ c :: rest).takeWhile (!isSign ·) = xs := by
    rw [List.takeWhile_append_of_pos (by simpa using hxs)]
    simp [hc]
  obtain rfl : xs = ys := by rw [← htake rest hxs hc, h, htake rest' hys hd]
  obtain ⟨rfl, rfl⟩ := List.cons.inj (List.append_cancel_left h)
  exact ⟨rfl, rfl, rfl⟩

/-- The term in progress ends in front of the next sign. -/
theorem sumText_append_sign_iff {negative : Bool} {current cs : List Char} {c : Char}
    (hcurrent : ∀ d ∈ current, isSign d = false) (hc : isSign c = true)
    {ts : List SignedTerm} :
    SumText negative (current ++ c :: cs) ts
      ↔ ∃ t more, TermText current t ∧ SumText (c = '-') cs more
        ∧ ts = ⟨negative, t⟩ :: more := by
  constructor
  · intro h
    generalize htext : current ++ c :: cs = text at h
    cases h with
    | last h =>
        have hsign := h.isSign_eq_false c (by simp [← htext])
        rw [hc] at hsign
        cases hsign
    | more h hd hrest =>
        obtain ⟨rfl, rfl, rfl⟩ := append_sign_inj hcurrent hc h.isSign_eq_false hd.isSign htext
        exact ⟨_, _, h, hd.negative_eq ▸ hrest, rfl⟩
  · rintro ⟨t, more, h, hrest, rfl⟩
    exact .more h (isSign_iff.mp hc) hrest

/-- Without a sign there is one term. -/
theorem sumText_iff_of_isSign_eq_false {negative : Bool} {cs : List Char}
    (hcs : ∀ d ∈ cs, isSign d = false) {ts : List SignedTerm} :
    SumText negative cs ts ↔ ∃ t, TermText cs t ∧ ts = [⟨negative, t⟩] := by
  constructor
  · intro h
    cases h with
    | last h => exact ⟨_, h, rfl⟩
    | more _ hc _ =>
        have hsign := hcs _ (List.mem_append_right _ (List.mem_cons_self ..))
        rw [hc.isSign] at hsign
        cases hsign
  · rintro ⟨t, h, rfl⟩
    exact .last h

namespace DiceExpr

variable {source : String} {negative : Bool} {current cs : List Char}
  {terms ts : List SignedTerm}

theorem readTerms_nil :
    readTerms source negative current terms []
      = if current.isEmpty then .error (.invalidTerm source)
        else (DiceTerm.parse current).map fun t => terms ++ [⟨negative, t⟩] := by
  rw [readTerms]
  split
  · rfl
  · cases DiceTerm.parse current <;> rfl

theorem readTerms_sign {c : Char} (hc : isSign c = true) (hcurrent : current ≠ []) :
    readTerms source negative current terms (c :: cs)
      = DiceTerm.parse current >>= fun t =>
        readTerms source (c = '-') [] (terms ++ [⟨negative, t⟩]) cs := by
  have hsign : (c = '+' || c = '-') = true := hc
  rw [readTerms, hsign, if_pos rfl, if_pos (by simpa using hcurrent)]

/-- A sign behind a sign is refused, if anything but plus signs has been read. -/
theorem readTerms_sign_sign {c : Char} (hc : isSign c = true)
    (hbusy : terms ≠ [] ∨ negative = true) :
    readTerms source negative [] terms (c :: cs) = .error (.invalidTerm source) := by
  have hsign : (c = '+' || c = '-') = true := hc
  have hread : (!terms.isEmpty || negative) = true := by
    simpa using hbusy
  rw [readTerms, hsign, if_pos rfl, List.isEmpty_nil, hread]
  rfl

theorem readTerms_first_sign {c : Char} (hc : isSign c = true) :
    readTerms source false [] [] (c :: cs) = readTerms source (c = '-') [] [] cs := by
  have hsign : (c = '+' || c = '-') = true := hc
  rw [readTerms, hsign]
  rfl

theorem readTerms_of_not_sign {c : Char} (hc : isSign c = false) :
    readTerms source negative current terms (c :: cs)
      = readTerms source negative (current ++ [c]) terms cs := by
  have hsign : (c = '+' || c = '-') = false := hc
  rw [readTerms, hsign, if_neg Bool.false_ne_true]

/-- With something read that is not a plus sign, a sum is read just if it is one, sign for sign. -/
theorem readTerms_eq_ok_iff (hcurrent : ∀ d ∈ current, isSign d = false)
    (hbusy : current ≠ [] ∨ terms ≠ [] ∨ negative = true) :
    readTerms source negative current terms cs = .ok ts
      ↔ ∃ more, SumText negative (current ++ cs) more ∧ ts = terms ++ more := by
  induction cs generalizing negative current terms with
  | nil =>
      rw [readTerms_nil, List.append_nil]
      by_cases hempty : current = []
      · subst hempty
        refine ⟨fun h => (by cases h), ?_⟩
        rintro ⟨more, h, -⟩
        obtain ⟨c, rest, heq, -⟩ := h.exists_cons
        cases heq
      · rw [if_neg (by simpa using hempty), map_eq_ok_iff]
        simp only [DiceTerm.parse_eq_ok_iff hcurrent, sumText_iff_of_isSign_eq_false hcurrent]
        constructor
        · rintro ⟨t, h, rfl⟩
          exact ⟨_, ⟨t, h, rfl⟩, rfl⟩
        · rintro ⟨_, ⟨t, h, rfl⟩, rfl⟩
          exact ⟨t, h, rfl⟩
  | cons c cs ih =>
      cases hc : isSign c with
      | false =>
          have hlonger : ∀ d ∈ current ++ [c], isSign d = false :=
            List.forall_mem_append.mpr ⟨hcurrent, List.forall_mem_singleton.mpr hc⟩
          rw [readTerms_of_not_sign hc, ih hlonger (.inl (by simp)), List.append_assoc]
          rfl
      | true =>
          by_cases hempty : current = []
          · subst hempty
            rw [readTerms_sign_sign hc (hbusy.resolve_left (· rfl))]
            refine ⟨fun h => (by cases h), ?_⟩
            rintro ⟨more, h, -⟩
            rw [List.nil_append] at h
            cases hc.symm.trans h.not_sign
          · rw [readTerms_sign hc hempty, bind_eq_ok_iff]
            simp only [DiceTerm.parse_eq_ok_iff hcurrent, sumText_append_sign_iff hcurrent hc]
            have hnext (t : DiceTerm) := @ih (c = '-') [] (terms ++ [⟨negative, t⟩])
              (fun d hd => by cases hd) (.inr (.inl (by simp)))
            simp only [hnext, List.nil_append]
            constructor
            · rintro ⟨t, h, more, hmore, rfl⟩
              exact ⟨_, ⟨t, more, h, hmore, rfl⟩, by simp⟩
            · rintro ⟨_, ⟨t, more, h, hmore, rfl⟩, rfl⟩
              exact ⟨t, h, more, hmore, by simp⟩

/-- From the start the reader passes over plus signs. -/
theorem readTerms_start_eq_ok_iff :
    readTerms source false [] [] cs = .ok ts ↔ Accepted cs ts := by
  induction cs with
  | nil =>
      rw [readTerms_nil]
      refine ⟨fun h => (by cases h), fun h => ?_⟩
      obtain ⟨c, rest, heq⟩ := h.exists_cons
      cases heq
  | cons c cs ih =>
      cases hc : isSign c with
      | false =>
          have hread := @readTerms_eq_ok_iff source false [c] cs [] ts
            (List.forall_mem_singleton.mpr hc) (.inl nofun)
          have hne : c ≠ '+' := by
            rintro rfl
            cases hc
          rw [readTerms_of_not_sign hc, List.nil_append, hread, accepted_iff_of_ne_plus hne,
            notation_iff_of_not_sign hc]
          simp
      | true =>
          rw [readTerms_first_sign hc]
          generalize hnegative : decide (c = '-') = negative
          cases hnegative ▸ isSign_iff.mp hc with
          | plus => exact ih.trans accepted_plus_iff.symm
          | minus =>
              have hread := @readTerms_eq_ok_iff source true [] cs [] ts
                (fun d hd => by cases hd) (.inr (.inr rfl))
              rw [hread, accepted_iff_of_ne_plus (by decide), notation_sign_iff .minus]
              simp

/-- A text is accepted with the terms of its only reading. -/
theorem parse_eq_ok_iff {s : String} {e : DiceExpr} :
    parse s = .ok e ↔ Accepted (clean s) e.terms ∧ e.source = .ofList (clean s) := by
  rw [parse]
  constructor
  · intro h
    split at h
    · cases h
    · obtain ⟨terms, hterms, h⟩ := bind_eq_ok_iff.mp h
      obtain rfl := Except.ok.inj h
      exact ⟨readTerms_start_eq_ok_iff.mp hterms, rfl⟩
  · rintro ⟨hterms, hsource⟩
    obtain ⟨c, rest, hclean⟩ := hterms.exists_cons
    have hempty : ¬ (clean s).isEmpty = true := by simp [hclean]
    rw [if_neg hempty, readTerms_start_eq_ok_iff.mpr hterms, ok_bind, ← hsource]
    rfl

/-- What is accepted, and with which terms, is what the grammar says, but that more plus signs may
stand in front. So a text is read by the grammar, just if it is not such that a plus sign stands in
front of another sign, and what is behind it is accepted. And signs stand side by side nowhere but
there. -/
theorem reads_grammar_iff (s : String) :
    (∀ e, parse s = .ok e ↔ Accepted (clean s) e.terms ∧ e.source = .ofList (clean s))
      ∧ ((∀ ts, (∃ e, parse s = .ok e ∧ e.terms = ts) ↔ Notation (clean s) ts)
        ↔ ¬ ∃ c rest ts, clean s = '+' :: c :: rest ∧ isSign c = true ∧ Accepted (c :: rest) ts)
      ∧ ∀ e before c d after, parse s = .ok e → clean s = before ++ c :: d :: after →
        isSign c = true → isSign d = true → ∀ x ∈ before ++ [c], x = '+' := by
  have haccepts (ts : List SignedTerm) :
      (∃ e, parse s = .ok e ∧ e.terms = ts) ↔ Accepted (clean s) ts := by
    constructor
    · rintro ⟨e, h, rfl⟩
      exact (parse_eq_ok_iff.mp h).1
    · intro h
      exact ⟨⟨ts, .ofList (clean s)⟩, parse_eq_ok_iff.mpr ⟨h, rfl⟩, rfl⟩
  refine ⟨fun e => parse_eq_ok_iff, ?_, fun e before c d after h heq hc hd =>
    (parse_eq_ok_iff.mp h).1.eq_plus_of_signs heq hc hd⟩
  simp only [haccepts]
  constructor
  · rintro hagree ⟨c, rest, ts, hclean, hc, hrest⟩
    obtain ⟨hts, hnot⟩ := accepted_and_not_notation_iff.mpr ⟨c, rest, hclean, hc, hrest⟩
    exact hnot ((hagree ts).mp hts)
  · intro hfirst ts
    refine ⟨fun hts => ?_, .plain⟩
    by_contra hnot
    obtain ⟨c, rest, hclean, hc, hrest⟩ := accepted_and_not_notation_iff.mp ⟨hts, hnot⟩
    exact hfirst ⟨c, rest, ts, hclean, hc, hrest⟩

/-- The better of two dice, less three. -/
theorem reads_grammar_advantage :
    let ts : List SignedTerm := [⟨false, .dice 2 20 (some (.highest 1))⟩, ⟨true, .constant 3⟩]
    Notation (clean " 2D20 kh1 - 3") ts
      ∧ ∀ ts', Notation (clean " 2D20 kh1 - 3") ts' → ts' = ts := by
  intro ts
  have hparse : parse " 2D20 kh1 - 3" = .ok ⟨ts, "2d20kh1-3"⟩ := by decide +kernel
  have hclean : clean " 2D20 kh1 - 3" = "2d20kh1-3".toList := by decide +kernel
  obtain ⟨-, hgrammar, -⟩ := reads_grammar_iff " 2D20 kh1 - 3"
  have hagree := hgrammar.mpr <| by
    rintro ⟨c, rest, ts, heq, -⟩
    rw [hclean] at heq
    cases (List.cons.inj heq).1
  refine ⟨(hagree ts).mp ⟨_, hparse, rfl⟩, fun ts' h => ?_⟩
  obtain ⟨e, he, rfl⟩ := (hagree ts').mpr h
  rw [hparse] at he
  rw [← Except.ok.inj he]

/-- Two plus signs in front are accepted, and so is a plus in front of a minus. -/
theorem plus_before_sign_accepted :
    (∃ e, parse "++5" = .ok e ∧ e.terms = [⟨false, .constant 5⟩])
      ∧ (∃ e, parse "+-5" = .ok e ∧ e.terms = [⟨true, .constant 5⟩])
      ∧ ∀ ts, ¬ Notation (clean "++5") ts ∧ ¬ Notation (clean "+-5") ts := by
  have hread : parse "++5" = .ok ⟨[⟨false, .constant 5⟩], "++5"⟩ := by decide +kernel
  have hread' : parse "+-5" = .ok ⟨[⟨true, .constant 5⟩], "+-5"⟩ := by decide +kernel
  have hclean : clean "++5" = ['+', '+', '5'] := by decide +kernel
  have hclean' : clean "+-5" = ['+', '-', '5'] := by decide +kernel
  refine ⟨⟨_, hread, rfl⟩, ⟨_, hread', rfl⟩, fun ts => ⟨fun h => ?_, fun h => ?_⟩⟩
  · rw [hclean, notation_sign_iff .plus] at h
    cases h.not_sign
  · rw [hclean', notation_sign_iff .plus] at h
    cases h.not_sign

end DiceExpr

end GameTable
