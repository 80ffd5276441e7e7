import GameTable.Command.Builtin
import GameTable.Proofs.Dice.Throw

/-!
# Totals of 64 bits

The terms of an expression are added up from left to right, and every sum on the
way has to fit 64 bits (`DiceExpr.total_eq_ok_iff`). A notation limits what one
term may come to, but not how many terms there are, and a constant may be as
large as an integer of 64 bits gets. So not every notation that is accepted can
be rolled.

`DiceExpr.totals_fit_iff` says which can: those of which the first terms, however
many, have a least and a greatest sum that fit.
-/

namespace GameTable

/-! ## Sums from left to right -/

theorem addFitting_of_fits {a b : Int} (h : Fits (a + b)) : addFitting a b = .ok (a + b) :=
  if_pos h

theorem addFitting_of_not_fits {a b : Int} (h : ¬ Fits (a + b)) :
    addFitting a b = .error .overflow := if_neg h

theorem foldlM_addFitting_eq_ok_iff {xs : List Int} {a n : Int} (ha : Fits a) :
    xs.foldlM addFitting a = .ok n
      ↔ n = a + xs.sum ∧ ∀ k, Fits (a + (xs.take k).sum) := by
  induction xs generalizing a with
  | nil => simp [ha, eq_comm]
  | cons x rest ih =>
      rw [List.foldlM_cons]
      by_cases hx : Fits (a + x)
      · rw [addFitting_of_fits hx, ok_bind, ih hx, List.sum_cons, Int.add_assoc]
        refine and_congr_right fun _ => ⟨fun h k => ?_, fun h k => ?_⟩
        · cases k with
          | zero => simpa using ha
          | succ k => simpa [Int.add_assoc] using h k
        · simpa [Int.add_assoc] using h (k + 1)
      · rw [addFitting_of_not_fits hx, error_bind]
        refine ⟨fun h => (by cases h), fun h => absurd (h.2 1) ?_⟩
        simpa using hx

/-- A sum is computed just if it fits however few of the numbers are added up,
and then it is the sum. -/
theorem DiceExpr.total_eq_ok_iff {xs : List Int} {n : Int} :
    total xs = .ok n ↔ n = xs.sum ∧ ∀ k, Fits (xs.take k).sum := by
  rw [total, foldlM_addFitting_eq_ok_iff (by decide)]
  simp only [Int.zero_add]

/-! ## Single terms -/

/-- No term is beyond 64 bits by itself: its dice show a million at most. -/
theorem DiceTerm.Proper.fits_sum {count sides : Nat} {keep : Option Keep}
    (h : Proper (.dice count sides keep)) {faces : List Nat} (hcount : faces.length ≤ count)
    (hfaces : ∀ face ∈ faces, face ≤ sides) : Fits faces.sum := by
  cases h with
  | dice hdice _ hsides _ =>
      have hsum : faces.sum ≤ faces.length * sides := sum_le_mul hfaces
      have hmost : faces.length * sides ≤ maxDice * maxSides :=
        Nat.mul_le_mul (hcount.trans hdice) hsides
      have hmillion : faces.sum ≤ 1000000 := hsum.trans hmost
      simp only [Fits, minInteger, maxInteger]
      omega

theorem DiceTerm.Proper.fits_bounds {t : DiceTerm} (h : t.Proper) :
    (0 ≤ t.bounds.1 ∧ t.bounds.1 ≤ maxInteger) ∧ 0 ≤ t.bounds.2 ∧ t.bounds.2 ≤ maxInteger := by
  cases h with
  | constant hnonneg hmost => exact ⟨⟨hnonneg, hmost⟩, hnonneg, hmost⟩
  | @dice count sides keep hdice _ hsides hkeep =>
      have hkept : (keep.map Keep.count).getD count ≤ maxDice := by
        cases keep with
        | none => exact hdice
        | some keep => exact (hkeep keep rfl).trans hdice
      have hmost : (keep.map Keep.count).getD count * sides ≤ maxDice * maxSides :=
        Nat.mul_le_mul hkept hsides
      simp only [bounds, maxDice, maxSides, maxInteger] at hkept hmost ⊢
      omega

theorem SignedTerm.fits_of_proper {t : SignedTerm} (h : t.term.Proper) :
    Fits t.least ∧ Fits t.greatest := by
  have hbounds := h.fits_bounds
  rw [least, greatest, signed, signed]
  simp only [Fits, minInteger, maxInteger] at hbounds ⊢
  cases t.negative with
  | false => exact ⟨⟨by omega, hbounds.1.2⟩, by omega, hbounds.2.2⟩
  | true =>
      simp only [if_true]
      omega

/-! ## Which notations are safe to roll -/

namespace DiceExpr

theorem exists_total_iff {xs : List Int} :
    (∃ n, total xs = .ok n) ↔ ∀ k, Fits (xs.take k).sum :=
  ⟨fun ⟨_, h⟩ => (total_eq_ok_iff.mp h).2, fun h => ⟨_, total_eq_ok_iff.mpr ⟨rfl, h⟩⟩⟩

theorem exists_least_iff {e : DiceExpr} :
    (∃ n, e.least = .ok n) ↔ ∀ k, Fits (lowest (e.terms.take k)) := by
  rw [least, exists_total_iff]
  simp only [lowest, List.map_take]

theorem exists_greatest_iff {e : DiceExpr} :
    (∃ n, e.greatest = .ok n) ↔ ∀ k, Fits (highest (e.terms.take k)) := by
  rw [greatest, exists_total_iff]
  simp only [highest, List.map_take]

/-- Every throw has a total just if one in which all terms come to their least
has, and one in which all come to their most. -/
theorem exists_throw_iff {e : DiceExpr} (h : ∀ t ∈ e.terms, t.term.Proper) :
    (∀ (σ : Type) (draw : Nat → σ → Nat × σ), Fair draw → ∀ s, ∃ n, (e.throw draw s).1 = .ok n)
      ↔ ∀ k, Fits (lowest (e.terms.take k)) ∧ Fits (highest (e.terms.take k)) := by
  constructor
  · intro hthrow
    have hlisted (faces : List Nat) : ∃ n, total (thrown drawListed e.terms faces) = .ok n :=
      e.throw_fst drawListed faces ▸ hthrow _ drawListed fair_drawListed faces
    obtain ⟨low, hlow⟩ := exists_thrown_least h
    obtain ⟨high, hhigh⟩ := exists_thrown_greatest h
    have hleast := exists_least_iff.mp (hlow ▸ hlisted low)
    have hgreatest := exists_greatest_iff.mp (hhigh ▸ hlisted high)
    exact fun k => ⟨hleast k, hgreatest k⟩
  · intro hfits σ draw hdraw s
    rw [throw_fst, exists_total_iff]
    intro k
    obtain ⟨hlow, hhigh⟩ := hfits k
    have hterms : ∀ t ∈ e.terms.take k, t.term.Proper :=
      fun t ht => h t (List.mem_of_mem_take ht)
    have hbounds := thrown_bounds hdraw hterms s
    rw [thrown_take]
    simp only [Fits] at hlow hhigh ⊢
    omega

theorem roll_ne_overflow {s : String} {e : DiceExpr} (h : parse s = .ok e)
    (hfits : ∀ k, Fits (lowest (e.terms.take k)) ∧ Fits (highest (e.terms.take k)))
    (cup : DiceCup) : (Roller.roll cup s).1 ≠ .error .overflow := by
  change (cup.roll s).1 ≠ _
  rw [DiceCup.roll, h]
  cases cup with
  | fixed total => simp [DiceCup.rollExpr]
  | scripted results => cases results <;> simp [DiceCup.rollExpr]
  | seeded stream =>
      obtain ⟨n, hn⟩ :=
        (exists_throw_iff (proper_of_parse h)).mpr hfits _ _ Random.fair_drawFace stream
      change (e.throw Random.drawFace stream).1 ≠ _
      rw [hn]
      simp

/-- Within a term of a notation that is accepted every number fits 64 bits. The
least total is computed just if the least of the first terms, however many these
are, has a sum that fits, and the greatest total likewise; every throw has a
total just if both are so. Then neither a command nor a formula that rolls the
dice meets a fault. -/
theorem totals_fit_iff {s : String} {e : DiceExpr} (h : parse s = .ok e) :
    (∀ t ∈ e.terms, Fits t.least ∧ Fits t.greatest
        ∧ ∀ count sides keep, t.term = .dice count sides keep →
          ∀ faces : List Nat, faces.length ≤ count → (∀ face ∈ faces, face ≤ sides) →
            Fits faces.sum)
      ∧ ((∃ n, e.least = .ok n) ↔ ∀ k, Fits (lowest (e.terms.take k)))
      ∧ ((∃ n, e.greatest = .ok n) ↔ ∀ k, Fits (highest (e.terms.take k)))
      ∧ ((∀ (σ : Type) (draw : Nat → σ → Nat × σ), Fair draw → ∀ st,
            ∃ n, (e.throw draw st).1 = .ok n)
          ↔ ∀ k, Fits (lowest (e.terms.take k)) ∧ Fits (highest (e.terms.take k)))
      ∧ ((∀ k, Fits (lowest (e.terms.take k)) ∧ Fits (highest (e.terms.take k))) →
          (∀ (input : Input) (ev : Evaluator DiceCup), Builtin.diceOf? input = some s →
              (Builtin.rollDice input ev).1
                ≠ .error (.param "dice" (.dice .overflow) Builtin.rollUsage))
            ∧ ∀ m : Formula.Machine DiceCup,
                (Formula.rollDice (.str s) m).1 ≠ .error (.dice .overflow)) := by
  have hproper := proper_of_parse h
  refine ⟨fun t ht => ?_, exists_least_iff, exists_greatest_iff, exists_throw_iff hproper,
    fun hfits => ⟨fun input ev hdice => ?_, fun m => ?_⟩⟩
  · obtain ⟨hleast, hgreatest⟩ := SignedTerm.fits_of_proper (hproper t ht)
    refine ⟨hleast, hgreatest, fun count sides keep hterm faces hcount hfaces => ?_⟩
    exact DiceTerm.Proper.fits_sum (hterm ▸ hproper t ht) hcount hfaces
  · have hroll := roll_ne_overflow h hfits ev.roller
    rw [Builtin.rollDice, hdice]
    rcases hresult : Roller.roll ev.roller s with ⟨_ | total, cup⟩
    · rw [hresult] at hroll
      simp only [Evaluator.roll, hresult]
      intro heq
      cases heq
      exact hroll rfl
    · simp [Evaluator.roll, hresult]
  · have hroll := roll_ne_overflow h hfits m.roller
    rcases hresult : Roller.roll m.roller s with ⟨_ | total, cup⟩
    · rw [hresult] at hroll
      simp only [Formula.rollDice, hresult]
      intro heq
      cases heq
      exact hroll rfl
    · simp [Formula.rollDice, hresult]

/-- A die less the largest constant has a total whatever the die shows. -/
theorem totals_fit_below_die :
    ∃ e, parse "1d20-9223372036854775807" = .ok e
      ∧ (∀ (σ : Type) (draw : Nat → σ → Nat × σ), Fair draw → ∀ st,
          ∃ n, (e.throw draw st).1 = .ok n)
      ∧ ∀ m : Formula.Machine DiceCup,
          (Formula.rollDice (.str "1d20-9223372036854775807") m).1 ≠ .error (.dice .overflow) := by
  have hparse : parse "1d20-9223372036854775807"
      = .ok ⟨[⟨false, .dice 1 20 none⟩, ⟨true, .constant maxInteger⟩],
        "1d20-9223372036854775807"⟩ := by
    decide +kernel
  refine ⟨_, hparse, ?_⟩
  obtain ⟨-, -, -, hthrow, hrolls⟩ := totals_fit_iff hparse
  have hfits : ∀ k, Fits (lowest (List.take k
        [⟨false, .dice 1 20 none⟩, ⟨true, .constant maxInteger⟩]))
      ∧ Fits (highest (List.take k
        [⟨false, .dice 1 20 none⟩, ⟨true, .constant maxInteger⟩])) := by
    intro k
    match k with
    | 0 => decide
    | 1 => decide
    | k + 2 =>
      rw [List.take_of_length_le (by simp)]
      decide
  exact ⟨hthrow.mpr hfits, (hrolls hfits).2⟩

/-- Two constants are accepted, each of which fits 64 bits, though their sum does
not. A player may ask for it, and so may a formula. -/
theorem constants_overflow :
    let dice := "9223372036854775807+1"
    let input : Input := ⟨"roll", "fighter", [], .ofList [("dice", .str dice)]⟩
    let ev : Evaluator DiceCup := .new (.ofSeed 7) 100
    ∃ e, parse dice = .ok e
      ∧ e.least = .error .overflow ∧ e.greatest = .error .overflow
      ∧ (e.throw Random.drawFace (Random.SeededStream.seeded 7)).1 = .error .overflow
      ∧ (Builtin.rollDice input ev).1 = .error (.param "dice" (.dice .overflow) Builtin.rollUsage)
      ∧ (ev.evaluate "roll('9223372036854775807+1')" ∅).1.result = .error (.dice .overflow) := by
  intro dice input ev
  have hparse : parse dice
      = .ok ⟨[⟨false, .constant maxInteger⟩, ⟨false, .constant 1⟩], dice⟩ := by
    decide +kernel
  exact ⟨_, hparse, by decide, by decide, by decide +kernel, by decide +kernel, by decide +kernel⟩

end DiceExpr

end GameTable
