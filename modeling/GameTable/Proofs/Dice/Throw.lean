import Mathlib.Algebra.Order.BigOperators.Group.List
import Mathlib.Algebra.Order.Group.Nat
import Mathlib.Algebra.Order.Ring.Int
import GameTable.Dice.Roller
import GameTable.Proofs.Dice.Notation

/-!
# What a throw may come to

A throw adds up what its terms come to, one after the other
(`DiceExpr.throw_fst`). Whatever source the faces are drawn from, as long as they
are on the dice (`Fair`), a term comes to no less than its least and to no more
than its greatest value (`thrown_bounds`). Both are met: some source makes every
term come to its least, and some source to its greatest, whichever of the dice
are kept (`exists_thrown_least`, `exists_thrown_greatest`).
-/

namespace GameTable

/-! ## Faces that are on the dice -/

/-- A source of faces that are on the dice. -/
def Fair {σ : Type} (draw : Nat → σ → Nat × σ) : Prop :=
  ∀ sides s, 1 ≤ sides → 1 ≤ (draw sides s).1 ∧ (draw sides s).1 ≤ sides

/-- A random face is on the die: the word is smaller than the number of all
words, so its share of the sides is less than all sides. -/
theorem Random.fair_drawFace {σ : Type} [WordSource σ] : Fair (drawFace (σ := σ)) := by
  intro sides s hsides
  have hface (word : UInt32) : word.toNat * sides / wordCount + 1 ≤ sides := by
    have hword : word.toNat < wordCount := word.toNat_lt
    have hshare : word.toNat * sides / wordCount < sides := by
      rw [Nat.div_lt_iff_lt_mul (by decide), Nat.mul_comm]
      exact Nat.mul_lt_mul_of_pos_left hword hsides
    exact hshare
  have hdraw (fuel : Nat) (s : σ) :
      1 ≤ (drawFrom sides fuel s).1 ∧ (drawFrom sides fuel s).1 ≤ sides := by
    induction fuel generalizing s with
    | zero => exact ⟨Nat.le_add_left .., hface _⟩
    | succ fuel ih =>
        rw [drawFrom]
        dsimp only
        split
        · exact ⟨Nat.le_add_left .., hface _⟩
        · exact ih _
  exact hdraw maxRefusals s

section

variable {σ : Type} {draw : Nat → σ → Nat × σ}

theorem length_drawFaces (sides count : Nat) (s : σ) :
    (drawFaces draw sides count s).1.length = count := by
  induction count generalizing s with
  | zero => rfl
  | succ count ih => exact congrArg (· + 1) (ih _)

theorem mem_drawFaces (hdraw : Fair draw) {sides : Nat} (hsides : 1 ≤ sides) {count : Nat} {s : σ}
    {face : Nat} (h : face ∈ (drawFaces draw sides count s).1) : 1 ≤ face ∧ face ≤ sides := by
  induction count generalizing s with
  | zero => cases h
  | succ count ih =>
      rcases List.mem_cons.mp h with rfl | h
      · exact hdraw sides s hsides
      · exact ih h

namespace DiceTerm

theorem mem_of_mem_keptFaces {faces : List Nat} {keep : Option Keep} {face : Nat}
    (h : face ∈ keptFaces faces keep) : face ∈ faces := by
  rw [keptFaces.eq_def] at h
  split at h
  · exact h
  · exact List.mem_mergeSort.mp (List.mem_of_mem_take h)
  · exact List.mem_mergeSort.mp (List.mem_of_mem_take h)

theorem length_keptFaces {faces : List Nat} {keep : Option Keep}
    (h : ∀ k ∈ keep, k.count ≤ faces.length) :
    (keptFaces faces keep).length = (keep.map Keep.count).getD faces.length := by
  cases keep with
  | none => rfl
  | some keep =>
      have hle : keep.count ≤ faces.length := h keep rfl
      cases keep <;> simpa [keptFaces, Keep.count] using hle

theorem sum_le_mul {faces : List Nat} {sides : Nat} (h : ∀ face ∈ faces, face ≤ sides) :
    faces.sum ≤ faces.length * sides := by
  simpa using faces.sum_le_card_nsmul sides h

theorem sum_bounds {faces : List Nat} {sides : Nat}
    (h : ∀ face ∈ faces, 1 ≤ face ∧ face ≤ sides) :
    faces.length ≤ faces.sum ∧ faces.sum ≤ faces.length * sides := by
  have hleast := faces.card_nsmul_le_sum 1 fun face hface => (h face hface).1
  exact ⟨by simpa using hleast, sum_le_mul fun face hface => (h face hface).2⟩

theorem value_dice (faces : List Nat) (count sides : Nat) (keep : Option Keep) :
    (DiceTerm.dice count sides keep).value faces = ((keptFaces faces keep).sum : Nat) := rfl

theorem throw_bounds (hdraw : Fair draw) {t : DiceTerm} (ht : t.Proper) (s : σ) :
    t.bounds.1 ≤ (t.throw draw s).1 ∧ (t.throw draw s).1 ≤ t.bounds.2 := by
  cases t with
  | constant n => exact ⟨Int.le_refl n, Int.le_refl n⟩
  | dice count sides keep =>
      cases ht with
      | dice _ hsides _ hkeep =>
          have hlength : (drawFaces draw sides count s).1.length = count :=
            length_drawFaces sides count s
          have hkept : (keptFaces (drawFaces draw sides count s).1 keep).length
              = (keep.map Keep.count).getD (drawFaces draw sides count s).1.length :=
            length_keptFaces (hlength.symm ▸ hkeep)
          have hfaces : ∀ face ∈ keptFaces (drawFaces draw sides count s).1 keep,
              1 ≤ face ∧ face ≤ sides :=
            fun face hface => mem_drawFaces hdraw hsides (mem_of_mem_keptFaces hface)
          obtain ⟨hleast, hmost⟩ := sum_bounds hfaces
          rw [hkept, hlength] at hleast hmost
          refine ⟨Int.ofNat_le.mpr hleast, ?_⟩
          calc ((keptFaces (drawFaces draw sides count s).1 keep).sum : Int)
              ≤ ((keep.map Keep.count).getD count * sides : Nat) := Int.ofNat_le.mpr hmost
            _ = (keep.map Keep.count).getD count * sides := Int.natCast_mul ..

end DiceTerm

theorem SignedTerm.signed_bounds {t : SignedTerm} {n : Int}
    (h : t.term.bounds.1 ≤ n ∧ n ≤ t.term.bounds.2) :
    t.least ≤ t.signed n ∧ t.signed n ≤ t.greatest := by
  rw [least, greatest, signed, signed, signed]
  cases t.negative with
  | false => exact h
  | true => exact ⟨Int.neg_le_neg h.2, Int.neg_le_neg h.1⟩

end

/-! ## Throws as sums -/

/-- What the terms come to when they are thrown in order. -/
def thrown {σ : Type} (draw : Nat → σ → Nat × σ) : List SignedTerm → σ → List Int
  | [], _ => []
  | t :: rest, s => t.signed (t.term.throw draw s).1 :: thrown draw rest (t.term.throw draw s).2

/-- The least that the terms add up to. -/
def lowest (terms : List SignedTerm) : Int := (terms.map SignedTerm.least).sum

/-- The most that the terms add up to. -/
def highest (terms : List SignedTerm) : Int := (terms.map SignedTerm.greatest).sum

section

variable {σ : Type} {draw : Nat → σ → Nat × σ}

theorem throwTerms_fst (draw : Nat → σ → Nat × σ) (sum : Int) (terms : List SignedTerm) (s : σ) :
    (throwTerms draw sum terms s).1 = (thrown draw terms s).foldlM addFitting sum := by
  induction terms generalizing sum s with
  | nil => rfl
  | cons t rest ih =>
      rw [throwTerms, thrown, List.foldlM_cons]
      dsimp only
      cases addFitting sum (t.signed (t.term.throw draw s).1) with
      | error e => rfl
      | ok sum => exact ih ..

/-- A throw adds up what its terms come to. -/
theorem DiceExpr.throw_fst (e : DiceExpr) (draw : Nat → σ → Nat × σ) (s : σ) :
    (e.throw draw s).1 = total (thrown draw e.terms s) := throwTerms_fst draw 0 e.terms s

theorem thrown_take (draw : Nat → σ → Nat × σ) (k : Nat) (terms : List SignedTerm) (s : σ) :
    (thrown draw terms s).take k = thrown draw (terms.take k) s := by
  induction terms generalizing k s with
  | nil => simp [thrown]
  | cons t rest ih =>
      cases k with
      | zero => rfl
      | succ k => exact congrArg (_ :: ·) (ih ..)

theorem thrown_bounds (hdraw : Fair draw) {terms : List SignedTerm}
    (hterms : ∀ t ∈ terms, t.term.Proper) (s : σ) :
    lowest terms ≤ (thrown draw terms s).sum ∧ (thrown draw terms s).sum ≤ highest terms := by
  induction terms generalizing s with
  | nil => exact ⟨Int.le_refl 0, Int.le_refl 0⟩
  | cons t rest ih =>
      rw [List.forall_mem_cons] at hterms
      have hfirst := SignedTerm.signed_bounds (DiceTerm.throw_bounds hdraw hterms.1 s)
      have hrest := ih hterms.2 (t.term.throw draw s).2
      simp only [lowest, highest, thrown, List.map_cons, List.sum_cons] at hrest ⊢
      omega

end

/-! ## The dice as they are wished for -/

/-- A source that hands out given faces, each brought within the sides of the
die, and ones when there are no more. -/
def drawListed (sides : Nat) : List Nat → Nat × List Nat
  | [] => (1, [])
  | face :: rest => (max 1 (min face sides), rest)

theorem fair_drawListed : Fair drawListed := by
  intro sides faces hsides
  cases faces with
  | nil => exact ⟨Nat.le_refl 1, hsides⟩
  | cons face rest => exact ⟨Nat.le_max_left .., Nat.max_le.mpr ⟨hsides, Nat.min_le_right ..⟩⟩

theorem drawFaces_listed (sides face count : Nat) (rest : List Nat) :
    drawFaces drawListed sides count (List.replicate count face ++ rest)
      = (List.replicate count (max 1 (min face sides)), rest) := by
  induction count with
  | zero => rfl
  | succ count ih =>
      rw [List.replicate_succ, List.cons_append, drawFaces, drawListed]
      dsimp only
      rw [ih]
      rfl

namespace DiceTerm

/-- How many dice a term throws. -/
def diceCount : DiceTerm → Nat
  | .dice count _ _ => count
  | .constant _ => 0

theorem keptFaces_replicate {count face : Nat} {keep : Option Keep}
    (h : ∀ k ∈ keep, k.count ≤ count) :
    keptFaces (List.replicate count face) keep
      = List.replicate ((keep.map Keep.count).getD count) face := by
  refine List.eq_replicate_iff.mpr ⟨?_, fun f hf => ?_⟩
  · have hlength : (keptFaces (List.replicate count face) keep).length
        = (keep.map Keep.count).getD (List.replicate count face).length :=
      length_keptFaces (by simpa using h)
    simpa using hlength
  · exact List.eq_of_mem_replicate (mem_of_mem_keptFaces hf)

/-- The value of dice that all show the same. -/
theorem value_replicate {count face : Nat} {keep : Option Keep} (h : ∀ k ∈ keep, k.count ≤ count)
    (sides : Nat) :
    (DiceTerm.dice count sides keep).value (List.replicate count face)
      = (keep.map Keep.count).getD count * face := by
  rw [value_dice, keptFaces_replicate h, List.sum_replicate_nat, Int.natCast_mul]

/-- A term of which all dice show the most, or all dice a one. -/
theorem throw_listed {t : DiceTerm} (ht : t.Proper) (most : Bool) (rest : List Nat) :
    t.throw drawListed (List.replicate t.diceCount (if most then maxSides else 1) ++ rest)
      = (if most then t.bounds.2 else t.bounds.1, rest) := by
  cases t with
  | constant n => cases most <;> rfl
  | dice count sides keep =>
      cases ht with
      | dice _ hsides hmost hkeep =>
          have hface : max 1 (min (if most then maxSides else 1) sides)
              = if most then sides else 1 := by
            cases most with
            | false => exact Nat.max_eq_left (Nat.min_le_left ..)
            | true =>
                rw [if_pos rfl, if_pos rfl, Nat.min_eq_right hmost, Nat.max_eq_right hsides]
          rw [throw, diceCount, drawFaces_listed, hface]
          dsimp only
          rw [value_replicate hkeep]
          cases most <;> simp [bounds]

end DiceTerm

/-- Every term may come to its most or its least, whatever the others do. -/
theorem thrown_listed (most : SignedTerm → Bool) {terms : List SignedTerm}
    (hterms : ∀ t ∈ terms, t.term.Proper) :
    thrown drawListed terms
        (terms.flatMap fun t => List.replicate t.term.diceCount (if most t then maxSides else 1))
      = terms.map fun t => t.signed (if most t then t.term.bounds.2 else t.term.bounds.1) := by
  induction terms with
  | nil => rfl
  | cons t rest ih =>
      rw [List.forall_mem_cons] at hterms
      rw [List.flatMap_cons, thrown, DiceTerm.throw_listed hterms.1, ih hterms.2, List.map_cons]

theorem exists_thrown_least {terms : List SignedTerm} (h : ∀ t ∈ terms, t.term.Proper) :
    ∃ faces, thrown drawListed terms faces = terms.map SignedTerm.least :=
  ⟨_, thrown_listed (·.negative) h⟩

theorem exists_thrown_greatest {terms : List SignedTerm} (h : ∀ t ∈ terms, t.term.Proper) :
    ∃ faces, thrown drawListed terms faces = terms.map SignedTerm.greatest := by
  refine ⟨_, (thrown_listed (!·.negative) h).trans (List.map_congr_left fun t _ => ?_)⟩
  rw [SignedTerm.greatest]
  cases t.negative <;> rfl

end GameTable
