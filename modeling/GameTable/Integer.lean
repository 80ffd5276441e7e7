/-!
# Integers of 64 bits

Numbers are calculated exactly, as integers without bounds. What is read, stored or computed by a
formula has to fit 64 bits with a sign; the places that check this say so with `Fits`.
-/

namespace GameTable

def minInteger : Int := -9223372036854775808

def maxInteger : Int := 9223372036854775807

/-- The largest integer of 64 bits without a sign. -/
def maxUnsigned : Int := 18446744073709551615

/-- The integer is one of 64 bits with a sign. -/
def Fits (n : Int) : Prop := minInteger ≤ n ∧ n ≤ maxInteger

instance (n : Int) : Decidable (Fits n) := inferInstanceAs (Decidable (_ ∧ _))

/-- The nearest integer that fits. -/
def saturate (n : Int) : Int := max minInteger (min maxInteger n)

theorem fits_saturate (n : Int) : Fits (saturate n) := by
  simp only [Fits, saturate, minInteger, maxInteger]
  omega

theorem saturate_of_fits {n : Int} (h : Fits n) : saturate n = n := by
  simp only [Fits, saturate, minInteger, maxInteger] at *
  omega

end GameTable
