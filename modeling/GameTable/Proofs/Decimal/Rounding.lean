import Mathlib
import GameTable.Decimal.Binary64
import GameTable.Value.Basic

/-!
# Integers that become floats

An integer that does not fit 64 bits with a sign is stored as the float that is
nearest to it (`Value.ofJson`). Integers of that size are rounded to multiples
of a power of two (`Binary64.truncate_nearest`), so what is left of them if the
float is made an integer again is another integer most of the time.

Those just above the largest integer are rounded down to `2 ^ 63`, which is the
one float that counts as an integer of 64 bits although it is not
(`Value.intOfFloat?_ofInt`).
-/

namespace GameTable.Binary64

/-! ## The bits of a float -/

section Fields

open Float.Model Float.Model.UnpackedFloat

variable (b : BitVec Format.binary64.numBits)

theorem toNat_unpackExponent : (unpackExponent b).toNat = b.toNat / 2 ^ 52 % 2 ^ 11 := by
  rw [unpackExponent_def, BitVec.extractLsb'_toNat, Nat.shiftRight_eq_div_pow]

/-- Only with a full exponent is there more than one form of what is packed. -/
theorem pack_unpack_of_lt (hfield : b.toNat / 2 ^ 52 % 2 ^ 11 < 2047) :
    UnpackedFloat.pack Format.binary64 (UnpackedFloat.unpack Format.binary64 b) = b := by
  have hnumber : ¬ isNaNBits b = true := fun hnan => by
    have hfull := (of_decide_eq_true hnan).1
    rw [← toNat_unpackExponent, hfull] at hfield
    exact absurd hfield (by decide)
  rw [pack_unpack, if_neg hnumber]

end Fields

theorem toBits_ofBits {w : UInt64} (hfield : w.toNat / 2 ^ 52 % 2 ^ 11 < 2047) :
    (Float.ofBits w).toBits = w :=
  (congrArg UInt64.ofBitVec (pack_unpack_of_lt w.toBitVec hfield)).trans
    (UInt64.ofBitVec_toBitVec w)

/-! ## Rounding -/

theorem le_roundDiv (num den : Nat) : num / den ≤ roundDiv num den := by
  rw [roundDiv]
  split
  · exact Nat.le_succ _
  · exact Nat.le_refl _

theorem roundDiv_le (num den : Nat) : roundDiv num den ≤ num / den + 1 := by
  rw [roundDiv]
  split
  · exact Nat.le_refl _
  · exact Nat.le_succ _

theorem pow2_natCast (k : Nat) : pow2 k = 2 ^ k := rfl

theorem pow2_neg_natCast (k : Nat) : pow2 (-(k : Int)) = 1 := by
  rw [pow2, Int.toNat_eq_zero.mpr (by omega)]

theorem floorLog2_one {n : Nat} (hn : n ≠ 0) : floorLog2 n 1 = n.log2 := by
  have hlog : ((n.log2 : Int) - (Nat.log2 1 : Nat)) = n.log2 := by
    rw [show Nat.log2 1 = 0 by decide]
    omega
  rw [floorLog2, hlog, pow2_natCast, pow2_neg_natCast, Nat.one_mul, Nat.mul_one,
    if_pos (Nat.log2_self_le hn)]

/-- The word of a normal float. -/
theorem parts_ofBits {w field fraction : Nat} {negative : Bool}
    (hw : w = (if negative then Nat.pow 2 63 else 0) + (field * Nat.pow 2 52 + fraction))
    (hmin : 0 < field) (hmax : field < 2047) (hfraction : fraction < Nat.pow 2 52) :
    Parts.ofFloat (.ofBits (.ofNat w))
      = .finite negative (fraction + Nat.pow 2 52) ((field : Int) - 1075) := by
  have hsign : w / Nat.pow 2 63 = if negative then 1 else 0 := by
    cases negative <;> simp at hw hfraction ⊢ <;> omega
  have hfield : w / Nat.pow 2 52 % Nat.pow 2 11 = field := by
    cases negative <;> simp at hw hfraction ⊢ <;> omega
  have hrest : w % Nat.pow 2 52 = fraction := by
    cases negative <;> simp at hw hfraction ⊢ <;> omega
  have hword : (UInt64.ofNat w).toNat = w := by
    rw [UInt64.toNat_ofNat']
    apply Nat.mod_eq_of_lt
    cases negative <;> simp at hw hfraction ⊢ <;> omega
  have hbits : (Float.ofBits (.ofNat w)).toBits = .ofNat w := by
    refine toBits_ofBits ?_
    rw [hword]
    exact hfield ▸ hmax
  rw [Parts.ofFloat, hbits, hword, hsign, hfield, hrest, if_neg (by omega), if_neg (by omega)]
  cases negative <;> rfl

theorem floorMagnitude_natCast (m k : Nat) : floorMagnitude m k = m * 2 ^ k := by
  rw [floorMagnitude, pow2_natCast, pow2_neg_natCast, Nat.div_one]

theorem truncate_of_parts {x : Float} {negative : Bool} {m k : Nat}
    (h : Parts.ofFloat x = .finite negative m k) :
    truncate x = some (if negative then -((m * 2 ^ k : Nat) : Int) else (m * 2 ^ k : Nat)) := by
  rw [truncate, h, ← floorMagnitude_natCast]

section Rounding

variable {n k : Nat} (hlog : n.log2 = k + 52)

include hlog

theorem ne_zero_of_log2 : n ≠ 0 := by
  rintro rfl
  rw [Nat.log2_zero] at hlog
  omega

theorem roundDiv_range : 2 ^ 52 ≤ roundDiv n (2 ^ k) ∧ roundDiv n (2 ^ k) ≤ 2 ^ 53 := by
  obtain ⟨hlow, hhigh⟩ := (Nat.log2_eq_iff (ne_zero_of_log2 hlog)).mp hlog
  have hle : 2 ^ 52 ≤ n / 2 ^ k := by
    rw [Nat.le_div_iff_mul_le (Nat.two_pow_pos k), ← Nat.pow_add, Nat.add_comm 52 k]
    exact hlow
  have hlt : n / 2 ^ k < 2 ^ 53 := by
    rw [Nat.div_lt_iff_lt_mul (Nat.two_pow_pos k), ← Nat.pow_add, Nat.add_comm 53 k]
    exact hhigh
  exact ⟨Nat.le_trans hle (le_roundDiv n _), Nat.le_trans (roundDiv_le n _) hlt⟩

theorem nearest_one (hk : k ≤ 970) (negative : Bool) :
    nearest negative n 1 = .ofBits (.ofNat ((if negative then Nat.pow 2 63 else 0)
      + ((k + 1074) * Nat.pow 2 52 + roundDiv n (2 ^ k)))) := by
  have hn := ne_zero_of_log2 hlog
  have he : max (floorLog2 n 1 - 52) (-1074) = (k : Int) := by
    rw [floorLog2_one hn, hlog]
    omega
  have hfield : ((k : Int) + 1074).toNat = k + 1074 := by omega
  have hle : (k + 1074) * Nat.pow 2 52 + roundDiv n (2 ^ k) ≤ 2047 * Nat.pow 2 52 := by
    have hround := (roundDiv_range hlog).2
    change (k + 1074) * 2 ^ 52 + _ ≤ 2047 * 2 ^ 52
    omega
  rw [nearest, if_neg hn, he]
  dsimp only
  rw [hfield, pow2_natCast, pow2_neg_natCast, Nat.mul_one, Nat.one_mul, Nat.min_eq_left hle]

/-- An integer that a float has no room for is rounded to a multiple of a power of two. -/
theorem truncate_nearest (hk : k ≤ 970) (negative : Bool) :
    truncate (nearest negative n 1)
      = some (if negative then -((roundDiv n (2 ^ k) * 2 ^ k : Nat) : Int)
          else (roundDiv n (2 ^ k) * 2 ^ k : Nat)) := by
  obtain ⟨hlow, hhigh⟩ := roundDiv_range hlog
  rw [nearest_one hlog hk]
  generalize roundDiv n (2 ^ k) = m at *
  rcases Nat.lt_or_eq_of_le hhigh with hlt | rfl
  · obtain ⟨fraction, rfl⟩ := Nat.exists_eq_add_of_le' hlow
    have hword : (k + 1074) * Nat.pow 2 52 + (fraction + 2 ^ 52)
        = (k + 1075) * Nat.pow 2 52 + fraction := by
      change (k + 1074) * 2 ^ 52 + _ = (k + 1075) * 2 ^ 52 + _
      omega
    have hfield : ((k + 1075 : Nat) : Int) - 1075 = k := by omega
    have hfraction : fraction < Nat.pow 2 52 := by
      change fraction < 2 ^ 52
      omega
    rw [hword]
    refine truncate_of_parts ((parts_ofBits rfl (by omega) (by omega) hfraction).trans ?_)
    exact congrArg (Parts.finite negative _) hfield
  · -- The significand is full, and the exponent goes up by one.
    have hword : (k + 1074) * Nat.pow 2 52 + 2 ^ 53 = (k + 1076) * Nat.pow 2 52 + 0 := by
      change (k + 1074) * 2 ^ 52 + _ = (k + 1076) * 2 ^ 52 + _
      omega
    have hfield : ((k + 1076 : Nat) : Int) - 1075 = (k + 1 : Nat) := by omega
    have hvalue : 2 ^ 53 * 2 ^ k = (0 + Nat.pow 2 52) * 2 ^ (k + 1) := by
      change _ = (0 + 2 ^ 52) * 2 ^ (k + 1)
      rw [Nat.pow_succ]
      omega
    have hfraction : 0 < Nat.pow 2 52 := Nat.two_pow_pos 52
    rw [hword, hvalue]
    refine truncate_of_parts ((parts_ofBits rfl (by omega) (by omega) hfraction).trans ?_)
    exact congrArg (Parts.finite negative _) hfield

end Rounding

/-! ## Integers of 64 bits without a sign -/

/-- Up to here an integer is nearer to `2 ^ 63` than to the float behind it, or as near. -/
theorem roundDiv_eq_iff {n : Nat} (hn : 2 ^ 63 ≤ n) :
    roundDiv n (2 ^ 11) = 2 ^ 52 ↔ n ≤ 2 ^ 63 + 1024 := by
  rw [roundDiv]
  split
  all_goals
    rename_i hup
    simp only [Bool.or_eq_true, Bool.and_eq_true, decide_eq_true_eq, beq_iff_eq] at hup
    omega

theorem truncate_ofInt {n : Int} (hlow : maxInteger < n) (hhigh : n ≤ maxUnsigned) :
    truncate (ofInt n) = some ((roundDiv n.toNat (2 ^ 11) * 2 ^ 11 : Nat) : Int) := by
  simp only [maxInteger, maxUnsigned] at hlow hhigh
  have hlog : n.natAbs.log2 = 11 + 52 := by
    rw [Nat.log2_eq_iff (by omega)]
    omega
  have hsign : decide (n < 0) = false := decide_eq_false (by omega)
  have habs : n.natAbs = n.toNat := by omega
  rw [ofInt, hsign, truncate_nearest hlog (by decide), habs]
  rfl

end GameTable.Binary64

namespace GameTable

/-- Of the integers that are too large the first 1025 become a float of `2 ^ 63`, which is taken
for the largest integer. The others become floats beyond. -/
theorem Value.intOfFloat?_ofInt {n : Int} (hlow : maxInteger < n) (hhigh : n ≤ maxUnsigned) :
    intOfFloat? (Binary64.ofInt n) = if n ≤ maxInteger + 1025 then some maxInteger else none := by
  have hmin : minInteger = -9223372036854775808 := rfl
  have hmax : maxInteger = 9223372036854775807 := rfl
  have hrange : 2 ^ 63 ≤ n.toNat := by omega
  have hiff := Binary64.roundDiv_eq_iff hrange
  have hle := Binary64.le_roundDiv n.toNat (2 ^ 11)
  rw [intOfFloat?, Binary64.truncate_ofInt hlow hhigh]
  change (if _ then some (saturate _) else none) = _
  by_cases hn : n ≤ maxInteger + 1025
  · rw [if_pos (by omega), if_pos hn, saturate]
    congr 1
    omega
  · rw [if_neg (by omega), if_neg hn]

end GameTable
