import Mathlib.Algebra.Group.Nat.Defs
import ScriptMachine.Numeric.Rounding

/-!
Fractions `m * 2 ^ e`. Their binary logarithm is known exactly, and so is how many units of a power of
two they come to after rounding: none is lost if the unit divides the last place, at least one is left
if the fraction reaches the unit, and a power of two bounds them if it bounds the fraction.
-/

namespace ScriptMachine.Numeric

theorem pow2_eq (n : Nat) : pow2 n = 2 ^ n := by
  rw [pow2, Nat.pow_eq]

theorem Fraction.whole_eq_binary (n : Nat) : (⟨n, 1⟩ : Fraction) = binary n 0 := by
  simp [binary, pow2_eq]

variable {m : Nat} {e : Int}

theorem log2_mul_two_pow (nonzero : m ≠ 0) (d : Nat) : (m * 2 ^ d).log2 = m.log2 + d := by
  have positive := Nat.two_pow_pos d
  rw [Nat.log2_eq_iff (Nat.mul_ne_zero nonzero (Nat.ne_of_gt positive))]
  constructor
  · rw [Nat.pow_add]
    exact Nat.mul_le_mul_right _ (Nat.log2_self_le nonzero)
  · rw [Nat.add_right_comm, Nat.pow_add]
    exact Nat.mul_lt_mul_of_pos_right Nat.lt_log2_self positive

/-- The binary logarithm of `m * 2 ^ e` is that of `m`, moved by `e`. -/
theorem log2_binary (nonzero : m ≠ 0) (e : Int) : (Fraction.binary m e).log2 = m.log2 + e := by
  have guess : ((m * 2 ^ e.toNat).log2 : Int) - (2 ^ (-e).toNat).log2 = m.log2 + e := by
    rw [log2_mul_two_pow nonzero, Nat.log2_two_pow]
    omega
  have reached : 2 ^ (-e).toNat * 2 ^ (m.log2 + e).toNat
      ≤ m * 2 ^ e.toNat * 2 ^ (-(m.log2 + e)).toNat := by
    rw [Nat.mul_assoc, ← Nat.pow_add, ← Nat.pow_add]
    have sum : (-e).toNat + (m.log2 + e).toNat = m.log2 + (e.toNat + (-(m.log2 + e)).toNat) := by omega
    rw [sum, Nat.pow_add]
    exact Nat.mul_le_mul_right _ (Nat.log2_self_le nonzero)
  simp only [Fraction.log2, Fraction.binary, pow2_eq, guess]
  rw [if_pos reached]

/-- A unit that divides the last place of a number leaves nothing to round. -/
theorem round_unscale_binary {k : Int} (divides : k ≤ e) (d : Nat) :
    ((Fraction.binary (m * 2 ^ d) (e - d)).unscale k).round = m * 2 ^ (e - k).toNat := by
  have exponents : d + (e - d).toNat + (-k).toNat
      = (e - k).toNat + ((-(e - d)).toNat + k.toNat) := by omega
  have exact' : m * 2 ^ d * 2 ^ (e - d).toNat * 2 ^ (-k).toNat
      = m * 2 ^ (e - k).toNat * (2 ^ (-(e - d)).toNat * 2 ^ k.toNat) := by
    rw [← Nat.pow_add, Nat.mul_assoc m (2 ^ (e - k).toNat), ← Nat.pow_add, ← exponents, Nat.pow_add,
      Nat.pow_add, Nat.mul_assoc, Nat.mul_assoc, Nat.mul_assoc]
  simp only [Fraction.round, Fraction.unscale, Fraction.binary, pow2_eq]
  rw [exact']
  exact roundDiv_mul_self _ (Nat.mul_pos (Nat.two_pow_pos _) (Nat.two_pow_pos _))

/-- A number below `2 ^ (k + p)` has at most `2 ^ p` units of `2 ^ k`, rounded. -/
theorem round_unscale_le {k : Int} {p : Nat} (below : m.log2 + e < k + p) :
    ((Fraction.binary m e).unscale k).round ≤ 2 ^ p := by
  have exponents : m.log2 + 1 + (e.toNat + (-k).toNat) ≤ (-e).toNat + k.toNat + p := by omega
  have bounded : m * 2 ^ e.toNat * 2 ^ (-k).toNat < 2 ^ (-e).toNat * 2 ^ k.toNat * 2 ^ p := by
    calc m * 2 ^ e.toNat * 2 ^ (-k).toNat
        = m * 2 ^ (e.toNat + (-k).toNat) := by rw [Nat.mul_assoc, ← Nat.pow_add]
      _ < 2 ^ (m.log2 + 1) * 2 ^ (e.toNat + (-k).toNat) :=
        Nat.mul_lt_mul_of_pos_right Nat.lt_log2_self (Nat.two_pow_pos _)
      _ = 2 ^ (m.log2 + 1 + (e.toNat + (-k).toNat)) := by rw [← Nat.pow_add]
      _ ≤ 2 ^ ((-e).toNat + k.toNat + p) := Nat.pow_le_pow_right (by decide) exponents
      _ = 2 ^ (-e).toNat * 2 ^ k.toNat * 2 ^ p := by rw [Nat.pow_add, Nat.pow_add]
  have whole := Nat.div_lt_of_lt_mul bounded
  have rounded := roundDiv_cases (m * 2 ^ e.toNat * 2 ^ (-k).toNat) (2 ^ (-e).toNat * 2 ^ k.toNat)
  simp only [Fraction.round, Fraction.unscale, Fraction.binary, pow2_eq]
  omega

/-- A number from the unit on has at least one of it, rounded. -/
theorem round_unscale_pos {k : Int} (nonzero : m ≠ 0) (reached : k ≤ m.log2 + e) :
    0 < ((Fraction.binary m e).unscale k).round := by
  have exponents : (-e).toNat + k.toNat ≤ m.log2 + (e.toNat + (-k).toNat) := by omega
  have divides : 2 ^ (-e).toNat * 2 ^ k.toNat ≤ m * 2 ^ e.toNat * 2 ^ (-k).toNat := by
    calc 2 ^ (-e).toNat * 2 ^ k.toNat
        = 2 ^ ((-e).toNat + k.toNat) := by rw [← Nat.pow_add]
      _ ≤ 2 ^ (m.log2 + (e.toNat + (-k).toNat)) := Nat.pow_le_pow_right (by decide) exponents
      _ = 2 ^ m.log2 * 2 ^ (e.toNat + (-k).toNat) := by rw [Nat.pow_add]
      _ ≤ m * 2 ^ (e.toNat + (-k).toNat) := Nat.mul_le_mul_right _ (Nat.log2_self_le nonzero)
      _ = m * 2 ^ e.toNat * 2 ^ (-k).toNat := by rw [Nat.mul_assoc, ← Nat.pow_add]
  have whole := Nat.div_pos divides (Nat.mul_pos (Nat.two_pow_pos _) (Nat.two_pow_pos _))
  have rounded := roundDiv_cases (m * 2 ^ e.toNat * 2 ^ (-k).toNat) (2 ^ (-e).toNat * 2 ^ k.toNat)
  simp only [Fraction.round, Fraction.unscale, Fraction.binary, pow2_eq]
  omega

end ScriptMachine.Numeric
