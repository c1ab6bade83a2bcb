import ScriptMachine.Proofs.Numeric.Bits

/-!
Which integers are zero as doubles. The zeros share the place of zero among the numbers, and the
rounding of an integer other than zero has an exponent field above zero. So zero alone becomes a zero.
-/

namespace ScriptMachine.Numeric

/-! ### Zeros -/

theorem isZero_iff (x : Float) : isZero x = true ↔ rank? x = some 0 :=
  beq_iff_eq

/-- A double with an exponent field above zero is not zero. -/
theorem not_isZero_ofFields (negative : Bool) {field fraction : Nat} (positive : 0 < field)
    (below : fraction < 2 ^ 52) (number : field < 2047 ∨ field = 2047 ∧ fraction = 0) :
    ¬ isZero (ofFields negative field fraction) = true := by
  rw [isZero_iff, rank?_ofFields negative below number, Option.some.injEq]
  split <;> omega

/-- A normal number is not zero. -/
theorem not_isZero_assemble (negative : Bool) {mantissa : Nat} {exponent : Int}
    (nonzero : mantissa ≠ 0) (normal : 0 < mantissa.log2 + exponent + 1023)
    (fits : mantissa.log2 + exponent < 1024) :
    ¬ isZero (assemble negative mantissa exponent) = true := by
  rw [assemble_normal nonzero normal]
  exact not_isZero_ofFields negative (by omega) (fraction_lt mantissa) (.inl (by omega))

/-! ### Rounding a whole number -/

/-- An integer other than zero is not rounded to zero. -/
theorem not_isZero_ofInt {n : Int} (nonzero : n ≠ 0) : ¬ isZero (ofInt n) = true := by
  have positive : n.natAbs ≠ 0 := Int.natAbs_ne_zero.mpr nonzero
  have least : Format.double.leastExponent = -1074 := rfl
  have precision : Format.double.precision = 53 := rfl
  have overflow : Format.double.overflowExponent = 1024 := rfl
  rw [ofInt, Format.nearest, if_neg positive, Fraction.whole_eq_binary, log2_binary positive, least,
    precision, overflow]
  dsimp only
  have rounded := round_unscale_pos (e := 0) (k := max (-1074) (n.natAbs.log2 + 0 - ((53 : Nat) - 1)))
    positive (by omega)
  split
  · exact not_isZero_ofFields _ (by decide) (by decide) (.inr ⟨rfl, rfl⟩)
  · exact not_isZero_assemble _ (Nat.ne_of_gt rounded) (by omega) (by omega)

/-- Zero is the only integer that becomes a zero. -/
theorem isZero_ofInt (n : Int) : isZero (ofInt n) = true ↔ n = 0 := by
  constructor
  · intro zero
    by_cases nonzero : n = 0
    · exact nonzero
    · exact absurd zero (not_isZero_ofInt nonzero)
  · rintro rfl
    rfl

end ScriptMachine.Numeric
