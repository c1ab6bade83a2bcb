/-!
Fractions of natural numbers and their rounding to the nearest natural number. Every rounding in this
library, binary or decimal, is `roundDiv` applied to a suitably scaled fraction.
-/

namespace ScriptMachine.Numeric

/-- Two to the power of `n`. -/
def pow2 (n : Nat) : Nat :=
  Nat.pow 2 n

/-- Ten to the power of `n`. -/
def pow10 (n : Nat) : Nat :=
  Nat.pow 10 n

/-- The natural number nearest to `num / den`; of two equally near ones, the even one. -/
def roundDiv (num den : Nat) : Nat :=
  let below := num / den
  let rest := num % den
  if 2 * rest < den then below
  else if den < 2 * rest then below + 1
  else if below % 2 = 0 then below
  else below + 1

/-- The number `num / den`. -/
structure Fraction where
  num : Nat
  den : Nat
deriving DecidableEq, Repr

namespace Fraction

/-- The number `m * 2 ^ e`. -/
def binary (m : Nat) (e : Int) : Fraction :=
  ⟨m * pow2 e.toNat, pow2 (-e).toNat⟩

/-- The number `m * 10 ^ e`. -/
def decimal (m : Nat) (e : Int) : Fraction :=
  ⟨m * pow10 e.toNat, pow10 (-e).toNat⟩

/-- The whole part. -/
def whole (q : Fraction) : Nat :=
  q.num / q.den

/-- No fraction remains besides the whole part. -/
def isWhole (q : Fraction) : Bool :=
  q.num % q.den == 0

/-- The nearest natural number, ties to the even one. -/
def round (q : Fraction) : Nat :=
  roundDiv q.num q.den

/-- The number divided by `2 ^ e`. -/
def unscale (q : Fraction) (e : Int) : Fraction :=
  ⟨q.num * pow2 (-e).toNat, q.den * pow2 e.toNat⟩

/-- The floor of the binary logarithm of a positive number. -/
def log2 (q : Fraction) : Int :=
  let guess : Int := (q.num.log2 : Int) - q.den.log2
  if q.den * pow2 guess.toNat ≤ q.num * pow2 (-guess).toNat then guess else guess - 1

end Fraction

/-- An exact quotient is its own rounding. -/
theorem roundDiv_mul_self (n : Nat) {den : Nat} (h : 0 < den) : roundDiv (n * den) den = n := by
  simp [roundDiv, Nat.mul_div_cancel n h, h]

/-- The whole part or its successor, whichever side the remainder favours. -/
theorem roundDiv_cases (num den : Nat) :
    (roundDiv num den = num / den ∧ 2 * (num % den) ≤ den) ∨
      (roundDiv num den = num / den + 1 ∧ den ≤ 2 * (num % den)) := by
  unfold roundDiv
  dsimp only
  split
  · exact .inl ⟨rfl, by omega⟩
  · split
    · exact .inr ⟨rfl, by omega⟩
    · split
      · exact .inl ⟨rfl, by omega⟩
      · exact .inr ⟨rfl, by omega⟩

end ScriptMachine.Numeric
