import ScriptMachine.Numeric.Rounding

/-!
Doubles as exact numbers. A finite double is `± mantissa * 2 ^ exponent`, read off its bits, and a
fraction is rounded to a binary format by rounding one quotient. Order, integer part, floor and
remainder are then facts about natural numbers. Nothing here uses the machine's own rounding.
-/

namespace ScriptMachine.Numeric

/-- What the bits of a double say: a finite one is `± mantissa * 2 ^ exponent`. -/
inductive Parts where
  | nan
  | infinite (negative : Bool)
  | finite (negative : Bool) (mantissa : Nat) (exponent : Int)
deriving DecidableEq, Repr

/-- The parts of a double, read off its sign, exponent and fraction fields. -/
def parts (x : Float) : Parts :=
  let bits := x.toBits.toNat
  let negative : Bool := pow2 63 ≤ bits
  let field := bits / pow2 52 % 2048
  let fraction := bits % pow2 52
  if field = 2047 then
    if fraction = 0 then .infinite negative else .nan
  else if field = 0 then .finite negative fraction (-1074)
  else .finite negative (pow2 52 + fraction) (field - 1075)

/-- The double with the given sign, exponent field and fraction field. -/
def ofFields (negative : Bool) (field fraction : Nat) : Float :=
  Float.ofBits (UInt64.ofNat ((if negative then pow2 63 else 0) + field * pow2 52 + fraction))

/-- Positive or negative zero. -/
def zero (negative : Bool) : Float :=
  ofFields negative 0 0

/-- Positive or negative infinity. -/
def infinity (negative : Bool) : Float :=
  ofFields negative 2047 0

/-- The one quiet not-a-number. -/
def notANumber : Float :=
  ofFields false 2047 (pow2 51)

/-- The double `± mantissa * 2 ^ exponent`, for a number that some finite double has. -/
def assemble (negative : Bool) (mantissa : Nat) (exponent : Int) : Float :=
  if mantissa = 0 then zero negative
  else
    let lead := mantissa.log2
    let field := lead + exponent + 1023
    if field ≤ 0 then ofFields negative 0 (mantissa * pow2 (exponent + 1074).toNat)
    else ofFields negative field.toNat (mantissa * pow2 52 / pow2 lead - pow2 52)

/-- A binary floating-point format: significant bits, least exponent of a unit in the last place,
and the power of two from which on magnitudes are infinite. -/
structure Format where
  precision : Nat
  leastExponent : Int
  overflowExponent : Int
deriving DecidableEq, Repr

namespace Format

/-- Double precision. -/
def double : Format := ⟨53, -1074, 1024⟩

/-- Single precision. -/
def single : Format := ⟨24, -149, 128⟩

/-- The number of a format that is nearest to `± q`, ties to the even mantissa, held in a double. -/
def nearest (f : Format) (negative : Bool) (q : Fraction) : Float :=
  if q.num = 0 then zero negative
  else
    let unit := max f.leastExponent (q.log2 - (f.precision - 1))
    let mantissa := (q.unscale unit).round
    if mantissa ≠ 0 ∧ f.overflowExponent ≤ mantissa.log2 + unit then infinity negative
    else assemble negative mantissa unit

end Format

/-- The double nearest to an integer. -/
def ofInt (n : Int) : Float :=
  Format.double.nearest (n < 0) ⟨n.natAbs, 1⟩

/-- A double rounded to single precision. -/
def narrow (x : Float) : Float :=
  match parts x with
  | .finite negative m e => Format.single.nearest negative (.binary m e)
  | _ => x

/-! ### Order -/

/-- Where a double stands among all doubles that are numbers: the two zeros share a place, and
a not-a-number has none. -/
def rank? (x : Float) : Option Int :=
  let bits := x.toBits.toNat
  let magnitude := bits % pow2 63
  if 2047 * pow2 52 < magnitude then none
  else if pow2 63 ≤ bits then some (-(magnitude : Int))
  else some magnitude

/-- The order of two doubles, if both are numbers. -/
def compare? (x y : Float) : Option Ordering := do
  return compare (← rank? x) (← rank? y)

/-- Two numbers are equal; a not-a-number equals nothing. -/
def same (x y : Float) : Bool :=
  compare? x y == some .eq

/-- One of the two zeros. -/
def isZero (x : Float) : Bool :=
  rank? x == some 0

/-- A number above one half counts as true. -/
def isTruthy (x : Float) : Bool :=
  compare? x 0.5 == some .gt

/-- A number that is at most one half. -/
def isFalsy (x : Float) : Bool :=
  compare? x 0.5 == some .lt || compare? x 0.5 == some .eq

/-! ### Whole numbers -/

/-- The integer part, toward zero, of a finite double. -/
def integerPart? (x : Float) : Option Int :=
  match parts x with
  | .finite negative m e =>
      let whole : Int := (Fraction.binary m e).whole
      some (if negative then -whole else whole)
  | _ => none

/-- A finite double without a fraction. -/
def isIntegral (x : Float) : Bool :=
  match parts x with
  | .finite _ m e => (Fraction.binary m e).isWhole
  | _ => false

/-- The fraction dropped and the sign kept, also that of a zero. -/
def truncate (x : Float) : Float :=
  match parts x with
  | .finite negative m e =>
      if 0 ≤ e then x else assemble negative (Fraction.binary m e).whole 0
  | _ => x

/-- The greatest whole number that is not above a double; a zero keeps its sign. -/
def floor (x : Float) : Float :=
  match parts x with
  | .finite negative m e =>
      let q := Fraction.binary m e
      if 0 ≤ e then x
      else assemble negative (if negative && !q.isWhole then q.whole + 1 else q.whole) 0
  | _ => x

/-- The exact remainder of division toward zero, with the sign of the dividend. -/
def remainder (x y : Float) : Float :=
  match parts x, parts y with
  | .finite negative m e, .finite _ n f =>
      if n = 0 then notANumber
      else
        let unit := min e f
        assemble negative ((m * pow2 (e - unit).toNat) % (n * pow2 (f - unit).toNat)) unit
  | .finite .., .infinite _ => x
  | _, _ => notANumber

end ScriptMachine.Numeric
