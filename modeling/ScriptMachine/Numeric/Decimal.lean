import ScriptMachine.Numeric.Binary
import ScriptMachine.Numeric.Shortest

/-!
Decimal notations of doubles: positional with the fewest digits, positional with a fixed number of
places, and the notation of data files, which turns to an exponent for very large and very small
magnitudes. Reading goes the other way and is correctly rounded.
-/

namespace ScriptMachine.Numeric

/-- So many zeros. -/
def zeros (n : Nat) : String :=
  String.ofList (List.replicate n '0')

/-- A digit sequence with a point placed so that `places` digits follow it. -/
def withPoint (digits : String) (places : Nat) : String :=
  let padded := (zeros (places + 1 - digits.length) ++ digits).toList
  let whole := padded.length - places
  String.ofList (padded.take whole) ++ "." ++ String.ofList (padded.drop whole)

/-- Positional notation without an exponent and without a point after a whole number. -/
def Decimal.positional (d : Decimal) : String :=
  let digits := toString d.digits
  if 0 ≤ d.exponent then
    if d.digits = 0 then "0" else digits ++ zeros d.exponent.toNat
  else withPoint digits (-d.exponent).toNat

/-- A notation for data files: a whole number keeps `.0`, and an exponent is used from `10 ^ 16` on
and below `10 ^ -5`. -/
def Decimal.dataNotation (d : Decimal) : String :=
  let digits := toString d.digits
  let point : Int := digits.length + d.exponent
  if d.digits = 0 then "0.0"
  else if 0 ≤ d.exponent ∧ point ≤ 16 then digits ++ zeros d.exponent.toNat ++ ".0"
  else if -5 < point ∧ point ≤ 16 then withPoint digits (-d.exponent).toNat
  else
    let mantissa := if digits.length = 1 then digits else withPoint digits (digits.length - 1)
    mantissa ++ "e" ++ toString (point - 1)

/-- A sign in front of a magnitude. -/
def signed (negative : Bool) (magnitude : String) : String :=
  if negative then "-" ++ magnitude else magnitude

/-- The fewest digits that read back, written positionally; of two equally near decimals the greater
one. -/
def shortestText (x : Float) : String :=
  match parts x with
  | .nan => "NaN"
  | .infinite negative => signed negative "inf"
  | .finite negative m e => signed negative (shortest .up m e).positional

/-- The exact binary value rounded to two places, a half going to the even neighbour. -/
def twoPlaces (x : Float) : String :=
  match parts x with
  | .nan => "NaN"
  | .infinite negative => signed negative "inf"
  | .finite negative m e =>
      signed negative (withPoint (toString (Fraction.binary (100 * m) e).round) 2)

/-- The text of a finite double in a data file: the fewest digits that read back, and of two equally
near decimals the one with the even last digit. Other doubles have none. -/
def dataText? (x : Float) : Option String :=
  match parts x with
  | .finite negative m e => some (signed negative (shortest .even m e).dataNotation)
  | _ => none

/-- The double nearest to `± digits * 10 ^ exponent`. Magnitudes far outside the range of doubles
are decided without computing the power of ten: three bits make less than a decimal digit, and ten
bits more than three. -/
def ofDecimal (negative : Bool) (digits : Nat) (exponent : Int) : Float :=
  let bits : Int := digits.log2
  if digits = 0 ∨ bits / 3 + 2 + exponent < -400 then zero negative
  else if 400 < 3 * bits / 10 + exponent then infinity negative
  else Format.double.nearest negative (.decimal digits exponent)

end ScriptMachine.Numeric
