import ScriptMachine.Numeric.Rounding

/-!
The shortest decimal that reads back as a given double. A double `mantissa * 2 ^ exponent` stands
for an interval of reals that all round to it; the decimal with the fewest digits in that interval
is searched on coarser grids first, and of two hits on one grid the nearer wins. Which one wins if
both are equally near is for the notation to say.
-/

namespace ScriptMachine.Numeric

/-- The number `digits * 10 ^ exponent`. -/
structure Decimal where
  digits : Nat
  exponent : Int
deriving DecidableEq, Repr

/-- Trailing zeros moved into the exponent; `fuel` bounds how many. -/
def Decimal.strip : Nat → Decimal → Decimal
  | 0, d => d
  | fuel + 1, d =>
      if d.digits ≠ 0 ∧ d.digits % 10 = 0 then strip fuel ⟨d.digits / 10, d.exponent + 1⟩ else d

/-- Which of two equally near decimals is taken. -/
inductive Tie where
  /-- The greater one. -/
  | up
  /-- The one with the even last digit. -/
  | even
deriving DecidableEq, Repr

/-- The digits taken for a value halfway between `below` and its successor. -/
def Tie.choose (below : Nat) : Tie → Nat
  | up => below + 1
  | even => below + below % 2

/-- The reals that round to a double, counted in quarters of its last place. The ends belong to it
when the mantissa is even, because ties go to the even mantissa. -/
structure Basin where
  value : Nat
  low : Nat
  high : Nat
  closed : Bool
  exponent : Int
deriving DecidableEq, Repr

/-- The basin of the double `mantissa * 2 ^ exponent`. Below a power of two the neighbours lie half as
far apart. -/
def Basin.ofParts (mantissa : Nat) (exponent : Int) : Basin where
  value := 4 * mantissa
  low := if mantissa = pow2 52 ∧ -1074 < exponent then 4 * mantissa - 1 else 4 * mantissa - 2
  high := 4 * mantissa + 2
  closed := mantissa % 2 = 0
  exponent := exponent - 2

/-- The best multiple of `10 ^ k` in a basin, if one of the value's two neighbours on that grid lies
in it. A grid coarser than the value itself has none. -/
def Basin.hit? (b : Basin) (tie : Tie) (k : Int) : Option Nat :=
  let scale := pow2 b.exponent.toNat * pow10 (-k).toNat
  let den := pow2 (-b.exponent).toNat * pow10 k.toNat
  let inside (d : Nat) : Bool :=
    if b.closed then b.low * scale ≤ d * den && d * den ≤ b.high * scale
    else b.low * scale < d * den && d * den < b.high * scale
  let below := b.value * scale / den
  let rest := b.value * scale % den
  if below = 0 then none
  else
    match inside below, inside (below + 1) with
    | true, true =>
        some (if 2 * rest < den then below
          else if den < 2 * rest then below + 1
          else tie.choose below)
    | true, false => some below
    | false, true => some (below + 1)
    | false, false => none

/-- The first hit on the grids `10 ^ k`, `10 ^ (k - 1)`, …; seventeen digits always suffice. -/
def Basin.search (b : Basin) (tie : Tie) : Nat → Int → Decimal
  | 0, k => ⟨0, k⟩
  | fuel + 1, k =>
      match b.hit? tie k with
      | some d => Decimal.strip 20 ⟨d, k⟩
      | none => b.search tie fuel (k - 1)

/-- The shortest decimal that reads back as `mantissa * 2 ^ exponent`. -/
def shortest (tie : Tie) (mantissa : Nat) (exponent : Int) : Decimal :=
  if mantissa = 0 then ⟨0, 0⟩
  else
    let above := ((mantissa.log2 : Int) + exponent + 1) * 30103 / 100000 + 1
    (Basin.ofParts mantissa exponent).search tie 24 above

end ScriptMachine.Numeric
