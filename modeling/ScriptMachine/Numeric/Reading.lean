import ScriptMachine.Numeric.Decimal
import ScriptMachine.Text.Numeral

/-!
Reading a number from text, as a conversion from strings does: an optional sign, then digits with an
optional point and an optional exponent, or one of the words for infinity and not-a-number in any
case. The double is the nearest one.
-/

namespace ScriptMachine.Numeric

/-- A leading run of digits, and what follows it. -/
def spanDigits (cs : List Char) : List Char × List Char :=
  cs.span Char.isDigit

/-- A sign, and what follows it. -/
def readSign : List Char → Bool × List Char
  | '-' :: cs => (true, cs)
  | '+' :: cs => (false, cs)
  | cs => (false, cs)

/-- Nothing, or an exponent mark with a signed run of digits; the exponent is zero if absent. -/
def readExponent? : List Char → Option Int
  | [] => some 0
  | c :: cs =>
      if c = 'e' ∨ c = 'E' then
        let (negative, digits) := readSign cs
        (Text.readDigits? digits).map fun n => if negative then -(n : Int) else n
      else none

/-- The digits before and after an optional point, and what follows them. -/
def splitPoint (cs : List Char) : List Char × List Char × List Char :=
  let (whole, rest) := spanDigits cs
  match rest with
  | '.' :: rest =>
      let (fraction, rest) := spanDigits rest
      (whole, fraction, rest)
  | rest => (whole, [], rest)

/-- A number without its sign. -/
def readMagnitude? (negative : Bool) (cs : List Char) : Option Float :=
  let word := String.ofList (cs.map Char.toLower)
  if word = "inf" ∨ word = "infinity" then some (infinity negative)
  else if word = "nan" then some notANumber
  else
    let (whole, fraction, rest) := splitPoint cs
    if whole = [] ∧ fraction = [] then none
    else
      (readExponent? rest).map fun e =>
        ofDecimal negative (Nat.ofDigitChars 10 (whole ++ fraction) 0) (e - fraction.length)

/-- The number that a text denotes. -/
def read? (cs : List Char) : Option Float :=
  let (negative, rest) := readSign cs
  readMagnitude? negative rest

end ScriptMachine.Numeric
