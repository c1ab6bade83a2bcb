import ScriptMachine.Json.Basic
import ScriptMachine.Numeric.Decimal
import ScriptMachine.Numeric.Reading

/-!
Numbers of JSON text. An integer that fits 64 bits is kept as it is. Any other number becomes a
double from at most 64 bits of its digits and one multiplication or division by a power of ten, so
it can be off by a unit in the last place where the nearest double would need more.
-/

namespace ScriptMachine.Json

/-- The parts of a written number. -/
structure Numeral where
  negative : Bool
  whole : List Char
  fraction? : Option (List Char)
  /-- The sign of the exponent, and its digits. -/
  exponent? : Option (Bool × List Char)
deriving DecidableEq, Repr

/-- A run of at least one digit. -/
def readRun? (cs : List Char) : Option (List Char × List Char) :=
  match Numeric.spanDigits cs with
  | ([], _) => none
  | run => some run

/-- The digits before the point, without a leading zero in front of others. -/
def readWhole? (cs : List Char) : Option (List Char × List Char) :=
  match readRun? cs with
  | some ('0' :: _ :: _, _) => none
  | run => run

/-- The digits after a point, if there is one. -/
def readFraction? : List Char → Option (Option (List Char) × List Char)
  | '.' :: rest => (readRun? rest).map fun (run, rest) => (some run, rest)
  | cs => some (none, cs)

/-- The exponent after its mark, if there is one. -/
def readExponent? : List Char → Option (Option (Bool × List Char) × List Char)
  | [] => some (none, [])
  | c :: rest =>
      if c = 'e' ∨ c = 'E' then
        let (negative, rest) := Numeric.readSign rest
        (readRun? rest).map fun (run, rest) => (some (negative, run), rest)
      else some (none, c :: rest)

/-- Reads a number that starts here. -/
def readNumeral? (cs : List Char) : Option (Numeral × List Char) := do
  let (negative, rest) :=
    match cs with
    | '-' :: rest => (true, rest)
    | cs => (false, cs)
  let (whole, rest) ← readWhole? rest
  let (fraction?, rest) ← readFraction? rest
  let (exponent?, rest) ← readExponent? rest
  return (⟨negative, whole, fraction?, exponent?⟩, rest)

/-- The leading digits that fit 64 bits, and a power of ten that they count. -/
structure Significand where
  digits : Nat := 0
  exponent : Int := 0
  /-- A digit did not fit any more. -/
  full : Bool := false
deriving DecidableEq, Repr

/-- One more digit, if it fits. -/
def Significand.take? (s : Significand) (c : Char) : Option Nat :=
  let n := s.digits * 10 + (c.toNat - '0'.toNat)
  if n < UInt64.size then some n else none

/-- A digit before the point: from the first one that does not fit, digits only count. -/
def Significand.pushWhole (s : Significand) (c : Char) : Significand :=
  match s.full, s.take? c with
  | false, some n => { s with digits := n }
  | _, _ => { s with exponent := s.exponent + 1, full := true }

/-- A digit after the point: from the first one that does not fit, digits are dropped. -/
def Significand.pushFraction (s : Significand) (c : Char) : Significand :=
  match s.full, s.take? c with
  | false, some n => { s with digits := n, exponent := s.exponent - 1 }
  | _, _ => { s with full := true }

/-- A double times or divided by a power of ten. A power beyond the range of doubles is divided by in
several steps; `none` if the magnitude exceeds that of every double. -/
def scale : Nat → Float → Int → Option Float
  | 0, x, _ => some x
  | fuel + 1, x, e =>
      if e.natAbs ≤ 308 then
        let power := Numeric.ofDecimal false 1 e.natAbs
        if 0 ≤ e then
          let y := x * power
          if y.isInf then none else some y
        else some (x / power)
      else if Numeric.isZero x then some x
      else if 0 ≤ e then none
      else scale fuel (x / Numeric.ofDecimal false 1 308) (e + 308)

/-- The double of a significand and a further exponent. -/
def Significand.toNumber (s : Significand) (negative : Bool) (e : Int) : Number :=
  match scale 8 (Numeric.ofInt s.digits) (s.exponent + e) with
  | some x => .real (if negative then -x else x)
  | none => .tooLarge

/-- The exponent that digits denote, unless it is beyond 32 bits. -/
def exponentValue? (digits : List Char) : Option Int :=
  let n := Nat.ofDigitChars 10 digits 0
  if n < Numeric.pow2 31 then some n else none

/-- A number written as an integer. Zero with a minus sign is a real. -/
def Numeral.ofInteger (negative : Bool) (digits : Nat) : Number :=
  if !negative then .natural (UInt64.ofNat digits)
  else if 1 ≤ digits ∧ digits ≤ Numeric.pow2 63 then .negative (Int64.ofInt (-digits))
  else .real (-(Numeric.ofInt digits))

/-- What a written number means. -/
def Numeral.value (n : Numeral) : Number :=
  let whole := n.whole.foldl Significand.pushWhole {}
  let s := (n.fraction?.getD []).foldl Significand.pushFraction { whole with full := false }
  match n.fraction?, n.exponent? with
  | none, none =>
      if whole.full then whole.toNumber n.negative 0 else ofInteger n.negative whole.digits
  | _, none => s.toNumber n.negative 0
  | _, some (negativeExponent, digits) =>
      match exponentValue? digits with
      | some e => s.toNumber n.negative (if negativeExponent then -e else e)
      | none =>
          if s.digits ≠ 0 ∧ !negativeExponent then .tooLarge
          else .real (Numeric.zero n.negative)

end ScriptMachine.Json
