import ScriptMachine.Numeric.Decimal
import ScriptMachine.Value.Basic

/-!
How values are shown: whole reals without a fraction, other reals with two places, truth values as
0 and 1, strings bare, and arrays in brackets.
-/

namespace ScriptMachine.Value

/-- A whole real of less than 10¹⁵ is shown as an integer, any other with two places. -/
def displayReal (x : Float) : String :=
  match Numeric.integerPart? x with
  | some n =>
      if Numeric.isIntegral x ∧ n.natAbs < Numeric.pow10 15 then toString n else Numeric.twoPlaces x
  | none => Numeric.twoPlaces x

mutual

/-- The shown form of a value. -/
def display : Value → String
  | undefined => "undefined"
  | bool b => if b then "1" else "0"
  | real x => displayReal x
  | int32 n => toString n
  | int64 n => toString n
  | string s => s
  | array items => "[ " ++ String.intercalate "," (displayArray items) ++ " ]"

/-- The shown forms of the items of an array. -/
def displayArray : Array Value → List String
  | ⟨items⟩ => displayItems items

/-- The shown forms of values. -/
def displayItems : List Value → List String
  | [] => []
  | v :: rest => v.display :: displayItems rest

end

end ScriptMachine.Value
