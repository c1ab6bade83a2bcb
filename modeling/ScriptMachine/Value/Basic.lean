import ScriptMachine.Numeric.Binary

/-!
Dynamic values, which fill operand stacks and variables. The tag of a value is always explicit; the
views below say what a value is as a number, an integer, a truth value, a string or an array.
-/

namespace ScriptMachine

/-- A dynamic value. -/
inductive Value where
  /-- Nothing has been assigned. -/
  | undefined
  | bool (b : Bool)
  /-- The ordinary kind of number. -/
  | real (x : Float)
  | int32 (n : Int32)
  | int64 (n : Int64)
  | string (s : String)
  | array (items : Array Value)
deriving Inhabited

namespace Value

/-- The name of a value's tag. -/
def typeName : Value → String
  | undefined => "undefined"
  | bool _ => "bool"
  | real _ => "real"
  | int32 _ => "int32"
  | int64 _ => "int64"
  | string _ => "string"
  | array _ => "array"

/-- Nothing has been assigned. -/
def isUndefined : Value → Bool
  | undefined => true
  | _ => false

/-- Truth values count as numbers, next to reals and integers. -/
def isNumeric : Value → Bool
  | bool _ | real _ | int32 _ | int64 _ => true
  | _ => false

/-- One of the two integer tags. -/
def isInteger : Value → Bool
  | int32 _ | int64 _ => true
  | _ => false

/-- The value as a real number; truth values are 0 and 1. -/
def real? : Value → Option Float
  | bool b => some (if b then 1 else 0)
  | real x => some x
  | int32 n => some (Numeric.ofInt n.toInt)
  | int64 n => some (Numeric.ofInt n.toInt)
  | _ => none

/-- A real number as a 64-bit integer: truncated toward zero, and only within the range. -/
def wideOfReal? (x : Float) : Option Int64 := do
  let n ← Numeric.integerPart? x
  guard (Int64.minValue.toInt ≤ n ∧ n ≤ Int64.maxValue.toInt)
  return Int64.ofInt n

/-- The value as a 64-bit integer; truth values are 0 and 1, and reals lose their fraction. -/
def integer? : Value → Option Int64
  | bool b => some (if b then 1 else 0)
  | real x => wideOfReal? x
  | int32 n => some n.toInt64
  | int64 n => some n
  | _ => none

/-- The value as a truth value: a number above one half is true. -/
def truth? : Value → Option Bool
  | bool b => some b
  | v => v.real?.map Numeric.isTruthy

/-- The text of a string. -/
def text? : Value → Option String
  | string s => some s
  | _ => none

/-- The items of an array. -/
def items? : Value → Option (Array Value)
  | array items => some items
  | _ => none

/-- Every number has a real view, and nothing else has one. -/
theorem isSome_real? (v : Value) : v.real?.isSome = v.isNumeric := by
  cases v <;> rfl

end Value

end ScriptMachine
