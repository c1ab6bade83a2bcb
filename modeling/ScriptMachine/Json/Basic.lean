import ScriptMachine.Numeric.Binary

/-!
Data in JSON form, as far as its meaning can matter to a reader: fields keep their order and may
repeat, a string also keeps the characters as written, and a string or number that has no meaning is
kept as such, because a reader may pass over it.
-/

namespace ScriptMachine.Json

/-- A string, as written and as meant. -/
structure Lexeme where
  /-- The characters between the quotes, with escapes as written. -/
  written : String
  /-- The characters meant, unless an escape is half of a surrogate pair without the other half. -/
  value? : Option String
deriving DecidableEq, Repr

/-- A number. -/
inductive Number where
  /-- An integer that fits 64 bits without a sign. -/
  | natural (n : UInt64)
  /-- A negative integer that fits 64 bits with a sign. -/
  | negative (n : Int64)
  | real (x : Float)
  /-- A magnitude above that of every double. -/
  | tooLarge
deriving DecidableEq

/-- The integer that a number is, if it is written as one. -/
def Number.integer? : Number → Option Int
  | natural n => some n.toNat
  | negative n => some n.toInt
  | _ => none

/-- The double that a number is. -/
def Number.real? : Number → Option Float
  | natural n => some (Numeric.ofInt n.toNat)
  | negative n => some (Numeric.ofInt n.toInt)
  | real x => some x
  | tooLarge => none

end ScriptMachine.Json

namespace ScriptMachine

/-- A piece of data in JSON form. -/
inductive Json where
  | null
  | bool (b : Bool)
  | number (n : Json.Number)
  | string (t : Json.Lexeme)
  | array (items : List Json)
  | object (fields : List (Json.Lexeme × Json))
deriving Inhabited

end ScriptMachine
