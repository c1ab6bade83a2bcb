import ScriptMachine.DataType
import ScriptMachine.Error
import ScriptMachine.Value.Basic

/-!
Conversion of a value to a declared type. Numeric types accept every number, truth values accept
every number, strings accept only strings, and an untyped operand passes anything unchanged.
-/

namespace ScriptMachine.Value

/-- The error for a value whose tag does not suit the wanted type. -/
def mismatch (expected : String) (v : Value) : ConversionError :=
  .typeMismatch expected v.typeName

/-- A view of a value, or the mismatch with the wanted type. -/
def view {α : Type} (f : Value → Option α) (expected : String) (v : Value) : Except ConversionError α :=
  match f v with
  | some a => .ok a
  | none => .error (mismatch expected v)

/-- A 64-bit integer within closed bounds. -/
def within (least greatest : Int) (wanted : String) (n : Int64) : Except ConversionError Int :=
  if least ≤ n.toInt ∧ n.toInt ≤ greatest then .ok n.toInt else .error (.integerOverflow n wanted)

/-- The value in the representation that a declared type asks for. A 16-bit integer is held as a
32-bit one, and a single-precision number as a real. -/
def convert (t : DataType) (v : Value) : Except ConversionError Value :=
  match t with
  | .untyped => .ok v
  | .double => do return real (← v.view real? t.name)
  | .float => do return real (Numeric.narrow (← v.view real? t.name))
  | .int64 => do return int64 (← v.view integer? t.name)
  | .int32 => do
      let n ← v.view integer? t.name
      return int32 (Int32.ofInt (← within Int32.minValue.toInt Int32.maxValue.toInt t.name n))
  | .int16 => do
      let n ← v.view integer? t.name
      return int32 (Int32.ofInt (← within Int16.minValue.toInt Int16.maxValue.toInt t.name n))
  | .bool => do return bool (← v.view truth? t.name)
  | .string => do return string (← v.view text? t.name)

end ScriptMachine.Value
