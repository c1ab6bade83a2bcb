import ScriptMachine.Instruction.Opcode
import ScriptMachine.Value.Convert

/-!
Arithmetic and logic on values. Two integer operands give an integer, 64 bits wide if either of them
is and otherwise 32 bits wide, modulo that width. Any other numeric mix is computed in reals.
Division is always real.
-/

namespace ScriptMachine.Value

/-- A value as a number, for an operator that wants one. -/
def number (v : Value) : Except RuntimeError Float :=
  (v.view real? "number").mapError .conversion

/-- A value as an integer, for an operator that wants one. -/
def integer (v : Value) : Except RuntimeError Int64 :=
  (v.view integer? "integer").mapError .conversion

/-- A 64-bit integer. -/
def isWide : Value → Bool
  | int64 _ => true
  | _ => false

/-- An integer result in the width that two integer operands ask for. -/
def ofWide (lhs rhs : Value) (n : Int64) : Value :=
  if lhs.isWide || rhs.isWide then int64 n else int32 n.toInt32

/-- Integer arithmetic on two integers, real arithmetic on any other two numbers. -/
def numeric (onInt : Int64 → Int64 → Int64) (onReal : Float → Float → Float) (lhs rhs : Value) :
    Except RuntimeError Value :=
  if lhs.isInteger && rhs.isInteger then do
    return ofWide lhs rhs (onInt (← lhs.integer) (← rhs.integer))
  else do
    return real (onReal (← lhs.number) (← rhs.number))

/-- An operation on the integer views of two numbers; the result is an integer only if both numbers
are. -/
def bitwise (onInt : Int64 → Int64 → Int64) (lhs rhs : Value) : Except RuntimeError Value := do
  let n := onInt (← lhs.integer) (← rhs.integer)
  return if lhs.isInteger && rhs.isInteger then ofWide lhs rhs n else real (Numeric.ofInt n.toInt)

/-- A logical operation on two truth values, a bitwise one on any other two numbers. -/
def logical (onBool : Bool → Bool → Bool) (onInt : Int64 → Int64 → Int64) (lhs rhs : Value) :
    Except RuntimeError Value :=
  match lhs, rhs with
  | bool a, bool b => .ok (bool (onBool a b))
  | _, _ => bitwise onInt lhs rhs

/-- Refuses a divisor that is no number or is zero. -/
def checkDivisor (rhs : Value) : Except RuntimeError Unit := do
  if Numeric.isZero (← rhs.number) then throw .divisionByZero

/-- The sum of two numbers, or two strings joined. -/
def add : Value → Value → Except RuntimeError Value
  | string a, string b => .ok (string (a ++ b))
  | lhs, rhs => numeric (· + ·) (· + ·) lhs rhs

/-- The real quotient of two numbers. -/
def divide (lhs rhs : Value) : Except RuntimeError Value := do
  let a ← lhs.number
  let b ← rhs.number
  if Numeric.isZero b then throw .divisionByZero
  return real (a / b)

/-- The quotient of two numbers without its fraction. -/
def quotient (lhs rhs : Value) : Except RuntimeError Value := do
  checkDivisor rhs
  numeric (· / ·) (fun a b => Numeric.truncate (a / b)) lhs rhs

/-- What the quotient without its fraction leaves over. -/
def modulo (lhs rhs : Value) : Except RuntimeError Value := do
  checkDivisor rhs
  numeric (· % ·) Numeric.remainder lhs rhs

/-- The value of a binary operator. A shift takes its amount modulo 64. -/
def combine : BinaryOp → Value → Value → Except RuntimeError Value
  | .add => add
  | .sub => numeric (· - ·) (· - ·)
  | .mul => numeric (· * ·) (· * ·)
  | .div => divide
  | .rem => quotient
  | .mod => modulo
  | .and => logical (· && ·) (· &&& ·)
  | .or => logical (· || ·) (· ||| ·)
  | .xor => logical (· ^^ ·) (· ^^^ ·)
  | .shl => bitwise (· <<< ·)
  | .shr => bitwise (· >>> ·)

/-- The value of an operation on two operands; an operation that is no binary operator is refused. -/
def apply (op : Opcode) (lhs rhs : Value) : Except RuntimeError Value :=
  match op with
  | .binary b => combine b lhs rhs
  | other => .error (.unsupportedOpcode other.mnemonic)

/-- Arithmetic negation. -/
def negate : Value → Except RuntimeError Value
  | int32 n => .ok (int32 (-n))
  | int64 n => .ok (int64 (-n))
  | v => do return real (-(← v.number))

/-- Logical negation of truth values and reals, bitwise complement of integers. A not-a-number is
neither above one half nor at most one half, so its negation is false. -/
def invert : Value → Except RuntimeError Value
  | bool b => .ok (bool (!b))
  | int32 n => .ok (int32 (~~~n))
  | int64 n => .ok (int64 (~~~n))
  | real x => .ok (bool (Numeric.isFalsy x))
  | v => .error (.conversion (mismatch "bool" v))

end ScriptMachine.Value
