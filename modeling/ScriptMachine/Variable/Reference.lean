import ScriptMachine.Error
import ScriptMachine.Text.Numeral
import ScriptMachine.Variable.Scope

/-!
Variable operands. An operand such as `[array]self.inv` or `100.hp` is an access in brackets, a scope
and a name, with a point between scope and name. Reading it is purely syntactic, and `toText` writes
the canonical operand.
-/

namespace ScriptMachine

/-- How the operand stack takes part in an access. -/
inductive Access where
  /-- Not at all. -/
  | plain
  /-- It gives an instance and an index. -/
  | array
  | arrayPopAf
  | arrayPushAf
  /-- It gives the instance. -/
  | stacktop
deriving DecidableEq, Repr

namespace Access

/-- What an access puts in front of an operand. -/
def marker : Access → String
  | plain => ""
  | array => "[array]"
  | arrayPopAf => "[arraypopaf]"
  | arrayPushAf => "[arraypushaf]"
  | stacktop => "[stacktop]"

/-- The name of an access in messages. -/
def toText : Access → String
  | plain => "plain"
  | a => a.marker

/-- The accesses with a marker, and their markers. -/
def marked : List (Access × List Char) :=
  [array, arrayPopAf, arrayPushAf, stacktop].map fun a => (a, a.marker.toList)

/-- The access of an operand, and what follows its marker. -/
def split (operand : List Char) : Access × List Char :=
  (marked.findSome? fun (a, marker) =>
    (marker.isPrefixOf? operand).map fun rest => (a, rest)).getD (plain, operand)

end Access

/-- A decoded variable operand. -/
structure VariableRef where
  name : String
  scope : Scope
  access : Access
deriving DecidableEq, Repr

/-- The 32-bit integer that a signed numeral denotes. -/
def Scope.readId? (context : List Char) : Option Int32 := do
  let n ← Text.readInteger? context
  guard (Int32.minValue.toInt ≤ n ∧ n ≤ Int32.maxValue.toInt)
  return Int32.ofInt n

/-- The scope that a name or a numeral stands for. -/
def Scope.read? (context : List Char) : Option Scope :=
  match named.lookup (String.ofList context) with
  | some scope => some scope
  | none => (readId? context).map ofId

namespace VariableRef

/-- Splits at the first point. -/
def splitPoint? (cs : List Char) : Option (List Char × List Char) :=
  match cs.dropWhile (· != '.') with
  | [] => none
  | _ :: name => some (cs.takeWhile (· != '.'), name)

/-- Reads `[access]scope.name`, or names the part that is no scope. -/
def parseChars (operand : List Char) : Except String VariableRef :=
  let (access, rest) := Access.split operand
  match splitPoint? rest with
  | none => .error (String.ofList rest)
  | some (context, name) =>
      match Scope.read? context with
      | none => .error (String.ofList context)
      | some scope =>
          if name = [] then .error (String.ofList rest)
          else .ok ⟨String.ofList name, scope, access⟩

/-- Reads a variable operand. -/
def parse (operand : String) : Except RuntimeError VariableRef :=
  (parseChars operand.toList).mapError .unknownVariableScope

/-- The canonical operand for a reference. -/
def toText (r : VariableRef) : String :=
  r.access.marker ++ r.scope.toText ++ "." ++ r.name

end VariableRef

end ScriptMachine
