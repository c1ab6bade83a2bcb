import ScriptMachine.Exec.Env
import ScriptMachine.Value.Arith
import ScriptMachine.Value.Compare

/-!
Instructions that work on the operand stack alone: operators, comparisons, conversions, duplication.
The right operand of two is on top and has the first declared type.
-/

namespace ScriptMachine.Exec

variable (i : Instruction)

/-- A binary operator. -/
def binary : Exec Flow := do
  let rhs ← pop i.typeOne
  let lhs ← pop i.typeTwo
  pushNext (← Action.ofExcept (Value.apply i.opcode lhs rhs))

/-- An operator with one operand. -/
def unary (f : Value → Except RuntimeError Value) : Exec Flow := do
  let v ← pop i.typeOne
  pushNext (← Action.ofExcept (f v))

/-- `cmp`: pushes the truth value of a comparison. -/
def compare : Exec Flow := do
  let comparison ← required i .missingComparison i.comparison?
  let rhs ← pop i.typeOne
  let lhs ← pop i.typeTwo
  pushNext (.bool (← Action.ofExcept ((Value.compare comparison lhs rhs).mapError .conversion)))

/-- `conv`: converts the top value from one declared type to another. -/
def convert : Exec Flow :=
  unary i fun v => (v.convert i.typeTwo).mapError .conversion

/-- `dup`: duplicates one value more than the count says. -/
def dup : Exec Flow := do
  let extra := i.int?.getD 0
  if extra < 0 then throw (.malformed i.raw .negativeDupCount)
  onStack (OperandStack.dup (extra.toInt.toNat + 1))
  return .next

/-- `popz`: drops the top value. -/
def discard : Exec Flow := do
  let _ ← pop i.typeOne
  return .next

end ScriptMachine.Exec
