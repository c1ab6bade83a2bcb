import ScriptMachine.Exec.Env

/-!
Literal operands. The declared type says which operand field holds the literal; a real literal may
also be written as an integer.
-/

namespace ScriptMachine

/-- The literal that an instruction carries. -/
def Instruction.literal (i : Instruction) : Except RuntimeError Value :=
  let required (v : Option Value) : Except RuntimeError Value :=
    match v with
    | some v => .ok v
    | none => .error (.malformed i.raw .missingLiteral)
  match i.typeOne with
  | .int32 | .int16 =>
      match i.int? with
      | none => .error (.malformed i.raw .missingLiteral)
      | some n =>
          if Int32.minValue.toInt ≤ n.toInt ∧ n.toInt ≤ Int32.maxValue.toInt then
            .ok (.int32 n.toInt32)
          else .error (.conversion (.integerOverflow n i.typeOne.name))
  | .int64 => required (i.int?.map .int64)
  | .double | .float =>
      required ((i.double?.or (i.int?.map fun n => Numeric.ofInt n.toInt)).map .real)
  | .bool => required (i.bool?.map .bool)
  | .string => required (i.text?.map .string)
  | .untyped => .error (.malformed i.raw .missingLiteral)

/-- Pushes the literal of an instruction. -/
def Exec.pushLiteral (i : Instruction) : Exec Flow := do
  pushNext (← Action.ofExcept i.literal)

end ScriptMachine
