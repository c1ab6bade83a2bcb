import ScriptMachine.Exec.Access
import ScriptMachine.Exec.Control
import ScriptMachine.Exec.Operate

/-!
The effect of every instruction.
-/

namespace ScriptMachine

/-- Executes one instruction. -/
def exec (c : Config) (natives : Natives) (i : Instruction) : Exec Flow :=
  match i.opcode with
  | .pop => Exec.popVariable c i
  | .push | .pushLocal | .pushGlobal | .pushBuiltin => Exec.push c i
  | .pushShort => Exec.pushLiteral i
  | .binary _ => Exec.binary i
  | .neg => Exec.unary i Value.negate
  | .not => Exec.unary i Value.invert
  | .cmp => Exec.compare i
  | .conv => Exec.convert i
  | .dup => Exec.dup i
  | .popz => Exec.discard i
  | .branch => Exec.takeBranch i
  | .branchTrue => Exec.branchIf i true
  | .branchFalse => Exec.branchIf i false
  | .call => Exec.call natives i
  | .ret => Exec.leave i
  | .exit => return .ret .undefined

end ScriptMachine
