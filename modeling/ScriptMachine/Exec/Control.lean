import ScriptMachine.Exec.Env
import ScriptMachine.Native.Basic

/-!
Branches, calls and returns. A native function runs at once and leaves its result on the stack; any
other call is a request to the machine.
-/

namespace ScriptMachine.Exec

variable (natives : Natives) (i : Instruction)

/-- Takes a truth value off. -/
def popCondition : Exec Bool := do
  match ← pop .bool with
  | .bool b => return b
  | _ => return false

/-- Goes to the label of a branch, or past the last instruction. -/
def takeBranch : Exec Flow :=
  if i.jumpToEnd then return .ret .undefined
  else do return .jump (← required i .missingBranchLabel i.int?)

/-- `bt` and `bf`: branches if the top value is as `wanted`. -/
def branchIf (wanted : Bool) : Exec Flow := do
  if (← popCondition) = wanted then takeBranch i else return .next

/-- Runs a native function and keeps its messages. -/
def runNative (native : Native) (name : String) (arguments : Array Value) : Exec Flow := fun env =>
  let reply := native ⟨name, arguments, env.store.bindings.self?, env.store.instances⟩
  let env := { env with messages := env.messages ++ reply.messages }
  (do pushNext (← Action.ofExcept reply.result) : Exec Flow) env

/-- `call`: the top values become the arguments, the top one first. -/
def call : Exec Flow := do
  let name ← required i .missingFunctionName i.function?
  let arguments ← onStack (OperandStack.takeMany (i.argumentCount?.getD 0).toNat)
  match natives[name]? with
  | some native => runNative native name arguments
  | none => return .call name arguments

/-- `ret`: leaves the running call with the top value. -/
def leave : Exec Flow := do
  return .ret (← pop i.typeOne)

end ScriptMachine.Exec
