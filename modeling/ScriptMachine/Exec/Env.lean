import ScriptMachine.OperandStack
import ScriptMachine.Script
import ScriptMachine.Storage.Store

/-!
What one instruction works on, and what it asks the machine to do next. An instruction never touches
the call stack itself: calls and returns are requests.
-/

namespace ScriptMachine

/-- What one instruction can see and change. -/
structure Env where
  stack : OperandStack
  store : Store
  /-- The messages that natives logged, in order. -/
  messages : List String := []

/-- What the machine is asked to do after an instruction. -/
inductive Flow where
  /-- Go on with the following instruction. -/
  | next
  /-- Go on at a label. -/
  | jump (label : Int64)
  /-- Enter a function with arguments. -/
  | call (function : String) (arguments : Array Value)
  /-- Leave the running call with a value. -/
  | ret (value : Value)
  /-- Give up, because the instruction addresses storage in a way that has no meaning. -/
  | refuse (cause : RuntimeError)

/-- The effect of one instruction. -/
abbrev Exec (α : Type) := Action Env α

namespace Exec

variable {α : Type}

/-- An action on the operand stack. -/
@[inline]
def onStack (act : Action OperandStack α) : Exec α
  | ⟨stack, store, messages⟩ => Action.restore (⟨·, store, messages⟩) (act stack)

/-- An action on the store. -/
@[inline]
def onStore (act : Action Store α) : Exec α
  | ⟨stack, store, messages⟩ => Action.restore (⟨stack, ·, messages⟩) (act store)

/-- A result read off the store. -/
def fromStore (f : Store → Except RuntimeError α) : Exec α :=
  onStore (Action.inspect f)

/-- Takes the top value off in a declared type. -/
def pop (t : DataType) : Exec Value :=
  onStack (OperandStack.pop t)

/-- Takes the top value off as a 32-bit integer. -/
def popId : Exec Int32 :=
  onStack (OperandStack.popAs Int32)

/-- Puts a value on top and goes on. -/
def pushNext (v : Value) : Exec Flow := do
  onStack (OperandStack.push v)
  return .next

/-- An operand that has to be there. -/
def required (i : Instruction) (fault : OperandFault) : Option α → Exec α
  | some a => pure a
  | none => throw (.malformed i.raw fault)

end Exec

end ScriptMachine
