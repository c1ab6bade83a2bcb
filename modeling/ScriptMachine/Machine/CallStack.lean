import ScriptMachine.Exec.Env
import ScriptMachine.Machine.Program

/-!
Calls that wait for a call that they made. Each keeps a frame of its own: its place in a script, its
operand stack, and its locals and arguments. The call stack knows its depth, which limits nested
calls and appears in reports.
-/

namespace ScriptMachine

/-- One call. -/
structure Frame where
  script : Script
  /-- The index of the instruction that it goes on with. -/
  position : Nat
  stack : OperandStack
  bindings : Bindings

/-- Calls, the innermost first. -/
@[ext]
structure CallStack where
  frames : List Frame := []
  /-- The number of calls. -/
  depth : Nat := 0
  depth_eq : depth = frames.length := by rfl

namespace CallStack

/-- One more call. -/
def push (c : CallStack) (f : Frame) : CallStack :=
  ⟨f :: c.frames, c.depth + 1, by simp [c.depth_eq]⟩

/-- The innermost call, and the others. -/
def pop? : CallStack → Option (Frame × CallStack)
  | ⟨[], _, _⟩ => none
  | ⟨f :: frames, depth, h⟩ => some (f, ⟨frames, depth - 1, by simp [h]⟩)

/-- Without the calls above a base. -/
def cutTo (c : CallStack) (base : Nat) : CallStack :=
  ⟨c.frames.drop (c.depth - base), min c.depth base, by
    rw [List.length_drop, ← c.depth_eq]
    omega⟩

/-- The frame pushed last is popped first, and leaves the stack as it was before. -/
@[simp] theorem pop?_push (c : CallStack) (f : Frame) : (c.push f).pop? = some (f, c) :=
  rfl

/-- At or below the base nothing is cut. -/
theorem cutTo_of_le {c : CallStack} {base : Nat} (h : c.depth ≤ base) : c.cutTo base = c := by
  ext1
  · simp [cutTo, Nat.sub_eq_zero_of_le h]
  · exact Nat.min_eq_left h

end CallStack

end ScriptMachine
