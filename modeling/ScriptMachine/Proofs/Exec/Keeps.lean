import ScriptMachine.Exec.Instruction
import ScriptMachine.Proofs.Action

/-!
What instructions that store nothing leave alone: every instruction but `pop` keeps the whole store
and the limit of the operand stack, whether it succeeds or fails.
-/

namespace ScriptMachine

/-! ### Operand stacks -/

namespace OperandStack

/-- Putting a value on top uses up the room that it takes. -/
theorem keeps_push (v : Value) : Action.Keeps limit (push v) := by
  rintro ⟨values, room⟩
  cases room with
  | zero => rfl
  | succ room =>
      simp only [Action.after, push, limit, length, List.length_cons]
      omega

/-- Taking a value off gives its room back. -/
theorem keeps_take : Action.Keeps limit take := by
  rintro ⟨values, room⟩
  cases values with
  | nil => rfl
  | cons v rest =>
      simp only [Action.after, take, limit, length, List.length_cons]
      omega

theorem keeps_pop (t : DataType) : Action.Keeps limit (pop t) :=
  keeps_take.bind fun _ => .ofExcept _

theorem keeps_popAs (α : Type) [Extract α] : Action.Keeps limit (popAs α) :=
  keeps_take.bind fun _ => .ofExcept _

/-- Taking values off gives back as much room as they took. -/
theorem keeps_takeMany (count : Nat) : Action.Keeps limit (takeMany count) := by
  intro s
  unfold takeMany Action.after
  by_cases few : (s.values.take count).length < count
  · simp only [few, if_true]
  · simp only [few, if_false, limit, length, List.length_drop]
    rw [List.length_take] at few
    omega

/-- Duplicating values uses up as much room as the copies take. -/
theorem keeps_dup (count : Nat) : Action.Keeps limit (dup count) := by
  intro s
  unfold dup Action.after
  by_cases few : (s.values.take count).length < count
  · simp only [few, if_true]
  · by_cases fits : count ≤ s.room
    · simp only [few, fits, if_true, if_false, limit, length, List.length_append]
      rw [List.length_take] at few ⊢
      omega
    · simp only [few, fits, if_false]

end OperandStack

namespace Exec

/-- What an instruction that stores nothing keeps. -/
def stored (env : Env) : Store × Nat :=
  (env.store, env.stack.limit)

variable {α : Type} {c : Config} {natives : Natives} {i : Instruction}

/-- An action on the operand stack leaves the store and the messages as they are. -/
theorem after_onStack (act : Action OperandStack α) (env : Env) :
    (onStack act).after env = { env with stack := act.after env.stack } :=
  Action.after_restore (⟨·, env.store, env.messages⟩) act env.stack (onStack act) env rfl

/-- An action on the store leaves the operand stack and the messages as they are. -/
theorem after_onStore (act : Action Store α) (env : Env) :
    (onStore act).after env = { env with store := act.after env.store } :=
  Action.after_restore (⟨env.stack, ·, env.messages⟩) act env.store (onStore act) env rfl

/-- An action on the operand stack leaves the store alone. -/
theorem keeps_onStack {act : Action OperandStack α} (kept : Action.Keeps OperandStack.limit act) :
    Action.Keeps stored (onStack act) := by
  intro env
  simp only [stored, after_onStack, kept env.stack]

/-- Reading the store leaves it alone. -/
theorem keeps_fromStore (f : Store → Except RuntimeError α) : Action.Keeps stored (fromStore f) := by
  intro env
  simp only [stored, fromStore, after_onStore, Action.after_inspect]

theorem keeps_pop (t : DataType) : Action.Keeps stored (pop t) :=
  keeps_onStack (OperandStack.keeps_pop t)

theorem keeps_popId : Action.Keeps stored popId :=
  keeps_onStack (OperandStack.keeps_popAs Int32)

theorem keeps_pushNext (v : Value) : Action.Keeps stored (pushNext v) :=
  (keeps_onStack (OperandStack.keeps_push v)).bind fun _ => .pure _

theorem keeps_required (fault : OperandFault) (a : Option α) :
    Action.Keeps stored (required i fault a) := by
  cases a with
  | some a => exact .pure a
  | none => exact .throw _

/-! ### Instructions that store nothing -/

theorem keeps_pushLiteral : Action.Keeps stored (pushLiteral i) :=
  (Action.Keeps.ofExcept _).bind fun _ => keeps_pushNext _

theorem keeps_binary : Action.Keeps stored (binary i) :=
  (keeps_pop _).bind fun _ => (keeps_pop _).bind fun _ =>
    (Action.Keeps.ofExcept _).bind fun _ => keeps_pushNext _

theorem keeps_unary (f : Value → Except RuntimeError Value) : Action.Keeps stored (unary i f) :=
  (keeps_pop _).bind fun _ => (Action.Keeps.ofExcept _).bind fun _ => keeps_pushNext _

theorem keeps_compare : Action.Keeps stored (compare i) :=
  (keeps_required _ _).bind fun _ => (keeps_pop _).bind fun _ => (keeps_pop _).bind fun _ =>
    (Action.Keeps.ofExcept _).bind fun _ => keeps_pushNext _

theorem keeps_dup : Action.Keeps stored (dup i) := by
  unfold dup
  by_cases negative : i.int?.getD 0 < 0
  · simp only [negative, if_true]
    exact (Action.Keeps.throw _).bind fun _ =>
      (keeps_onStack (OperandStack.keeps_dup _)).bind fun _ => .pure _
  · simp only [negative, if_false]
    exact (keeps_onStack (OperandStack.keeps_dup _)).bind fun _ => .pure _

theorem keeps_discard : Action.Keeps stored (discard i) :=
  (keeps_pop _).bind fun _ => .pure _

theorem keeps_takeBranch : Action.Keeps stored (takeBranch i) := by
  unfold takeBranch
  by_cases toEnd : i.jumpToEnd
  · simp only [toEnd, if_true]
    exact .pure _
  · simp only [toEnd]
    exact (keeps_required _ _).bind fun _ => .pure _

/-- A condition is taken off the operand stack, and the store stays as it is. -/
theorem keeps_popCondition : Action.Keeps stored popCondition := by
  refine (keeps_pop _).bind fun v => ?_
  cases v <;> exact .pure _

theorem keeps_branchIf (wanted : Bool) : Action.Keeps stored (branchIf i wanted) := by
  refine keeps_popCondition.bind fun b => ?_
  by_cases taken : b = wanted
  · simp only [taken, if_true]
    exact keeps_takeBranch
  · simp only [taken, if_false]
    exact .pure _

/-- A native sees the instances and changes none. -/
theorem keeps_runNative (native : Native) (name : String) (arguments : Array Value) :
    Action.Keeps stored (runNative native name arguments) := by
  intro env
  let reply := native ⟨name, arguments, env.store.bindings.self?, env.store.instances⟩
  have kept : Action.Keeps stored (do pushNext (← Action.ofExcept reply.result)) :=
    (Action.Keeps.ofExcept _).bind fun _ => keeps_pushNext _
  exact kept { env with messages := env.messages ++ reply.messages }

/-- A native function may log, and leaves the store alone. -/
theorem keeps_call : Action.Keeps stored (call natives i) := by
  refine (keeps_required _ _).bind fun name =>
    (keeps_onStack (OperandStack.keeps_takeMany _)).bind fun arguments => ?_
  cases natives[name]? with
  | some native => exact keeps_runNative native name arguments
  | none => exact .pure _

theorem keeps_leave : Action.Keeps stored (leave i) :=
  (keeps_pop _).bind fun _ => .pure _

/-- Softening changes how an instruction ends, not what it leaves behind. -/
theorem after_soften (act : Exec Flow) (env : Env) : (soften act).after env = act.after env := by
  simp only [Action.after, soften]
  cases act env with
  | ok flow t => rfl
  | error e t => cases e <;> rfl

theorem keeps_variableOperand : Action.Keeps stored (variableOperand i) :=
  (keeps_required _ _).bind fun _ => .ofExcept _

theorem keeps_popStacktopId : Action.Keeps stored popStacktopId := by
  refine keeps_popId.bind fun id => ?_
  by_cases reserved : id = Reserved.stacktop
  · simp only [reserved, if_true]
    exact keeps_popId
  · simp only [reserved, if_false]
    exact .pure _

/-- A load only reads the store. -/
theorem keeps_loadVariable : Action.Keeps stored (loadVariable c i) := by
  refine keeps_variableOperand.bind fun r => ?_
  have read (place : Place) :
      Action.Keeps stored (do pushNext (← fromStore fun s => s.read place r.name)) :=
    (keeps_fromStore _).bind fun _ => keeps_pushNext _
  split
  · exact .pure _
  · exact (keeps_fromStore _).bind read
  · exact keeps_popId.bind fun _ => keeps_popId.bind fun _ => (keeps_fromStore _).bind fun _ =>
      (keeps_fromStore _).bind fun _ => keeps_pushNext _
  · exact keeps_popStacktopId.bind fun _ => (keeps_fromStore _).bind read
  · exact .pure _

theorem keeps_pushInstruction : Action.Keeps stored (push c i) := by
  intro env
  unfold push
  by_cases typed : i.typeOne = .untyped
  · simp only [typed, if_true]
    rw [after_soften]
    exact keeps_loadVariable env
  · simp only [typed, if_false]
    exact keeps_pushLiteral env

/-- Only `pop` stores. -/
theorem keeps_store_of_ne_pop (other : i.opcode ≠ .pop) :
    Action.Keeps stored (exec c natives i) := by
  unfold exec
  cases opcode : i.opcode with
  | pop => exact absurd opcode other
  | push | pushLocal | pushGlobal | pushBuiltin => exact keeps_pushInstruction
  | pushShort => exact keeps_pushLiteral
  | binary op => exact keeps_binary
  | neg => exact keeps_unary _
  | not => exact keeps_unary _
  | cmp => exact keeps_compare
  | conv => exact keeps_unary _
  | dup => exact keeps_dup
  | popz => exact keeps_discard
  | branch => exact keeps_takeBranch
  | branchTrue => exact keeps_branchIf true
  | branchFalse => exact keeps_branchIf false
  | call => exact keeps_call
  | ret => exact keeps_leave
  | exit => exact .pure _

end Exec

end ScriptMachine
