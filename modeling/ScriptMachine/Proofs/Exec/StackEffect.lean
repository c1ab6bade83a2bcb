import ScriptMachine.Proofs.Exec.Access

/-!
Stack effects. How many values an instruction takes off the operand stack and how many it puts there
depends on the instruction and on which functions are native, and on nothing else, except that a
stacktop access takes one value more if the reserved stacktop id is on top. The values below those are
never touched, also where the instruction refuses or fails.
-/

namespace ScriptMachine

/-- How many values are taken off an operand stack, and how many are then put on it. -/
structure StackEffect where
  taken : Nat
  pushed : Nat
deriving DecidableEq, Repr

/-- How many ids an access takes off the operand stack. An access without meaning takes none. -/
def Access.idCount : Access → Nat
  | .plain | .arrayPopAf | .arrayPushAf => 0
  | .stacktop => 1
  | .array => 2

/-- The value on top reads as the reserved stacktop id. -/
def OperandStack.marksStacktop (s : OperandStack) : Bool :=
  (s.top?.bind fun v => (v.extract Int32).toOption) == some Reserved.stacktop

namespace Instruction

variable (natives : Natives) (i : Instruction)

/-- The instruction loads or stores the variable that its operand names. -/
def namesVariable : Bool :=
  match i.opcode with
  | .pop => true
  | .push | .pushLocal | .pushGlobal | .pushBuiltin => i.typeOne == .untyped
  | _ => false

/-- The access of the variable that the instruction names. -/
def access? : Option Access := do
  guard i.namesVariable
  return (← (VariableRef.parse (← i.text?)).toOption).access

/-- How many ids the access takes off the operand stack. -/
def idCount : Nat :=
  (i.access?.map Access.idCount).getD 0

/-- How many arguments a call takes. -/
def arity : Nat :=
  (i.argumentCount?.getD 0).toNat

/-- How many values a duplication puts on top once more. -/
def copies : Nat :=
  (i.int?.getD 0).toInt.toNat + 1

/-- The function that a call names is native. -/
def callsNative : Bool :=
  (i.function?.bind fun name => natives[name]?).isSome

/-- The effect of an instruction on the operand stack. -/
def stackEffect : StackEffect :=
  match i.opcode with
  | .pop => ⟨i.idCount + 1, 0⟩
  | .push | .pushLocal | .pushGlobal | .pushBuiltin => ⟨i.idCount, 1⟩
  | .pushShort => ⟨0, 1⟩
  | .binary _ | .cmp => ⟨2, 1⟩
  | .neg | .not | .conv => ⟨1, 1⟩
  | .dup => ⟨0, i.copies⟩
  | .popz | .ret | .branchTrue | .branchFalse => ⟨1, 0⟩
  | .branch | .exit => ⟨0, 0⟩
  | .call => ⟨i.arity, if i.callsNative natives then 1 else 0⟩

/-- A stacktop access takes one value more than its effect says if it finds the reserved stacktop id
on top. -/
def indirections (s : OperandStack) : Nat :=
  if i.access? = some .stacktop ∧ s.marksStacktop then 1 else 0

/-- How many values an instruction takes off a stack. -/
def takenFrom (s : OperandStack) : Nat :=
  (i.stackEffect natives).taken + i.indirections s

/-- Where an instruction enters a function, it is the one that it names, with the values taken off as
arguments, in the order in which they were taken off. -/
def Passes (values : List Value) (flow : Flow) : Prop :=
  ∀ name arguments, flow = .call name arguments →
    i.function? = some name ∧ arguments.toList = values.take i.arity

/-- What an instruction puts on a stack that held these values, and what it then asks for. The values
that a duplication puts there are the top ones, in their order. -/
structure Puts (values : List Value) (flow : Flow) (new : List Value) : Prop where
  count : new.length = (i.stackEffect natives).pushed
  copies : i.opcode = .dup → new = values.take i.copies
  passes : i.Passes values flow

variable {i}

theorem access?_of_not_namesVariable (names : i.namesVariable = false) : i.access? = none := by
  rw [access?, names]
  rfl

/-- The access of an instruction is the one that its operand is decoded to. -/
theorem access?_of_parse (names : i.namesVariable = true) {operand : String} {r : VariableRef}
    (text : i.text? = some operand) (parsed : VariableRef.parse operand = .ok r) :
    i.access? = some r.access := by
  rw [access?, names, text]
  change ((VariableRef.parse operand).toOption.bind fun r => some r.access) = some r.access
  rw [parsed]
  rfl

/-- Only an instruction that names a variable takes an id by way of the stacktop id. -/
theorem indirections_of_not_namesVariable (names : i.namesVariable = false) (s : OperandStack) :
    i.indirections s = 0 := by
  rw [indirections, access?_of_not_namesVariable names]
  exact if_neg (by nofun)

end Instruction

/-- The instruction was given up. -/
def Flow.isRefusal : Flow → Bool
  | .refuse _ => true
  | _ => false

namespace Exec

variable {α β : Type} {c : Config} {natives : Natives} {i : Instruction} {env : Env}
  {values : List Value} {m n : Nat}

/-- What an action comes to that takes so many of the values off and puts new ones there. Where it
gives up or fails, the values below are still there. -/
inductive Moved (values : List Value) (count : Nat) (givesUp : α → Prop)
    (puts : α → List Value → Prop) : EStateM.Result RuntimeError Env α → Prop where
  | ok {a : α} {after : Env} (new : List Value) (enough : count ≤ values.length) (put : puts a new)
      (left : after.stack.values = new ++ values.drop count) :
      Moved values count givesUp puts (.ok a after)
  | givenUp {a : α} {after : Env} (given : givesUp a)
      (left : values.drop count <:+ after.stack.values) : Moved values count givesUp puts (.ok a after)
  | error {e : RuntimeError} {after : Env} (left : values.drop count <:+ after.stack.values) :
      Moved values count givesUp puts (.error e after)

/-- The action takes so many of the values off, or fails above the others. -/
abbrev Taken (values : List Value) (count : Nat) : EStateM.Result RuntimeError Env α → Prop :=
  Moved values count (fun _ => False) fun _ new => new = []

/-- The instruction takes so many of the values off and puts new ones there, unless it refuses or
fails above the others. -/
abbrev Effects (values : List Value) (count : Nat) (puts : Flow → List Value → Prop) :
    EStateM.Result RuntimeError Env Flow → Prop :=
  Moved values count (fun flow => flow.isRefusal) puts

/-! ### Sequences -/

/-- Values are taken off first; what is taken off next lies below them. -/
theorem Moved.bind {act : Exec α} {f : α → Exec β} {givesUp : β → Prop}
    {puts : β → List Value → Prop} (first : Taken env.stack.values m (act env))
    (rest : ∀ a after, act env = .ok a after → Moved after.stack.values n givesUp puts (f a after)) :
    Moved env.stack.values (m + n) givesUp puts ((act >>= f) env) := by
  cases acted : act env with
  | ok a between =>
      rw [Action.bind_of_ok acted]
      rw [acted] at first
      cases first with
      | ok new enough put left =>
          subst put
          have second := rest a between acted
          rw [left, List.nil_append] at second
          generalize f a between = result at second
          cases second with
          | ok new more put gone =>
              rw [List.length_drop] at more
              rw [List.drop_drop] at gone
              exact .ok new (by omega) put gone
          | givenUp given gone =>
              rw [List.drop_drop] at gone
              exact .givenUp given gone
          | error gone =>
              rw [List.drop_drop] at gone
              exact .error gone
      | givenUp given left => exact given.elim
  | error e between =>
      rw [Action.bind_of_error acted]
      rw [acted] at first
      cases first with
      | error left =>
          -- The second part was not reached, so what it would have taken is still there.
          have lower := List.drop_suffix n (env.stack.values.drop m)
          rw [List.drop_drop] at lower
          exact .error (lower.trans left)

/-- Less may be said of the values that were put. -/
theorem Moved.mono {result : EStateM.Result RuntimeError Env α} {givesUp : α → Prop}
    {puts puts' : α → List Value → Prop} (moved : Moved values n givesUp puts result)
    (weaker : ∀ a new, puts a new → puts' a new) : Moved values n givesUp puts' result := by
  cases moved with
  | ok new enough put left => exact .ok new enough (weaker _ _ put) left
  | givenUp given left => exact .givenUp given left
  | error left => exact .error left

/-- An action that leaves the stack alone takes nothing off. -/
theorem taken_of_keeps {act : Exec α} (kept : Action.Keeps Env.stack act) :
    Taken env.stack.values 0 (act env) := by
  have same := congrArg OperandStack.values (kept env)
  unfold Action.after at same
  generalize act env = result at same
  cases result with
  | ok a after => exact .ok [] (Nat.zero_le _) rfl same
  | error e after =>
      have left : env.stack.values <:+ after.stack.values := by
        rw [← same]
      exact .error left

/-! ### Taking values off -/

/-- The value on top comes off, or the action fails above the values under it. -/
theorem taken_onStack_take (f : Value → Except RuntimeError α) :
    Taken env.stack.values 1
      (onStack (do Action.ofExcept (f (← OperandStack.take))) env) := by
  obtain ⟨⟨values, room⟩, store, messages⟩ := env
  cases values with
  | nil => exact .error (List.suffix_refl _)
  | cons v below =>
      rw [onStack_take]
      cases f v with
      | ok a => exact .ok [] (Nat.le_add_left 1 _) rfl rfl
      | error e => exact .error (List.suffix_refl _)

theorem taken_pop (t : DataType) : Taken env.stack.values 1 (pop t env) :=
  taken_onStack_take _

theorem taken_popId : Taken env.stack.values 1 (popId env) :=
  taken_onStack_take _

theorem taken_fromStore (f : Store → Except RuntimeError α) :
    Taken env.stack.values 0 (fromStore f env) :=
  taken_of_keeps fun env => by rw [fromStore, after_onStore]

theorem taken_onStore (act : Action Store α) : Taken env.stack.values 0 (onStore act env) :=
  taken_of_keeps fun env => by rw [after_onStore]

theorem taken_ofExcept (r : Except RuntimeError α) :
    Taken env.stack.values 0 ((Action.ofExcept r : Exec α) env) :=
  taken_of_keeps (.ofExcept r)

theorem taken_pure (a : α) : Taken env.stack.values 0 ((pure a : Exec α) env) :=
  taken_of_keeps (.pure a)

theorem taken_required (fault : OperandFault) (a : Option α) :
    Taken env.stack.values 0 (required i fault a env) := by
  cases a with
  | some a => exact taken_pure a
  | none => exact taken_of_keeps (.throw _)

/-- A value, an index and an instance are three values, in either order. -/
theorem taken_popItemOperands : Taken env.stack.values 3 (popItemOperands i env) := by
  unfold popItemOperands
  split
  · exact (taken_pop _).bind fun _ _ _ => taken_popId.bind fun _ _ _ => taken_popId.bind fun _ _ _ =>
      taken_pure _
  · exact taken_popId.bind fun _ _ _ => taken_popId.bind fun _ _ _ => (taken_pop _).bind fun _ _ _ =>
      taken_pure _

/-- The reserved stacktop id stands for the id below it. -/
theorem taken_popStacktopId :
    Taken env.stack.values (1 + if env.stack.marksStacktop then 1 else 0) (popStacktopId env) := by
  refine taken_popId.bind fun id after popped => ?_
  have marks : env.stack.marksStacktop = decide (id = Reserved.stacktop) := by
    obtain ⟨⟨values, room⟩, store, messages⟩ := env
    cases values with
    | nil => cases popped
    | cons v below =>
        obtain ⟨reads, -⟩ := popId_eq_ok_iff.mp popped
        simp only [OperandStack.marksStacktop, OperandStack.top?, List.head?_cons, Option.bind_some,
          reads]
        rfl
  rw [marks]
  by_cases reserved : id = Reserved.stacktop
  · simp only [reserved, if_true, decide_true]
    exact taken_popId
  · simp only [reserved, if_false, decide_false]
    exact taken_pure id

/-- All the arguments come off, or none of them does. -/
theorem taken_takeMany (count : Nat) :
    Taken env.stack.values count (onStack (OperandStack.takeMany count) env) := by
  obtain ⟨⟨values, room⟩, store, messages⟩ := env
  by_cases few : (values.take count).length < count
  · simp only [onStack, OperandStack.takeMany, few, if_true]
    exact .error (List.drop_suffix _ _)
  · simp only [onStack, OperandStack.takeMany, few, if_false]
    rw [List.length_take] at few
    have enough : count ≤ values.length := by omega
    exact .ok [] enough rfl rfl

/-- The arguments are the values on top, in the order in which they come off. -/
theorem eq_take_of_takeMany {count : Nat} {arguments : Array Value} {after : Env}
    (taken : onStack (OperandStack.takeMany count) env = .ok arguments after) :
    arguments.toList = env.stack.values.take count := by
  obtain ⟨⟨values, room⟩, store, messages⟩ := env
  by_cases few : (values.take count).length < count
  · simp only [onStack, OperandStack.takeMany, few, if_true] at taken
    cases taken
  · simp only [onStack, OperandStack.takeMany, few, if_false] at taken
    cases taken
    rfl

/-! ### Putting values there -/

/-- So many values are put there, and no function is entered. -/
def PutsOnly (count : Nat) (flow : Flow) (new : List Value) : Prop :=
  new.length = count ∧ ∀ name arguments, flow ≠ .call name arguments

theorem putsOnly_next {new : List Value} (count : new.length = n) : PutsOnly n .next new := by
  refine ⟨count, ?_⟩
  intro name arguments entered
  cases entered

theorem effects_pure {puts : Flow → List Value → Prop} {flow : Flow} (put : puts flow []) :
    Effects env.stack.values 0 puts ((pure flow : Exec Flow) env) :=
  .ok [] (Nat.zero_le _) put rfl

theorem effects_next : Effects env.stack.values 0 (PutsOnly 0) ((pure .next : Exec Flow) env) :=
  effects_pure (putsOnly_next rfl)

theorem effects_return (v : Value) :
    Effects env.stack.values 0 (PutsOnly 0) ((pure (.ret v) : Exec Flow) env) :=
  effects_pure ⟨rfl, nofun⟩

theorem effects_pushNext (v : Value) : Effects env.stack.values 0 (PutsOnly 1) (pushNext v env) := by
  obtain ⟨⟨values, room⟩, store, messages⟩ := env
  cases room with
  | zero => exact .error (List.suffix_refl _)
  | succ room => exact .ok [v] (Nat.zero_le _) (putsOnly_next rfl) rfl

theorem effects_pushResult (r : Except RuntimeError Value) :
    Effects env.stack.values 0 (PutsOnly 1)
      ((do pushNext (← Action.ofExcept r) : Exec Flow) env) :=
  (taken_ofExcept r).bind fun v _ _ => effects_pushNext v

/-- The copies of the top values go on top of them, in the same order. -/
theorem effects_duplicate (count : Nat) :
    Effects env.stack.values 0
      (fun flow new => PutsOnly count flow new ∧ new = env.stack.values.take count)
      ((do onStack (OperandStack.dup count); return .next : Exec Flow) env) := by
  obtain ⟨⟨values, room⟩, store, messages⟩ := env
  simp only [bind, EStateM.bind, onStack, OperandStack.dup]
  by_cases few : (values.take count).length < count
  · simp only [few, if_true]
    exact .error (List.suffix_refl _)
  · by_cases fits : count ≤ room
    · simp only [few, fits, if_true, if_false]
      rw [List.length_take] at few
      have all : (values.take count).length = count := by
        rw [List.length_take]
        omega
      exact .ok _ (Nat.zero_le _) ⟨putsOnly_next all, rfl⟩ rfl
    · simp only [few, fits, if_false]
      exact .error (List.suffix_refl _)

/-- A duplication puts as many values as its count says, and one more. -/
theorem effects_dup :
    Effects env.stack.values 0
      (fun flow new => PutsOnly i.copies flow new ∧ new = env.stack.values.take i.copies)
      (Exec.dup i env) := by
  unfold Exec.dup
  by_cases negative : i.int?.getD 0 < 0
  · simp only [negative, if_true]
    exact .error (List.suffix_refl _)
  · simp only [negative, if_false]
    exact effects_duplicate i.copies

/-! ### Operators, branches and calls -/

theorem effects_pushLiteral : Effects env.stack.values 0 (PutsOnly 1) (pushLiteral i env) :=
  effects_pushResult _

theorem effects_binary : Effects env.stack.values 2 (PutsOnly 1) (binary i env) :=
  (taken_pop _).bind fun _ _ _ => (taken_pop _).bind fun _ _ _ => effects_pushResult _

theorem effects_unary (f : Value → Except RuntimeError Value) :
    Effects env.stack.values 1 (PutsOnly 1) (unary i f env) :=
  (taken_pop _).bind fun _ _ _ => effects_pushResult _

theorem effects_compare : Effects env.stack.values 2 (PutsOnly 1) (Exec.compare i env) :=
  (taken_required _ _).bind fun _ _ _ => (taken_pop _).bind fun _ _ _ => (taken_pop _).bind fun _ _ _ =>
    (taken_ofExcept _).bind fun _ _ _ => effects_pushNext _

theorem effects_discard : Effects env.stack.values 1 (PutsOnly 0) (discard i env) :=
  (taken_pop _).bind fun _ _ _ => effects_next

theorem effects_takeBranch : Effects env.stack.values 0 (PutsOnly 0) (takeBranch i env) := by
  unfold takeBranch
  split
  · exact effects_return _
  · exact (taken_required _ _).bind fun _ _ _ => effects_pure ⟨rfl, nofun⟩

theorem taken_popCondition : Taken env.stack.values 1 (popCondition env) := by
  refine Moved.bind (n := 0) (taken_pop _) fun v _ _ => ?_
  cases v <;> exact taken_pure _

/-- Taken or not, a branch on a condition takes the condition off. -/
theorem effects_branchIf (wanted : Bool) :
    Effects env.stack.values 1 (PutsOnly 0) (branchIf i wanted env) := by
  refine Moved.bind (n := 0) taken_popCondition fun b _ _ => ?_
  split
  · exact effects_takeBranch
  · exact effects_next

theorem effects_leave : Effects env.stack.values 1 (PutsOnly 0) (leave i env) :=
  (taken_pop _).bind fun v _ _ => effects_return v

/-- A native function puts its result, or fails. -/
theorem effects_runNative (native : Native) (name : String) (arguments : Array Value) :
    Effects env.stack.values 0 (PutsOnly 1) (runNative native name arguments env) := by
  let reply := native ⟨name, arguments, env.store.bindings.self?, env.store.instances⟩
  let replied : Env := { env with messages := env.messages ++ reply.messages }
  have effects : Effects replied.stack.values 0 (PutsOnly 1)
      ((do pushNext (← Action.ofExcept reply.result) : Exec Flow) replied) := effects_pushResult _
  exact effects

/-- A native function runs at once and leaves its result. Any other function is entered. -/
theorem effects_call :
    Effects env.stack.values i.arity
      (fun flow new => new.length = (if i.callsNative natives then 1 else 0) ∧
        i.Passes env.stack.values flow) (call natives i env) := by
  unfold call
  cases named : i.function? with
  | none => exact .error (List.drop_suffix _ _)
  | some name =>
      rw [required, pure_bind]
      refine Moved.bind (n := 0) (taken_takeMany _) fun arguments after taken => ?_
      have passed := eq_take_of_takeMany taken
      cases found : natives[name]? with
      | some native =>
          have calls : i.callsNative natives = true := by
            rw [Instruction.callsNative, named, Option.bind_some, found, Option.isSome_some]
          refine (effects_runNative native name arguments).mono fun flow new put => ?_
          rw [calls, if_pos rfl]
          exact ⟨put.1, fun name arguments entered => absurd entered (put.2 name arguments)⟩
      | none =>
          have calls : i.callsNative natives = false := by
            rw [Instruction.callsNative, named, Option.bind_some, found, Option.isSome_none]
          refine effects_pure ?_
          rw [calls]
          refine ⟨rfl, fun _ _ entered => ?_⟩
          cases entered
          exact ⟨named, passed⟩

/-! ### Loads and stores -/

/-- Softening does not touch the operand stack. -/
theorem Moved.soften {puts : Flow → List Value → Prop} {act : Exec Flow}
    (effects : Effects values n puts (act env)) : Effects values n puts (Exec.soften act env) := by
  unfold Exec.soften
  generalize act env = result at effects
  cases effects with
  | ok new enough put left => exact .ok new enough put left
  | givenUp given left => exact .givenUp given left
  | @error e after left =>
      cases e with
      | unsupportedAddressing scope access => exact .givenUp rfl left
      | _ => exact .error left

theorem effects_write {name : String} {value : Value} (find : Store → Except RuntimeError Place) :
    Effects env.stack.values 0 (PutsOnly 0)
      ((do
        let place ← fromStore find
        onStore (Store.write c place name value)
        return .next : Exec Flow) env) :=
  (taken_fromStore _).bind fun _ _ _ => (taken_onStore _).bind fun _ _ _ => effects_next

section NamesVariable

variable (names : i.namesVariable = true)

include names

/-- A variable operand that decodes has an access. -/
theorem effects_operand {act : VariableRef → Exec Flow} {puts : Flow → List Value → Prop}
    (rest : ∀ r, i.access? = some r.access → Effects env.stack.values n puts (act r env)) :
    Effects env.stack.values n puts ((variableOperand i >>= act) env) := by
  cases text : i.text? with
  | none =>
      simp only [variableOperand, text, required]
      exact .error (List.drop_suffix _ _)
  | some operand =>
      cases parsed : VariableRef.parse operand with
      | error e =>
          rw [Action.bind_of_error (variableOperand_of_refused text parsed env)]
          exact .error (List.drop_suffix _ _)
      | ok r =>
          rw [variableOperand_of_parse text parsed, pure_bind]
          exact rest r (Instruction.access?_of_parse names text parsed)

/-- A store takes its ids and the value off, however it addresses the variable. -/
theorem effects_storeVariable :
    Effects env.stack.values (i.idCount + i.indirections env.stack + 1) (PutsOnly 0)
      (storeVariable c i env) := by
  refine effects_operand names fun ⟨name, scope, access⟩ found => ?_
  simp only [Instruction.indirections, Instruction.idCount, found, Option.map_some, Option.getD_some]
  cases access with
  | plain =>
      cases scope with
      | statics => exact .givenUp rfl (List.drop_suffix _ _)
      | _ => exact (taken_pop _).bind fun _ _ _ => effects_write _
  | array =>
      exact taken_popItemOperands.bind fun _ _ _ => (taken_fromStore _).bind fun _ _ _ =>
        (taken_onStore _).bind fun _ _ _ => effects_next
  | stacktop =>
      cases scope with
      | self =>
          simp only [Access.idCount, true_and]
          exact taken_popStacktopId.bind fun _ _ _ => (taken_pop _).bind fun _ _ _ => effects_write _
      | _ => exact .givenUp rfl (List.drop_suffix _ _)
  | arrayPopAf | arrayPushAf => exact .givenUp rfl (List.drop_suffix _ _)

/-- A load takes its ids off and puts the value that it read. -/
theorem effects_loadVariable :
    Effects env.stack.values (i.idCount + i.indirections env.stack) (PutsOnly 1)
      (loadVariable c i env) := by
  refine effects_operand names fun ⟨name, scope, access⟩ found => ?_
  have read (env : Env) (place : Place) :
      Effects env.stack.values 0 (PutsOnly 1)
        ((do pushNext (← fromStore fun s => s.read place name) : Exec Flow) env) :=
    (taken_fromStore _).bind fun _ _ _ => effects_pushNext _
  simp only [Instruction.indirections, Instruction.idCount, found, Option.map_some, Option.getD_some]
  cases access with
  | plain =>
      cases scope with
      | statics => exact .givenUp rfl (List.drop_suffix _ _)
      | _ => exact (taken_fromStore _).bind fun _ _ _ => read _ _
  | array =>
      exact taken_popId.bind fun _ _ _ => taken_popId.bind fun _ _ _ =>
        (taken_fromStore _).bind fun _ _ _ => (taken_fromStore _).bind fun _ _ _ => effects_pushNext _
  | stacktop =>
      cases scope with
      | self =>
          simp only [Access.idCount, true_and]
          exact taken_popStacktopId.bind fun _ _ _ => (taken_fromStore _).bind fun _ _ _ => read _ _
      | _ => exact .givenUp rfl (List.drop_suffix _ _)
  | arrayPopAf | arrayPushAf => exact .givenUp rfl (List.drop_suffix _ _)

/-- A `pop` takes its ids and its value off; the encoding without meaning fails before that. -/
theorem effects_popVariable :
    Effects env.stack.values (i.idCount + 1 + i.indirections env.stack) (PutsOnly 0)
      (popVariable c i env) := by
  rw [Nat.add_right_comm]
  unfold popVariable
  split
  · exact .error (List.drop_suffix _ _)
  · exact (effects_storeVariable names).soften

end NamesVariable

/-! ### Instructions -/

section Instructions

variable {effect : StackEffect} (effect_eq : i.stackEffect natives = effect)

include effect_eq

/-- Only of a duplication and a call more is said than how many values they put there. -/
theorem Moved.puts {result : EStateM.Result RuntimeError Env Flow} (other : i.opcode ≠ .dup)
    (effects : Effects env.stack.values (effect.taken + i.indirections env.stack)
      (PutsOnly effect.pushed) result) :
    Effects env.stack.values (i.takenFrom natives env.stack) (i.Puts natives env.stack.values)
      result := by
  rw [Instruction.takenFrom, effect_eq]
  refine effects.mono fun flow new put => ?_
  rw [← effect_eq] at put
  exact ⟨put.1, fun eq => absurd eq other,
    fun name arguments entered => absurd entered (put.2 name arguments)⟩

/-- An effect of an instruction that neither duplicates nor names a variable needs no more than the
counts. -/
theorem Moved.putsPlain {result : EStateM.Result RuntimeError Env Flow} (other : i.opcode ≠ .dup)
    (nameless : i.namesVariable = false)
    (effects : Effects env.stack.values effect.taken (PutsOnly effect.pushed) result) :
    Effects env.stack.values (i.takenFrom natives env.stack) (i.Puts natives env.stack.values)
      result := by
  refine Moved.puts effect_eq other ?_
  rw [Instruction.indirections_of_not_namesVariable nameless]
  exact effects

end Instructions

/-- A push loads a variable, or it puts a literal there. -/
theorem effects_pushInstruction (named : i.namesVariable = (i.typeOne == .untyped)) :
    Effects env.stack.values (i.idCount + i.indirections env.stack) (PutsOnly 1) (push c i env) := by
  unfold push
  by_cases typed : i.typeOne = .untyped
  · rw [if_pos typed]
    have names : i.namesVariable = true := by
      rw [named, typed]
      rfl
    exact (effects_loadVariable names).soften
  · rw [if_neg typed]
    have nameless : i.namesVariable = false := by
      rw [named]
      exact beq_false_of_ne typed
    rw [Instruction.idCount, Instruction.indirections_of_not_namesVariable nameless,
      Instruction.access?_of_not_namesVariable nameless]
    exact effects_pushLiteral

/-- Every instruction takes off and puts there what its effect says. -/
theorem effects_exec :
    Effects env.stack.values (i.takenFrom natives env.stack) (i.Puts natives env.stack.values)
      (exec c natives i env) := by
  obtain ⟨raw, opcode, one, two, text?, int?, double?, bool?, comparison?, toEnd, function?,
    argumentCount?⟩ := i
  cases opcode with
  | pop => exact (effects_popVariable rfl).puts rfl nofun
  | push | pushLocal | pushGlobal | pushBuiltin => exact (effects_pushInstruction rfl).puts rfl nofun
  | pushShort => exact effects_pushLiteral.putsPlain rfl nofun rfl
  | binary op => exact effects_binary.putsPlain rfl nofun rfl
  | neg => exact (effects_unary _).putsPlain rfl nofun rfl
  | not => exact (effects_unary _).putsPlain rfl nofun rfl
  | cmp => exact effects_compare.putsPlain rfl nofun rfl
  | conv => exact (effects_unary _).putsPlain rfl nofun rfl
  | dup =>
      refine effects_dup.mono fun flow new put => ?_
      exact ⟨put.1.1, fun _ => put.2,
        fun name arguments entered => absurd entered (put.1.2 name arguments)⟩
  | popz => exact effects_discard.putsPlain rfl nofun rfl
  | branch => exact effects_takeBranch.putsPlain rfl nofun rfl
  | branchTrue => exact (effects_branchIf true).putsPlain rfl nofun rfl
  | branchFalse => exact (effects_branchIf false).putsPlain rfl nofun rfl
  | call =>
      refine effects_call.mono fun flow new put => ?_
      exact ⟨put.1, nofun, put.2⟩
  | ret => exact effects_leave.putsPlain rfl nofun rfl
  | exit => exact (effects_return .undefined).putsPlain rfl nofun rfl

/-- An instruction that goes on, jumps, calls or returns has taken as many values off the operand stack
as its effect says, one more if it followed the reserved stacktop id, and put as many there as its
effect says: a duplication the top values in their order, and a call none, which passes the values
taken off as arguments. Whatever an instruction comes to, the values below are as they were, and so is
the limit of the stack. -/
theorem instruction_stack_effect (c : Config) (natives : Natives) (i : Instruction) (env : Env) :
    let taken := i.takenFrom natives env.stack
    (∀ flow after, exec c natives i env = .ok flow after → flow.isRefusal = false →
      taken ≤ env.stack.length ∧ ∃ new, i.Puts natives env.stack.values flow new ∧
        after.stack.values = new ++ env.stack.values.drop taken) ∧
      env.stack.values.drop taken <:+ ((exec c natives i).after env).stack.values ∧
        ((exec c natives i).after env).stack.limit = env.stack.limit := by
  intro taken
  have effects : Effects env.stack.values taken (i.Puts natives env.stack.values)
      (exec c natives i env) := effects_exec
  have limit : ((exec c natives i).after env).stack.limit = env.stack.limit :=
    congrArg Prod.fst (exec_keeps_fixed env)
  refine ⟨?_, ?_, limit⟩
  · intro flow after done proper
    rw [done] at effects
    cases effects with
    | ok new enough put left => exact ⟨enough, new, put, left⟩
    | givenUp given left => exact absurd given (by rw [proper]; nofun)
  · unfold Action.after
    generalize exec c natives i env = result at effects
    cases effects with
    | ok new enough put left => exact left ▸ List.suffix_append _ _
    | givenUp given left => exact left
    | error left => exact left

/-- A load by the id of the globals, which lies under the stacktop id: one value more is taken off than
by a load with the id on top. -/
theorem stack_effect_of_indirect_load :
    let gold := (∅ : Variables).insert "gold" (.int32 7)
    let store : Store := { bindings := {}, globals := gold, instances := .startingAt 100000 }
    let load := Instruction.pushVariable .push "[stacktop]self.gold"
    let ids : List Value := [.int32 Reserved.stacktop, .int32 Reserved.globals]
    let before : Env := ⟨⟨ids ++ [.int32 1], 0⟩, store, []⟩
    let after : Env := ⟨⟨[.int32 7, .int32 1], 1⟩, store, []⟩
    (exec {} ∅ load before = .ok .next after ∧ Flow.next.isRefusal = false) ∧
      load.stackEffect ∅ = ⟨1, 1⟩ ∧ load.takenFrom ∅ before.stack = 2 ∧
        ∃ new, load.Puts ∅ before.stack.values .next new ∧ after.stack.values = new ++ [.int32 1] := by
  intro gold store load ids before after
  have loads : exec {} ∅ load before = .ok .next after := rfl
  have effect : load.stackEffect ∅ = ⟨1, 1⟩ := rfl
  have taken : load.takenFrom ∅ before.stack = 2 := rfl
  obtain ⟨-, moved⟩ := (instruction_stack_effect {} ∅ load before).1 .next after loads rfl
  rw [taken] at moved
  exact ⟨⟨loads, rfl⟩, effect, taken, moved⟩

end Exec

end ScriptMachine
