import ScriptMachine.Proofs.Exec.Stores
import ScriptMachine.Proofs.Native.Standard

/-!
Disciplines. A discipline says what values and the parts of a store have to be like. It looks at two
runs at once, which have everything in common but the instances: of these it says how they are
related. What is said of one run is the case in which both have the same instances. Where reads and
writes keep to a discipline, every instruction does: from admitted environments it comes to the same,
what it leaves behind is admitted again, and it refuses exactly where storage is addressed in a way
that has no meaning.
-/

namespace ScriptMachine

/-- What values and the parts of a store have to be like in two runs. -/
structure Discipline where
  value : Value → Prop
  bindings : Bindings → Prop
  globals : Variables → Prop
  /-- How the instances of the two runs are related. -/
  instances : Registry → Registry → Prop

namespace Discipline

/-- Two stores that agree in all but the instances, which are related, and are like the discipline
says. -/
structure AdmitsStores (d : Discipline) (s t : Store) : Prop where
  bindings_eq : t.bindings = s.bindings
  globals_eq : t.globals = s.globals
  bindings : d.bindings s.bindings
  globals : d.globals s.globals
  instances : d.instances s.instances t.instances

structure AdmitsStack (d : Discipline) (limit : Nat) (s : OperandStack) : Prop where
  limit_eq : s.limit = limit
  values : ∀ v ∈ s.values, d.value v

/-- What an instruction works on in two runs. -/
structure AdmitsEnvs (d : Discipline) (limit : Nat) (env env' : Env) : Prop where
  stack_eq : env'.stack = env.stack
  messages_eq : env'.messages = env.messages
  stack : d.AdmitsStack limit env.stack
  store : d.AdmitsStores env.store env'.store

/-- Arguments that come off an operand stack of a limit. -/
structure AdmitsArguments (d : Discipline) (limit : Nat) (arguments : Array Value) : Prop where
  size_le : arguments.size ≤ limit
  values : ∀ v ∈ arguments, d.value v

/-- What an instruction may ask for. A refusal is about addressing. -/
def AdmitsFlow (d : Discipline) (limit : Nat) : Flow → Prop
  | .next | .jump _ => True
  | .call _ arguments => d.AdmitsArguments limit arguments
  | .ret value => d.value value
  | .refuse cause => cause.isAddressing

/-- A store that comes to the same in both runs and leaves admitted stores. -/
def AdmitsWrite (d : Discipline) (act : Action Store Unit) (s t : Store) : Prop :=
  Action.Alike d.AdmitsStores (fun _ => True) (fun _ => True) (act s) (act t)

/-- Reads and writes keep to the discipline, and every call can start. -/
structure Sound (d : Discipline) (c : Config) : Prop where
  scalar {v : Value} : v.items? = none → d.value v
  placeOfScope {s t : Store} (scope : Scope) :
    d.AdmitsStores s t → t.placeOfScope c scope = s.placeOfScope c scope
  placeOfId {s t : Store} (id : Int32) :
    d.AdmitsStores s t → t.placeOfId c id = s.placeOfId c id
  read {s t : Store} (place : Place) (name : String) :
    d.AdmitsStores s t →
      t.read place name = s.read place name ∧
        Answers d.value (fun _ => True) (s.read place name)
  readItem {s t : Store} (place : Place) (name : String) (index : Int64) :
    d.AdmitsStores s t →
      t.readItem place name index = s.readItem place name index ∧
        Answers d.value (fun _ => True) (s.readItem place name index)
  write {s t : Store} {v : Value} (place : Place) (name : String) :
    d.AdmitsStores s t → d.value v → d.AdmitsWrite (Store.write c place name v) s t
  writeItem {s t : Store} {v : Value} (place : Place) (name : String) (index : Int64) :
    d.AdmitsStores s t → d.value v → d.AdmitsWrite (Store.writeItem c place name index v) s t
  start {arguments : Array Value} (self? : Option InstanceId) :
    d.AdmitsArguments c.maxStackDepth arguments →
      d.bindings { arguments := arguments, self? := self?, other? := self? }

variable {d : Discipline} {c : Config} {limit : Nat} {α : Type}

/-! ### Operand stacks -/

section OperandStack

open OperandStack

/-- One operand stack, in both runs. -/
def Stacks (d : Discipline) (limit : Nat) (s t : OperandStack) : Prop :=
  t = s ∧ d.AdmitsStack limit s

/-- An admitted value may be put on top. -/
theorem respects_push {v : Value} (held : d.value v) :
    Action.Respects (d.Stacks limit) (fun _ => True) RuntimeError.IsOrdinary (push v) := by
  rintro ⟨values, room⟩ _ ⟨rfl, admitted⟩
  cases room with
  | zero => exact .error rfl ⟨rfl, admitted⟩
  | succ room =>
      have kept := (keeps_push v ⟨values, room + 1⟩).trans admitted.limit_eq
      exact .ok trivial ⟨rfl, kept, List.forall_mem_cons.mpr ⟨held, admitted.values⟩⟩

/-- What comes off an admitted stack is admitted. -/
theorem respects_take :
    Action.Respects (d.Stacks limit) d.value RuntimeError.IsOrdinary take := by
  rintro ⟨values, room⟩ _ ⟨rfl, admitted⟩
  cases values with
  | nil => exact .error rfl ⟨rfl, admitted⟩
  | cons v rest =>
      have kept := (keeps_take ⟨v :: rest, room⟩).trans admitted.limit_eq
      obtain ⟨first, others⟩ := List.forall_mem_cons.mp admitted.values
      exact .ok first ⟨rfl, kept, others⟩

/-- A conversion gives the value as it is, or no array. -/
theorem answers_convert (sound : d.Sound c) {v : Value} (held : d.value v) (t : DataType) :
    Answers d.value RuntimeError.IsOrdinary ((v.convert t).mapError .conversion) := by
  cases converted : v.convert t with
  | error e => rfl
  | ok w =>
      rcases Value.convert_cases converted with rfl | scalar
      · exact held
      · exact sound.scalar scalar

theorem respects_pop (sound : d.Sound c) (t : DataType) :
    Action.Respects (d.Stacks limit) d.value RuntimeError.IsOrdinary (pop t) :=
  respects_take.bind fun _ held => .ofExcept (answers_convert sound held t)

theorem respects_popAs [Extract α] :
    Action.Respects (d.Stacks limit) (fun _ => True) RuntimeError.IsOrdinary (popAs α) :=
  respects_take.bind fun _ _ => .ofExcept (answers_conversion _)

/-- Arguments come off the stack, so there are no more of them than its limit allows. -/
theorem respects_takeMany (count : Nat) :
    Action.Respects (d.Stacks limit) (d.AdmitsArguments limit) RuntimeError.IsOrdinary
      (takeMany count) := by
  rintro _ s ⟨rfl, admitted⟩
  have kept := (keeps_takeMany count s).trans admitted.limit_eq
  unfold Action.after at kept
  unfold takeMany at kept ⊢
  by_cases few : (s.values.take count).length < count
  · simp only [few, if_true]
    exact .error rfl ⟨rfl, admitted⟩
  · simp only [few, if_false] at kept ⊢
    refine .ok ⟨?_, ?_⟩ ⟨rfl, kept, fun v mem => admitted.values v (List.mem_of_mem_drop mem)⟩
    · have fits := admitted.limit_eq ▸ s.length_le_limit
      rw [List.size_toArray]
      exact Nat.le_trans (List.length_take_le' count s.values) fits
    · intro v mem
      exact admitted.values v (List.mem_of_mem_take (List.mem_toArray.mp mem))

/-- Values that are duplicated were admitted before. -/
theorem respects_dup (count : Nat) :
    Action.Respects (d.Stacks limit) (fun _ => True) RuntimeError.IsOrdinary (dup count) := by
  rintro _ s ⟨rfl, admitted⟩
  have kept := (keeps_dup count s).trans admitted.limit_eq
  unfold Action.after at kept
  unfold dup at kept ⊢
  by_cases few : (s.values.take count).length < count
  · simp only [few, if_true]
    exact .error rfl ⟨rfl, admitted⟩
  · by_cases fits : count ≤ s.room
    · simp only [few, fits, if_true, if_false] at kept ⊢
      refine .ok trivial ⟨rfl, kept, fun v mem => ?_⟩
      rcases List.mem_append.mp mem with copied | mem
      · exact admitted.values v (List.mem_of_mem_take copied)
      · exact admitted.values v mem
    · simp only [few, fits, if_false]
      exact .error rfl ⟨rfl, admitted⟩

end OperandStack

/-! ### Parts of the environment -/

section Env

open Exec

/-- The operand stack is the same in both runs, so an action on it comes to the same. -/
theorem respects_onStack {act : Action OperandStack α} {good : α → Prop}
    {bad : RuntimeError → Prop} (respects : Action.Respects (d.Stacks limit) good bad act) :
    Action.Respects (d.AdmitsEnvs limit) good bad (onStack act) := by
  rintro ⟨_, store, _⟩ ⟨stack, store', messages⟩ ⟨rfl, rfl, stack_admitted, store_admitted⟩
  refine (respects stack stack ⟨rfl, stack_admitted⟩).restore ?_
  rintro _ _ ⟨rfl, admitted⟩
  exact ⟨rfl, rfl, admitted, store_admitted⟩

/-- An action on the store keeps to the discipline if it does so on admitted stores. -/
theorem respects_onStore {act : Action Store α} {good : α → Prop} {bad : RuntimeError → Prop}
    (respects : Action.Respects d.AdmitsStores good bad act) :
    Action.Respects (d.AdmitsEnvs limit) good bad (onStore act) := by
  rintro ⟨_, store, _⟩ ⟨stack, store', messages⟩ ⟨rfl, rfl, stack_admitted, store_admitted⟩
  refine (respects store store' store_admitted).restore ?_
  intro store store' admitted
  exact ⟨rfl, rfl, stack_admitted, admitted⟩

/-- What is read off admitted stores has to be the same in both runs. -/
theorem respects_fromStore {f : Store → Except RuntimeError α} {good : α → Prop}
    (answers : ∀ s t, d.AdmitsStores s t → f t = f s ∧ Answers good (fun _ => True) (f s)) :
    Action.Respects (d.AdmitsEnvs limit) good (fun _ => True) (fromStore f) :=
  respects_onStore (.inspect answers)

theorem respects_place {f : Store → Except RuntimeError Place}
    (same : ∀ s t, d.AdmitsStores s t → f t = f s) :
    Action.Respects (d.AdmitsEnvs limit) (fun _ => True) (fun _ => True) (fromStore f) :=
  respects_fromStore fun s t admitted =>
    ⟨same s t admitted, answers_of_ok fun _ _ => trivial⟩

theorem respects_popValue (sound : d.Sound c) (t : DataType) :
    Action.Respects (d.AdmitsEnvs limit) d.value RuntimeError.IsOrdinary (Exec.pop t) :=
  respects_onStack (respects_pop sound t)

theorem respects_popId :
    Action.Respects (d.AdmitsEnvs limit) (fun _ => True) RuntimeError.IsOrdinary popId :=
  respects_onStack respects_popAs

theorem respects_pushNext {v : Value} (held : d.value v) :
    Action.Respects (d.AdmitsEnvs limit) (d.AdmitsFlow limit) RuntimeError.IsOrdinary
      (pushNext v) :=
  (respects_onStack (respects_push held)).bind fun _ _ => .pure trivial

theorem respects_required (i : Instruction) (fault : OperandFault) (a : Option α) :
    Action.Respects (d.AdmitsEnvs limit) (fun _ => True) RuntimeError.IsOrdinary
      (required i fault a) := by
  cases a with
  | some a => exact .pure trivial
  | none => exact .throw rfl

/-- A computed value may be pushed under every discipline. -/
theorem respects_pushComputed (sound : d.Sound c) {r : Except RuntimeError Value}
    (computed : Computed r) :
    Action.Respects (d.AdmitsEnvs limit) (d.AdmitsFlow limit) RuntimeError.IsOrdinary
      (do pushNext (← Action.ofExcept r)) :=
  (Action.Respects.ofExcept computed).bind fun _ scalar =>
    respects_pushNext (sound.scalar scalar)

end Env

/-! ### Loads and stores

Here an error may be about addressing: `soften` turns it into a refusal. -/

section Access

open Exec

theorem respects_variableOperand (i : Instruction) :
    Action.Respects (d.AdmitsEnvs limit) (fun _ => True) (fun _ => True) (variableOperand i) := by
  refine (respects_required i _ _).forget.bind fun text _ => .ofExcept ?_
  cases VariableRef.parse text <;> trivial

theorem respects_popStacktopId :
    Action.Respects (d.AdmitsEnvs limit) (fun _ => True) (fun _ => True) popStacktopId := by
  refine respects_popId.forget.bind fun id _ => ?_
  by_cases reserved : id = Reserved.stacktop
  · simp only [reserved, if_true]
    exact respects_popId.forget
  · simp only [reserved, if_false]
    exact .pure trivial

/-- Of the three operands of an item store only the value has to be admitted. -/
theorem respects_popItemOperands (sound : d.Sound c) (i : Instruction) :
    Action.Respects (d.AdmitsEnvs limit) (fun operands => d.value operands.1)
      RuntimeError.IsOrdinary (popItemOperands i) := by
  unfold popItemOperands
  split
  · refine (respects_popValue sound _).bind ?_
    intro value held
    exact respects_popId.bind fun index _ => respects_popId.bind fun object _ => .pure held
  · refine respects_popId.bind fun index _ => respects_popId.bind fun object _ => ?_
    refine (respects_popValue sound _).bind ?_
    intro value held
    exact .pure held

theorem respects_refusal (scope : Scope) (access : Access) :
    Action.Respects (d.AdmitsEnvs limit) (d.AdmitsFlow limit) (fun _ => True)
      (pure (refusal scope access)) :=
  .pure rfl

/-- A store keeps to the discipline: it writes an admitted value, to the same place in both runs. -/
theorem respects_storeVariable (sound : d.Sound c) (i : Instruction) :
    Action.Respects (d.AdmitsEnvs limit) (d.AdmitsFlow limit) (fun _ => True)
      (storeVariable c i) := by
  refine (respects_variableOperand i).bind ?_
  intro r _
  have write (place : Place) (value : Value) (held : d.value value) :
      Action.Respects (d.AdmitsEnvs limit) (d.AdmitsFlow limit) (fun _ => True)
        (do onStore (Store.write c place r.name value); return .next) :=
    (respects_onStore fun _ _ admitted => sound.write place r.name admitted held).bind
      fun _ _ => .pure trivial
  split
  · exact respects_refusal _ _
  · refine (respects_popValue sound _).forget.bind ?_
    intro value held
    refine (respects_place fun _ _ => sound.placeOfScope _).bind ?_
    intro place _
    exact write place value held
  · refine (respects_popItemOperands sound i).forget.bind ?_
    intro (value, index, object) held
    refine (respects_place fun _ _ => sound.placeOfId object).bind ?_
    intro place _
    exact (respects_onStore fun _ _ admitted => sound.writeItem place r.name _ admitted held).bind
      fun _ _ => .pure trivial
  · refine respects_popStacktopId.bind ?_
    intro id _
    refine (respects_popValue sound _).forget.bind ?_
    intro value held
    refine (respects_place fun _ _ => sound.placeOfId id).bind ?_
    intro place _
    exact write place value held
  · exact respects_refusal _ _

/-- A load keeps to the discipline: it pushes what was read, which is the same in both runs. -/
theorem respects_loadVariable (sound : d.Sound c) (i : Instruction) :
    Action.Respects (d.AdmitsEnvs limit) (d.AdmitsFlow limit) (fun _ => True)
      (loadVariable c i) := by
  refine (respects_variableOperand i).bind ?_
  intro r _
  have read (place : Place) :
      Action.Respects (d.AdmitsEnvs limit) (d.AdmitsFlow limit) (fun _ => True)
        (do pushNext (← fromStore fun s => s.read place r.name)) :=
    (respects_fromStore fun _ _ => sound.read place r.name).bind
      fun _ held => (respects_pushNext held).forget
  split
  · exact respects_refusal _ _
  · refine (respects_place fun _ _ => sound.placeOfScope _).bind ?_
    intro place _
    exact read place
  · refine respects_popId.forget.bind fun index _ => respects_popId.forget.bind fun object _ => ?_
    refine (respects_place fun _ _ => sound.placeOfId object).bind ?_
    intro place _
    exact (respects_fromStore fun _ _ => sound.readItem place r.name _).bind
      fun _ held => (respects_pushNext held).forget
  · refine respects_popStacktopId.bind ?_
    intro id _
    refine (respects_place fun _ _ => sound.placeOfId id).bind ?_
    intro place _
    exact read place
  · exact respects_refusal _ _

end Access

/-! ### Instructions -/

section Instructions

open Exec

/-- The action keeps to the discipline, and no error of it is about addressing. -/
def Governs (d : Discipline) (limit : Nat) (act : Exec Flow) : Prop :=
  Action.Respects (d.AdmitsEnvs limit) (d.AdmitsFlow limit) RuntimeError.IsOrdinary act

variable {i : Instruction}

/-- Softened, an action has no error about addressing left. -/
theorem governs_soften {act : Exec Flow}
    (respects : Action.Respects (d.AdmitsEnvs limit) (d.AdmitsFlow limit) (fun _ => True) act) :
    d.Governs limit (soften act) := by
  intro env env' admitted
  have outcome := respects env env' admitted
  unfold soften
  generalize act env = r, act env' = r' at outcome
  cases outcome with
  | ok held left => exact .ok held left
  | @error e _ _ held left =>
      cases e with
      | unsupportedAddressing scope access => exact .ok rfl left
      | _ => exact .error rfl left

theorem governs_popVariable (sound : d.Sound c) : d.Governs limit (popVariable c i) := by
  unfold popVariable
  split
  · exact .throw rfl
  · exact governs_soften (respects_storeVariable sound i)

theorem governs_pushLiteral (sound : d.Sound c) : d.Governs limit (pushLiteral i) :=
  respects_pushComputed sound i.computed_literal

theorem governs_push (sound : d.Sound c) : d.Governs limit (Exec.push c i) := by
  unfold Exec.push
  split
  · exact governs_soften (respects_loadVariable sound i)
  · exact governs_pushLiteral sound

theorem governs_binary (sound : d.Sound c) : d.Governs limit (binary i) :=
  (respects_popValue sound _).bind fun _ _ => (respects_popValue sound _).bind fun _ _ =>
    respects_pushComputed sound (Value.computed_apply _)

/-- An operator keeps to the discipline if it makes admitted values of admitted ones. -/
theorem governs_unary (sound : d.Sound c) {f : Value → Except RuntimeError Value}
    (computed : ∀ v, d.value v → Answers d.value RuntimeError.IsOrdinary (f v)) :
    d.Governs limit (unary i f) :=
  (respects_popValue sound _).bind fun v held =>
    (Action.Respects.ofExcept (computed v held)).bind fun _ held => respects_pushNext held

theorem governs_compare (sound : d.Sound c) : d.Governs limit (Exec.compare i) := by
  refine (respects_required i _ _).bind ?_
  intro comparison _
  refine (respects_popValue sound _).bind ?_
  intro rhs _
  refine (respects_popValue sound _).bind ?_
  intro lhs _
  exact (Action.Respects.ofExcept (answers_conversion _)).bind fun _ _ =>
    respects_pushNext (sound.scalar rfl)

/-- A duplication keeps to the discipline, also where its count is negative. -/
theorem governs_dup : d.Governs limit (Exec.dup i) := by
  have duplicate (count : Nat) : d.Governs limit (do onStack (OperandStack.dup count); return .next) :=
    (respects_onStack (respects_dup count)).bind fun _ _ => .pure trivial
  unfold Exec.dup
  by_cases negative : i.int?.getD 0 < 0
  · simp only [negative, if_true]
    have failed : Action.Respects (d.AdmitsEnvs limit) (fun _ => True) RuntimeError.IsOrdinary
        (throw (.malformed i.raw .negativeDupCount) : Exec PUnit) := .throw rfl
    exact failed.bind fun _ _ => duplicate _
  · simp only [negative, if_false]
    exact duplicate _

theorem governs_discard (sound : d.Sound c) : d.Governs limit (discard i) :=
  (respects_popValue sound _).bind fun _ _ => .pure trivial

theorem governs_takeBranch (sound : d.Sound c) : d.Governs limit (takeBranch i) := by
  unfold takeBranch
  split
  · exact .pure (sound.scalar rfl)
  · exact (respects_required i _ _).bind fun _ _ => .pure trivial

/-- A branch looks at the operand stack alone. -/
theorem governs_branchIf (sound : d.Sound c) (wanted : Bool) :
    d.Governs limit (branchIf i wanted) := by
  have condition : Action.Respects (d.AdmitsEnvs limit) (fun _ => True) RuntimeError.IsOrdinary
      popCondition := by
    refine (respects_popValue sound _).bind fun v _ => ?_
    cases v <;> exact .pure trivial
  refine condition.bind fun b _ => ?_
  split
  · exact governs_takeBranch sound
  · exact .pure trivial

/-- A standard native does not look at the instances, in which alone the two runs differ. -/
theorem governs_runNative (sound : d.Sound c) {native : Native} {name : String}
    (found : Native.standard[name]? = some native) (arguments : Array Value) :
    d.Governs limit (runNative native name arguments) := by
  rintro ⟨_, store, _⟩ ⟨stack, store', messages⟩ ⟨rfl, rfl, stack_admitted, store_admitted⟩
  let call : NativeCall := ⟨name, arguments, store.bindings.self?, store.instances⟩
  have same : native ⟨name, arguments, store'.bindings.self?, store'.instances⟩ = native call := by
    rw [store_admitted.bindings_eq]
    exact Native.blind_of_standard found call store'.instances
  have computed := Native.computed_of_standard found call
  simp only [runNative, same]
  exact respects_pushComputed sound computed _ _ ⟨rfl, rfl, stack_admitted, store_admitted⟩

/-- A call runs a standard native, or passes the arguments that it took off. -/
theorem governs_call (sound : d.Sound c) : d.Governs limit (call Native.standard i) := by
  refine (respects_required i _ _).bind ?_
  intro name _
  refine (respects_onStack (respects_takeMany _)).bind ?_
  intro arguments held
  cases found : Native.standard[name]? with
  | some native => exact governs_runNative sound found arguments
  | none => exact .pure held

theorem governs_leave (sound : d.Sound c) : d.Governs limit (leave i) :=
  (respects_popValue sound _).bind fun _ held => .pure held

/-- Under a sound discipline every instruction keeps to it, with the standard natives. -/
theorem governs_exec (sound : d.Sound c) (i : Instruction) :
    d.Governs limit (exec c Native.standard i) := by
  unfold exec
  cases i.opcode with
  | pop => exact governs_popVariable sound
  | push | pushLocal | pushGlobal | pushBuiltin => exact governs_push sound
  | pushShort => exact governs_pushLiteral sound
  | binary op => exact governs_binary sound
  | neg =>
      exact governs_unary sound fun _ _ =>
        Answers.mono Value.computed_negate (fun _ => sound.scalar) fun _ ordinary => ordinary
  | not =>
      exact governs_unary sound fun _ _ =>
        Answers.mono Value.computed_invert (fun _ => sound.scalar) fun _ ordinary => ordinary
  | cmp => exact governs_compare sound
  | conv => exact governs_unary sound fun v held => answers_convert sound held _
  | dup => exact governs_dup
  | popz => exact governs_discard sound
  | branch => exact governs_takeBranch sound
  | branchTrue => exact governs_branchIf sound true
  | branchFalse => exact governs_branchIf sound false
  | call => exact governs_call sound
  | ret => exact governs_leave sound
  | exit => exact .pure (sound.scalar rfl)

end Instructions

/-! ### One run -/

/-- What makes a discipline sound that admits only equal instances. -/
structure SingleSound (d : Discipline) (c : Config) : Prop where
  single {r r' : Registry} : d.instances r r' → r' = r
  scalar {v : Value} : v.items? = none → d.value v
  read {s : Store} {place : Place} {name : String} {v : Value} :
    d.AdmitsStores s s → s.read place name = .ok v → d.value v
  readItem {s : Store} {place : Place} {name : String} {index : Int64} {v : Value} :
    d.AdmitsStores s s → s.readItem place name index = .ok v → d.value v
  write {s : Store} {v : Value} (place : Place) (name : String) :
    d.AdmitsStores s s → d.value v →
      d.AdmitsStores ((Store.write c place name v).after s) ((Store.write c place name v).after s)
  writeItem {s : Store} {v : Value} (place : Place) (name : String) (index : Int64) :
    d.AdmitsStores s s → d.value v →
      d.AdmitsStores ((Store.writeItem c place name index v).after s)
        ((Store.writeItem c place name index v).after s)
  start {arguments : Array Value} (self? : Option InstanceId) :
    d.AdmitsArguments c.maxStackDepth arguments →
      d.bindings { arguments := arguments, self? := self?, other? := self? }

/-- Where only equal instances are admitted, the two runs are one. -/
theorem SingleSound.eq (single : d.SingleSound c) {s t : Store} (admitted : d.AdmitsStores s t) :
    t = s := by
  obtain ⟨bindings, globals, instances⟩ := t
  obtain ⟨rfl, rfl, -, -, related⟩ := admitted
  cases single.single related
  rfl

/-- For one run it is enough that what is read is admitted, and that what is written leaves admitted
stores. -/
theorem SingleSound.sound (single : d.SingleSound c) : d.Sound c where
  scalar := single.scalar
  placeOfScope scope admitted := by rw [single.eq admitted]
  placeOfId id admitted := by rw [single.eq admitted]
  read place name admitted := by
    cases single.eq admitted
    exact ⟨rfl, answers_of_ok fun _ => single.read admitted⟩
  readItem place name index admitted := by
    cases single.eq admitted
    exact ⟨rfl, answers_of_ok fun _ => single.readItem admitted⟩
  write place name admitted held := by
    cases single.eq admitted
    exact Action.alike_self (single.write place name admitted held)
  writeItem place name index admitted held := by
    cases single.eq admitted
    exact Action.alike_self (single.writeItem place name index admitted held)
  start := single.start

/-- The discipline that asks nothing of a run: what is left of it is how errors are classified. -/
def lax : Discipline where
  value _ := True
  bindings _ := True
  globals _ := True
  instances r r' := r' = r

/-- The lax discipline is sound whatever the settings are. -/
theorem lax_sound (c : Config) : lax.Sound c := by
  have single : lax.SingleSound c :=
    { single := id
      scalar := fun _ => trivial
      read := fun _ _ => trivial
      readItem := fun _ _ => trivial
      write := fun _ _ _ _ => ⟨rfl, rfl, trivial, trivial, rfl⟩
      writeItem := fun _ _ _ _ _ => ⟨rfl, rfl, trivial, trivial, rfl⟩
      start := fun _ _ => trivial }
  exact single.sound

/-- Every environment is admitted by the lax discipline. -/
theorem lax_admitsEnvs (env : Env) : lax.AdmitsEnvs env.stack.limit env env :=
  ⟨rfl, rfl, ⟨rfl, fun _ _ => trivial⟩, ⟨rfl, rfl, trivial, trivial, rfl⟩⟩

end Discipline

end ScriptMachine
