import ScriptMachine.Proofs.Exec.Stores
import ScriptMachine.Proofs.Storage.Selection
import ScriptMachine.Proofs.Value.Conversion

/-!
Loads and stores, one access at a time: what is left to do once the operand is decoded and the ids
are off the operand stack. That depends on neither, so an id on the stack does what the same id in
the operand does.
-/

namespace ScriptMachine

/-- `pop.<one>.<two> <operand>`, whatever else the instruction carries. -/
structure Instruction.IsStore (i : Instruction) (one two : DataType) (operand : String) : Prop where
  opcode : i.opcode = .pop
  typeOne : i.typeOne = one
  typeTwo : i.typeTwo = two
  text : i.text? = some operand

/-- `push.v <operand>` or a relative of it, whatever else the instruction carries. -/
structure Instruction.IsLoad (i : Instruction) (operand : String) : Prop where
  opcode : i.opcode ∈ [Opcode.push, .pushLocal, .pushGlobal, .pushBuiltin]
  typeOne : i.typeOne = .untyped
  text : i.text? = some operand

theorem Instruction.isStore_pop (one two : DataType) (operand : String) :
    (Instruction.pop one two operand).IsStore one two operand :=
  ⟨rfl, rfl, rfl, rfl⟩

theorem Instruction.isLoad_pushVariable (operand : String) :
    (Instruction.pushVariable .push operand).IsLoad operand :=
  ⟨List.mem_cons_self, rfl, rfl⟩

/-- Every access can be written in front of the running instance. -/
theorem VariableRef.parse_self (access : Access) {name : String} (named : name ≠ "") :
    parse (access.marker ++ "self." ++ name) = .ok ⟨name, .self, access⟩ := by
  have denotes : Scope.Denotes "self".toList .self := .word (by decide)
  have splits : Splits (access.marker ++ "self." ++ name) access "self" name := by
    refine ⟨?_, by decide, ⟨_, denotes⟩, named⟩
    have word : "self." = "self" ++ "." := by decide
    rw [word, ← String.append_assoc]
  exact splits.parse denotes

namespace Exec

variable {c : Config} {natives : Natives} {i : Instruction} {operand name : String}
  {one two t : DataType} {below : List Value} {room : Nat} {store : Store} {messages : List String}
  {after : Env}

/-! ### Parts of an instruction -/

/-- A softened action goes on exactly where the action itself does. -/
theorem soften_eq_next_iff {act : Exec Flow} {env : Env} :
    soften act env = .ok .next after ↔ act env = .ok .next after := by
  unfold soften
  cases act env with
  | ok flow left => rfl
  | error e left => cases e <;> exact ⟨nofun, nofun⟩

theorem pure_eq_next_iff {env : Env} :
    (pure .next : Exec Flow) env = .ok .next after ↔ after = env := by
  constructor
  · rintro ⟨⟩
    rfl
  · rintro rfl
    rfl

/-- What is read off the store leaves everything as it is. -/
theorem fromStore_eq_ok_iff {α : Type} {f : Store → Except RuntimeError α} {a : α} {env : Env} :
    fromStore f env = .ok a after ↔ f env.store = .ok a ∧ after = env := by
  simp only [fromStore, onStore, Action.inspect]
  cases f env.store with
  | ok b =>
      constructor
      · rintro ⟨⟩
        exact ⟨rfl, rfl⟩
      · rintro ⟨⟨⟩, rfl⟩
        rfl
  | error e =>
      constructor
      · rintro ⟨⟩
      · rintro ⟨⟨⟩, -⟩

/-- A change of the store leaves the operand stack and the messages alone. -/
theorem onStore_eq_ok_iff {act : Action Store Unit} {done : Unit} {env : Env} :
    onStore act env = .ok done after ↔
      ∃ left, act env.store = .ok () left ∧ after = { env with store := left } := by
  simp only [onStore]
  cases act env.store with
  | ok _ left =>
      constructor
      · rintro ⟨⟩
        exact ⟨left, rfl, rfl⟩
      · rintro ⟨_, ⟨⟩, rfl⟩
        rfl
  | error e left =>
      constructor
      · rintro ⟨⟩
      · rintro ⟨_, ⟨⟩, -⟩

/-! ### Taking operands off the stack -/

/-- The value taken off is gone, whether it can be read or not. -/
theorem onStack_take {α : Type} (f : Value → Except RuntimeError α) (v : Value) :
    onStack (do Action.ofExcept (f (← OperandStack.take))) ⟨⟨v :: below, room⟩, store, messages⟩
      = Action.ofExcept (f v) ⟨⟨below, room + 1⟩, store, messages⟩ := by
  have taken : (do Action.ofExcept (f (← OperandStack.take)) : Action OperandStack α)
      ⟨v :: below, room⟩ = Action.ofExcept (f v) ⟨below, room + 1⟩ := rfl
  simp only [onStack, taken]
  cases f v <;> rfl

theorem ofExcept_eq_ok_iff {α : Type} (r : Except ConversionError α) {a : α} {env : Env} :
    (Action.ofExcept (r.mapError .conversion) : Exec α) env = .ok a after ↔
      r = .ok a ∧ after = env := by
  cases r with
  | ok b =>
      constructor
      · rintro ⟨⟩
        exact ⟨rfl, rfl⟩
      · rintro ⟨⟨⟩, rfl⟩
        rfl
  | error e =>
      constructor
      · rintro ⟨⟩
      · rintro ⟨⟨⟩, -⟩

theorem popId_cons (v : Value) :
    popId ⟨⟨v :: below, room⟩, store, messages⟩
      = Action.ofExcept ((v.extract Int32).mapError .conversion)
          ⟨⟨below, room + 1⟩, store, messages⟩ :=
  onStack_take _ v

theorem pop_cons (t : DataType) (v : Value) :
    pop t ⟨⟨v :: below, room⟩, store, messages⟩
      = Action.ofExcept ((v.convert t).mapError .conversion)
          ⟨⟨below, room + 1⟩, store, messages⟩ :=
  onStack_take _ v

/-- An id comes off exactly if the top value reads as one. -/
theorem popId_eq_ok_iff {v : Value} {n : Int32} :
    popId ⟨⟨v :: below, room⟩, store, messages⟩ = .ok n after ↔
      v.extract Int32 = .ok n ∧ after = ⟨⟨below, room + 1⟩, store, messages⟩ := by
  rw [popId_cons]
  exact ofExcept_eq_ok_iff _

/-- A typed value comes off exactly if the top value converts to the type. -/
theorem pop_eq_ok_iff {v w : Value} :
    pop t ⟨⟨v :: below, room⟩, store, messages⟩ = .ok w after ↔
      v.convert t = .ok w ∧ after = ⟨⟨below, room + 1⟩, store, messages⟩ := by
  rw [pop_cons]
  exact ofExcept_eq_ok_iff _

/-- The values on top of a stack that a stacktop access takes for an id: the id itself, or the
reserved stacktop id and the id under it. -/
inductive StackedId (id : Int32) : List Value → Prop where
  | direct {v : Value} (reads : v.extract Int32 = .ok id) (other : id ≠ Reserved.stacktop) :
      StackedId id [v]
  | indirect {v w : Value} (marks : v.extract Int32 = .ok Reserved.stacktop)
      (reads : w.extract Int32 = .ok id) : StackedId id [v, w]

/-- The id of a stacktop access comes off with the reserved id that marks it. -/
theorem popStacktopId_of_stackedId {id : Int32} {ids : List Value} (stacked : StackedId id ids) :
    popStacktopId ⟨⟨ids ++ below, room⟩, store, messages⟩
      = .ok id ⟨⟨below, room + ids.length⟩, store, messages⟩ := by
  cases stacked with
  | direct reads other =>
      rw [popStacktopId, List.singleton_append,
        Action.bind_of_ok (popId_eq_ok_iff.mpr ⟨reads, rfl⟩), if_neg other]
      rfl
  | indirect marks reads =>
      rw [popStacktopId, List.cons_append, List.singleton_append,
        Action.bind_of_ok (popId_eq_ok_iff.mpr ⟨marks, rfl⟩), if_pos rfl]
      exact popId_eq_ok_iff.mpr ⟨reads, rfl⟩

/-! ### Decoded accesses -/

/-- An operand that can be decoded is decoded without effect. -/
theorem variableOperand_of_parse {r : VariableRef} (text : i.text? = some operand)
    (parsed : VariableRef.parse operand = .ok r) : variableOperand i = pure r := by
  simp only [variableOperand, text, required, pure_bind, parsed]
  rfl

/-- An operand that cannot be decoded stops the instruction before anything is taken off. -/
theorem variableOperand_of_refused {e : RuntimeError} (text : i.text? = some operand)
    (refused : VariableRef.parse operand = .error e) (env : Env) :
    variableOperand i env = .error e env := by
  simp only [variableOperand, text, required, pure_bind, refused]
  rfl

/-- Stores the top value in a variable of a place that is found only then. -/
def storeAt (c : Config) (find : Store → Except RuntimeError Place) (name : String) (t : DataType) :
    Exec Flow := do
  let value ← pop t
  let place ← fromStore find
  onStore (Store.write c place name value)
  return .next

/-- Pushes the value of a variable of a place that is yet to be found. -/
def loadAt (find : Store → Except RuntimeError Place) (name : String) : Exec Flow := do
  let place ← fromStore find
  pushNext (← fromStore fun s => s.read place name)

theorem exec_of_isStore (isStore : i.IsStore one two operand) (meant : one ≠ .int16) :
    exec c natives i = soften (storeVariable c i) := by
  rw [← isStore.typeOne] at meant
  rw [exec, isStore.opcode]
  exact if_neg meant

theorem exec_of_isLoad (isLoad : i.IsLoad operand) :
    exec c natives i = soften (loadVariable c i) := by
  have loads : push c i = soften (loadVariable c i) := if_pos isLoad.typeOne
  rw [← loads]
  have opcode := isLoad.opcode
  simp only [List.mem_cons, List.not_mem_nil, or_false] at opcode
  rcases opcode with opcode | opcode | opcode | opcode <;> rw [exec, opcode]

section Plain

variable {scope : Scope} (parsed : VariableRef.parse operand = .ok ⟨name, scope, .plain⟩)
  (modelled : scope ≠ .statics)

include parsed modelled

/-- A plain store takes the value off first and finds the place of its scope then. -/
theorem exec_plain_store (isStore : i.IsStore one two operand) (meant : one ≠ .int16) :
    exec c natives i = soften (storeAt c (fun s => s.placeOfScope c scope) name two) := by
  rw [exec_of_isStore isStore meant, storeVariable, variableOperand_of_parse isStore.text parsed,
    pure_bind, isStore.typeTwo]
  cases scope with
  | statics => exact absurd rfl modelled
  | _ => rfl

/-- A plain load finds the place of its scope and reads it. -/
theorem exec_plain_load (isLoad : i.IsLoad operand) :
    exec c natives i = soften (loadAt (fun s => s.placeOfScope c scope) name) := by
  rw [exec_of_isLoad isLoad, loadVariable, variableOperand_of_parse isLoad.text parsed, pure_bind]
  cases scope with
  | statics => exact absurd rfl modelled
  | _ => rfl

end Plain

/-- Once the first part has succeeded, only the rest can be softened. -/
theorem soften_of_bind_ok {α : Type} {act : Exec α} {f : α → Exec Flow} {env env' : Env} {a : α}
    (acted : act env = .ok a env') : soften (act >>= f) env = soften (f a) env' := by
  simp only [soften, Action.bind_of_ok acted]

section Stacktop

variable {id : Int32} {ids : List Value}
  (parsed : VariableRef.parse operand = .ok ⟨name, .self, .stacktop⟩) (stacked : StackedId id ids)

include parsed stacked

/-- A stacktop store takes its id off, and is then a store in the place of that id. -/
theorem exec_stacktop_store (isStore : i.IsStore one two operand) (meant : one ≠ .int16) :
    exec c natives i ⟨⟨ids ++ below, room⟩, store, messages⟩
      = soften (storeAt c (fun s => s.placeOfId c id) name two)
          ⟨⟨below, room + ids.length⟩, store, messages⟩ := by
  rw [exec_of_isStore isStore meant, storeVariable, variableOperand_of_parse isStore.text parsed,
    pure_bind, isStore.typeTwo]
  exact soften_of_bind_ok (popStacktopId_of_stackedId stacked)

/-- A stacktop load takes its id off, and is then a load from the place of that id. -/
theorem exec_stacktop_load (isLoad : i.IsLoad operand) :
    exec c natives i ⟨⟨ids ++ below, room⟩, store, messages⟩
      = soften (loadAt (fun s => s.placeOfId c id) name)
          ⟨⟨below, room + ids.length⟩, store, messages⟩ := by
  rw [exec_of_isLoad isLoad, loadVariable, variableOperand_of_parse isLoad.text parsed, pure_bind]
  exact soften_of_bind_ok (popStacktopId_of_stackedId stacked)

end Stacktop

/-- An id on the operand stack, under the reserved stacktop id or not, does what the same id in the
operand does: with the id taken off first, a stacktop store or load comes to the same as a plain one,
whatever is left on the stack. -/
theorem stacktop_access_eq_plain (c : Config) (natives : Natives) {name context : String}
    {id : Int32} {ids : List Value} (named : name ≠ "")
    (written : Text.Numeral context.toList id.toInt) (modelled : id ≠ Reserved.statics)
    (stacked : StackedId id ids) (below : List Value) (room : Nat) (store : Store)
    (messages : List String) :
    (∀ t i j, i.IsStore .untyped t ("[stacktop]self." ++ name) →
      j.IsStore .untyped t (context ++ "." ++ name) →
        exec c natives i ⟨⟨ids ++ below, room⟩, store, messages⟩
          = exec c natives j ⟨⟨below, room + ids.length⟩, store, messages⟩) ∧
      ∀ i j, i.IsLoad ("[stacktop]self." ++ name) → j.IsLoad (context ++ "." ++ name) →
        exec c natives i ⟨⟨ids ++ below, room⟩, store, messages⟩
          = exec c natives j ⟨⟨below, room + ids.length⟩, store, messages⟩ := by
  have indirect : VariableRef.parse ("[stacktop]self." ++ name) = .ok ⟨name, .self, .stacktop⟩ :=
    VariableRef.parse_self .stacktop named
  have direct := VariableRef.parse_numeral written named
  have allowed := Scope.ofId_ne_statics modelled
  have same : (fun s : Store => s.placeOfId c id) = fun s => s.placeOfScope c (Scope.ofId id) :=
    funext fun s => s.placeOfId_eq_placeOfScope c modelled
  constructor
  · intro t i j stacktop plain
    rw [exec_stacktop_store indirect stacked stacktop nofun, exec_plain_store direct allowed plain nofun,
      same]
  · intro i j stacktop plain
    rw [exec_stacktop_load indirect stacked stacktop, exec_plain_load direct allowed plain, same]

/-- The id of the globals, under the stacktop id: a store and a load of a global variable. -/
theorem stacktop_access_of_global :
    let store : Store := { bindings := {}, instances := .startingAt 100000 }
    let stored := { store with globals := (∅ : Variables).insert "gold" (.int32 7) }
    let ids : List Value := [.int32 Reserved.stacktop, .int32 Reserved.globals]
    ("gold" ≠ "" ∧ Text.Numeral "-5".toList Reserved.globals.toInt ∧
      Reserved.globals ≠ Reserved.statics ∧ StackedId Reserved.globals ids) ∧
    exec {} ∅ (Instruction.pop .untyped .untyped "[stacktop]self.gold")
        ⟨⟨ids ++ [.int32 7], 0⟩, store, []⟩ = .ok .next ⟨⟨[], 3⟩, stored, []⟩ ∧
      exec {} ∅ (Instruction.pushVariable .push "[stacktop]self.gold") ⟨⟨ids ++ [], 0⟩, stored, []⟩
        = .ok .next ⟨⟨[.int32 7], 1⟩, stored, []⟩ := by
  intro store stored ids
  have named : "gold" ≠ "" := by decide
  have written : Text.Numeral "-5".toList Reserved.globals.toInt :=
    .minus ⟨by decide, List.all_eq_true.mp (by decide)⟩
  have modelled : Reserved.globals ≠ Reserved.statics := by decide
  have stacked : StackedId Reserved.globals ids :=
    .indirect (Value.extract_int32 _) (Value.extract_int32 _)
  have stores := (stacktop_access_eq_plain {} ∅ named written modelled stacked [.int32 7] 0 store []).1
    .untyped _ _ (Instruction.isStore_pop _ _ _) (Instruction.isStore_pop _ _ _)
  have loads := (stacktop_access_eq_plain {} ∅ named written modelled stacked [] 0 stored []).2
    _ _ (Instruction.isLoad_pushVariable _) (Instruction.isLoad_pushVariable _)
  exact ⟨⟨named, written, modelled, stacked⟩, stores.trans rfl, loads.trans rfl⟩

end Exec

end ScriptMachine
