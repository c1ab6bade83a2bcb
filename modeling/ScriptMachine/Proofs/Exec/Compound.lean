import ScriptMachine.Proofs.Exec.ItemStore
import ScriptMachine.Proofs.Exec.Literal

/-!
Straight-line code. Each of these instructions goes on exactly under a condition on the top of its
operand stack, and then its effect is known exactly. A compound assignment duplicates the instance
and the index of an item, loads the item, combines it with a literal and stores the result; so it
changes the item that it loaded, and nothing else.
-/

namespace ScriptMachine

/-- Executes instructions one after the other, as long as each of them goes on. -/
def execAll (c : Config) (natives : Natives) : List Instruction → Exec Flow
  | [] => return .next
  | i :: rest => do
      match ← exec c natives i with
      | .next => execAll c natives rest
      | flow => return flow

namespace Store

/-- The item of an array variable that an instance id and an index off the operand stack address. -/
structure Addresses (c : Config) (s : Store) (name : String) (object index : Value)
    (place : Place) (items : Array Value) (position : Nat) (item : Value) : Prop where
  object : ∃ id, object.extract Int32 = .ok id ∧ s.placeOfId c id = .ok place
  index : ∃ n : Int32, index.extract Int32 = .ok n ∧ n.toInt = position
  array : s.read place name = .ok (.array items)
  found : items[position]? = some item

/-- Ids address one item at most. -/
theorem Addresses.unique {c : Config} {s : Store} {name : String} {object index item item' : Value}
    {place place' : Place} {items items' : Array Value} {position position' : Nat}
    (first : s.Addresses c name object index place items position item)
    (second : s.Addresses c name object index place' items' position' item') :
    place' = place ∧ items' = items ∧ position' = position ∧ item' = item := by
  obtain ⟨⟨id, ofObject, selected⟩, ⟨n, atIndex, reads⟩, array, found⟩ := first
  obtain ⟨⟨id', ofObject', selected'⟩, ⟨n', atIndex', reads'⟩, array', found'⟩ := second
  cases ofObject.symm.trans ofObject'
  cases selected.symm.trans selected'
  cases atIndex.symm.trans atIndex'
  cases array.symm.trans array'
  obtain rfl : position' = position := by omega
  cases found.symm.trans found'
  exact ⟨rfl, rfl, rfl, rfl⟩

end Store

/-- `<op>.v.v`, whatever else the instruction carries. -/
structure Instruction.IsBinary (i : Instruction) (op : BinaryOp) : Prop where
  opcode : i.opcode = .binary op
  typeOne : i.typeOne = .untyped
  typeTwo : i.typeTwo = .untyped

namespace Exec

variable {c : Config} {natives : Natives} {i : Instruction} {operand name : String}
  {below : List Value} {room : Nat} {store : Store} {messages : List String} {after : Env}
  {v index object : Value}

/-- An instruction that goes on leaves the rest to the instructions behind it. -/
theorem execAll_cons_of_next {rest : List Instruction} {env between : Env}
    (done : exec c natives i env = .ok .next between) :
    execAll c natives (i :: rest) env = execAll c natives rest between := by
  rw [execAll, Action.bind_of_ok done]

/-- Code goes on exactly if its first instruction does and then the code behind it. -/
theorem execAll_cons_next_iff {rest : List Instruction} {env : Env} :
    execAll c natives (i :: rest) env = .ok .next after ↔
      ∃ between, exec c natives i env = .ok .next between ∧
        execAll c natives rest between = .ok .next after := by
  rw [execAll, Action.bind_eq_ok_iff]
  constructor
  · rintro ⟨flow, between, done, others⟩
    cases flow with
    | next => exact ⟨between, done, others⟩
    | _ => cases others
  · rintro ⟨between, done, others⟩
    exact ⟨.next, between, done, others⟩

/-- A single instruction as code comes to what it comes to on its own. -/
theorem execAll_singleton (i : Instruction) : execAll c natives [i] = exec c natives i := by
  funext env
  simp only [execAll, bind, EStateM.bind]
  cases exec c natives i env with
  | ok flow after => cases flow <;> rfl
  | error e after => rfl

/-! ### One instruction -/

/-- `dup.<t> <n>` needs room for the values that it duplicates. -/
theorem exec_dup_next_iff (top : List Value) {n : Int64} (opcode : i.opcode = .dup)
    (extra : i.int? = some n) (reached : 0 ≤ n.toInt) (counted : top.length = n.toInt.toNat + 1) :
    exec c natives i ⟨⟨top ++ below, room⟩, store, messages⟩ = .ok .next after ↔
      ∃ left, room = left + top.length ∧
        after = ⟨⟨top ++ (top ++ below), left⟩, store, messages⟩ := by
  have nonnegative : ¬ n < 0 := by
    rw [index_lt_zero_iff]
    omega
  have duplicates : exec c natives i = (do onStack (OperandStack.dup top.length); return .next) := by
    rw [exec, opcode, counted]
    simp only [dup, extra, Option.getD_some, if_neg nonnegative]
  have taken : (top ++ below).take top.length = top := List.take_left
  rw [duplicates, Action.bind_eq_ok_iff]
  simp only [onStack, OperandStack.dup, taken, lt_irrefl, if_false]
  split
  · rename_i fits
    constructor
    · rintro ⟨_, _, ⟨⟩, ⟨⟩⟩
      exact ⟨room - top.length, (Nat.sub_add_cancel fits).symm, rfl⟩
    · rintro ⟨left, rfl, rfl⟩
      rw [Nat.add_sub_cancel]
      exact ⟨(), _, rfl, rfl⟩
  · rename_i full
    constructor
    · rintro ⟨_, _, ⟨⟩, -⟩
    · rintro ⟨left, rfl, -⟩
      exact absurd (Nat.le_add_left _ left) full

theorem exec_literal_next_iff (isLiteral : i.IsLiteral v) :
    exec c natives i ⟨⟨below, room + 1⟩, store, messages⟩ = .ok .next after ↔
      after = ⟨⟨v :: below, room⟩, store, messages⟩ := by
  rw [exec_of_isLiteral isLiteral, pushNext_next_iff]

/-- A binary operator goes on exactly if it has a value for the two on top, and leaves that value for
them. -/
theorem exec_binary_next_iff {op : BinaryOp} (isBinary : i.IsBinary op) {lhs rhs : Value} :
    exec c natives i ⟨⟨rhs :: lhs :: below, room⟩, store, messages⟩ = .ok .next after ↔
      ∃ result, Value.apply (.binary op) lhs rhs = .ok result ∧
        after = ⟨⟨result :: below, room + 1⟩, store, messages⟩ := by
  have computed : exec c natives i ⟨⟨rhs :: lhs :: below, room⟩, store, messages⟩
      = (do pushNext (← Action.ofExcept (Value.apply (.binary op) lhs rhs)))
          ⟨⟨below, room + 2⟩, store, messages⟩ := by
    rw [exec, isBinary.opcode]
    simp only [binary, isBinary.opcode, isBinary.typeOne, isBinary.typeTwo]
    rfl
  rw [computed]
  cases Value.apply (.binary op) lhs rhs with
  | ok result =>
      constructor
      · rintro ⟨⟩
        exact ⟨result, rfl, rfl⟩
      · rintro ⟨_, ⟨⟩, rfl⟩
        rfl
  | error e =>
      constructor
      · rintro ⟨⟩
      · rintro ⟨_, ⟨⟩, -⟩

/-- An item load goes on exactly if both ids can be read, and the item too, which takes their place. -/
theorem exec_item_load_next_iff {r : VariableRef} (isLoad : i.IsLoad operand)
    (parsed : VariableRef.parse operand = .ok r) (marked : r.access = .array) :
    exec c natives i ⟨⟨index :: object :: below, room⟩, store, messages⟩ = .ok .next after ↔
      ∃ n, index.extract Int32 = .ok n ∧ ∃ id, object.extract Int32 = .ok id ∧
        ∃ place, store.placeOfId c id = .ok place ∧
          ∃ item, store.readItem place r.name n.toInt64 = .ok item ∧
            after = ⟨⟨item :: below, room + 1⟩, store, messages⟩ := by
  obtain ⟨name, scope, access⟩ := r
  obtain rfl : access = .array := marked
  rw [exec_of_isLoad isLoad, soften_eq_next_iff, loadVariable,
    variableOperand_of_parse isLoad.text parsed, pure_bind]
  simp only [Action.bind_eq_ok_iff, popId_eq_ok_iff, fromStore_eq_ok_iff, and_assoc, exists_and_left,
    exists_eq_left, pushNext_next_iff]

/-- With the value on top, an item store goes on exactly if its operands can be read and the item
stored. -/
theorem exec_item_store_next_iff {r : VariableRef} {t : DataType} (isStore : i.IsStore .int32 t operand)
    (parsed : VariableRef.parse operand = .ok r) (marked : r.access = .array) :
    exec c natives i ⟨⟨v :: index :: object :: below, room⟩, store, messages⟩ = .ok .next after ↔
      ∃ w, v.convert t = .ok w ∧ ∃ n, index.extract Int32 = .ok n ∧
        ∃ id, object.extract Int32 = .ok id ∧ ∃ place, store.placeOfId c id = .ok place ∧
          ∃ left, Store.writeItem c place r.name n.toInt64 w store = .ok () left ∧
            after = ⟨⟨below, room + 3⟩, left, messages⟩ := by
  obtain ⟨name, scope, access⟩ := r
  obtain rfl : access = .array := marked
  rw [exec_of_isStore isStore nofun, soften_eq_next_iff, storeVariable,
    variableOperand_of_parse isStore.text parsed, pure_bind]
  simp only [popItemOperands, isStore.typeOne, isStore.typeTwo, if_true, bind_assoc, pure_bind,
    Action.bind_eq_ok_iff, pop_eq_ok_iff, popId_eq_ok_iff, fromStore_eq_ok_iff, onStore_eq_ok_iff,
    pure_eq_next_iff, and_assoc, exists_and_left, exists_eq_left, exists_const,
    exists_eq_right']

/-! ### Compound assignment -/

/-- `dup.v 1`, `push.v [array]self.<name>`, a literal, `<op>.v.v`, `pop.i.v [array]self.<name>`. -/
inductive CompoundAssignment (name : String) (op : BinaryOp) (literal : Value) :
    List Instruction → Prop where
  | intro {duplicate load constant operate assign : Instruction}
      (duplicates : duplicate.opcode = .dup) (twice : duplicate.int? = some 1)
      (loads : load.IsLoad ("[array]self." ++ name)) (isLiteral : constant.IsLiteral literal)
      (operates : operate.IsBinary op)
      (assigns : assign.IsStore .int32 .untyped ("[array]self." ++ name)) :
      CompoundAssignment name op literal [duplicate, load, constant, operate, assign]

/-- A load from an operand without a name does not go on. -/
theorem exec_load_next_named (isLoad : i.IsLoad ("[array]self." ++ name)) {env : Env}
    (loaded : exec c natives i env = .ok .next after) : name ≠ "" := by
  rintro rfl
  have refused : VariableRef.parse ("[array]self." ++ "") = .error (.unknownVariableScope "self.") := rfl
  rw [exec_of_isLoad isLoad, soften_eq_next_iff, loadVariable,
    Action.bind_of_error (variableOperand_of_refused isLoad.text refused env)] at loaded
  cases loaded

/-- A compound assignment loads an item, computes with it and stores the result, where the ids are
read and resolved twice and come to the same. -/
theorem execAll_compound_next_iff {code : List Instruction} {op : BinaryOp} {literal : Value}
    (compound : CompoundAssignment name op literal code) :
    execAll c natives code ⟨⟨index :: object :: below, room⟩, store, messages⟩ = .ok .next after ↔
      name ≠ "" ∧ 2 ≤ room ∧ ∃ n id place item result left, index.extract Int32 = .ok n ∧
        object.extract Int32 = .ok id ∧ store.placeOfId c id = .ok place ∧
          store.readItem place name n.toInt64 = .ok item ∧
            Value.apply (.binary op) item literal = .ok result ∧
              Store.writeItem c place name n.toInt64 result store = .ok () left ∧
                after = ⟨⟨below, room + 2⟩, left, messages⟩ := by
  obtain ⟨duplicates, twice, loads, isLiteral, operates, assigns⟩ := compound
  constructor
  · intro ran
    obtain ⟨between, done, ran⟩ := execAll_cons_next_iff.mp ran
    obtain ⟨free, rfl, rfl⟩ :=
      (exec_dup_next_iff [index, object] duplicates twice (by decide) rfl).mp done
    obtain ⟨between, loaded, ran⟩ := execAll_cons_next_iff.mp ran
    have named := exec_load_next_named loads loaded
    have parsed := VariableRef.parse_self .array named
    obtain ⟨n, atIndex, id, ofObject, place, selected, item, read, rfl⟩ :=
      (exec_item_load_next_iff loads parsed rfl).mp loaded
    obtain ⟨between, pushed, ran⟩ := execAll_cons_next_iff.mp ran
    obtain rfl := (exec_literal_next_iff isLiteral).mp pushed
    obtain ⟨between, computed, ran⟩ := execAll_cons_next_iff.mp ran
    obtain ⟨result, applied, rfl⟩ := (exec_binary_next_iff operates).mp computed
    obtain ⟨between, stored, ran⟩ := execAll_cons_next_iff.mp ran
    obtain ⟨_, ⟨⟩, n', atIndex', id', ofObject', place', selected', left, written, rfl⟩ :=
      (exec_item_store_next_iff assigns parsed rfl).mp stored
    -- Both accesses read the same ids in the same store, so they come to the same place.
    cases atIndex.symm.trans atIndex'
    cases ofObject.symm.trans ofObject'
    cases selected.symm.trans selected'
    obtain rfl := pure_eq_next_iff.mp ran
    exact ⟨named, Nat.le_add_left 2 free, n, id, place, item, result, left, atIndex, ofObject, selected,
      read, applied, written, rfl⟩
  · rintro ⟨named, fits, n, id, place, item, result, left, atIndex, ofObject, selected, read, applied,
      written, rfl⟩
    obtain ⟨free, rfl⟩ := Nat.exists_eq_add_of_le' fits
    have parsed := VariableRef.parse_self .array named
    refine (execAll_cons_of_next
      ((exec_dup_next_iff [index, object] duplicates twice (by decide) rfl).mpr ⟨free, rfl, rfl⟩)).trans ?_
    refine (execAll_cons_of_next ((exec_item_load_next_iff loads parsed rfl).mpr
      ⟨n, atIndex, id, ofObject, place, selected, item, read, rfl⟩)).trans ?_
    refine (execAll_cons_of_next ((exec_literal_next_iff isLiteral).mpr rfl)).trans ?_
    refine (execAll_cons_of_next
      ((exec_binary_next_iff operates).mpr ⟨result, applied, rfl⟩)).trans ?_
    exact execAll_cons_of_next ((exec_item_store_next_iff assigns parsed rfl).mpr
      ⟨result, rfl, n, atIndex, id, ofObject, place, selected, left, written, rfl⟩)

/-- The item that is stored is the item that was loaded. -/
theorem execAll_compound_next_iff_addresses {code : List Instruction} {op : BinaryOp} {literal : Value}
    (compound : CompoundAssignment name op literal code) :
    execAll c natives code ⟨⟨index :: object :: below, room⟩, store, messages⟩ = .ok .next after ↔
      name ≠ "" ∧ 2 ≤ room ∧ ∃ place items position item result,
        store.Addresses c name object index place items position item ∧
          Value.apply (.binary op) item literal = .ok result ∧ position < c.maxArrayLength ∧
            store.Indexable name place ∧ after = ⟨⟨below, room + 2⟩,
              store.withItems place name (items.setIfInBounds position result), messages⟩ := by
  rw [execAll_compound_next_iff compound]
  constructor
  · rintro ⟨named, fits, n, id, place, item, result, left, atIndex, ofObject, selected, read, applied,
      written, rfl⟩
    obtain ⟨items, array, reached, found⟩ := Store.readItem_eq_ok_iff.mp read
    have inside := (Array.getElem?_eq_some_iff.mp found).1
    obtain ⟨⟨-, limited, indexable⟩, rfl⟩ := (Store.writeItem_eq_ok_iff array inside).mp written
    have reads : n.toInt = n.toInt64.toInt.toNat := by
      rw [Int.toNat_of_nonneg reached, Int32.toInt_toInt64]
    exact ⟨named, fits, place, items, n.toInt64.toInt.toNat, item, result,
      ⟨⟨id, ofObject, selected⟩, ⟨n, atIndex, reads⟩, array, found⟩, applied, by omega, indexable, rfl⟩
  · rintro ⟨named, fits, place, items, position, item, result,
      ⟨⟨id, ofObject, selected⟩, ⟨n, atIndex, reads⟩, array, found⟩, applied, limited, indexable, rfl⟩
    obtain rfl : n.toInt64.toInt.toNat = position := by
      rw [Int32.toInt_toInt64, reads, Int.toNat_natCast]
    have inside := (Array.getElem?_eq_some_iff.mp found).1
    have reached : 0 ≤ n.toInt64.toInt := by
      rw [Int32.toInt_toInt64]
      omega
    have storable : store.ItemStorable c place name n.toInt64 := ⟨reached, by omega, indexable⟩
    exact ⟨named, fits, n, id, place, item, result, _, atIndex, ofObject, selected,
      Store.readItem_eq_ok_iff.mpr ⟨items, array, reached, found⟩, applied,
      (Store.writeItem_eq_ok_iff array inside).mpr ⟨storable, rfl⟩, rfl⟩

/-- A compound assignment goes on exactly if its operand has a name, two more values fit on the
operand stack, the ids address an item of an array that can be stored, below the limit of indices, and
the operator applies to the item and the literal. Then the ids are gone from the stack, the array holds
the result in place of the item and its other items as before, and no other cell differs. -/
theorem compound_assignment_updates_item (c : Config) (natives : Natives) {name : String}
    {op : BinaryOp} {literal : Value} {code : List Instruction}
    (compound : CompoundAssignment name op literal code) (object index : Value) (below : List Value)
    (room : Nat) (store : Store) (messages : List String) :
    let before : Env := ⟨⟨index :: object :: below, room⟩, store, messages⟩
    ((∃ after, execAll c natives code before = .ok .next after) ↔
      name ≠ "" ∧ 2 ≤ room ∧ ∃ place items position item result,
        store.Addresses c name object index place items position item ∧
          Value.apply (.binary op) item literal = .ok result ∧ position < c.maxArrayLength ∧
            store.Indexable name place) ∧
      ∀ after, execAll c natives code before = .ok .next after →
        after.stack = ⟨below, room + 2⟩ ∧ after.messages = messages ∧
          ∃ place items position item result,
            store.Addresses c name object index place items position item ∧
              Value.apply (.binary op) item literal = .ok result ∧
                after.store.read place name
                    = .ok (.array (items.setIfInBounds position result)) ∧
                  (place.cell name).SameBut store after.store := by
  intro before
  constructor
  · constructor
    · rintro ⟨after, ran⟩
      obtain ⟨named, fits, place, items, position, item, result, addresses, applied, limited, indexable,
        -⟩ := (execAll_compound_next_iff_addresses compound).mp ran
      exact ⟨named, fits, place, items, position, item, result, addresses, applied, limited, indexable⟩
    · rintro ⟨named, fits, place, items, position, item, result, addresses, applied, limited, indexable⟩
      exact ⟨_, (execAll_compound_next_iff_addresses compound).mpr ⟨named, fits, place, items, position,
        item, result, addresses, applied, limited, indexable, rfl⟩⟩
  · intro after ran
    obtain ⟨-, -, place, items, position, item, result, addresses, applied, -, indexable, rfl⟩ :=
      (execAll_compound_next_iff_addresses compound).mp ran
    exact ⟨rfl, rfl, place, items, position, item, result, addresses, applied,
      Store.read_withItems indexable _, Store.sameBut_withItems indexable _⟩

/-- `xs[1] += 3` for a global array. -/
theorem compound_assignment_updates_global_item :
    let xs : Value := .array #[.int32 5, .int32 7]
    let store : Store :=
      { bindings := {}, globals := (∅ : Variables).insert "xs" xs, instances := .startingAt 100000 }
    let code : List Instruction := [.dup .untyped 1, .pushVariable .push ("[array]self." ++ "xs"),
      .pushInt 3, .binary (.binary .add) .untyped .untyped,
      .pop .int32 .untyped ("[array]self." ++ "xs")]
    CompoundAssignment "xs" .add (.int32 3) code ∧
      ∃ after, execAll {} ∅ code ⟨⟨[.int32 1, .int32 (-5)], 2⟩, store, []⟩ = .ok .next after ∧
        after.stack = ⟨[], 4⟩ ∧
          after.store.read .globals "xs" = .ok (.array #[.int32 5, .int32 10]) := by
  intro xs store code
  have compound : CompoundAssignment "xs" .add (.int32 3) code :=
    ⟨rfl, rfl, Instruction.isLoad_pushVariable _, ⟨List.mem_cons_self, rfl⟩, ⟨rfl, rfl, rfl⟩,
      Instruction.isStore_pop _ _ _⟩
  have array : store.read .globals "xs" = .ok xs := Store.present_insert_self ∅ "xs" xs
  have addresses : store.Addresses {} "xs" (.int32 (-5)) (.int32 1) .globals #[.int32 5, .int32 7] 1
      (.int32 7) :=
    ⟨⟨-5, Value.extract_int32 _, rfl⟩, ⟨1, Value.extract_int32 _, rfl⟩, array, rfl⟩
  obtain ⟨goesOn, updates⟩ := compound_assignment_updates_item {} ∅ compound (.int32 (-5)) (.int32 1)
    [] 2 store []
  have added : Value.apply (.binary .add) (.int32 7) (.int32 3) = .ok (.int32 10) := rfl
  obtain ⟨after, ran⟩ := goesOn.mpr ⟨by decide, le_rfl, .globals, _, 1, _, _, addresses, added,
    by decide, trivial⟩
  obtain ⟨stack, -, place, items, position, item, result, found, applied, read, -⟩ := updates after ran
  refine ⟨compound, after, ran, stack, ?_⟩
  obtain ⟨rfl, rfl, rfl, rfl⟩ := addresses.unique found
  cases applied.symm.trans added
  exact read

end Exec

end ScriptMachine
