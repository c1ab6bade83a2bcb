import ScriptMachine.Proofs.Exec.Access
import ScriptMachine.Proofs.Exec.Discipline
import ScriptMachine.Proofs.Storage.Indexed

/-!
Stores of array items, which take a value, an index and an instance off the operand stack. With the
type `i` in front the value is on top, and with any other type the index is. Both orders come to the
same, or both fail before anything is stored.
-/

namespace ScriptMachine

/-- The access of an operand is the one that it is marked with. -/
theorem VariableRef.access_of_parse (access : Access) (marked : access ≠ .plain) {rest : String}
    {r : VariableRef} (parsed : parse (access.marker ++ rest) = .ok r) : r.access = access := by
  obtain ⟨context, splits, denotes⟩ := parse_eq_ok_iff.mp parsed
  have chars : access.marker.toList ++ rest.toList
      = r.access.marker.toList ++ (context.toList ++ '.' :: r.name.toList) := by
    have eq := congrArg String.toList splits.eq
    simpa using eq
  have split := split_append denotes r.access r.name.toList
  rw [← chars, Access.split_marker_append marked] at split
  exact (congrArg Prod.fst split).symm

namespace Exec

variable {c : Config} {natives : Natives} {i : Instruction} {operand name : String}
  {one two t : DataType} {below : List Value} {room : Nat} {store : Store} {messages : List String}
  {value index object : Value}

/-! ### Operands -/

/-- The order in which a store of an array item finds its operands, the top one first. -/
def itemOperands (one : DataType) (value index object : Value) : List Value :=
  if one = .int32 then [value, index, object] else [index, object, value]

/-- What a store of an array item takes its operands for. -/
structure ReadsItemOperands (t : DataType) (value index object : Value)
    (operands : Value × Int32 × Int32) : Prop where
  value : value.convert t = .ok operands.1
  index : index.extract Int32 = .ok operands.2.1
  object : object.extract Int32 = .ok operands.2.2

/-- In the order that the type in front asks for, the three operands come off exactly if they can be
read. -/
theorem popItemOperands_eq_ok_iff {operands : Value × Int32 × Int32} {after : Env} :
    popItemOperands i
        ⟨⟨itemOperands i.typeOne value index object ++ below, room⟩, store, messages⟩
          = .ok operands after ↔
      ReadsItemOperands i.typeTwo value index object operands ∧
        after = ⟨⟨below, room + 3⟩, store, messages⟩ := by
  unfold popItemOperands itemOperands
  by_cases first : i.typeOne = .int32
  · simp only [first, if_true, List.cons_append, List.nil_append, Action.bind_eq_ok_iff, pop_eq_ok_iff,
      popId_eq_ok_iff, and_assoc, exists_and_left, exists_eq_left]
    constructor
    · rintro ⟨w, converts, k, atIndex, n, ofObject, ⟨⟩⟩
      exact ⟨⟨converts, atIndex, ofObject⟩, rfl⟩
    · rintro ⟨⟨converts, atIndex, ofObject⟩, rfl⟩
      exact ⟨_, converts, _, atIndex, _, ofObject, rfl⟩
  · simp only [first, if_false, List.cons_append, List.nil_append, Action.bind_eq_ok_iff, pop_eq_ok_iff,
      popId_eq_ok_iff, and_assoc, exists_and_left, exists_eq_left]
    constructor
    · rintro ⟨k, atIndex, n, ofObject, w, converts, ⟨⟩⟩
      exact ⟨⟨converts, atIndex, ofObject⟩, rfl⟩
    · rintro ⟨⟨converts, atIndex, ofObject⟩, rfl⟩
      exact ⟨_, atIndex, _, ofObject, _, converts, rfl⟩

/-- An operand that does not convert has nothing to do with addressing. -/
theorem popItemOperands_of_unread
    (unread : ∀ operands, ¬ ReadsItemOperands i.typeTwo value index object operands) :
    ∃ e after, e.IsOrdinary ∧ popItemOperands i
      ⟨⟨itemOperands i.typeOne value index object ++ below, room⟩, store, messages⟩
        = .error e after := by
  have outcome := Discipline.respects_popItemOperands (Discipline.lax_sound {}) i _ _
    (Discipline.lax_admitsEnvs
      ⟨⟨itemOperands i.typeOne value index object ++ below, room⟩, store, messages⟩)
  cases popped : popItemOperands i
      ⟨⟨itemOperands i.typeOne value index object ++ below, room⟩, store, messages⟩ with
  | ok operands after => exact absurd (popItemOperands_eq_ok_iff.mp popped).1 (unread operands)
  | error e after =>
      rw [popped] at outcome
      cases outcome with
      | error ordinary _ => exact ⟨e, after, ordinary, rfl⟩

/-! ### Stores -/

/-- Stores a value at an index of an array variable of the place that an id selects. -/
def storeItemAt (c : Config) (id : Int32) (name : String) (index : Int32) (value : Value) :
    Exec Flow := do
  let place ← fromStore fun s => s.placeOfId c id
  onStore (Store.writeItem c place name index.toInt64 value)
  return .next

/-- Nothing is taken off the stack or put on it any more. -/
theorem keeps_storeItemAt (id : Int32) (name : String) (index : Int32) (value : Value) :
    Action.Keeps Env.stack (soften (storeItemAt c id name index value)) := by
  intro env
  have found : Action.Keeps Env.stack (fromStore fun s => s.placeOfId c id) := fun _ => by
    rw [fromStore, after_onStore]
  have stored (place : Place) :
      Action.Keeps Env.stack (onStore (Store.writeItem c place name index.toInt64 value)) := fun _ => by
    rw [after_onStore]
  rw [after_soften]
  exact (found.bind fun place => (stored place).bind fun _ => .pure _) env

/-- An error that is not about addressing passes through. -/
theorem soften_of_bind_error {α : Type} {act : Exec α} {f : α → Exec Flow} {env after : Env}
    {e : RuntimeError} (failed : act env = .error e after) (ordinary : e.IsOrdinary) :
    soften (act >>= f) env = .error e after := by
  simp only [soften, Action.bind_of_error failed]
  cases e with
  | unsupportedAddressing scope access => cases ordinary
  | _ => rfl

/-- The variable operand decodes, the value converts and the two ids read as integers. -/
def ItemStoreReads (operand : String) (t : DataType) (value index object : Value) : Prop :=
  (∃ r, VariableRef.parse operand = .ok r) ∧ ∃ operands, ReadsItemOperands t value index object operands

section ArrayStore

variable {r : VariableRef} (isStore : i.IsStore one t operand) (meant : one ≠ .int16)

include isStore meant

/-- Once its operands are off the stack, an item store no longer depends on the order they came in. -/
theorem exec_item_store (parsed : VariableRef.parse operand = .ok r) (marked : r.access = .array)
    {operands : Value × Int32 × Int32} (reads : ReadsItemOperands t value index object operands) :
    exec c natives i ⟨⟨itemOperands one value index object ++ below, room⟩, store, messages⟩
      = soften (storeItemAt c operands.2.2 r.name operands.2.1 operands.1)
          ⟨⟨below, room + 3⟩, store, messages⟩ := by
  obtain ⟨name, scope, access⟩ := r
  obtain rfl : access = .array := marked
  rw [← isStore.typeTwo] at reads
  rw [exec_of_isStore isStore meant, storeVariable, variableOperand_of_parse isStore.text parsed,
    pure_bind, ← isStore.typeOne]
  exact soften_of_bind_ok (popItemOperands_eq_ok_iff.mpr ⟨reads, rfl⟩)

/-- Otherwise the instruction fails before it stores anything. -/
theorem exec_item_store_fails (marked : ∀ r, VariableRef.parse operand = .ok r → r.access = .array)
    (unread : ¬ ItemStoreReads operand t value index object) :
    ∃ e after, exec c natives i
        ⟨⟨itemOperands one value index object ++ below, room⟩, store, messages⟩ = .error e after ∧
      after.store = store := by
  have failed : ∃ e after, exec c natives i
      ⟨⟨itemOperands one value index object ++ below, room⟩, store, messages⟩ = .error e after := by
    rw [exec_of_isStore isStore meant, storeVariable]
    by_cases decodes : ∃ r, VariableRef.parse operand = .ok r
    · obtain ⟨⟨name, scope, access⟩, parsed⟩ := decodes
      obtain rfl : access = .array := marked _ parsed
      have unread operands : ¬ ReadsItemOperands i.typeTwo value index object operands := by
        rw [isStore.typeTwo]
        exact fun reads => unread ⟨⟨_, parsed⟩, operands, reads⟩
      obtain ⟨e, after, ordinary, failed⟩ := popItemOperands_of_unread unread
      rw [isStore.typeOne] at failed
      rw [variableOperand_of_parse isStore.text parsed, pure_bind]
      exact ⟨e, after, soften_of_bind_error failed ordinary⟩
    · obtain ⟨part, refused⟩ := VariableRef.exists_of_parse_ne_ok (not_exists.mp decodes)
      exact ⟨_, _, soften_of_bind_error (variableOperand_of_refused isStore.text refused _) rfl⟩
  obtain ⟨e, after, failed⟩ := failed
  refine ⟨e, after, failed, ?_⟩
  -- That it stores nothing is known of every failing instruction.
  have stores : Stores (exec c natives i) := stores_of_eq_pop isStore.opcode
  have outcome := stores ⟨⟨itemOperands one value index object ++ below, room⟩, store, messages⟩
  rw [failed] at outcome
  cases outcome with
  | error _ kept => exact congrArg Prod.fst kept

end ArrayStore

/-- The two orders of the operands of an item store come to the same. If the operand decodes, the
value converts and the ids read as integers, then both instructions go on, refuse or fail alike, with
the same variables and only the three values taken off the stack. Otherwise both fail and store
nothing. -/
theorem item_store_orders_agree (c : Config) (natives : Natives) (reference : String)
    {i j : Instruction} {t u : DataType} (onTop : i.IsStore .int32 t ("[array]" ++ reference))
    (underneath : j.IsStore u t ("[array]" ++ reference)) (other : u ≠ .int32) (meant : u ≠ .int16)
    (value index object : Value) (below : List Value) (room : Nat) (store : Store)
    (messages : List String) :
    let before : Env := ⟨⟨value :: index :: object :: below, room⟩, store, messages⟩
    let before' : Env := ⟨⟨index :: object :: value :: below, room⟩, store, messages⟩
    (ItemStoreReads ("[array]" ++ reference) t value index object →
      exec c natives i before = exec c natives j before' ∧
        ((exec c natives i).after before).stack = ⟨below, room + 3⟩) ∧
    (¬ ItemStoreReads ("[array]" ++ reference) t value index object →
      ∃ e after e' after', exec c natives i before = .error e after ∧
        exec c natives j before' = .error e' after' ∧
          after.store = store ∧ after'.store = store) := by
  intro before before'
  have marked r : VariableRef.parse ("[array]" ++ reference) = .ok r → r.access = .array :=
    VariableRef.access_of_parse .array nofun
  have first : before = ⟨⟨itemOperands .int32 value index object ++ below, room⟩, store, messages⟩ := rfl
  have last : before' = ⟨⟨itemOperands u value index object ++ below, room⟩, store, messages⟩ := by
    rw [itemOperands, if_neg other]
    rfl
  rw [first, last]
  constructor
  · rintro ⟨⟨r, parsed⟩, operands, reads⟩
    have array := marked r parsed
    constructor
    · rw [exec_item_store onTop nofun parsed array reads,
        exec_item_store underneath meant parsed array reads]
    · rw [Action.after, exec_item_store onTop nofun parsed array reads]
      exact keeps_storeItemAt operands.2.2 r.name operands.2.1 operands.1 _
  · intro unread
    have fails {k : Instruction} {one : DataType} (isStore : k.IsStore one t ("[array]" ++ reference))
        (meant : one ≠ .int16) : ∃ e after, exec c natives k
          ⟨⟨itemOperands one value index object ++ below, room⟩, store, messages⟩ = .error e after ∧
            after.store = store :=
      exec_item_store_fails isStore meant marked unread
    obtain ⟨e, after, failed, kept⟩ := fails onTop nofun
    obtain ⟨e', after', failed', kept'⟩ := fails underneath meant
    exact ⟨e, after, e', after', failed, failed', kept, kept'⟩

/-- A third item is stored in a global variable in both orders, and in neither order if a text stands
where the instance is expected. -/
theorem item_store_orders_agree_on_global :
    let store : Store := { bindings := {}, instances := .startingAt 100000 }
    let items : Value := .array #[.undefined, .undefined, .int64 17]
    let operand := "[array]self.list"
    let i := Instruction.pop .int32 .int64 operand
    let j := Instruction.pop .untyped .int64 operand
    let after : Env := ⟨⟨[], 3⟩, { store with globals := (∅ : Variables).insert "list" items }, []⟩
    (i.IsStore .int32 .int64 operand ∧ j.IsStore .untyped .int64 operand ∧
      ItemStoreReads operand .int64 (.int32 17) (.int32 2) (.int32 (-5)) ∧
      ¬ ItemStoreReads operand .int64 (.int32 17) (.int32 2) (.string "me")) ∧
    exec {} ∅ i ⟨⟨[.int32 17, .int32 2, .int32 (-5)], 0⟩, store, []⟩ = .ok .next after ∧
      exec {} ∅ j ⟨⟨[.int32 2, .int32 (-5), .int32 17], 0⟩, store, []⟩ = .ok .next after ∧
    ∃ e left e' left',
      exec {} ∅ i ⟨⟨[.int32 17, .int32 2, .string "me"], 0⟩, store, []⟩ = .error e left ∧
        exec {} ∅ j ⟨⟨[.int32 2, .string "me", .int32 17], 0⟩, store, []⟩ = .error e' left' ∧
          left.store = store ∧ left'.store = store := by
  intro store items operand i j after
  have onTop : i.IsStore .int32 .int64 operand := Instruction.isStore_pop _ _ _
  have underneath : j.IsStore .untyped .int64 operand := Instruction.isStore_pop _ _ _
  have parsed : VariableRef.parse "[array]self.list" = .ok ⟨"list", .self, .array⟩ := rfl
  have read : ReadsItemOperands .int64 (.int32 17) (.int32 2) (.int32 (-5)) (.int64 17, 2, -5) :=
    ⟨rfl, Value.extract_int32 2, Value.extract_int32 (-5)⟩
  have reads : ItemStoreReads operand .int64 (.int32 17) (.int32 2) (.int32 (-5)) :=
    ⟨⟨_, parsed⟩, _, read⟩
  have unread : ¬ ItemStoreReads operand .int64 (.int32 17) (.int32 2) (.string "me") := by
    rintro ⟨-, _, -, -, object⟩
    cases object
  have spelled : operand = "[array]" ++ "self.list" := by decide
  rw [spelled] at onTop underneath reads unread
  have agree (object : Value) := item_store_orders_agree {} ∅ "self.list" onTop underneath nofun nofun
    (.int32 17) (.int32 2) object [] 0 store []
  have written : Store.writeItem {} .globals "list" 2 (.int64 17) store = .ok () after.store := by
    have indexable : store.Indexable "list" .globals := trivial
    have held : store.heldItems .globals "list" = #[] := rfl
    rw [Store.writeItem_of_indexable indexable (by decide) (by decide), held]
    rfl
  have stored : exec {} ∅ i
      ⟨⟨itemOperands .int32 (.int32 17) (.int32 2) (.int32 (-5)) ++ [], 0⟩, store, []⟩
        = .ok .next after := by
    have selected : store.placeOfId {} (-5) = .ok .globals := rfl
    rw [exec_item_store onTop nofun parsed rfl read, soften_eq_next_iff, storeItemAt]
    simp only [Action.bind_eq_ok_iff, fromStore_eq_ok_iff, onStore_eq_ok_iff, pure_eq_next_iff]
    exact ⟨.globals, _, ⟨selected, rfl⟩, (), after, ⟨_, written, rfl⟩, rfl⟩
  exact ⟨⟨onTop, underneath, reads, unread⟩, stored,
    ((agree (.int32 (-5))).1 reads).1.symm.trans stored, (agree (.string "me")).2 unread⟩

end Exec

end ScriptMachine
