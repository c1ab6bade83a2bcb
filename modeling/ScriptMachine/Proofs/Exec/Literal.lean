import ScriptMachine.Proofs.Exec.Access

/-!
Literals. An instruction pushes the literal that its declared type finds in its operand fields. The
instructions that take a value of the same type take that literal as it is, unless the type has 16 bits
or single precision: the fields may hold more than these, and it is pushed all the same.
-/

namespace ScriptMachine

/-- An instruction that pushes a literal of its declared type. -/
structure Instruction.IsLiteral (i : Instruction) (v : Value) : Prop where
  opcode : i.opcode ∈ [Opcode.push, .pushLocal, .pushGlobal, .pushBuiltin, .pushShort]
  literal : i.literal = .ok v

namespace Instruction

variable {i : Instruction} {t : DataType} {v : Value}

/-- The real that the operand fields hold; an integer stands for one, too. -/
def realField? (i : Instruction) : Option Float :=
  i.double?.or (i.int?.map fun n => Numeric.ofInt n.toInt)

/-- The literal that a declared type finds in the operand fields. -/
inductive Carries (i : Instruction) : DataType → Value → Prop where
  | int32 (n : Int32) (field : i.int? = some n.toInt64) : Carries i .int32 (.int32 n)
  | int16 (n : Int32) (field : i.int? = some n.toInt64) : Carries i .int16 (.int32 n)
  | int64 (n : Int64) (field : i.int? = some n) : Carries i .int64 (.int64 n)
  | double (x : Float) (field : i.realField? = some x) : Carries i .double (.real x)
  | float (x : Float) (field : i.realField? = some x) : Carries i .float (.real x)
  | bool (b : Bool) (field : i.bool? = some b) : Carries i .bool (.bool b)
  | string (s : String) (field : i.text? = some s) : Carries i .string (.string s)

/-- The declared type can hold its literal. Only 16 bits and single precision can hold less than the
operand fields do. -/
def LiteralFits (i : Instruction) : Prop :=
  match i.typeOne with
  | .int16 => ∃ n : Int16, i.int? = some n.toInt64
  | .float => ∃ x : Value.Single, i.realField? = some x.toFloat
  | _ => True

/-- Within the range of 32 bits, an integer survives being narrowed. -/
theorem toInt64_toInt32_of_mem {n : Int64} (low : Int32.minValue.toInt ≤ n.toInt)
    (high : n.toInt ≤ Int32.maxValue.toInt) : n.toInt32.toInt64 = n := by
  change -2147483648 ≤ n.toInt at low
  change n.toInt ≤ 2147483647 at high
  apply Int64.toInt_inj.mp
  rw [Int32.toInt_toInt64, Int64.toInt_toInt32, Int.bmod_eq_of_le (by omega) (by omega)]

theorem required_eq_ok_iff {α : Type} (held : α → Value) (field : Option α) (e : RuntimeError) :
    (match field.map held with
      | some v => .ok v
      | none => .error e : Except RuntimeError Value) = .ok v ↔ ∃ a, field = some a ∧ held a = v := by
  cases field with
  | none => exact ⟨nofun, nofun⟩
  | some a =>
      constructor
      · rintro ⟨⟩
        exact ⟨a, rfl, rfl⟩
      · rintro ⟨_, ⟨⟩, rfl⟩
        rfl

/-- A literal of 16 bits is read like one of 32 bits. -/
theorem literal_integer (t : DataType) (typed : i.typeOne = t) (short : t = .int32 ∨ t = .int16) :
    i.literal = .ok v ↔ ∃ n : Int32, i.int? = some n.toInt64 ∧ Value.int32 n = v := by
  cases field : i.int? with
  | none =>
      have refused : i.literal = .error (.malformed i.raw .missingLiteral) := by
        rcases short with rfl | rfl <;> simp only [literal, typed, field]
      rw [refused]
      exact ⟨nofun, nofun⟩
  | some m =>
      have read : i.literal =
          if Int32.minValue.toInt ≤ m.toInt ∧ m.toInt ≤ Int32.maxValue.toInt then .ok (.int32 m.toInt32)
          else .error (.conversion (.integerOverflow m i.typeOne.name)) := by
        rcases short with rfl | rfl <;> simp only [literal, typed, field]
      rw [read]
      constructor
      · intro held
        split at held
        · rename_i bounded
          cases held
          exact ⟨m.toInt32, by rw [toInt64_toInt32_of_mem bounded.1 bounded.2], rfl⟩
        · cases held
      · rintro ⟨n, ⟨⟩, rfl⟩
        rw [Int32.toInt_toInt64, if_pos ⟨n.minValue_le_toInt, n.toInt_le⟩, Int32.toInt32_toInt64]

/-- The literal that is found is the one that the declared type asks for. -/
theorem literal_eq_ok_iff : i.literal = .ok v ↔ i.Carries i.typeOne v := by
  generalize typed : i.typeOne = t
  cases t with
  | int32 =>
      rw [literal_integer .int32 typed (.inl rfl)]
      exact ⟨fun ⟨n, field, held⟩ => held ▸ .int32 n field, fun | .int32 n field => ⟨n, field, rfl⟩⟩
  | int16 =>
      rw [literal_integer .int16 typed (.inr rfl)]
      exact ⟨fun ⟨n, field, held⟩ => held ▸ .int16 n field, fun | .int16 n field => ⟨n, field, rfl⟩⟩
  | int64 =>
      simp only [literal, typed]
      exact (required_eq_ok_iff Value.int64 i.int? _).trans
        ⟨fun ⟨n, field, held⟩ => held ▸ .int64 n field, fun | .int64 n field => ⟨n, field, rfl⟩⟩
  | double =>
      simp only [literal, typed]
      exact (required_eq_ok_iff Value.real i.realField? _).trans
        ⟨fun ⟨x, field, held⟩ => held ▸ .double x field, fun | .double x field => ⟨x, field, rfl⟩⟩
  | float =>
      simp only [literal, typed]
      exact (required_eq_ok_iff Value.real i.realField? _).trans
        ⟨fun ⟨x, field, held⟩ => held ▸ .float x field, fun | .float x field => ⟨x, field, rfl⟩⟩
  | bool =>
      simp only [literal, typed]
      exact (required_eq_ok_iff Value.bool i.bool? _).trans
        ⟨fun ⟨b, field, held⟩ => held ▸ .bool b field, fun | .bool b field => ⟨b, field, rfl⟩⟩
  | string =>
      simp only [literal, typed]
      exact (required_eq_ok_iff Value.string i.text? _).trans
        ⟨fun ⟨s, field, held⟩ => held ▸ .string s field, fun | .string s field => ⟨s, field, rfl⟩⟩
  | untyped =>
      simp only [literal, typed]
      exact ⟨nofun, nofun⟩

/-- A literal is a value of its own type exactly if it fits into that type. -/
theorem convert_literal_eq_self_iff (carries : i.Carries i.typeOne v) :
    v.convert i.typeOne = .ok v ↔ i.LiteralFits := by
  rw [Value.convert_eq_self_iff, LiteralFits]
  generalize i.typeOne = t at carries
  cases carries with
  | int32 n | int64 n | double n | bool n | string n => exact ⟨fun _ => trivial, fun _ => ⟨n, rfl⟩⟩
  | int16 n field =>
      rw [field]
      constructor
      · rintro ⟨m, ⟨⟩⟩
        exact ⟨m, congrArg some m.toInt64_toInt32⟩
      · rintro ⟨m, wide⟩
        have narrow : n.toInt64.toInt32 = m.toInt64.toInt32 :=
          congrArg Int64.toInt32 (Option.some.inj wide)
        rw [Int32.toInt32_toInt64, Int16.toInt32_toInt64] at narrow
        exact ⟨m, congrArg Value.int32 narrow⟩
  | float x field =>
      rw [field]
      constructor
      · rintro ⟨x, ⟨⟩⟩
        exact ⟨x, rfl⟩
      · rintro ⟨x, ⟨⟩⟩
        exact ⟨x, rfl⟩

end Instruction

namespace Exec

variable {c : Config} {natives : Natives} {i : Instruction} {t : DataType} {v : Value}
  {below : List Value} {room : Nat} {store : Store} {messages : List String} {env after : Env}

theorem pushNext_next_iff :
    pushNext v ⟨⟨below, room + 1⟩, store, messages⟩ = .ok .next after ↔
      after = ⟨⟨v :: below, room⟩, store, messages⟩ := by
  constructor
  · rintro ⟨⟩
    rfl
  · rintro rfl
    rfl

/-- An instruction with a declared type that pushes does so with its literal. -/
theorem exec_of_typed
    (opcode : i.opcode ∈ [Opcode.push, .pushLocal, .pushGlobal, .pushBuiltin, .pushShort])
    (typed : i.typeOne ≠ .untyped) : exec c natives i = pushLiteral i := by
  have declared : push c i = pushLiteral i := if_neg typed
  simp only [List.mem_cons, List.not_mem_nil, or_false] at opcode
  rcases opcode with opcode | opcode | opcode | opcode | opcode
  iterate 4
    · rw [exec, opcode, ← declared]
  · rw [exec, opcode]

/-- An instruction that carries a literal pushes it. -/
theorem exec_of_isLiteral (isLiteral : i.IsLiteral v) : exec c natives i = pushNext v := by
  have typed : i.typeOne ≠ .untyped := by
    intro untyped
    have literal := isLiteral.literal
    rw [Instruction.literal, untyped] at literal
    cases literal
  rw [exec_of_typed isLiteral.opcode typed, pushLiteral, isLiteral.literal]
  rfl

/-- A literal is pushed if it is there and one more value fits on the stack. -/
theorem pushLiteral_next_iff :
    pushLiteral i ⟨⟨below, room⟩, store, messages⟩ = .ok .next after ↔
      ∃ v left, i.literal = .ok v ∧ room = left + 1 ∧
        after = ⟨⟨v :: below, left⟩, store, messages⟩ := by
  rw [pushLiteral]
  cases i.literal with
  | error e => exact ⟨nofun, nofun⟩
  | ok v =>
      cases room with
      | zero => exact ⟨nofun, nofun⟩
      | succ left =>
          constructor
          · intro pushed
            exact ⟨v, left, rfl, rfl, pushNext_next_iff.mp pushed⟩
          · rintro ⟨_, _, ⟨⟩, ⟨⟩, rfl⟩
            rfl

/-! ### Taking a literal back -/

/-- The instructions that take a value of a declared type take `v` off `after` as it is, and leave
`env`. -/
structure TakesBack (c : Config) (natives : Natives) (t : DataType) (v : Value) (env after : Env) :
    Prop where
  drops : ∀ j : Instruction, j.opcode = .popz → j.typeOne = t → exec c natives j after = .ok .next env
  converts : ∀ j : Instruction, j.opcode = .conv → j.typeOne = t → j.typeTwo = t →
    exec c natives j after = .ok .next after
  returns : ∀ j : Instruction, j.opcode = .ret → j.typeOne = t →
    exec c natives j after = .ok (.ret v) env
  /-- A store in a plain variable does what one does that takes the value without a type. -/
  stores : ∀ (j : Instruction) (one : DataType) (operand name : String) (scope : Scope),
    j.IsStore one t operand → one ≠ .int16 →
      VariableRef.parse operand = .ok ⟨name, scope, .plain⟩ → scope ≠ .statics →
        exec c natives j after = exec c natives { j with typeTwo := .untyped } after

/-- A value is taken back as it is exactly if its conversion to the type is the value itself. -/
theorem takesBack_iff :
    TakesBack c natives t v ⟨⟨below, room + 1⟩, store, messages⟩
        ⟨⟨v :: below, room⟩, store, messages⟩ ↔ v.convert t = .ok v := by
  constructor
  · intro takesBack
    -- A return is enough for this direction: it pops the value as its type and no more.
    have returned := takesBack.returns (.unary .ret t) rfl rfl
    obtain ⟨w, between, popped, ⟨⟩⟩ := Action.bind_eq_ok_iff.mp returned
    exact (pop_eq_ok_iff.mp popped).1
  · intro kept
    have popped {u : DataType} (same : v.convert u = .ok v) :
        pop u ⟨⟨v :: below, room⟩, store, messages⟩ = .ok v ⟨⟨below, room + 1⟩, store, messages⟩ :=
      pop_eq_ok_iff.mpr ⟨same, rfl⟩
    constructor
    case drops =>
      rintro j opcode rfl
      rw [exec, opcode]
      exact Action.bind_of_ok (popped kept)
    case converts =>
      rintro j opcode rfl two
      rw [exec, opcode]
      have kept' : v.convert j.typeTwo = .ok v := two.symm ▸ kept
      refine (Action.bind_of_ok (popped kept)).trans ?_
      exact (Action.bind_of_ok ((ofExcept_eq_ok_iff _).mpr ⟨kept', rfl⟩)).trans rfl
    case returns =>
      rintro j opcode rfl
      rw [exec, opcode]
      exact Action.bind_of_ok (popped kept)
    case stores =>
      intro j one operand name scope isStore meant parsed modelled
      have untyped : Instruction.IsStore { j with typeTwo := .untyped } one .untyped operand :=
        ⟨isStore.opcode, isStore.typeOne, rfl, isStore.text⟩
      rw [exec_plain_store parsed modelled isStore meant,
        exec_plain_store parsed modelled untyped meant]
      have stored {u : DataType} (same : v.convert u = .ok v) :=
        soften_of_bind_ok (f := fun value => do
          onStore (Store.write c (← fromStore fun s => s.placeOfScope c scope) name value)
          return .next) (popped same)
      exact (stored kept).trans (stored rfl).symm

/-- A literal is taken back as it is by the instructions of its declared type if and only if it fits
into that type, in 16 bits or single precision where the type asks for them. -/
theorem literal_kept_iff (c : Config) (natives : Natives) {i : Instruction} {env after : Env}
    (opcode : i.opcode ∈ [Opcode.push, .pushLocal, .pushGlobal, .pushBuiltin, .pushShort])
    (typed : i.typeOne ≠ .untyped) (pushed : exec c natives i env = .ok .next after) :
    ∃ v, i.Carries i.typeOne v ∧ after.stack.values = v :: env.stack.values ∧
      (v.convert i.typeOne = .ok v ↔ i.LiteralFits) ∧
        (TakesBack c natives i.typeOne v env after ↔ i.LiteralFits) := by
  obtain ⟨⟨below, room⟩, store, messages⟩ := env
  rw [exec_of_typed opcode typed, pushLiteral_next_iff] at pushed
  obtain ⟨v, left, literal, rfl, rfl⟩ := pushed
  have carries := Instruction.literal_eq_ok_iff.mp literal
  have kept := Instruction.convert_literal_eq_self_iff carries
  exact ⟨v, carries, rfl, kept, takesBack_iff.trans kept⟩

/-- The least literal of 16 bits is taken back as it is. -/
theorem least_short_literal_kept :
    let i : Instruction := .pushShort (-32768)
    let env : Env := ⟨⟨[], 1⟩, { bindings := {}, instances := .startingAt 100000 }, []⟩
    let after : Env := { env with stack := ⟨[.int32 (-32768)], 0⟩ }
    i.opcode ∈ [Opcode.push, .pushLocal, .pushGlobal, .pushBuiltin, .pushShort] ∧
      i.typeOne ≠ .untyped ∧ exec {} ∅ i env = .ok .next after ∧
        TakesBack {} ∅ .int16 (.int32 (-32768)) env after := by
  intro i env after
  have opcode : i.opcode ∈ [Opcode.push, .pushLocal, .pushGlobal, .pushBuiltin, .pushShort] := by decide
  have pushed : exec {} ∅ i env = .ok .next after := rfl
  obtain ⟨v, -, values, -, takesBack⟩ := literal_kept_iff {} ∅ opcode nofun pushed
  obtain rfl : Value.int32 (-32768) = v := (List.cons.inj values).1
  exact ⟨opcode, nofun, pushed, takesBack.mpr ⟨-32768, rfl⟩⟩

/-- A short literal of more than 16 bits and a single-precision literal with the digits of a double are
pushed as they are. The first one is refused by its own type, and the second one is rounded. -/
theorem literals_beyond_their_types :
    let short : Instruction :=
      { raw := "pushi.e 40000", opcode := .pushShort, typeOne := .int16, int? := some 40000 }
    let tenth : Float := Float.ofBits 0x3FB999999999999A
    let single : Instruction :=
      { raw := "push.f 0.1", opcode := .push, typeOne := .float, double? := some tenth }
    let env : Env := ⟨⟨[], 1⟩, { bindings := {}, instances := .startingAt 100000 }, []⟩
    exec {} ∅ short env = .ok .next { env with stack := ⟨[.int32 40000], 0⟩ } ∧
      (Value.int32 40000).convert .int16 = .error (.integerOverflow 40000 "int16") ∧
        exec {} ∅ single env = .ok .next { env with stack := ⟨[.real tenth], 0⟩ } ∧
          (Value.real tenth).convert .float ≠ .ok (.real tenth) := by
  intro short tenth single env
  refine ⟨rfl, rfl, rfl, ?_⟩
  intro kept
  have rounded : Numeric.narrow tenth = tenth := Value.real.inj (Except.ok.inj kept)
  have moved : Numeric.rank? (Numeric.narrow (Float.ofBits 0x3FB999999999999A))
      ≠ Numeric.rank? (Float.ofBits 0x3FB999999999999A) := by decide
  exact moved (congrArg Numeric.rank? rounded)

end Exec

end ScriptMachine
