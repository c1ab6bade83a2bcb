import ScriptMachine.Instance.Field

/-!
Built-in fields as variables. A name stands for at most one field. A field that can be written
shows its own view of what was stored in it: a real field the number, a flag the truth value, and
the sprite the 32-bit integer, as a real. A value without that view is refused, and so is every
store to an id.
-/

namespace ScriptMachine

/-- A field is found under its own name only. -/
theorem Field.name_of_ofName? {name : String} {f : Field} (found : Field.ofName? name = some f) :
    f.name = name := by
  have named := List.find?_some found
  exact eq_of_beq named

theorem not_isBuiltin_of_ofName? {name : String} (none : Field.ofName? name = none) :
    ¬ Field.isBuiltin name := by
  simp [Field.isBuiltin, none]

/-- Fields are apart from the members of their instance. -/
theorem Field.read_withMembers (f : Field) (i : Instance) (members : Variables) :
    f.read { i with members := members } = f.read i := by
  cases f <;> rfl

/-- No field reads as an array. -/
theorem Field.items?_read (i : Instance) (f : Field) : (f.read i).items? = none := by
  cases f <;> rfl

/-- What a built-in field reads as after a store of a value. A value that the field has no view of
cannot be stored. -/
def Field.shown? (v : Value) : Field → Option Value
  | .real _ => v.real?.map .real
  | .spriteIndex => (v.extract Int32).toOption.map fun n => .real (Numeric.ofInt n.toInt)
  | .flag _ => v.truth?.map .bool
  | .id | .objectIndex => none

theorem Value.toOption_view {α : Type} (f : Value → Option α) (expected : String) (v : Value) :
    (v.view f expected).toOption = f v := by
  unfold view
  cases f v <;> rfl

/-- Storing what is extracted from a value, where the result is read back as shown. -/
theorem Field.store_cases {α : Type} (extracted : Except ConversionError α) (read : Instance → Value)
    {stored : α → Instance} {shown : α → Value} (reads : ∀ a, read (stored a) = shown a) :
    let write : Except RuntimeError Instance := do
      let a ← extracted.mapError .conversion
      return stored a
    (∃ j, write = .ok j ∧ extracted.toOption.map shown = some (read j)) ∨
      (∃ e, write = .error e) ∧ extracted.toOption.map shown = none := by
  cases extracted with
  | ok a => exact .inl ⟨stored a, rfl, congrArg some (reads a).symm⟩
  | error e => exact .inr ⟨⟨.conversion e, rfl⟩, rfl⟩

/-- A store to a field succeeds with the view of the value, or there is no such view. -/
theorem Field.write_cases (f : Field) (i : Instance) (v : Value) :
    (∃ j, f.write i v = .ok j ∧ f.shown? v = some (f.read j)) ∨
      (∃ e, f.write i v = .error e) ∧ f.shown? v = none := by
  cases f with
  | real r =>
      rw [shown?, ← Value.toOption_view Value.real? "real" v]
      refine store_cases (v.extract Float) (fun j => (real r).read j) fun x => ?_
      simp only [read, RealFields.get_set, if_true]
  | spriteIndex => exact store_cases (v.extract Int32) (fun j => spriteIndex.read j) fun _ => rfl
  | flag r =>
      rw [shown?, ← Value.toOption_view Value.truth? "bool" v]
      refine store_cases (v.extract Bool) (fun j => (flag r).read j) fun b => ?_
      simp only [read, Flags.get_set, if_true]
  | id => exact .inr ⟨⟨_, rfl⟩, rfl⟩
  | objectIndex => exact .inr ⟨⟨_, rfl⟩, rfl⟩

end ScriptMachine
