import ScriptMachine.Instance.Basic

/-!
Built-in fields by name. A built-in name always means the built-in field of an instance: a user
variable of the same name is never reached.
-/

namespace ScriptMachine

/-- A built-in field of an instance. -/
inductive Field where
  | real (field : RealField)
  | spriteIndex
  | flag (flag : Flag)
  /-- The instance's own id. -/
  | id
  /-- The asset id of the instance. -/
  | objectIndex
deriving DecidableEq, Repr

namespace Field

/-- Every built-in field. -/
def all : List Field :=
  RealField.all.map real ++ [spriteIndex] ++ Flag.all.map flag ++ [id, objectIndex]

/-- The name of a built-in field. -/
def name : Field → String
  | real f => f.name
  | spriteIndex => "sprite_index"
  | flag f => f.name
  | id => "id"
  | objectIndex => "object_index"

/-- The built-in field of a name. -/
def ofName? (s : String) : Option Field :=
  all.find? fun f => f.name == s

/-- A name of a built-in field. -/
def isBuiltin (s : String) : Bool :=
  (ofName? s).isSome

/-- The value of a built-in field. Ids read as reals. -/
def read (i : Instance) : Field → Value
  | real f => .real (i.reals.get f)
  | spriteIndex => .real (Numeric.ofInt i.spriteIndex.toInt)
  | flag f => .bool (i.flags.get f)
  | id => .real (Numeric.ofInt i.id.toInt)
  | objectIndex => .real (Numeric.ofInt i.assetId.toInt)

/-- The instance with a built-in field changed. The two ids cannot be changed. -/
def write (i : Instance) (v : Value) : Field → Except RuntimeError Instance
  | real f => do
      let x ← (v.extract Float).mapError .conversion
      return { i with reals := i.reals.set f x }
  | spriteIndex => do
      let n ← (v.extract Int32).mapError .conversion
      return { i with spriteIndex := n }
  | flag f => do
      let b ← (v.extract Bool).mapError .conversion
      return { i with flags := i.flags.set f b }
  | id => .error (.readOnlyField (name id))
  | objectIndex => .error (.readOnlyField (name objectIndex))

/-- The name of a field stands for that field. -/
@[simp] theorem ofName?_name (f : Field) : ofName? f.name = some f := by
  cases f with
  | real r => cases r <;> rfl
  | flag b => cases b <;> rfl
  | _ => rfl

end Field

end ScriptMachine
