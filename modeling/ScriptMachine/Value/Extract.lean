import ScriptMachine.Value.Convert

/-!
Passing between values and host types. A host type that can be read from a value is an instance of
`Extract`, and one that can be made into a value is an instance of `Inject`. Reading is strict about
the family of the tag and about integer ranges.
-/

namespace ScriptMachine

/-- A host type that can be read from a value. -/
class Extract (α : Type) where
  extract : Value → Except ConversionError α

/-- A host type that can be made into a value. -/
class Inject (α : Type) where
  inject : α → Value

namespace Value

/-- The value as a host type. -/
def extract (α : Type) [Extract α] (v : Value) : Except ConversionError α :=
  Extract.extract v

/-- A host value as a dynamic value. -/
def inject {α : Type} [Inject α] (a : α) : Value :=
  Inject.inject a

/-- An integer view within the bounds of a host type. -/
def boundedInteger (least greatest : Int) (wanted : String) (v : Value) :
    Except ConversionError Int := do
  within least greatest wanted (← v.view integer? "integer")

/-- A number in single precision, held in a double that has the same value. -/
structure Single where
  toFloat : Float
  /-- It is the rounding of some double. -/
  isRounded : ∃ x, toFloat = Numeric.narrow x
deriving DecidableEq

/-- The single-precision number nearest to a double. -/
def Single.ofFloat (x : Float) : Single :=
  ⟨Numeric.narrow x, x, rfl⟩

instance : Extract Int16 where
  extract v := do
    return Int16.ofInt (← v.boundedInteger Int16.minValue.toInt Int16.maxValue.toInt "i16")

instance : Extract Int32 where
  extract v := do
    return Int32.ofInt (← v.boundedInteger Int32.minValue.toInt Int32.maxValue.toInt "i32")

instance : Extract UInt32 where
  extract v := do return UInt32.ofInt (← v.boundedInteger 0 (UInt32.size - 1) "u32")

/-- An unsigned 64-bit host integer is read through the signed view, so its upper half is never
read. -/
instance : Extract UInt64 where
  extract v := do return UInt64.ofInt (← v.boundedInteger 0 (UInt64.size - 1) "usize")

instance : Extract Int64 where
  extract v := v.view integer? "integer"

instance : Extract Float where
  extract v := v.view real? "real"

instance : Extract Single where
  extract v := do return Single.ofFloat (← v.view real? "real")

instance : Extract Bool where
  extract v := v.view truth? "bool"

instance : Extract String where
  extract v := v.view text? "string"

instance : Extract (Array Value) where
  extract v := v.view items? "array"

instance : Extract Value where
  extract v := .ok v

instance : Inject Int32 := ⟨int32⟩

instance : Inject Int64 := ⟨int64⟩

/-- A count becomes a 32-bit integer if it fits, and otherwise a 64-bit one, modulo `2 ^ 64`. -/
instance : Inject UInt64 where
  inject n := if n.toNat < Numeric.pow2 31 then int32 (Int32.ofNat n.toNat) else int64 n.toInt64

instance : Inject Float := ⟨real⟩

instance : Inject Single := ⟨fun x => real x.toFloat⟩

instance : Inject Bool := ⟨bool⟩

instance : Inject String := ⟨string⟩

instance : Inject (Array Value) := ⟨array⟩

instance : Inject Value := ⟨id⟩

instance : Inject Unit := ⟨fun _ => undefined⟩

end Value

end ScriptMachine
