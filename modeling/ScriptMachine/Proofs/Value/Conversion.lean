import ScriptMachine.Proofs.Action
import ScriptMachine.Proofs.Numeric.Narrow
import ScriptMachine.Value.Extract

/-!
Conversion of a value to a declared type against reading it as a host type. Each declared type has a
host type, and holds its host values in values of one tag. Converting a value and reading it come to the
same host value, or fail from the same cause. A held host value is read back, so a converted value
stays as it is when it is converted once more.
-/

namespace ScriptMachine

/-! ### Readings that agree -/

/-- Two errors that differ at most in what they call the wanted type. -/
inductive ConversionError.SameCause : ConversionError → ConversionError → Prop where
  | typeMismatch (wanted wanted' actual : String) :
      SameCause (.typeMismatch wanted actual) (.typeMismatch wanted' actual)
  | integerOverflow (value : Int64) (wanted wanted' : String) :
      SameCause (.integerOverflow value wanted) (.integerOverflow value wanted')

/-- Two readings that both succeed, with related results, or both fail, from the same cause. -/
inductive Agree {α β : Type} (related : α → β → Prop) :
    Except ConversionError α → Except ConversionError β → Prop where
  | ok {a : α} {b : β} (holds : related a b) : Agree related (.ok a) (.ok b)
  | error {e e' : ConversionError} (same : e.SameCause e') : Agree related (.error e) (.error e')

section Agree

variable {α β γ δ : Type} {related : α → β → Prop} {related' : γ → δ → Prop}
  {x : Except ConversionError α} {y : Except ConversionError β}

/-- Readings agree step by step. -/
theorem Agree.bind {f : α → Except ConversionError γ} {g : β → Except ConversionError δ}
    (first : Agree related x y) (rest : ∀ a b, related a b → Agree related' (f a) (g b)) :
    Agree related' (x >>= f) (y >>= g) := by
  cases first with
  | ok holds => exact rest _ _ holds
  | error same => exact .error same

end Agree

/-! ### Host types of declared types -/

/-- The host type that a declared type stands for. -/
def DataType.Host : DataType → Type
  | double => Float
  | float => Value.Single
  | int32 => Int32
  | int64 => Int64
  | bool => Bool
  | untyped => Value
  | string => String
  | int16 => Int16

instance DataType.extractHost : (t : DataType) → Extract t.Host
  | double => inferInstanceAs (Extract Float)
  | float => inferInstanceAs (Extract Value.Single)
  | int32 => inferInstanceAs (Extract Int32)
  | int64 => inferInstanceAs (Extract Int64)
  | bool => inferInstanceAs (Extract Bool)
  | untyped => inferInstanceAs (Extract Value)
  | string => inferInstanceAs (Extract String)
  | int16 => inferInstanceAs (Extract Int16)

/-- The value in which a declared type holds a host value. -/
def DataType.hold : (t : DataType) → t.Host → Value
  | double, (x : Float) => .real x
  | float, (x : Value.Single) => .real x.toFloat
  | int32, (n : Int32) => .int32 n
  | int64, (n : Int64) => .int64 n
  | bool, (b : Bool) => .bool b
  | untyped, v => v
  | string, (s : String) => .string s
  | int16, (n : Int16) => .int32 n.toInt32

namespace Value

variable {v w : Value} {t : DataType}

/-! ### Views and ranges -/

/-- What the wanted type is called has no part in a view, only in its error. -/
theorem agree_view {α : Type} (f : Value → Option α) (wanted wanted' : String) (v : Value) :
    Agree Eq (v.view f wanted) (v.view f wanted') := by
  unfold view
  cases f v with
  | some a => exact .ok rfl
  | none => exact .error (.typeMismatch _ _ _)

theorem agree_within (least greatest : Int) (wanted wanted' : String) (n : Int64) :
    Agree (fun a b => a = b ∧ least ≤ b ∧ b ≤ greatest) (within least greatest wanted n)
      (within least greatest wanted' n) := by
  unfold within
  split
  · rename_i bounded
    exact .ok ⟨rfl, bounded⟩
  · exact .error (.integerOverflow _ _ _)

/-- A view of a value, held in a value again, against the view itself. -/
theorem agree_held {α : Type} (f : Value → Option α) (held : α → Value) (wanted wanted' : String)
    (v : Value) :
    Agree (fun w a => w = held a) (do return held (← v.view f wanted)) (v.view f wanted') := by
  unfold view
  cases f v with
  | some a => exact .ok rfl
  | none => exact .error (.typeMismatch _ _ _)

/-- An integer within bounds, held in a value, against a host integer of the same bounds. -/
theorem agree_held_integer {α : Type} {held : Int → Value} {host : Int → α} {hold : α → Value}
    {least greatest : Int} (wanted wanted' : String) (v : Value)
    (made : ∀ n, least ≤ n → n ≤ greatest → held n = hold (host n)) :
    Agree (fun w a => w = hold a)
      (do
        let n ← v.view integer? wanted
        return held (← within least greatest wanted n))
      (do return host (← v.boundedInteger least greatest wanted')) := by
  rw [boundedInteger, bind_assoc]
  refine (agree_view integer? wanted "integer" v).bind ?_
  rintro n _ rfl
  refine (agree_within least greatest wanted wanted' n).bind ?_
  rintro a _ ⟨rfl, low, high⟩
  exact .ok (made a low high)

/-! ### Conversion and reading -/

/-- Converting a value to a declared type and reading it as the host type agree. -/
theorem agree_convert_extract (t : DataType) (v : Value) :
    Agree (fun w a => w = t.hold a) (v.convert t) (v.extract t.Host) := by
  cases t with
  | double => exact agree_held real? real _ _ v
  | int64 => exact agree_held integer? int64 _ _ v
  | bool => exact agree_held truth? bool _ _ v
  | string => exact agree_held text? string _ _ v
  | untyped => exact .ok rfl
  | float =>
      refine (agree_view real? DataType.float.name "real" v).bind ?_
      rintro x _ rfl
      exact .ok rfl
  | int32 => exact agree_held_integer _ _ v fun n _ _ => rfl
  | int16 =>
      refine agree_held_integer _ _ v fun n low high => ?_
      exact congrArg int32 (Int16.toInt32_ofInt low high).symm

/-! ### Held values -/

/-- A number of single precision survives the way through a double. -/
theorem Single.ofFloat_toFloat (x : Single) : Single.ofFloat x.toFloat = x := by
  obtain ⟨x, y, rfl⟩ := x
  exact Single.mk.injEq .. ▸ Numeric.narrow_narrow y

section Integers

variable {n : Int64} {least greatest : Int}

theorem boundedInteger_of_mem (wanted : String) (read : v.integer? = some n) (low : least ≤ n.toInt)
    (high : n.toInt ≤ greatest) : v.boundedInteger least greatest wanted = .ok n.toInt := by
  rw [boundedInteger, view, read]
  exact if_pos ⟨low, high⟩

theorem boundedInteger_of_lt (wanted : String) (read : v.integer? = some n) (below : n.toInt < least) :
    v.boundedInteger least greatest wanted = .error (.integerOverflow n wanted) := by
  rw [boundedInteger, view, read]
  exact if_neg fun bounded => absurd bounded.1 (Int.not_le.mpr below)

theorem boundedInteger_int32 (wanted : String) {n : Int32} (low : least ≤ n.toInt)
    (high : n.toInt ≤ greatest) : (int32 n).boundedInteger least greatest wanted = .ok n.toInt := by
  rw [← n.toInt_toInt64] at low high ⊢
  exact boundedInteger_of_mem wanted rfl low high

end Integers

/-- A 32-bit integer is its own integer view. -/
theorem extract_int32 (n : Int32) : (int32 n).extract Int32 = .ok n := by
  have read : (int32 n).extract Int32 = (do
      return Int32.ofInt
        (← (int32 n).boundedInteger Int32.minValue.toInt Int32.maxValue.toInt "i32")) := rfl
  rw [read, boundedInteger_int32 _ n.minValue_le_toInt n.toInt_le]
  exact congrArg Except.ok n.ofInt_toInt

/-- A 16-bit integer is read back from the 32 bits that hold it. -/
theorem extract_int16 (n : Int16) : (int32 n.toInt32).extract Int16 = .ok n := by
  have read : (int32 n.toInt32).extract Int16 = (do
      return Int16.ofInt
        (← (int32 n.toInt32).boundedInteger Int16.minValue.toInt Int16.maxValue.toInt "i16")) := rfl
  have low : Int16.minValue.toInt ≤ n.toInt32.toInt := n.toInt_toInt32.symm ▸ n.minValue_le_toInt
  have high : n.toInt32.toInt ≤ Int16.maxValue.toInt := n.toInt_toInt32.symm ▸ n.toInt_le
  rw [read, boundedInteger_int32 _ low high, n.toInt_toInt32]
  exact congrArg Except.ok n.ofInt_toInt

/-- A held host value is read back. -/
theorem extract_hold (t : DataType) (a : t.Host) : (t.hold a).extract t.Host = .ok a := by
  cases t with
  | double | int64 | bool | string | untyped => rfl
  | float => exact congrArg Except.ok (Single.ofFloat_toFloat a)
  | int32 => exact extract_int32 a
  | int16 => exact extract_int16 a

/-- The values that a conversion leaves as they are are those that the declared type holds. -/
theorem convert_eq_self_iff (t : DataType) (w : Value) :
    w.convert t = .ok w ↔ ∃ a : t.Host, w = t.hold a := by
  constructor
  · intro kept
    have agree := agree_convert_extract t w
    rw [kept] at agree
    generalize w.extract t.Host = read at agree
    cases agree with
    | ok held => exact ⟨_, held⟩
  · rintro ⟨a, rfl⟩
    have agree := agree_convert_extract t (t.hold a)
    rw [extract_hold] at agree
    generalize (t.hold a).convert t = converted at agree
    cases agree with
    | ok held => rw [held]

/-- Converting a value to a declared type and reading it as the host type come to the same host value
or fail from the same cause, and a converted value stays as it is. -/
theorem conversions_agree_and_settle (t : DataType) (v : Value) :
    Agree (fun w a => w = t.hold a) (v.convert t) (v.extract t.Host) ∧
      ∀ w, v.convert t = .ok w → w.convert t = .ok w := by
  have agree := agree_convert_extract t v
  refine ⟨agree, ?_⟩
  intro w converted
  rw [converted] at agree
  rw [convert_eq_self_iff]
  generalize v.extract t.Host = read at agree
  cases agree with
  | ok held => exact ⟨_, held⟩

/-- The least 16-bit integer is held as a 32-bit one, and stays as it is. -/
theorem conversions_agree_and_settle_at_least :
    (int64 (-32768)).convert .int16 = .ok (int32 (-32768)) ∧
      (int64 (-32768)).extract Int16 = .ok (-32768) ∧
        (int32 (-32768)).convert .int16 = .ok (int32 (-32768)) := by
  have converted : (int64 (-32768)).convert .int16 = .ok (int32 (-32768)) := rfl
  have settled := (conversions_agree_and_settle .int16 (int64 (-32768))).2 _ converted
  exact ⟨converted, rfl, settled⟩

end Value

end ScriptMachine
