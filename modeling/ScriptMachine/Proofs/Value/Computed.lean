import ScriptMachine.Exec.Literal
import ScriptMachine.Proofs.Action
import ScriptMachine.Value.Arith

/-!
Computed values. No operator and no literal makes an array, and none of them fails because of the way
in which storage is addressed.
-/

namespace ScriptMachine

/-- Storage was addressed in a way that has no meaning. -/
def RuntimeError.isAddressing : RuntimeError → Bool
  | .unsupportedAddressing _ _ => true
  | _ => false

/-- An error that has nothing to do with addressing. -/
def RuntimeError.IsOrdinary (e : RuntimeError) : Prop :=
  e.isAddressing = false

/-- No array, or an ordinary error. -/
def Computed : Except RuntimeError Value → Prop :=
  Answers (fun v => v.items? = none) RuntimeError.IsOrdinary

theorem answers_conversion {α : Type} (r : Except ConversionError α) :
    Answers (fun _ => True) RuntimeError.IsOrdinary (r.mapError .conversion) := by
  cases r with
  | ok a => trivial
  | error e => rfl

namespace Value

variable {lhs rhs v : Value}

theorem items?_ofWide (lhs rhs : Value) (n : Int64) : (ofWide lhs rhs n).items? = none := by
  unfold ofWide
  split <;> rfl

/-- Arithmetic gives a number, or fails as a conversion does. -/
theorem computed_numeric (onInt : Int64 → Int64 → Int64) (onReal : Float → Float → Float) :
    Computed (numeric onInt onReal lhs rhs) := by
  unfold numeric
  split
  · refine (answers_conversion _).bind fun m _ => (answers_conversion _).bind fun n _ => ?_
    exact items?_ofWide lhs rhs (onInt m n)
  · exact (answers_conversion _).bind fun x _ => (answers_conversion _).bind fun y _ => rfl

theorem computed_bitwise (onInt : Int64 → Int64 → Int64) : Computed (bitwise onInt lhs rhs) := by
  refine (answers_conversion _).bind fun m _ => (answers_conversion _).bind fun n _ => ?_
  by_cases integers : lhs.isInteger && rhs.isInteger
  · simp only [integers, if_true]
    exact items?_ofWide lhs rhs (onInt m n)
  · simp only [integers]
    rfl

theorem computed_logical (onBool : Bool → Bool → Bool) (onInt : Int64 → Int64 → Int64) :
    Computed (logical onBool onInt lhs rhs) := by
  unfold logical
  split
  · rfl
  · exact computed_bitwise onInt

theorem answers_checkDivisor : Answers (fun _ => True) RuntimeError.IsOrdinary (checkDivisor rhs) := by
  refine (answers_conversion _).bind fun x _ => ?_
  by_cases zero : Numeric.isZero x
  · rw [if_pos zero]
    rfl
  · rw [if_neg zero]
    trivial

theorem computed_divide : Computed (divide lhs rhs) := by
  refine (answers_conversion _).bind fun x _ => (answers_conversion _).bind fun y _ => ?_
  by_cases zero : Numeric.isZero y
  · simp only [zero, if_true]
    rfl
  · simp only [zero]
    rfl

theorem computed_add : Computed (add lhs rhs) := by
  unfold add
  split
  · rfl
  · exact computed_numeric _ _

/-- No operator makes an array or fails because of addressing. -/
theorem computed_combine (op : BinaryOp) : Computed (combine op lhs rhs) := by
  cases op with
  | add => exact computed_add
  | sub => exact computed_numeric _ _
  | mul => exact computed_numeric _ _
  | div => exact computed_divide
  | rem => exact answers_checkDivisor.bind fun _ _ => computed_numeric _ _
  | mod => exact answers_checkDivisor.bind fun _ _ => computed_numeric _ _
  | and => exact computed_logical _ _
  | or => exact computed_logical _ _
  | xor => exact computed_logical _ _
  | shl => exact computed_bitwise _
  | shr => exact computed_bitwise _

/-- No instruction that stands for an operator makes an array or fails because of addressing. -/
theorem computed_apply (op : Opcode) : Computed (apply op lhs rhs) := by
  cases op with
  | binary op => exact computed_combine op
  | _ => rfl

theorem computed_negate : Computed (negate v) := by
  unfold negate
  split
  · rfl
  · rfl
  · exact (answers_conversion _).bind fun _ _ => rfl

theorem computed_invert : Computed (invert v) := by
  cases v <;> rfl

/-- A conversion makes no array: it gives none, or the value as it is. -/
theorem convert_cases {t : DataType} {w : Value} (converted : v.convert t = .ok w) :
    w = v ∨ w.items? = none := by
  cases t with
  | untyped =>
      cases converted
      exact .inl rfl
  | double | float | int64 | bool | string =>
      obtain ⟨x, -, made⟩ := exists_of_bind_eq_ok converted
      cases made
      exact .inr rfl
  | int32 | int16 =>
      obtain ⟨x, -, narrowed⟩ := exists_of_bind_eq_ok converted
      obtain ⟨y, -, made⟩ := exists_of_bind_eq_ok narrowed
      cases made
      exact .inr rfl

end Value

/-- No literal is an array or fails because of addressing. -/
theorem Instruction.computed_literal (i : Instruction) : Computed i.literal := by
  unfold literal
  cases i.typeOne with
  | int32 | int16 =>
      cases i.int? with
      | none => rfl
      | some n =>
          simp only
          split <;> rfl
  | int64 => cases i.int? <;> rfl
  | double | float =>
      simp only
      cases i.double?.or (i.int?.map fun n => Numeric.ofInt n.toInt) <;> rfl
  | bool => cases i.bool? <;> rfl
  | string => cases i.text? <;> rfl
  | untyped => rfl

end ScriptMachine
