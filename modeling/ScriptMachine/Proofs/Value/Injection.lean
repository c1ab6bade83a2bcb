import Mathlib.Algebra.Group.Int.Defs
import ScriptMachine.Proofs.Value.Conversion

/-!
Host values made into values and read back. Every host value comes back, save the counts from `2 ^ 63`
on: a value holds integers of 64 bits with a sign, so such a count is held as a negative integer, and
no count is read from that.
-/

namespace ScriptMachine.Value

/-- A host value is read back from the value that it is made into. -/
def Restored {α : Type} [Extract α] [Inject α] (a : α) : Prop :=
  (inject a).extract α = .ok a

/-! ### Counts -/

section Counts

variable {n : UInt64}

/-- A count below `2 ^ 31` is held in 32 bits. -/
theorem inject_of_lt (small : n.toNat < 2 ^ 31) : inject n = int32 (Int32.ofNat n.toNat) :=
  if_pos (by rwa [Numeric.pow2_eq])

theorem inject_of_ge (large : 2 ^ 31 ≤ n.toNat) : inject n = int64 n.toInt64 :=
  if_neg (by rw [Numeric.pow2_eq]; omega)

/-- A count from `2 ^ 63` on becomes a negative integer of 64 bits. -/
theorem toInt_toInt64 (n : UInt64) :
    n.toInt64.toInt = if n.toNat < 2 ^ 63 then (n.toNat : Int) else n.toNat - 2 ^ 64 := by
  have word : n.toInt64.toInt =
      if 2 * n.toNat < 2 ^ 64 then (n.toNat : Int) else n.toNat - (2 ^ 64 : Nat) :=
    BitVec.toInt_eq_toNat_cond n.toBitVec
  rw [word]
  split <;> split <;> omega

theorem ofInt_toNat (n : UInt64) : UInt64.ofInt n.toNat = n := by
  apply UInt64.toNat_inj.mp
  have bounded := n.toNat_lt
  rw [UInt64.ofInt, UInt64.toNat_ofNat']
  omega

theorem extract_count (v : Value) : v.extract UInt64 = (do
    return UInt64.ofInt (← v.boundedInteger 0 (UInt64.size - 1) "usize")) :=
  rfl

theorem extract_of_integer? {v : Value} {m : Int64} (read : v.integer? = some m)
    (value : m.toInt = n.toNat) : v.extract UInt64 = .ok n := by
  have least : 0 ≤ m.toInt := by omega
  have greatest : m.toInt ≤ UInt64.size - 1 := by
    have bounded := n.toNat_lt
    change m.toInt ≤ 18446744073709551615
    omega
  rw [extract_count, boundedInteger_of_mem "usize" read least greatest, value]
  exact congrArg Except.ok (ofInt_toNat n)

/-- From `2 ^ 63` on a count is held as a negative integer, which is refused. -/
theorem extract_inject_of_ge (large : 2 ^ 63 ≤ n.toNat) :
    (inject n).extract UInt64 = .error (.integerOverflow n.toInt64 "usize") := by
  have negative : n.toInt64.toInt < 0 := by
    have bounded := n.toNat_lt
    rw [toInt_toInt64, if_neg (Nat.not_lt.mpr large)]
    omega
  rw [inject_of_ge (by omega), extract_count, boundedInteger_of_lt "usize" rfl negative]
  rfl

/-- A count comes back exactly if it is below `2 ^ 63`. -/
theorem restored_count_iff (n : UInt64) : Restored n ↔ n.toNat < 2 ^ 63 := by
  constructor
  · intro restored
    by_cases large : 2 ^ 63 ≤ n.toNat
    · rw [Restored, extract_inject_of_ge large] at restored
      cases restored
    · exact Nat.not_le.mp large
  · intro small
    by_cases narrow : n.toNat < 2 ^ 31
    · rw [Restored, inject_of_lt narrow]
      refine extract_of_integer? rfl ?_
      rw [Int32.toInt_toInt64, Int32.toInt_ofNat_of_lt narrow]
    · rw [Restored, inject_of_ge (Nat.not_lt.mp narrow)]
      refine extract_of_integer? rfl ?_
      rw [toInt_toInt64, if_pos small]

end Counts

/-- Every host value is read back from the value that it is made into, save the counts from `2 ^ 63`
on. -/
theorem host_values_restored (narrow : Int32) (wide : Int64) (n : UInt64) (x : Float) (single : Single)
    (b : Bool) (s : String) (items : Array Value) (v : Value) :
    Restored narrow ∧ Restored wide ∧ Restored x ∧ Restored single ∧ Restored b ∧ Restored s ∧
      Restored items ∧ Restored v ∧ (Restored n ↔ n.toNat < 2 ^ 63) :=
  ⟨extract_hold .int32 narrow, extract_hold .int64 wide, extract_hold .double x,
    extract_hold .float single, extract_hold .bool b, extract_hold .string s, rfl,
    extract_hold .untyped v, restored_count_iff n⟩

/-- The count `2 ^ 63` is held as the least 64-bit integer and is not read back. -/
theorem great_count_not_restored :
    let n : UInt64 := 9223372036854775808
    inject n = int64 Int64.minValue ∧
      (inject n).extract UInt64 = .error (.integerOverflow Int64.minValue "usize") ∧ ¬ Restored n := by
  intro n
  refine ⟨rfl, rfl, ?_⟩
  intro restored
  cases restored

end ScriptMachine.Value
