import Mathlib.Data.Int.Bitwise
import ScriptMachine.Proofs.Numeric.Zero
import ScriptMachine.Value.Arith

/-!
Operators on integers. Every operator but the real division answers with the exact integer, fitted into
the width of the wider operand. It is computed in 64 bits and cut to 32 where neither operand is wider,
which comes to the same, since both widths wrap around.
-/

namespace ScriptMachine

/-- The integer that a value holds, and in how many bits. -/
inductive Value.Holds : Value → Nat → Int → Prop where
  | narrow (n : Int32) : Holds (int32 n) 32 n.toInt
  | wide (n : Int64) : Holds (int64 n) 64 n.toInt

/-- What an operator makes of two integers before the result is fitted into a width. A right shift
rounds down, and a quotient toward zero. -/
inductive BinaryOp.Gives (a b : Int) : BinaryOp → Int → Prop where
  | add : Gives a b .add (a + b)
  | sub : Gives a b .sub (a - b)
  | mul : Gives a b .mul (a * b)
  | and : Gives a b .and (a.land b)
  | or : Gives a b .or (a.lor b)
  | xor : Gives a b .xor (a.xor b)
  | shl : Gives a b .shl (a * 2 ^ (b % 64).toNat)
  | shr : Gives a b .shr (a / 2 ^ (b % 64).toNat)
  | rem (nonzero : b ≠ 0) : Gives a b .rem (a.tdiv b)
  | mod (nonzero : b ≠ 0) : Gives a b .mod (a - a.tdiv b * b)

/-- The operators that refuse zero on the right. -/
def BinaryOp.divides : BinaryOp → Bool
  | .div | .rem | .mod => true
  | _ => false

/-- Every operator but the real division gives something, unless it divides by zero. -/
theorem BinaryOp.exists_gives {op : BinaryOp} (a : Int) {b : Int} (other : op ≠ .div)
    (proper : ¬ (op.divides = true ∧ b = 0)) : ∃ n, op.Gives a b n := by
  have nonzero (divides : op.divides = true) : b ≠ 0 := fun zero => proper ⟨divides, zero⟩
  cases op with
  | add => exact ⟨_, .add⟩
  | sub => exact ⟨_, .sub⟩
  | mul => exact ⟨_, .mul⟩
  | div => exact absurd rfl other
  | rem => exact ⟨_, .rem (nonzero rfl)⟩
  | mod => exact ⟨_, .mod (nonzero rfl)⟩
  | and => exact ⟨_, .and⟩
  | or => exact ⟨_, .or⟩
  | xor => exact ⟨_, .xor⟩
  | shl => exact ⟨_, .shl⟩
  | shr => exact ⟨_, .shr⟩

/-! ### Bits of integers -/

/-- The remainder by `2 ^ w` has the low `w` bits of an integer, also of a negative one. -/
theorem testBit_emod_two_pow (n : Int) (w i : Nat) :
    (n % 2 ^ w).toNat.testBit i = (decide (i < w) && n.testBit i) := by
  cases n with
  | ofNat n =>
      have power : (n : Int) % 2 ^ w = (n % 2 ^ w : Nat) := by simp
      rw [Int.ofNat_eq_natCast, power, Int.toNat_natCast, Nat.testBit_mod_two_pow]
      rfl
  | negSucc n =>
      have below := Nat.mod_lt n (Nat.two_pow_pos w)
      have power : Int.negSucc n % 2 ^ w = (2 ^ w - (n % 2 ^ w + 1) : Nat) := by
        rw [Int.negSucc_emod n (Int.pow_pos (by decide))]
        push_cast [Nat.succ_le_of_lt below]
        omega
      have bits : (Int.negSucc n).testBit i = !n.testBit i := rfl
      rw [power, Int.toNat_natCast, Nat.testBit_two_pow_sub_succ below, Nat.testBit_mod_two_pow, bits]
      by_cases inside : i < w
      · rw [decide_eq_true inside, Bool.true_and, Bool.true_and, Bool.true_and]
      · rw [decide_eq_false inside, Bool.false_and, Bool.false_and]

theorem getLsbD_ofInt (n : Int) (w i : Nat) :
    (BitVec.ofInt w n).getLsbD i = (decide (i < w) && n.testBit i) := by
  rw [← BitVec.testBit_toNat, BitVec.toNat_ofInt, ← testBit_emod_two_pow]
  simp

section Bits

variable {onBits : BitVec 64 → BitVec 64 → BitVec 64} {onInts : Int → Int → Int}
  {onBit : Bool → Bool → Bool}

/-- An operation that works bit by bit on words and on integers. Every bit of a word is the bit of its
value, since a negative one has ones all the way up. -/
theorem toInt_bits
    (word : ∀ x y i, i < 64 → (onBits x y).getLsbD i = onBit (x.getLsbD i) (y.getLsbD i))
    (whole : ∀ a b i, (onInts a b).testBit i = onBit (a.testBit i) (b.testBit i)) (x y : BitVec 64) :
    (onBits x y).toInt = (onInts x.toInt y.toInt).bmod (2 ^ 64) := by
  rw [← BitVec.toInt_ofInt]
  congr 1
  apply BitVec.eq_of_getLsbD_eq
  intro i inside
  have bits (z : BitVec 64) : z.getLsbD i = z.toInt.testBit i := by
    conv_lhs => rw [← BitVec.ofInt_toInt (x := z), getLsbD_ofInt, decide_eq_true inside, Bool.true_and]
  rw [word x y i inside, getLsbD_ofInt, whole, bits x, bits y, decide_eq_true inside, Bool.true_and]

end Bits

/-! ### Operations on words -/

/-- An operation on 64-bit integers gives what one on integers gives, fitted into 64 bits. -/
def Wraps (onWords : Int64 → Int64 → Int64) (onInts : Int → Int → Int) : Prop :=
  ∀ m n, (onWords m n).toInt = (onInts m.toInt n.toInt).bmod (2 ^ 64)

section Words

variable {onWords : Int64 → Int64 → Int64} {onInts : Int → Int → Int}

theorem wraps_add : Wraps (· + ·) (· + ·) :=
  Int64.toInt_add

theorem wraps_sub : Wraps (· - ·) (· - ·) :=
  Int64.toInt_sub

theorem wraps_mul : Wraps (· * ·) (· * ·) :=
  Int64.toInt_mul

theorem wraps_div : Wraps (· / ·) Int.tdiv :=
  Int64.toInt_div

/-- A word is its own value, so nothing has to be fitted. -/
theorem wraps_of_exact (exactly : ∀ m n : Int64, (onWords m n).toInt = onInts m.toInt n.toInt) :
    Wraps onWords onInts := by
  intro m n
  rw [← exactly]
  exact (Int64.toInt_bmod _).symm

/-- The remainder is what the truncated quotient leaves. -/
theorem wraps_mod : Wraps (· % ·) fun a b => a - a.tdiv b * b := by
  apply wraps_of_exact
  intro m n
  rw [Int64.toInt_mod, Int.tmod_def, Int.mul_comm]

theorem wraps_land : Wraps (· &&& ·) Int.land := fun m n =>
  toInt_bits (fun _ _ _ _ => BitVec.getLsbD_and) Int.testBit_land m.toBitVec n.toBitVec

theorem wraps_lor : Wraps (· ||| ·) Int.lor := fun m n =>
  toInt_bits (fun _ _ _ _ => BitVec.getLsbD_or) Int.testBit_lor m.toBitVec n.toBitVec

theorem wraps_xor : Wraps (· ^^^ ·) Int.xor := fun m n =>
  toInt_bits (fun _ _ _ _ => BitVec.getLsbD_xor) Int.testBit_lxor m.toBitVec n.toBitVec

/-- The amount of a shift is taken modulo 64, also where it is negative. -/
theorem toNat_smod (n : Int64) : (n.toBitVec.smod 64).toNat = (n.toInt % 64).toNat := by
  have amount : (n.toBitVec.smod 64).toInt = n.toInt % 64 :=
    BitVec.toInt_smod.trans (Int.fmod_eq_emod_of_nonneg _ (by decide))
  have word := BitVec.toInt_eq_toNat_cond (n.toBitVec.smod 64)
  have bounded := (n.toBitVec.smod 64).isLt
  split at word <;> omega

/-- A shift to the left multiplies by a power of two, by the low six bits of the distance. -/
theorem wraps_shiftLeft : Wraps (· <<< ·) fun a b => a * 2 ^ (b % 64).toNat := by
  intro m n
  have shifted : (m <<< n).toInt = (m.toBitVec <<< (n.toBitVec.smod 64).toNat).toInt := rfl
  have word : m.toInt = (m.toBitVec.toNat : Int).bmod (2 ^ 64) := BitVec.toInt_eq_toNat_bmod _
  rw [shifted, toNat_smod, BitVec.toInt_shiftLeft, Nat.shiftLeft_eq, word, Int.bmod_mul_bmod,
    Int.natCast_mul, Int.natCast_pow]
  rfl

/-- A shift to the right divides by a power of two and rounds down. -/
theorem wraps_shiftRight : Wraps (· >>> ·) fun a b => a / 2 ^ (b % 64).toNat := by
  apply wraps_of_exact
  intro m n
  have shifted : (m >>> n).toInt = (m.toBitVec.sshiftRight (n.toBitVec.smod 64).toNat).toInt := rfl
  rw [shifted, toNat_smod, BitVec.toInt_sshiftRight, Int.shiftRight_eq_div_pow, Int.natCast_pow]
  rfl

end Words

namespace Value

variable {lhs rhs v : Value} {w u : Nat} {a b k : Int} {onWords : Int64 → Int64 → Int64}
  {onInts : Int → Int → Int}

/-- A result is an integer, fitted into a width. -/
def Yields (w : Nat) (n : Int) (result : Except RuntimeError Value) : Prop :=
  ∃ v, result = .ok v ∧ v.Holds w (n.bmod (2 ^ w))

/-! ### Operands and results -/

namespace Holds

theorem isInteger (holds : v.Holds w a) : v.isInteger = true := by
  cases holds <;> rfl

theorem integer (holds : v.Holds w a) : ∃ n : Int64, v.integer = .ok n ∧ n.toInt = a := by
  cases holds with
  | narrow n => exact ⟨n.toInt64, rfl, Int32.toInt_toInt64 n⟩
  | wide n => exact ⟨n, rfl, rfl⟩

/-- As a real number, an integer is rounded to the nearest double. -/
theorem number (holds : v.Holds w a) : v.number = .ok (Numeric.ofInt a) := by
  cases holds <;> rfl

/-- The wider of two integers gives the width of the result, and a word has its lower half in the
narrow one. -/
theorem ofWide (left : lhs.Holds w a) (right : rhs.Holds u b) {n : Int64}
    (word : n.toInt = k.bmod (2 ^ 64)) :
    (ofWide lhs rhs n).Holds (max w u) (k.bmod (2 ^ max w u)) := by
  have wide : (int64 n).Holds 64 (k.bmod (2 ^ 64)) := word ▸ .wide n
  have narrow : (int32 n.toInt32).Holds 32 (k.bmod (2 ^ 32)) := by
    have lower : n.toInt32.toInt = k.bmod (2 ^ 32) := by
      rw [Int64.toInt_toInt32, word, Int.bmod_bmod_of_dvd (by decide)]
    exact lower ▸ .narrow n.toInt32
  -- Both results are at hand; the widths of the operands choose between them.
  cases left with
  | narrow m =>
      cases right with
      | narrow _ => exact narrow
      | wide _ => exact wide
  | wide m =>
      cases right with
      | narrow _ => exact wide
      | wide _ => exact wide

/-- Arithmetic on two integers is done in words and fitted into the wider width. -/
theorem numeric (left : lhs.Holds w a) (right : rhs.Holds u b) (wraps : Wraps onWords onInts)
    (onReals : Float → Float → Float) :
    Yields (max w u) (onInts a b) (numeric onWords onReals lhs rhs) := by
  obtain ⟨m, leftRead, rfl⟩ := left.integer
  obtain ⟨n, rightRead, rfl⟩ := right.integer
  refine ⟨_, ?_, left.ofWide right (wraps m n)⟩
  rw [Value.numeric, left.isInteger, right.isInteger, leftRead, rightRead]
  rfl

theorem bitwise (left : lhs.Holds w a) (right : rhs.Holds u b) (wraps : Wraps onWords onInts) :
    Yields (max w u) (onInts a b) (bitwise onWords lhs rhs) := by
  obtain ⟨m, leftRead, rfl⟩ := left.integer
  obtain ⟨n, rightRead, rfl⟩ := right.integer
  refine ⟨_, ?_, left.ofWide right (wraps m n)⟩
  rw [Value.bitwise, left.isInteger, right.isInteger, leftRead, rightRead]
  rfl

theorem logical (left : lhs.Holds w a) (right : rhs.Holds u b) (wraps : Wraps onWords onInts)
    (onBools : Bool → Bool → Bool) :
    Yields (max w u) (onInts a b) (logical onBools onWords lhs rhs) := by
  have integers : Value.logical onBools onWords lhs rhs = Value.bitwise onWords lhs rhs := by
    cases left <;> rfl
  rw [integers]
  exact left.bitwise right wraps

theorem add (left : lhs.Holds w a) (right : rhs.Holds u b) :
    Yields (max w u) (a + b) (add lhs rhs) := by
  have integers : Value.add lhs rhs = Value.numeric (· + ·) (· + ·) lhs rhs := by
    cases left <;> rfl
  rw [integers]
  exact left.numeric right wraps_add _

/-- The divisor is refused exactly if it is zero, although it is tested as a double. -/
theorem checkDivisor (right : rhs.Holds u b) :
    checkDivisor rhs = if b = 0 then .error .divisionByZero else .ok () := by
  rw [Value.checkDivisor, right.number]
  simp only [bind, Except.bind, Numeric.isZero_ofInt]
  rfl

/-- The real division of two integers refuses zero and is not fitted into any width. -/
theorem divide (left : lhs.Holds w a) (right : rhs.Holds u b) :
    divide lhs rhs = if b = 0 then .error .divisionByZero
      else .ok (real (Numeric.ofInt a / Numeric.ofInt b)) := by
  rw [Value.divide, left.number, right.number]
  simp only [bind, Except.bind, Numeric.isZero_ofInt]
  split <;> rfl

/-- The quotient of two integers is rounded toward zero. -/
theorem quotient (left : lhs.Holds w a) (right : rhs.Holds u b) (nonzero : b ≠ 0) :
    Yields (max w u) (a.tdiv b) (quotient lhs rhs) := by
  rw [Value.quotient, right.checkDivisor, if_neg nonzero]
  exact left.numeric right wraps_div _

/-- The remainder of two integers has the sign of the dividend. -/
theorem modulo (left : lhs.Holds w a) (right : rhs.Holds u b) (nonzero : b ≠ 0) :
    Yields (max w u) (a - a.tdiv b * b) (modulo lhs rhs) := by
  rw [Value.modulo, right.checkDivisor, if_neg nonzero]
  exact left.numeric right wraps_mod _

end Holds

/-! ### Operators -/

section Operands

variable (left : lhs.Holds w a) (right : rhs.Holds u b) {op : BinaryOp}

include left right

/-- Every operator answers with what it makes of two integers, fitted into the wider width. -/
theorem combine_yields (gives : op.Gives a b k) : Yields (max w u) k (combine op lhs rhs) := by
  cases gives with
  | add => exact left.add right
  | sub => exact left.numeric right wraps_sub _
  | mul => exact left.numeric right wraps_mul _
  | and => exact left.logical right wraps_land _
  | or => exact left.logical right wraps_lor _
  | xor => exact left.logical right wraps_xor _
  | shl => exact (left.bitwise right wraps_shiftLeft :)
  | shr => exact (left.bitwise right wraps_shiftRight :)
  | rem nonzero => exact left.quotient right nonzero
  | mod nonzero => exact left.modulo right nonzero

/-- Every operator that divides refuses zero. -/
theorem combine_refuses (divides : op.divides = true) (zero : b = 0) :
    combine op lhs rhs = .error .divisionByZero := by
  cases op with
  | div => rw [combine, left.divide right, if_pos zero]
  | rem =>
      rw [combine, Value.quotient, right.checkDivisor, if_pos zero]
      rfl
  | mod =>
      rw [combine, Value.modulo, right.checkDivisor, if_pos zero]
      rfl
  | _ => cases divides

/-- Nothing but a division by zero is refused. -/
theorem combine_answers (proper : ¬ (op.divides = true ∧ b = 0)) :
    ∃ v, combine op lhs rhs = .ok v := by
  by_cases real : op = .div
  · subst real
    have nonzero : b ≠ 0 := fun zero => proper ⟨rfl, zero⟩
    exact ⟨_, (left.divide right).trans (if_neg nonzero)⟩
  · obtain ⟨n, gives⟩ := BinaryOp.exists_gives a real proper
    obtain ⟨v, answered, -⟩ := combine_yields left right gives
    exact ⟨v, answered⟩

end Operands

/-- An operator on two integers other than the real division answers with an integer as wide as the
wider of them: the exact result, fitted into that width. The only integers that any operator refuses
are zero divisors. -/
theorem integer_operation_exact (left : lhs.Holds w a) (right : rhs.Holds u b) (op : BinaryOp) :
    (∀ n, op.Gives a b n → ∃ v, apply (.binary op) lhs rhs = .ok v ∧
      v.Holds (max w u) (n.bmod (2 ^ max w u))) ∧
      ∀ e, apply (.binary op) lhs rhs = .error e ↔
        e = .divisionByZero ∧ op.divides = true ∧ b = 0 := by
  refine ⟨fun n gives => combine_yields left right gives, ?_⟩
  intro e
  by_cases refused : op.divides = true ∧ b = 0
  · have error : apply (.binary op) lhs rhs = .error .divisionByZero :=
      combine_refuses left right refused.1 refused.2
    rw [error]
    constructor
    · rintro ⟨⟩
      exact ⟨rfl, refused⟩
    · rintro ⟨rfl, -⟩
      rfl
  · obtain ⟨v, answered⟩ : ∃ v, apply (.binary op) lhs rhs = .ok v :=
      combine_answers left right refused
    rw [answered]
    exact ⟨nofun, fun failed => absurd failed.2 refused⟩

/-- The least integer by minus one: the quotient wraps around, nothing is left over, and a shift by a
negative amount is one by 63. -/
theorem integer_operation_exact_at_least :
    let least := int32 Int32.minValue
    let minusOne := int32 (-1)
    (least.Holds 32 (-2147483648) ∧ minusOne.Holds 32 (-1)) ∧
      (∃ v, apply (.binary .rem) least minusOne = .ok v ∧ v.Holds 32 (-2147483648)) ∧
      (∃ v, apply (.binary .mod) least minusOne = .ok v ∧ v.Holds 32 0) ∧
      (∃ v, apply (.binary .shr) least minusOne = .ok v ∧ v.Holds 32 (-1)) ∧
        apply (.binary .rem) least (int64 0) = .error .divisionByZero := by
  intro least minusOne
  have left : least.Holds 32 (-2147483648) := .narrow Int32.minValue
  have right : minusOne.Holds 32 (-1) := .narrow (-1)
  have quotient := (integer_operation_exact left right .rem).1 _ (.rem (by decide))
  have rest := (integer_operation_exact left right .mod).1 _ (.mod (by decide))
  have shifted := (integer_operation_exact left right .shr).1 _ .shr
  have refused := (integer_operation_exact left (.wide 0) .rem).2 .divisionByZero
  exact ⟨⟨left, right⟩, quotient, rest, shifted, refused.mpr ⟨rfl, rfl, rfl⟩⟩

end Value

end ScriptMachine
