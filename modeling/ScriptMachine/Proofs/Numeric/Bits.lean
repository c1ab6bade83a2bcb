import ScriptMachine.Numeric.Binary
import ScriptMachine.Proofs.Numeric.Fraction

/-!
The bits of a double. Reading bits as a double keeps them, unless they are those of a not-a-number.
So a double that is put together from fields has these fields again, and its parts and its place among
the numbers can be read off them.
-/

namespace ScriptMachine.Numeric

open Float.Model (UnpackedFloat)

/-! ### Bits read as a double -/

section Fields

/-- The sign field of the bits of a double. -/
def signField (bits : BitVec 64) : BitVec 1 :=
  bits.extractLsb' 63 1

/-- The exponent field of the bits of a double. -/
def exponentField (bits : BitVec 64) : BitVec 11 :=
  bits.extractLsb' 52 11

/-- The fraction field of the bits of a double. -/
def fractionField (bits : BitVec 64) : BitVec 52 :=
  bits.extractLsb' 0 52

theorem toBitVec_ofBitVec (bit : BitVec 1) : (UnpackedFloat.Sign.ofBitVec bit).toBitVec = bit := by
  obtain rfl | rfl : bit = 0#1 ∨ bit = 1#1 := by
    have below := bit.isLt
    have either : bit.toNat = 0 ∨ bit.toNat = 1 := by omega
    exact either.imp BitVec.toNat_inj.mp BitVec.toNat_inj.mp
  · rfl
  · rfl

/-- The fields of a double make up its bits. -/
theorem packComponents_fields (bits : BitVec 64) :
    UnpackedFloat.packComponents .binary64 (.ofBitVec (signField bits)) (exponentField bits)
      (fractionField bits) = bits := by
  have front : signField bits ++ exponentField bits = bits.extractLsb' 52 12 :=
    BitVec.extractLsb'_append_extractLsb'_eq_extractLsb' rfl
  have whole : bits.extractLsb' 52 12 ++ fractionField bits = bits :=
    BitVec.extractLsb'_append_extractLsb'
  rw [UnpackedFloat.packComponents, toBitVec_ofBitVec]
  exact (congrArg (· ++ fractionField bits) front).trans whole

variable {bits : BitVec 64}

theorem packComponents_eq {exponent : BitVec 11} {fraction : BitVec 52}
    (exponent_eq : exponentField bits = exponent) (fraction_eq : fractionField bits = fraction) :
    UnpackedFloat.packComponents .binary64 (.ofBitVec (signField bits)) exponent fraction = bits := by
  rw [← exponent_eq, ← fraction_eq]
  exact packComponents_fields bits

/-- A mantissa with its implicit bit. -/
theorem toNat_implicit (fraction : BitVec 52) : (1#1 ++ fraction).toNat = 2 ^ 52 + fraction.toNat := by
  rw [BitVec.toNat_append, Nat.shiftLeft_eq, Nat.mul_comm, ← Nat.two_pow_add_eq_or_of_lt fraction.isLt]
  rfl

theorem pack_subnormal (subnormal : exponentField bits = 0#11)
    (positive : 0 < (fractionField bits).toNat) :
    UnpackedFloat.pack .binary64 (.finite (.ofBitVec (signField bits)) (fractionField bits).toNat
      (((exponentField bits).toNat : Int) - (1023 + 52) + 1) positive) = bits := by
  have biased : (((exponentField bits).toNat : Int) - (1023 + 52) + 1 + 1023 + 52).toNat = 1 := by
    rw [subnormal]
    rfl
  have fits : ¬ 2 ^ 11 ≤ (((exponentField bits).toNat : Int) - (1023 + 52) + 1 + 1023 + 52).toNat + 1 := by
    rw [biased]
    decide
  have short : (fractionField bits).toNat.log2 < 52 :=
    (Nat.log2_lt (Nat.ne_of_gt positive)).mpr (fractionField bits).isLt
  have short' : ¬ (fractionField bits).toNat.log2 + 1 = 53 := by omega
  have packed := packComponents_eq subnormal rfl
  unfold UnpackedFloat.pack
  refine ((if_neg fits).trans (if_neg short')).trans ?_
  rw [BitVec.ofNat_toNat, BitVec.setWidth_eq]
  exact packed

/-- A normal number keeps its bits when it is unpacked and packed. -/
theorem pack_normal (below : exponentField bits ≠ -1#11)
    (positive : 0 < (1#1 ++ fractionField bits).toNat) :
    UnpackedFloat.pack .binary64 (.finite (.ofBitVec (signField bits)) (1#1 ++ fractionField bits).toNat
      (((exponentField bits).toNat : Int) - (1023 + 52)) positive) = bits := by
  have apart : (exponentField bits).toNat ≠ 2047 := fun eq => below (BitVec.toNat_inj.mp eq)
  have bounded := (exponentField bits).isLt
  have biased : (((exponentField bits).toNat : Int) - (1023 + 52) + 1023 + 52).toNat
      = (exponentField bits).toNat := by omega
  have fits : ¬ 2 ^ 11 ≤ (((exponentField bits).toNat : Int) - (1023 + 52) + 1023 + 52).toNat + 1 := by
    omega
  have full : (1#1 ++ fractionField bits).toNat.log2 + 1 = 53 := by
    have inside := (fractionField bits).isLt
    rw [toNat_implicit, Nat.add_right_cancel_iff, Nat.log2_eq_iff (by omega)]
    omega
  have exponent_eq : exponentField bits
      = .ofNat 11 (((exponentField bits).toNat : Int) - (1023 + 52) + 1023 + 52).toNat := by
    rw [biased, BitVec.ofNat_toNat, BitVec.setWidth_eq]
  have fraction_eq : fractionField bits = .ofNat 52 (1#1 ++ fractionField bits).toNat := by
    rw [toNat_implicit]
    apply BitVec.toNat_inj.mp
    rw [BitVec.toNat_ofNat, Nat.add_mod_left, Nat.mod_eq_of_lt (fractionField bits).isLt]
  unfold UnpackedFloat.pack
  exact ((if_neg fits).trans (if_pos full)).trans (packComponents_eq exponent_eq fraction_eq)

/-- Whatever is not a not-a-number keeps its bits when it is unpacked and packed. -/
theorem pack_unpack (number : exponentField bits = -1#11 → fractionField bits = 0#52) :
    UnpackedFloat.pack .binary64 (UnpackedFloat.unpack .binary64 bits) = bits := by
  have read {x : UnpackedFloat} (unpacked : UnpackedFloat.unpack .binary64 bits = x)
      (packed : UnpackedFloat.pack .binary64 x = bits) :
      UnpackedFloat.pack .binary64 (UnpackedFloat.unpack .binary64 bits) = bits := by
    rw [unpacked, packed]
  by_cases full : exponentField bits = -1#11
  · exact read ((if_pos full).trans (if_pos (number full))) (packComponents_eq full (number full))
  · by_cases least : exponentField bits = 0#11
    · by_cases empty : fractionField bits = 0#52
      · exact read (((if_neg full).trans (if_pos least)).trans (dif_pos empty))
          (packComponents_eq least empty)
      · exact read (((if_neg full).trans (if_pos least)).trans (dif_neg empty)) (pack_subnormal least _)
    · exact read ((if_neg full).trans (if_neg least)) (pack_normal full _)

end Fields

theorem toNat_exponentField (bits : BitVec 64) :
    (exponentField bits).toNat = bits.toNat / 2 ^ 52 % 2 ^ 11 := by
  rw [exponentField, BitVec.extractLsb'_toNat, Nat.shiftRight_eq_div_pow]

theorem toNat_fractionField (bits : BitVec 64) : (fractionField bits).toNat = bits.toNat % 2 ^ 52 := by
  rw [fractionField, BitVec.extractLsb'_toNat, Nat.shiftRight_zero]

/-- Reading bits as a double keeps them, unless they lie beyond infinity. -/
theorem toBits_ofBits {bits : UInt64} (number : bits.toNat % 2 ^ 63 ≤ 2047 * 2 ^ 52) :
    (Float.ofBits bits).toBits = bits := by
  have packed : UnpackedFloat.pack .binary64 (UnpackedFloat.unpack .binary64 bits.toBitVec)
      = bits.toBitVec := by
    apply pack_unpack
    intro full
    have exponent := congrArg BitVec.toNat full
    rw [toNat_exponentField] at exponent
    change bits.toNat / 2 ^ 52 % 2 ^ 11 = 2047 at exponent
    apply BitVec.toNat_inj.mp
    rw [toNat_fractionField]
    change bits.toNat % 2 ^ 52 = 0
    omega
  exact congrArg UInt64.ofBitVec packed

/-! ### Doubles from fields -/

section FromFields

variable (negative : Bool) {field fraction : Nat}

/-- A double that is put together from fields has these fields in its bits. -/
theorem toNat_toBits_ofFields (below : fraction < 2 ^ 52)
    (number : field < 2047 ∨ field = 2047 ∧ fraction = 0) :
    (ofFields negative field fraction).toBits.toNat
      = (if negative then 2 ^ 63 else 0) + field * 2 ^ 52 + fraction := by
  have bits : (UInt64.ofNat ((if negative then pow2 63 else 0) + field * pow2 52 + fraction)).toNat
      = (if negative then 2 ^ 63 else 0) + field * 2 ^ 52 + fraction := by
    rw [pow2_eq, pow2_eq]
    apply UInt64.toNat_ofNat_of_lt'
    change (if negative then 2 ^ 63 else 0) + field * 2 ^ 52 + fraction < 2 ^ 64
    split <;> omega
  rw [ofFields, toBits_ofBits, bits]
  rw [bits]
  split <;> omega

/-- The place of a double among the numbers is that of its bits without the sign, on the side of its
sign. -/
theorem rank?_ofFields (below : fraction < 2 ^ 52)
    (number : field < 2047 ∨ field = 2047 ∧ fraction = 0) :
    rank? (ofFields negative field fraction) =
      some (if negative then -((field * 2 ^ 52 + fraction : Nat) : Int)
        else (field * 2 ^ 52 + fraction : Nat)) := by
  have bits := toNat_toBits_ofFields negative below number
  simp only [rank?, pow2_eq, bits]
  cases negative with
  | false =>
      simp only [Bool.false_eq_true, if_false]
      rw [if_neg (by omega), if_neg (by omega)]
      congr 2
      omega
  | true =>
      simp only [if_true]
      rw [if_neg (by omega), if_pos (by omega)]
      congr 3
      omega

/-- A normal number has the mantissa that its fraction field stands for. -/
theorem parts_ofFields (below : fraction < 2 ^ 52) (positive : 0 < field) (fits : field < 2047) :
    parts (ofFields negative field fraction)
      = .finite negative (2 ^ 52 + fraction) (field - 1075) := by
  have bits := toNat_toBits_ofFields negative below (.inl fits)
  have sign : decide (2 ^ 63 ≤ (if negative then 2 ^ 63 else 0) + field * 2 ^ 52 + fraction)
      = negative := by
    cases negative with
    | false => exact decide_eq_false (by simp only [Bool.false_eq_true, if_false]; omega)
    | true => exact decide_eq_true (by simp only [if_true]; omega)
  have exponent : ((if negative then 2 ^ 63 else 0) + field * 2 ^ 52 + fraction) / 2 ^ 52 % 2048
      = field := by
    split <;> omega
  have rest : ((if negative then 2 ^ 63 else 0) + field * 2 ^ 52 + fraction) % 2 ^ 52 = fraction := by
    split <;> omega
  simp only [parts, pow2_eq, bits, sign, exponent, rest]
  rw [if_neg (Nat.ne_of_lt fits), if_neg (Nat.ne_of_gt positive)]

end FromFields

/-- Only a not-a-number has no place among the numbers. -/
theorem rank?_eq_none_iff (x : Float) : rank? x = none ↔ parts x = .nan := by
  have size := x.toBits.toNat_lt
  simp only [rank?, parts, pow2_eq]
  constructor
  · intro unplaced
    split at unplaced
    · rw [if_pos (by omega), if_neg (by omega)]
    · split at unplaced <;> cases unplaced
  · intro nan
    split at nan
    · split at nan
      · cases nan
      · rw [if_pos (by omega)]
    · split at nan <;> cases nan

/-! ### Doubles from a mantissa and an exponent -/

section Assembled

variable {negative : Bool} {mantissa : Nat} {exponent : Int}

/-- A number with a normal exponent is put together from its mantissa without the leading bit. -/
theorem assemble_normal (nonzero : mantissa ≠ 0) (normal : 0 < mantissa.log2 + exponent + 1023) :
    assemble negative mantissa exponent
      = ofFields negative (mantissa.log2 + exponent + 1023).toNat
          (mantissa * 2 ^ 52 / 2 ^ mantissa.log2 - 2 ^ 52) := by
  rw [assemble, if_neg nonzero]
  dsimp only
  rw [if_neg (Int.not_le.mpr normal), pow2_eq, pow2_eq]

/-- A number below the normal ones has an exponent field of zero and all of its mantissa. -/
theorem assemble_subnormal (nonzero : mantissa ≠ 0) (subnormal : mantissa.log2 + exponent + 1023 ≤ 0) :
    assemble negative mantissa exponent
      = ofFields negative 0 (mantissa * 2 ^ (exponent + 1074).toNat) := by
  rw [assemble, if_neg nonzero]
  dsimp only
  rw [if_pos subnormal, pow2_eq]

/-- Without its leading bit a mantissa fills less than the fraction field. -/
theorem fraction_lt (mantissa : Nat) : mantissa * 2 ^ 52 / 2 ^ mantissa.log2 - 2 ^ 52 < 2 ^ 52 := by
  have shifted : mantissa * 2 ^ 52 < 2 ^ mantissa.log2 * 2 ^ 53 := by
    have := Nat.lt_log2_self (n := mantissa)
    omega
  have quotient := Nat.div_lt_of_lt_mul shifted
  omega

/-- A number below the least normal one fills less than the fraction field. -/
theorem subnormal_lt (low : -1074 ≤ exponent) (subnormal : mantissa.log2 + exponent + 1023 ≤ 0) :
    mantissa * 2 ^ (exponent + 1074).toNat < 2 ^ 52 := by
  have bounded : mantissa < 2 ^ (mantissa.log2 + 1) := Nat.lt_log2_self
  have shifted := Nat.mul_lt_mul_of_pos_right bounded (Nat.two_pow_pos (exponent + 1074).toNat)
  rw [← Nat.pow_add] at shifted
  exact Nat.lt_of_lt_of_le shifted (Nat.pow_le_pow_right (by decide) (by omega))

/-- A double that is put together from a mantissa is a number. -/
theorem exists_rank?_assemble (low : -1074 ≤ exponent) (fits : mantissa.log2 + exponent < 1024) :
    ∃ rank, rank? (assemble negative mantissa exponent) = some rank := by
  by_cases nonzero : mantissa = 0
  · rw [assemble, if_pos nonzero]
    exact ⟨_, rank?_ofFields negative (by decide) (by decide)⟩
  · by_cases normal : 0 < mantissa.log2 + exponent + 1023
    · rw [assemble_normal nonzero normal]
      exact ⟨_, rank?_ofFields negative (fraction_lt mantissa) (.inl (by omega))⟩
    · have subnormal := Int.not_lt.mp normal
      rw [assemble_subnormal nonzero subnormal]
      exact ⟨_, rank?_ofFields negative (subnormal_lt low subnormal) (.inl (by decide))⟩

end Assembled

/-- Rounding to double precision gives a number. -/
theorem exists_rank?_nearest (negative : Bool) (q : Fraction) :
    ∃ rank, rank? (Format.double.nearest negative q) = some rank := by
  have least : Format.double.leastExponent = -1074 := rfl
  have overflow : Format.double.overflowExponent = 1024 := rfl
  rw [Format.nearest, least, overflow]
  dsimp only
  split
  · exact ⟨_, rank?_ofFields negative (by decide) (by decide)⟩
  · split
    · exact ⟨_, rank?_ofFields negative (by decide) (by decide)⟩
    · rename_i finite
      -- The exponent is in range, so what was rounded is put together without an overflow.
      by_cases nonzero : (q.unscale (max (-1074) (q.log2 - (Format.double.precision - 1)))).round = 0
      · rw [nonzero, assemble, if_pos rfl, zero]
        exact ⟨_, rank?_ofFields negative (by decide) (by decide)⟩
      · exact exists_rank?_assemble (by omega) (by omega)

end ScriptMachine.Numeric
