import ScriptMachine.Proofs.Numeric.Bits

/-!
Rounding to single precision. The rounding of a finite double is a zero, an infinity or a number that
single precision represents, and such a number is its own rounding. So rounding twice is rounding once.
-/

namespace ScriptMachine.Numeric

/-! ### A number with a shifted mantissa -/

section Shifted

variable {m : Nat} {e : Int}

/-- Bits can be moved from the exponent to the mantissa of a normal number. -/
theorem assemble_mul_two_pow (negative : Bool) (nonzero : m ≠ 0) (d : Nat)
    (normal : 0 < m.log2 + (e + d) + 1023) :
    assemble negative (m * 2 ^ d) e = assemble negative m (e + d) := by
  have shifted : m * 2 ^ d ≠ 0 := Nat.mul_ne_zero nonzero (Nat.ne_of_gt (Nat.two_pow_pos d))
  have lead := log2_mul_two_pow nonzero d
  have normal' : 0 < ((m * 2 ^ d).log2 : Int) + e + 1023 := by omega
  have field : ((m * 2 ^ d).log2 + e + 1023).toNat = (m.log2 + (e + d) + 1023).toNat := by omega
  have fraction : m * 2 ^ d * 2 ^ 52 / 2 ^ (m.log2 + d) = m * 2 ^ 52 / 2 ^ m.log2 := by
    rw [Nat.mul_right_comm, Nat.pow_add]
    exact Nat.mul_div_mul_right _ _ (Nat.two_pow_pos d)
  rw [assemble_normal shifted normal', assemble_normal nonzero normal, field, lead, fraction]

/-- A normal number is read with a mantissa of full length. -/
theorem parts_assemble (negative : Bool) (nonzero : m ≠ 0) (short : m.log2 ≤ 52)
    (normal : 0 < m.log2 + e + 1023) (fits : m.log2 + e < 1024) :
    parts (assemble negative m e) =
      .finite negative (m * 2 ^ (52 - m.log2)) (e - (52 - m.log2 : Nat)) := by
  have full : m * 2 ^ 52 / 2 ^ m.log2 = m * 2 ^ (52 - m.log2) := by
    have split : 2 ^ 52 = 2 ^ (52 - m.log2) * 2 ^ m.log2 := by
      rw [← Nat.pow_add, Nat.sub_add_cancel short]
    rw [split, ← Nat.mul_assoc, Nat.mul_div_cancel _ (Nat.two_pow_pos _)]
  have implicit : 2 ^ 52 ≤ m * 2 ^ (52 - m.log2) := by
    have split : 2 ^ 52 = 2 ^ m.log2 * 2 ^ (52 - m.log2) := by
      rw [← Nat.pow_add, Nat.add_sub_cancel' short]
    rw [split]
    exact Nat.mul_le_mul_right _ (Nat.log2_self_le nonzero)
  have mantissa : 2 ^ 52 + (m * 2 ^ (52 - m.log2) - 2 ^ 52) = m * 2 ^ (52 - m.log2) :=
    Nat.add_sub_cancel' implicit
  have exponent : (((m.log2 + e + 1023).toNat : Nat) : Int) - 1075 = e - (52 - m.log2 : Nat) := by omega
  rw [assemble_normal nonzero normal, parts_ofFields negative (fraction_lt m) (by omega) (by omega),
    full, mantissa, exponent]

end Shifted

/-! ### Numbers of a format -/

namespace Format

/-- The number `m * 2 ^ e` belongs to a format. -/
structure Represents (f : Format) (m : Nat) (e : Int) : Prop where
  nonzero : m ≠ 0
  short : m.log2 < f.precision
  least : f.leastExponent ≤ e
  fits : m.log2 + e < f.overflowExponent

section Nearest

variable {f : Format} {m : Nat} {e : Int} (normal : -1022 ≤ f.leastExponent) (negative : Bool)

include normal

/-- A number of a format is the nearest one to itself, however its mantissa is written. -/
theorem Represents.nearest (represents : f.Represents m e) (d : Nat) :
    f.nearest negative (.binary (m * 2 ^ d) (e - d)) = assemble negative m e := by
  obtain ⟨nonzero, short, least, fits⟩ := represents
  have shifted : m * 2 ^ d ≠ 0 := Nat.mul_ne_zero nonzero (Nat.ne_of_gt (Nat.two_pow_pos d))
  have numerator : ¬ (Fraction.binary (m * 2 ^ d) (e - d)).num = 0 := by
    rw [Fraction.binary, pow2_eq]
    exact Nat.mul_ne_zero shifted (Nat.ne_of_gt (Nat.two_pow_pos _))
  have lead : (Fraction.binary (m * 2 ^ d) (e - d)).log2 = m.log2 + e := by
    rw [log2_binary shifted, log2_mul_two_pow nonzero]
    omega
  rw [Format.nearest, if_neg numerator, lead]
  have divides : max f.leastExponent (m.log2 + e - (f.precision - 1)) ≤ e := by omega
  generalize max f.leastExponent (m.log2 + e - (f.precision - 1)) = unit at divides
  have exponent : unit + (e - unit).toNat = e := by omega
  dsimp only
  rw [round_unscale_binary divides, log2_mul_two_pow nonzero, if_neg (by omega),
    assemble_mul_two_pow negative nonzero _ (by omega), exponent]

/-- Rounding to a format gives a zero, an infinity or a number of the format. -/
theorem nearest_cases (precise : 0 < f.precision) (m : Nat) (e : Int) :
    f.nearest negative (.binary m e) = zero negative ∨
      f.nearest negative (.binary m e) = infinity negative ∨
      ∃ n k, f.Represents n k ∧ f.nearest negative (.binary m e) = assemble negative n k := by
  by_cases empty : (Fraction.binary m e).num = 0
  · exact .inl (if_pos empty)
  have nonzero : m ≠ 0 := by
    rintro rfl
    exact empty (Nat.zero_mul _)
  have least : f.leastExponent ≤ max f.leastExponent (m.log2 + e - (f.precision - 1)) := by omega
  have within : m.log2 + e < max f.leastExponent (m.log2 + e - (f.precision - 1)) + f.precision := by
    omega
  rw [Format.nearest, if_neg empty, log2_binary nonzero]
  -- The unit matters by two bounds: it is no finer than the format allows, and coarse enough.
  generalize max f.leastExponent (m.log2 + e - (f.precision - 1)) = unit at least within
  dsimp only
  have bounded := round_unscale_le within
  generalize ((Fraction.binary m e).unscale unit).round = n at bounded
  by_cases none : n = 0
  · rw [none]
    exact .inl rfl
  by_cases infinite : f.overflowExponent ≤ n.log2 + unit
  · exact .inr (.inl (if_pos ⟨none, infinite⟩))
  rw [if_neg (fun both => infinite both.2)]
  refine .inr (.inr ?_)
  by_cases full : n = 2 ^ f.precision
  · -- rounded up to a power of two, which takes a bit less in the next unit
    obtain ⟨p, precision⟩ := Nat.exists_eq_add_one.mpr precise
    rw [full, precision, Nat.log2_two_pow] at infinite
    have carried := assemble_mul_two_pow (e := unit) negative (Nat.ne_of_gt (Nat.two_pow_pos p)) 1
      (by rw [Nat.log2_two_pow]; omega)
    refine ⟨2 ^ p, unit + 1, ⟨Nat.ne_of_gt (Nat.two_pow_pos p), ?_, by omega, ?_⟩, ?_⟩
    · rw [Nat.log2_two_pow]
      omega
    · rw [Nat.log2_two_pow]
      omega
    · rw [full, precision, Nat.pow_succ]
      exact carried
  · have short : n.log2 < f.precision := (Nat.log2_lt none).mpr (by omega)
    exact ⟨n, unit, ⟨none, short, least, by omega⟩, rfl⟩

end Nearest

end Format

/-! ### Single precision -/

/-- A number that single precision represents is its own rounding. -/
theorem narrow_assemble (negative : Bool) {m : Nat} {e : Int}
    (represents : Format.single.Represents m e) :
    narrow (assemble negative m e) = assemble negative m e := by
  obtain ⟨nonzero, short, least, fits⟩ := represents
  have precision : Format.single.precision = 24 := rfl
  have leastExponent : Format.single.leastExponent = -149 := rfl
  have overflow : Format.single.overflowExponent = 128 := rfl
  rw [narrow, parts_assemble negative nonzero (by omega) (by omega) (by omega)]
  exact Format.Represents.nearest (by decide) negative ⟨nonzero, short, least, fits⟩ _

/-- A number that was rounded to single precision stays as it is. -/
theorem narrow_narrow (x : Float) : narrow (narrow x) = narrow x := by
  cases read : parts x with
  | nan =>
      have kept : narrow x = x := by rw [narrow, read]
      rw [kept, kept]
  | infinite negative =>
      have kept : narrow x = x := by rw [narrow, read]
      rw [kept, kept]
  | finite negative m e =>
      have rounded : narrow x = Format.single.nearest negative (.binary m e) := by rw [narrow, read]
      rw [rounded]
      obtain nearest | nearest | ⟨n, k, represents, nearest⟩ :=
        Format.nearest_cases (f := .single) (by decide) negative (by decide) m e
      · rw [nearest]
        cases negative <;> rfl
      · rw [nearest]
        cases negative <;> rfl
      · rw [nearest]
        exact narrow_assemble negative represents

end ScriptMachine.Numeric
