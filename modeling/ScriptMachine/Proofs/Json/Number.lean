import Mathlib.Data.List.TakeDrop
import Mathlib.Data.List.TakeWhile
import ScriptMachine.Json.Number
import ScriptMachine.Json.Printer

/-!
Numbers of JSON text read back. A number ends where no character of a number follows, so it is read
alike alone and in front of a bracket, a comma or a colon. The text of an integer of 64 bits reads
back as that integer; for a real this is a condition, because reading a real is not exact.
-/

namespace ScriptMachine.Json

/-- What can follow a number: the end of the text, or a mark that no number contains. -/
def Stops (rest : List Char) : Prop :=
  ∀ c ∈ rest.head?, c ∈ [',', ']', '\x7d', ':']

/-- The text of a number is read as that number. -/
def Number.ReadsBack (n : Number) : Prop :=
  ∃ numeral, readNumeral? n.render.toList = some (numeral, []) ∧ numeral.value = n

-- A real need not read back: the text of this one, 213709531330675.62, is read as the double below.
example : (readNumeral? (Number.real (Float.ofBits 0x42e84bc416670e74)).render.toList).map
    (fun read => read.1.value) = some (.real (Float.ofBits 0x42e84bc416670e73)) := by decide +kernel

/-! ### Numbers in front of other text -/

section Append

variable {rest : List Char}

theorem Stops.cons {c : Char} {more : List Char} (stops : Stops (c :: more)) :
    c.isDigit = false ∧ c ≠ '.' ∧ c ≠ 'e' ∧ c ≠ 'E' := by
  have mem := stops c rfl
  simp only [List.mem_cons, List.not_mem_nil, or_false] at mem
  rcases mem with rfl | rfl | rfl | rfl <;> decide

theorem stops_nil : Stops [] := by
  simp [Stops]

/-- A run of digits ends where the number stops. -/
theorem spanDigits_append (stops : Stops rest) (cs : List Char) :
    Numeric.spanDigits (cs ++ rest)
      = ((Numeric.spanDigits cs).1, (Numeric.spanDigits cs).2 ++ rest) := by
  simp only [Numeric.spanDigits, List.span_eq_takeWhile_dropWhile]
  induction cs with
  | nil =>
      cases rest with
      | nil => rfl
      | cons c more => simp [stops.cons.1]
  | cons c cs ih =>
      by_cases digit : c.isDigit = true
      · obtain ⟨taken, dropped⟩ := Prod.mk.inj ih
        simp [digit, taken, dropped]
      · simp [digit]

theorem readRun?_append (stops : Stops rest) {cs run left : List Char}
    (read : readRun? cs = some (run, left)) : readRun? (cs ++ rest) = some (run, left ++ rest) := by
  unfold readRun? at read ⊢
  rw [spanDigits_append stops]
  generalize Numeric.spanDigits cs = parts at read ⊢
  obtain ⟨taken, dropped⟩ := parts
  cases taken with
  | nil => cases read
  | cons c taken =>
      cases read
      rfl

theorem readWhole?_append (stops : Stops rest) {cs run left : List Char}
    (read : readWhole? cs = some (run, left)) : readWhole? (cs ++ rest) = some (run, left ++ rest) := by
  unfold readWhole? at read ⊢
  cases found : readRun? cs with
  | none =>
      rw [found] at read
      cases read
  | some parts =>
      rw [found] at read
      rw [readRun?_append stops found]
      split at read
      · cases read
      · rename_i plain
        cases read
        split
        · rename_i eq
          cases eq
          exact absurd rfl (plain _ _ _)
        · rfl

theorem readFraction?_of_ne {cs : List Char} (pointless : ∀ more, cs ≠ '.' :: more) :
    readFraction? cs = some (none, cs) := by
  unfold readFraction?
  split
  · exact absurd rfl (pointless _)
  · rfl

theorem readFraction?_append (stops : Stops rest) {cs left : List Char}
    {fraction? : Option (List Char)} (read : readFraction? cs = some (fraction?, left)) :
    readFraction? (cs ++ rest) = some (fraction?, left ++ rest) := by
  by_cases point : ∃ more, cs = '.' :: more
  · obtain ⟨more, rfl⟩ := point
    simp only [readFraction?, List.cons_append] at read ⊢
    obtain ⟨⟨run, left'⟩, found, eq⟩ := Option.map_eq_some_iff.mp read
    cases eq
    rw [readRun?_append stops found]
    rfl
  · have pointless := not_exists.mp point
    rw [readFraction?_of_ne pointless] at read
    cases read
    apply readFraction?_of_ne
    intro more eq
    cases cs with
    | nil =>
        rw [List.nil_append] at eq
        rw [eq] at stops
        exact stops.cons.2.1 rfl
    | cons c cs =>
        obtain ⟨rfl, -⟩ := List.cons.inj eq
        exact pointless cs rfl

theorem readSign_append {cs : List Char} (nonempty : cs ≠ []) (rest : List Char) :
    Numeric.readSign (cs ++ rest) = ((Numeric.readSign cs).1, (Numeric.readSign cs).2 ++ rest) := by
  obtain ⟨c, cs, rfl⟩ := List.exists_cons_of_ne_nil nonempty
  by_cases minus : c = '-'
  · subst minus
    rfl
  · by_cases plus : c = '+'
    · subst plus
      rfl
    · simp [Numeric.readSign, minus, plus]

/-- An exponent is read alike in front of other text, with a sign or without. -/
theorem readExponent?_append (stops : Stops rest) {cs left : List Char}
    {exponent? : Option (Bool × List Char)} (read : readExponent? cs = some (exponent?, left)) :
    readExponent? (cs ++ rest) = some (exponent?, left ++ rest) := by
  cases cs with
  | nil =>
      cases read
      cases rest with
      | nil => rfl
      | cons c more =>
          obtain ⟨-, -, small, capital⟩ := stops.cons
          simp [readExponent?, small, capital]
  | cons c cs =>
      rw [List.cons_append]
      simp only [readExponent?] at read ⊢
      split at read
      · rename_i mark
        rw [if_pos mark]
        obtain ⟨⟨run, left'⟩, found, eq⟩ := Option.map_eq_some_iff.mp read
        cases eq
        have nonempty : cs ≠ [] := by
          rintro rfl
          cases found
        rw [readSign_append nonempty]
        simp only [readRun?_append stops found, Option.map_some]
      · rename_i mark
        rw [if_neg mark]
        cases read
        rfl

end Append

/-! ### Signs -/

/-- The rest of a number, after its sign. -/
def readMagnitude? (negative : Bool) (cs : List Char) : Option (Numeral × List Char) := do
  let (whole, rest) ← readWhole? cs
  let (fraction?, rest) ← readFraction? rest
  let (exponent?, rest) ← readExponent? rest
  return (⟨negative, whole, fraction?, exponent?⟩, rest)

theorem readNumeral?_minus (cs : List Char) : readNumeral? ('-' :: cs) = readMagnitude? true cs :=
  rfl

theorem readNumeral?_of_ne {cs : List Char} (unsigned : ∀ more, cs ≠ '-' :: more) :
    readNumeral? cs = readMagnitude? false cs := by
  unfold readNumeral?
  split
  · rename_i negative rest eq
    split at eq
    · exact absurd rfl (unsigned _)
    · cases eq
      rfl

/-- A number without its sign is read alike in front of other text. -/
theorem readMagnitude?_append {rest : List Char} (stops : Stops rest) {negative : Bool}
    {cs left : List Char} {n : Numeral} (read : readMagnitude? negative cs = some (n, left)) :
    readMagnitude? negative (cs ++ rest) = some (n, left ++ rest) := by
  unfold readMagnitude? at read ⊢
  obtain ⟨⟨whole, afterWhole⟩, foundWhole, read⟩ := Option.bind_eq_some_iff.mp read
  obtain ⟨⟨fraction?, afterFraction⟩, foundFraction, read⟩ := Option.bind_eq_some_iff.mp read
  obtain ⟨⟨exponent?, afterExponent⟩, foundExponent, read⟩ := Option.bind_eq_some_iff.mp read
  cases read
  simp only [readWhole?_append stops foundWhole, readFraction?_append stops foundFraction,
    readExponent?_append stops foundExponent, Option.bind_eq_bind, Option.bind_some]
  rfl

/-- A number is read alike alone and in front of what can follow it. -/
theorem readNumeral?_append {rest : List Char} (stops : Stops rest) {cs left : List Char} {n : Numeral}
    (read : readNumeral? cs = some (n, left)) : readNumeral? (cs ++ rest) = some (n, left ++ rest) := by
  by_cases minus : ∃ more, cs = '-' :: more
  · obtain ⟨more, rfl⟩ := minus
    exact readMagnitude?_append stops read
  · have unsigned := not_exists.mp minus
    rw [readNumeral?_of_ne unsigned] at read
    have nonempty : cs ≠ [] := by
      rintro rfl
      cases read
    rw [readNumeral?_of_ne]
    · exact readMagnitude?_append stops read
    · intro more eq
      obtain ⟨c, cs, rfl⟩ := List.exists_cons_of_ne_nil nonempty
      obtain ⟨rfl, -⟩ := List.cons.inj eq
      exact unsigned cs rfl

/-! ### Integers -/

/-- No number but zero is written with a zero in front. -/
theorem toDigits_ne_zero_cons (n : Nat) (c : Char) (cs : List Char) :
    Nat.toDigits 10 n ≠ '0' :: c :: cs := by
  induction n using Nat.strongRecOn generalizing c cs with
  | ind n ih =>
      intro eq
      rcases Nat.lt_or_ge n 10 with small | large
      · rw [Nat.toDigits_of_lt_base small] at eq
        exact absurd (congrArg List.length eq) (by simp)
      · rw [Nat.toDigits_of_base_le (by decide) large] at eq
        -- The digits of the tenth part start with the same zero.
        cases front : Nat.toDigits 10 (n / 10) with
        | nil => exact Nat.toDigits_ne_nil front
        | cons d ds =>
            rw [front, List.cons_append] at eq
            obtain ⟨rfl, -⟩ := List.cons.inj eq
            cases ds with
            | nil =>
                have zero := congrArg (Nat.ofDigitChars 10 · 0) front
                simp only [Nat.ofDigitChars_ten_toDigits] at zero
                have : n / 10 = 0 := zero
                omega
            | cons e es => exact ih (n / 10) (by omega) e es front

/-- The decimal digits of a natural number are read as a whole part and nothing more. -/
theorem readMagnitude?_toDigits (negative : Bool) (n : Nat) :
    readMagnitude? negative (Nat.toDigits 10 n)
      = some (⟨negative, Nat.toDigits 10 n, none, none⟩, []) := by
  have digits : ∀ c ∈ Nat.toDigits 10 n, c.isDigit = true := fun _ mem =>
    Nat.isDigit_of_mem_toDigits (by decide) (by decide) mem
  have span : Numeric.spanDigits (Nat.toDigits 10 n) = (Nat.toDigits 10 n, []) := by
    rw [Numeric.spanDigits, List.span_eq_takeWhile_dropWhile, List.takeWhile_eq_self_iff.mpr digits,
      List.dropWhile_eq_nil_iff.mpr digits]
  have run : readRun? (Nat.toDigits 10 n) = some (Nat.toDigits 10 n, []) := by
    unfold readRun?
    rw [span]
    cases front : Nat.toDigits 10 n with
    | nil => exact absurd front Nat.toDigits_ne_nil
    | cons c cs => rfl
  have whole : readWhole? (Nat.toDigits 10 n) = some (Nat.toDigits 10 n, []) := by
    unfold readWhole?
    rw [run]
    split
    · rename_i eq
      exact absurd (Prod.mk.inj (Option.some.inj eq)).1 (toDigits_ne_zero_cons n _ _)
    · rfl
  simp only [readMagnitude?, whole, readFraction?, readExponent?, Option.bind_eq_bind,
    Option.bind_some]
  rfl

/-- The digits of a number that fits 64 bits are all taken. -/
theorem foldl_pushWhole {cs : List Char} {a : Nat} (fits : Nat.ofDigitChars 10 cs a < UInt64.size) :
    cs.foldl Significand.pushWhole { digits := a } = { digits := Nat.ofDigitChars 10 cs a } := by
  induction cs generalizing a with
  | nil => rfl
  | cons c cs ih =>
      rw [Nat.ofDigitChars_cons] at fits ⊢
      have step : Significand.pushWhole { digits := a } c
          = { digits := 10 * a + (c.toNat - '0'.toNat) } := by
        have grown : 10 * a + (c.toNat - '0'.toNat)
            ≤ Nat.ofDigitChars 10 cs (10 * a + (c.toNat - '0'.toNat)) := by
          rw [Nat.ofDigitChars_eq_ofDigitChars_zero]
          apply Nat.le_trans _ (Nat.le_add_right _ _)
          exact Nat.le_mul_of_pos_left _ (Nat.pow_pos (by decide))
        have room := Nat.lt_of_le_of_lt grown fits
        simp only [Significand.pushWhole, Significand.take?, Nat.mul_comm a 10, room, if_true]
      rw [List.foldl_cons, step]
      exact ih fits

/-- Up to 64 bits, the decimal digits of a natural number have it as their value. -/
theorem value_toDigits (negative : Bool) {n : Nat} (fits : n < UInt64.size) :
    (Numeral.mk negative (Nat.toDigits 10 n) none none).value = Numeral.ofInteger negative n := by
  have whole : (Nat.toDigits 10 n).foldl Significand.pushWhole {} = { digits := n } := by
    rw [← Nat.ofDigitChars_ten_toDigits (n := n)] at fits
    rw [foldl_pushWhole fits, Nat.ofDigitChars_ten_toDigits]
  simp only [Numeral.value, whole]
  rfl

/-- A natural number of 64 bits reads back. -/
theorem readsBack_natural (n : UInt64) : (Number.natural n).ReadsBack := by
  have text : (Number.natural n).render.toList = Nat.toDigits 10 n.toNat := Nat.toList_repr
  refine ⟨⟨false, Nat.toDigits 10 n.toNat, none, none⟩, ?_, ?_⟩
  · rw [text, readNumeral?_of_ne]
    · exact readMagnitude?_toDigits false n.toNat
    · intro more eq
      have digit := Nat.isDigit_of_mem_toDigits (b := 10) (n := n.toNat) (c := '-')
        (by decide) (by decide) (by rw [eq]; exact List.mem_cons_self)
      cases digit
  · rw [value_toDigits false n.toNat_lt]
    simp [Numeral.ofInteger]

/-- A negative number of 64 bits reads back. -/
theorem readsBack_negative {n : Int64} (below : n.toInt < 0) : (Number.negative n).ReadsBack := by
  obtain ⟨k, eq⟩ := Int.eq_negSucc_of_lt_zero below
  have text : (Number.negative n).render.toList = '-' :: Nat.toDigits 10 (k + 1) := by
    have shown : (Number.negative n).render = n.toInt.repr := rfl
    rw [shown, eq]
    simp [Int.repr]
  have least := n.le_toInt
  refine ⟨⟨true, Nat.toDigits 10 (k + 1), none, none⟩, ?_, ?_⟩
  · rw [text, readNumeral?_minus]
    exact readMagnitude?_toDigits true (k + 1)
  · have fits : k + 1 ≤ Numeric.pow2 63 := by
      change k + 1 ≤ 2 ^ 63
      omega
    have size : k + 1 < UInt64.size := Nat.lt_of_le_of_lt fits (by decide)
    rw [value_toDigits true size]
    have value : (-((k + 1 : Nat) : Int)) = n.toInt := by omega
    simp only [Numeral.ofInteger, Bool.not_true, Bool.false_eq_true, if_false]
    rw [if_pos ⟨Nat.succ_pos k, fits⟩, value, Int64.ofInt_toInt]

end ScriptMachine.Json
