/-!
Integer numerals in variable operands and argument names: decimal digits, leading zeros allowed,
with at most one sign in front. Whatever the printer of numbers writes reads back as that number.
-/

namespace ScriptMachine.Text

/-- A non-empty run of decimal digits and nothing else. -/
def readDigits? (cs : List Char) : Option Nat :=
  if cs ≠ [] ∧ cs.all Char.isDigit then some (Nat.ofDigitChars 10 cs 0) else none

/-- Decimal digits after an optional plus sign. -/
def readNatural? : List Char → Option Nat
  | '+' :: cs => readDigits? cs
  | cs => readDigits? cs

/-- Decimal digits after an optional sign. -/
def readInteger? : List Char → Option Int
  | '-' :: cs => (readDigits? cs).map fun n => -(n : Int)
  | cs => (readNatural? cs).map fun n => (n : Int)

/-- The decimal digits of a number are read as that number. -/
@[simp] theorem readDigits?_toDigits (n : Nat) : readDigits? (Nat.toDigits 10 n) = some n := by
  have digits : ∀ c ∈ Nat.toDigits 10 n, c.isDigit = true := fun _ hc =>
    Nat.isDigit_of_mem_toDigits (by decide) (by decide) hc
  simp only [readDigits?, List.all_eq_true]
  rw [if_pos ⟨Nat.toDigits_ne_nil, digits⟩, Nat.ofDigitChars_ten_toDigits]

/-- A run of digits has no sign in front. -/
theorem readNatural?_of_readDigits? {cs : List Char} {n : Nat} (h : readDigits? cs = some n) :
    readNatural? cs = some n := by
  unfold readNatural?
  split
  · simp [readDigits?] at h
  · exact h

/-- Digits without a sign are read as the number that they denote. -/
theorem readInteger?_of_readDigits? {cs : List Char} {n : Nat} (h : readDigits? cs = some n) :
    readInteger? cs = some (n : Int) := by
  unfold readInteger?
  split
  · simp [readDigits?] at h
  · simp [readNatural?_of_readDigits? h]

/-- The printed form of an integer reads back as that integer. -/
theorem readInteger?_repr (n : Int) : readInteger? n.repr.toList = some n := by
  cases n with
  | ofNat n =>
    rw [Int.repr, Nat.toList_repr]
    exact readInteger?_of_readDigits? (readDigits?_toDigits n)
  | negSucc n =>
    have text : (Int.negSucc n).repr.toList = '-' :: Nat.toDigits 10 (n + 1) := by simp [Int.repr]
    rw [text, readInteger?, readDigits?_toDigits]
    rfl

end ScriptMachine.Text
