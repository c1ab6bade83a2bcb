import Mathlib.Data.Option.Basic
import ScriptMachine.Proofs.Variable.Operand
import ScriptMachine.Storage.Store

/-!
Names of arguments. An argument is named by the word and its index in decimal digits. The digits may
have zeros or a plus sign in front, so one argument has many names; a name has one index, and an index
that takes more than 64 bits is none.
-/

namespace ScriptMachine

/-- Decimal digits with at most a plus sign in front, and the number that they denote. -/
inductive Text.Natural : List Char → Nat → Prop where
  | unsigned {cs : List Char} (digits : IsDigits cs) : Natural cs (Nat.ofDigitChars 10 cs 0)
  | plus {cs : List Char} (digits : IsDigits cs) : Natural ('+' :: cs) (Nat.ofDigitChars 10 cs 0)

/-- Digits with or without a plus sign are read as a natural number, and nothing else is. -/
theorem Text.readNatural?_eq_some_iff {cs : List Char} {n : Nat} :
    readNatural? cs = some n ↔ Natural cs n := by
  constructor
  · intro read
    unfold readNatural? at read
    split at read
    · obtain ⟨digits, rfl⟩ := readDigits?_eq_some_iff.mp read
      exact .plus digits
    · obtain ⟨digits, rfl⟩ := readDigits?_eq_some_iff.mp read
      exact .unsigned digits
  · rintro (digits | digits)
    · exact readNatural?_of_readDigits? digits.read
    · exact digits.read

/-- A name of the argument at an index. -/
inductive NamesArgument : String → Nat → Prop where
  | intro {numeral : List Char} {k : Nat} (denotes : Text.Natural numeral k) (fits : k < UInt64.size) :
      NamesArgument ("argument" ++ String.ofList numeral) k

theorem isPrefixOf?_argument {name : String} {numeral : List Char} :
    "argument".toList.isPrefixOf? name.toList = some numeral ↔
      name = "argument" ++ String.ofList numeral := by
  have text : (String.ofList numeral).toList = numeral := String.toList_ofList
  rw [List.isPrefixOf?_eq_some_iff_append_eq, ← String.toList_inj, String.toList_append, text, eq_comm]

/-- A name is read as an index exactly if it names the argument at that index. -/
theorem argumentIndex?_eq_some_iff {name : String} {k : Nat} :
    Store.argumentIndex? name = some k ↔ NamesArgument name k := by
  unfold Store.argumentIndex?
  constructor
  · intro found
    obtain ⟨numeral, rest, found⟩ := Option.bind_eq_some_iff.mp found
    obtain ⟨n, read, found⟩ := Option.bind_eq_some_iff.mp found
    obtain ⟨_, fits, done⟩ := Option.bind_eq_some_iff.mp found
    cases done
    have fits : k < UInt64.size := (Option.guard_eq_some' _).mp fits
    rw [isPrefixOf?_argument.mp rest]
    exact .intro (Text.readNatural?_eq_some_iff.mp read) fits
  · rintro ⟨denotes, fits⟩
    rename_i numeral
    simp only [isPrefixOf?_argument.mpr rfl, Text.readNatural?_eq_some_iff.mpr denotes,
      Option.bind_eq_bind, Option.bind_some, guard, fits, if_true]
    rfl

/-- The two names that stand for no single argument. -/
theorem NamesArgument.ne {name : String} {k : Nat} (names : NamesArgument name k) :
    name ≠ "argument_count" ∧ name ≠ "argument" := by
  have found := argumentIndex?_eq_some_iff.mpr names
  constructor
  · rintro rfl
    cases found
  · rintro rfl
    cases found

end ScriptMachine
