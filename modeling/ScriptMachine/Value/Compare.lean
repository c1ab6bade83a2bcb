import ScriptMachine.Instruction.Opcode
import ScriptMachine.Value.Convert

/-!
Comparison of values. Numbers compare by size and strings by their characters; any other two values
can only be equal or different, and values with different tags are different.
-/

namespace ScriptMachine.Value

mutual

/-- Same tag and same content; reals are the same as numbers, so a not-a-number is never the same. -/
def equal : Value → Value → Bool
  | undefined, undefined => true
  | bool a, bool b => a == b
  | real x, real y => Numeric.same x y
  | int32 a, int32 b => a == b
  | int64 a, int64 b => a == b
  | string a, string b => a == b
  | array xs, array ys => equalArrays xs ys
  | _, _ => false

/-- The same items in the same order. -/
def equalArrays : Array Value → Array Value → Bool
  | ⟨xs⟩, ⟨ys⟩ => equalItems xs ys

/-- Equally many items, pairwise the same. -/
def equalItems : List Value → List Value → Bool
  | [], [] => true
  | v :: vs, w :: ws => equal v w && equalItems vs ws
  | _, _ => false

end

/-- How two values stand to each other. -/
inductive Standing where
  /-- Two numbers or two strings, in this order. -/
  | ordered (order : Ordering)
  /-- Two numbers of which one is a not-a-number. -/
  | incomparable
  /-- Two values without an order. -/
  | unordered (equal : Bool)
deriving DecidableEq, Repr

/-- How two values stand to each other: integers by their integer value, other numbers by their real
value, strings by their characters. -/
def standing (lhs rhs : Value) : Standing :=
  match lhs, rhs with
  | string a, string b => .ordered (Ord.compare a b)
  | a, b =>
      match a.isInteger && b.isInteger, a.integer?, b.integer? with
      | true, some m, some n => .ordered (Ord.compare m n)
      | _, _, _ =>
          match a.real?, b.real? with
          | some x, some y =>
              match Numeric.compare? x y with
              | some order => .ordered order
              | none => .incomparable
          | _, _ => .unordered (equal a b)

/-- Whether a comparison holds. Two values without an order can only be compared for equality. -/
def compare (c : Comparison) (lhs rhs : Value) : Except ConversionError Bool :=
  match standing lhs rhs with
  | .ordered order => .ok (c.holds order)
  | .incomparable => .ok (c == .neq)
  | .unordered same =>
      match c with
      | .eq => .ok same
      | .neq => .ok (!same)
      | _ => .error (.typeMismatch lhs.typeName rhs.typeName)

end ScriptMachine.Value
