/-!
Operation codes and comparison kinds, with the words that stand for them in instruction text and in
script artifacts.
-/

namespace ScriptMachine

/-- An operator with two operands. -/
inductive BinaryOp where
  | add
  | sub
  | mul
  | div
  /-- The quotient without its fraction. -/
  | rem
  /-- The remainder of that quotient. -/
  | mod
  | and
  | or
  | xor
  | shl
  | shr
deriving DecidableEq, Repr

/-- The operation of an instruction. -/
inductive Opcode where
  /-- Converts the top value between two declared types. -/
  | conv
  /-- Combines the two top values. -/
  | binary (op : BinaryOp)
  | neg
  | not
  /-- Compares the two top values. -/
  | cmp
  /-- Stores the top value in a variable. -/
  | pop
  /-- Drops the top value. -/
  | popz
  /-- Duplicates the top values. -/
  | dup
  /-- Pushes a literal or a variable. -/
  | push
  | pushLocal
  | pushGlobal
  | pushBuiltin
  /-- Pushes a short literal. -/
  | pushShort
  | ret
  | exit
  /-- Branches always. -/
  | branch
  /-- Branches if the top value is true. -/
  | branchTrue
  /-- Branches if the top value is false. -/
  | branchFalse
  | call
deriving DecidableEq, Repr

namespace Opcode

/-- Every operation code. -/
def all : List Opcode :=
  [conv, binary .mul, binary .div, binary .rem, binary .mod, binary .add, binary .sub, binary .and,
    binary .or, binary .xor, neg, not, binary .shl, binary .shr, cmp, pop, popz, dup, push,
    pushLocal, pushGlobal, pushBuiltin, pushShort, ret, exit, branch, branchTrue, branchFalse, call]

/-- The word that stands for an operation. -/
def mnemonic : Opcode → String
  | conv => "conv"
  | binary .mul => "mul"
  | binary .div => "div"
  | binary .rem => "rem"
  | binary .mod => "mod"
  | binary .add => "add"
  | binary .sub => "sub"
  | binary .and => "and"
  | binary .or => "or"
  | binary .xor => "xor"
  | neg => "neg"
  | not => "not"
  | binary .shl => "shl"
  | binary .shr => "shr"
  | cmp => "cmp"
  | pop => "pop"
  | popz => "popz"
  | dup => "dup"
  | push => "push"
  | pushLocal => "pushloc"
  | pushGlobal => "pushglb"
  | pushBuiltin => "pushbltn"
  | pushShort => "pushi"
  | ret => "ret"
  | exit => "exit"
  | branch => "b"
  | branchTrue => "bt"
  | branchFalse => "bf"
  | call => "call"

/-- The operation that a word stands for. -/
def ofMnemonic? (s : String) : Option Opcode :=
  all.find? fun op => op.mnemonic == s

/-- The mnemonic of an opcode is read as that opcode. -/
@[simp] theorem ofMnemonic?_mnemonic (op : Opcode) : ofMnemonic? op.mnemonic = some op := by
  cases op with
  | binary b => cases b <;> rfl
  | _ => rfl

end Opcode

/-- The kind of a comparison. -/
inductive Comparison where
  | lt
  | lte
  | eq
  | neq
  | gte
  | gt
deriving DecidableEq, Repr

namespace Comparison

/-- Every kind of comparison. -/
def all : List Comparison :=
  [lt, lte, eq, neq, gte, gt]

/-- The word that stands for a comparison. -/
def word : Comparison → String
  | lt => "LT"
  | lte => "LTE"
  | eq => "EQ"
  | neq => "NEQ"
  | gte => "GTE"
  | gt => "GT"

/-- The comparison that a word stands for. -/
def ofWord? (s : String) : Option Comparison :=
  all.find? fun c => c.word == s

/-- Whether a comparison holds of two things in the given order. -/
def holds : Comparison → Ordering → Bool
  | lt, o => o == .lt
  | lte, o => o != .gt
  | eq, o => o == .eq
  | neq, o => o != .eq
  | gte, o => o != .lt
  | gt, o => o == .gt

/-- The word of a comparison is read as that comparison. -/
@[simp] theorem ofWord?_word (c : Comparison) : ofWord? c.word = some c := by
  cases c <;> rfl

end Comparison

end ScriptMachine
