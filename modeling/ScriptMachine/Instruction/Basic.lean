import ScriptMachine.DataType
import ScriptMachine.Instruction.Opcode
import ScriptMachine.Numeric.Decimal
import ScriptMachine.Text.Quoted

/-!
Instructions as a script artifact records them: an operation, two declared types, whatever operands
the compiler attached, and the text form that diagnostics show. Which operands an operation needs is
found out only when it is executed. The builders below attach exactly what an operation needs and
write its text form.
-/

namespace ScriptMachine

/-- One decoded instruction. -/
structure Instruction where
  /-- The text form, for diagnostics. -/
  raw : String
  opcode : Opcode
  typeOne : DataType := .untyped
  typeTwo : DataType := .untyped
  /-- A variable operand or a string literal. -/
  text? : Option String := none
  /-- An integer literal, a branch label or a count of duplicates. -/
  int? : Option Int64 := none
  double? : Option Float := none
  bool? : Option Bool := none
  comparison? : Option Comparison := none
  /-- Branch past the last instruction, not to a label. -/
  jumpToEnd : Bool := false
  function? : Option String := none
  argumentCount? : Option UInt32 := none
deriving DecidableEq

namespace Instruction

/-- `pop.<t1>.<t2> <variable>` stores the top value. -/
def pop (one two : DataType) (operand : String) : Instruction where
  raw := "pop." ++ one.toText ++ "." ++ two.toText ++ " " ++ operand
  opcode := .pop
  typeOne := one
  typeTwo := two
  text? := some operand

/-- `push.v <variable>` and its relatives push a variable. -/
def pushVariable (op : Opcode) (operand : String) : Instruction where
  raw := op.mnemonic ++ ".v " ++ operand
  opcode := op
  text? := some operand

/-- `pushi.e <n>` pushes a short integer. -/
def pushShort (n : Int16) : Instruction where
  raw := "pushi.e " ++ toString n
  opcode := .pushShort
  typeOne := .int16
  int? := some n.toInt64

/-- `push.i <n>` pushes a 32-bit integer. -/
def pushInt (n : Int32) : Instruction where
  raw := "push.i " ++ toString n
  opcode := .push
  typeOne := .int32
  int? := some n.toInt64

/-- `push.l <n>` pushes a 64-bit integer. -/
def pushLong (n : Int64) : Instruction where
  raw := "push.l " ++ toString n
  opcode := .push
  typeOne := .int64
  int? := some n

/-- `push.d <x>` pushes a real. -/
def pushDouble (x : Float) : Instruction where
  raw := "push.d " ++ Numeric.shortestText x
  opcode := .push
  typeOne := .double
  double? := some x

/-- `push.s "<s>"` pushes a string. -/
def pushString (s : String) : Instruction where
  raw := "push.s " ++ Text.quoted s
  opcode := .push
  typeOne := .string
  text? := some s

/-- `push.b <b>` pushes a truth value. -/
def pushBool (b : Bool) : Instruction where
  raw := "push.b " ++ (if b then "true" else "false")
  opcode := .push
  typeOne := .bool
  bool? := some b

/-- An instruction with two typed operands, such as `add.i.v`. -/
def binary (op : Opcode) (one two : DataType) : Instruction where
  raw := op.mnemonic ++ "." ++ one.toText ++ "." ++ two.toText
  opcode := op
  typeOne := one
  typeTwo := two

/-- An instruction with one typed operand, such as `neg.d`. -/
def unary (op : Opcode) (one : DataType) : Instruction where
  raw := op.mnemonic ++ "." ++ one.toText
  opcode := op
  typeOne := one

/-- `cmp.<t1>.<t2> <comparison>` compares the two top values. -/
def cmp (c : Comparison) (one two : DataType) : Instruction where
  raw := "cmp." ++ one.toText ++ "." ++ two.toText ++ " " ++ c.word
  opcode := .cmp
  typeOne := one
  typeTwo := two
  comparison? := some c

/-- `dup.<t> <n>` duplicates the top `n + 1` values. -/
def dup (one : DataType) (extra : UInt8) : Instruction where
  raw := "dup." ++ one.toText ++ " " ++ toString extra
  opcode := .dup
  typeOne := one
  int? := some (Int64.ofNat extra.toNat)

/-- `b [<label>]`, `bt [<label>]` and `bf [<label>]` branch to a label. -/
def branch (op : Opcode) (label : Int64) : Instruction where
  raw := op.mnemonic ++ " [" ++ toString label ++ "]"
  opcode := op
  int? := some label

/-- `b [end]` and its relatives branch past the last instruction. -/
def branchToEnd (op : Opcode) : Instruction where
  raw := op.mnemonic ++ " [end]"
  opcode := op
  jumpToEnd := true

/-- `call.i <name>(argc=<n>)` calls a function with the top `n` values. -/
def call (name : String) (argumentCount : UInt32) : Instruction where
  raw := "call.i " ++ name ++ "(argc=" ++ toString argumentCount ++ ")"
  opcode := .call
  typeOne := .int32
  function? := some name
  argumentCount? := some argumentCount

/-- `ret.v` returns the top value. -/
def ret : Instruction :=
  unary .ret .untyped

/-- `exit.i` returns nothing. -/
def exit : Instruction :=
  unary .exit .int32

/-- The same real or both absent; a not-a-number is never the same. -/
def sameDouble : Option Float → Option Float → Bool
  | some x, some y => Numeric.same x y
  | none, none => true
  | _, _ => false

/-- Two instructions with the same fields, where reals are compared as numbers. -/
def same (i j : Instruction) : Bool :=
  decide ({ i with double? := none } = { j with double? := none })
    && sameDouble i.double? j.double?

end Instruction

end ScriptMachine
