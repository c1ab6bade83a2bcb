/-!
Declared types. An instruction names the type of each of its operands by one character; the same
character stands in its text form and in script artifacts.
-/

namespace ScriptMachine

/-- The declared type of an operand. -/
inductive DataType where
  | double
  | float
  | int32
  | int64
  | bool
  | untyped
  | string
  | int16
deriving DecidableEq, Repr

/-- An operand with no declared type passes any value. -/
instance : Inhabited DataType := ⟨.untyped⟩

namespace DataType

/-- Every declared type. -/
def all : List DataType :=
  [double, float, int32, int64, bool, untyped, string, int16]

/-- The character that stands for a type. -/
def code : DataType → Char
  | double => 'd'
  | float => 'f'
  | int32 => 'i'
  | int64 => 'l'
  | bool => 'b'
  | untyped => 'v'
  | string => 's'
  | int16 => 'e'

/-- The type that a character stands for. -/
def ofCode? (c : Char) : Option DataType :=
  all.find? fun t => t.code == c

/-- The name of a type in error messages. -/
def name : DataType → String
  | double => "double"
  | float => "float"
  | int32 => "int32"
  | int64 => "int64"
  | bool => "bool"
  | untyped => "variable"
  | string => "string"
  | int16 => "int16"

/-- The three integer types. -/
def isInteger : DataType → Bool
  | int16 | int32 | int64 => true
  | _ => false

/-- The text form of a type is its character. -/
def toText (t : DataType) : String :=
  t.code.toString

/-- What is said of a character that stands for no type. -/
def unknownCodeMessage (c : Char) : String :=
  "unknown data type tag '" ++ c.toString ++ "'"

/-- The character of a type stands for that type and for no other. -/
@[simp] theorem ofCode?_code (t : DataType) : ofCode? t.code = some t := by
  cases t <;> rfl

end DataType

end ScriptMachine
