/-!
What can go wrong when a value is converted and when an instruction is executed. Each error is a
cause; its wording is in `message`.
-/

namespace ScriptMachine

/-- Why a value cannot be read as a wanted type. -/
inductive ConversionError where
  /-- The tag of the value does not suit the wanted type. -/
  | typeMismatch (expected actual : String)
  /-- The integer does not fit the narrower wanted type. -/
  | integerOverflow (value : Int64) (wanted : String)
deriving DecidableEq, Repr

/-- The wording of a conversion error. -/
def ConversionError.message : ConversionError → String
  | typeMismatch expected actual =>
      "type mismatch: expected " ++ expected ++ ", got " ++ actual
  | integerOverflow value wanted =>
      "integer overflow: " ++ toString value ++ " doesn't fit in " ++ wanted

/-- An operand that an opcode requires and an instruction lacks or spoils. -/
inductive OperandFault where
  | missingVariable
  | missingLiteral
  | missingComparison
  | missingBranchLabel
  | missingFunctionName
  | negativeDupCount
deriving DecidableEq, Repr

/-- The wording of an operand fault. -/
def OperandFault.message : OperandFault → String
  | missingVariable => "missing variable operand"
  | missingLiteral => "missing literal operand"
  | missingComparison => "missing comparison"
  | missingBranchLabel => "missing branch label"
  | missingFunctionName => "missing function name"
  | negativeDupCount => "negative dup count"

/-- Why an instruction cannot be executed. -/
inductive RuntimeError where
  /-- The operand stack holds fewer values than are taken off it. -/
  | stackUnderflow
  /-- A push would exceed the depth limit of the operand stack. -/
  | stackOverflow (limit : Nat)
  /-- A value cannot be read as the wanted type. -/
  | conversion (cause : ConversionError)
  /-- No live instance matches an asset id or instance id. -/
  | unresolvedInstance (id : Int32)
  /-- A combination of scope and access that has no meaning. -/
  | unsupportedAddressing (scope access : String)
  /-- An instruction encoding that has no meaning. -/
  | unsupportedOpcode (raw : String)
  /-- A store to a built-in field that only can be read. -/
  | readOnlyField (name : String)
  /-- A variable operand that cannot be decoded. -/
  | unknownVariableScope (scope : String)
  /-- A variable is read before anything is stored in it. -/
  | unsetVariable (name : String)
  /-- An indexed access outside an array. -/
  | indexOutOfBounds (index : Int64) (length : Nat)
  /-- An indexed store at or past the array length limit. -/
  | arrayTooLarge (index : Int64) (limit : Nat)
  /-- An array of this length cannot be allocated. -/
  | outOfMemory (length : Nat)
  /-- Indexed access to a variable that holds no array. -/
  | notAnArray (name : String)
  /-- Division or remainder by zero. -/
  | divisionByZero
  /-- A call to a name that is neither a native nor a loaded function. -/
  | unknownFunction (name : String)
  /-- A branch to a label that the script does not define. -/
  | unknownLabel (label : Int64)
  /-- Nested calls exceed the depth limit. -/
  | callDepthExceeded (limit : Nat)
  /-- An instruction lacks an operand that its opcode requires. -/
  | malformed (raw : String) (fault : OperandFault)
  /-- A native function reports a failure. -/
  | native (function message : String)
deriving DecidableEq, Repr

/-- The wording of an execution error. -/
def RuntimeError.message : RuntimeError → String
  | stackUnderflow => "operand stack underflow"
  | stackOverflow limit => "operand stack overflow (limit " ++ toString limit ++ ")"
  | conversion cause => cause.message
  | unresolvedInstance id => "no instance matches id " ++ toString id
  | unsupportedAddressing scope access =>
      "unsupported addressing: " ++ access ++ " access in " ++ scope ++ " scope"
  | unsupportedOpcode raw => "unsupported opcode encoding `" ++ raw ++ "`"
  | readOnlyField name => "built-in variable `" ++ name ++ "` is read-only"
  | unknownVariableScope scope => "unknown variable scope `" ++ scope ++ "`"
  | unsetVariable name => "variable `" ++ name ++ "` not set before reading it"
  | indexOutOfBounds index length =>
      "array index " ++ toString index ++ " out of bounds (length " ++ toString length ++ ")"
  | arrayTooLarge index limit =>
      "array index " ++ toString index ++ " exceeds the array length limit " ++ toString limit
  | outOfMemory length => "could not allocate an array of " ++ toString length ++ " elements"
  | notAnArray name => "variable `" ++ name ++ "` is not an array"
  | divisionByZero => "division by zero"
  | unknownFunction name => "unknown function `" ++ name ++ "`"
  | unknownLabel label => "unknown label " ++ toString label
  | callDepthExceeded limit => "call depth exceeded (limit " ++ toString limit ++ ")"
  | malformed raw fault => "malformed instruction `" ++ raw ++ "`: " ++ fault.message
  | native function message => "native function `" ++ function ++ "` failed: " ++ message

end ScriptMachine
