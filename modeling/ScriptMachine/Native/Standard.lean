import ScriptMachine.Native.Basic
import ScriptMachine.Numeric.Reading
import ScriptMachine.Text.Blank
import ScriptMachine.Text.Quoted
import ScriptMachine.Value.Display

/-!
The standard native functions. Most of them accept a missing argument and read it as undefined.
-/

namespace ScriptMachine.Native

/-- Logs the shown form of its argument. -/
def showDebugMessage : Native := fun call =>
  { messages := [(call.argument 0).display], result := .ok .undefined }

/-- The shown form of its argument, as a string. -/
def string : Native :=
  quiet fun call => .ok (.string (call.argument 0).display)

/-- The number that a string denotes, or that its argument is. -/
def real : Native :=
  quiet fun call =>
    match call.argument 0 with
    | .string text =>
        match Numeric.read? (Text.trim text.toList) with
        | some x => .ok (.real x)
        | none =>
            .error (call.failure ("cannot convert " ++ Text.quoted text ++ " to a number"))
    | other => do return .real (← (other.extract Float).mapError .conversion)

/-- The greatest whole number that is not above its argument. -/
def floor : Native :=
  quiet fun call => do return .real (Numeric.floor (← call.argumentAs Float 0))

/-- The absolute value; that of the least integer of a width is the integer itself. -/
def abs : Native :=
  quiet fun call =>
    match call.argument 0 with
    | .int32 n => .ok (.int32 (if n < 0 then -n else n))
    | .int64 n => .ok (.int64 (if n < 0 then -n else n))
    | other => do return .real (← (other.extract Float).mapError .conversion).abs

/-- The number of items of an array. -/
def arrayLength : Native :=
  quiet fun call =>
    match call.argument 0 with
    | .array items => .ok (.real (Numeric.ofInt items.size))
    | other => .error (call.failure ("expected an array, got " ++ other.typeName))

/-- Whether its argument is undefined. -/
def isUndefined : Native :=
  quiet fun call => .ok (.bool (call.argument 0).isUndefined)

/-- Whether its argument is a string. -/
def isString : Native :=
  quiet fun call => .ok (.bool (call.argument 0).text?.isSome)

/-- Whether its argument is an array. -/
def isArray : Native :=
  quiet fun call => .ok (.bool (call.argument 0).items?.isSome)

/-- The standard native functions by name. -/
def standard : Natives :=
  .ofList [("show_debug_message", showDebugMessage), ("string", string), ("real", real),
    ("floor", floor), ("abs", abs), ("array_length", arrayLength), ("is_undefined", isUndefined),
    ("is_string", isString), ("is_array", isArray)]

end ScriptMachine.Native
