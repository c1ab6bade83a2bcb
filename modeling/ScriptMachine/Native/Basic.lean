import ScriptMachine.Instance.Registry

/-!
Native functions: functions that the host provides and running code can call. A native sees its
arguments, the running instance and the live instances, and changes none of them.
-/

namespace ScriptMachine

/-- What a native function is given. -/
structure NativeCall where
  /-- The name that the call used. -/
  function : String
  arguments : Array Value
  /-- The instance that runs the calling code. -/
  self? : Option InstanceId
  instances : Registry

/-- What a native function gives back: messages for the log, and a value or a failure. -/
structure NativeReply where
  messages : List String := []
  result : Except RuntimeError Value

/-- A native function. -/
abbrev Native := NativeCall → NativeReply

/-- Native functions by name. -/
abbrev Natives := Std.ExtTreeMap String Native compare

namespace NativeCall

/-- An argument as it is; a missing one is undefined. -/
def argument (call : NativeCall) (index : Nat) : Value :=
  call.arguments[index]?.getD .undefined

/-- The failure of a native function, with its name. -/
def failure (call : NativeCall) (message : String) : RuntimeError :=
  .native call.function message

/-- An argument as a host type; it must not be missing. -/
def argumentAs (α : Type) [Extract α] (call : NativeCall) (index : Nat) : Except RuntimeError α :=
  match call.arguments[index]? with
  | some v => (v.extract α).mapError .conversion
  | none =>
      .error (call.failure ("argument " ++ toString index ++ " missing ("
        ++ toString call.arguments.size ++ " supplied)"))

/-- The instance that runs the calling code, if it is live. -/
def selfInstance? (call : NativeCall) : Option Instance :=
  call.self?.bind call.instances.get?

end NativeCall

/-- A native function that logs nothing. -/
def Native.quiet (f : NativeCall → Except RuntimeError Value) : Native :=
  fun call => { result := f call }

end ScriptMachine
