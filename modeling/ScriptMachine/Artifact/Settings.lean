import ScriptMachine.Artifact.Decode
import ScriptMachine.Config

/-!
Reading the settings of a machine. Every setting has a default.
-/

namespace ScriptMachine

/-- The names of the settings, in order. -/
def Config.fields : List String :=
  ["max_call_depth", "max_stack_depth", "first_instance_id", "max_array_length"]

/-- A count. -/
def Config.count? (v : Json) : Option Nat :=
  (Artifact.uint64? v).map UInt64.toNat

/-- Settings in JSON form. -/
def Config.ofJson? (v : Json) : Option Config := do
  let standard : Config := {}
  let r ← v.record? Config.fields
  return {
    maxCallDepth := ← r.defaulted? "max_call_depth" standard.maxCallDepth count?
    maxStackDepth := ← r.defaulted? "max_stack_depth" standard.maxStackDepth count?
    firstInstanceId :=
      ← r.defaulted? "first_instance_id" standard.firstInstanceId Artifact.int32?
    maxArrayLength := ← r.defaulted? "max_array_length" standard.maxArrayLength count? }

/-- Reads the text of settings. -/
def Config.ofText? (text : String) : Option Config := do
  Config.ofJson? (← Json.parse? text)

end ScriptMachine
