import ScriptMachine.Variable.Scope

/-!
The limits of a machine, and the id that divides assets from instances.
-/

namespace ScriptMachine

/-- The settings of a machine. -/
structure Config where
  /-- How many nested calls may be active at once. -/
  maxCallDepth : Nat := 256
  /-- How many values an operand stack may hold. -/
  maxStackDepth : Nat := 4096
  /-- Ids below this one name an asset, ids from it on an instance. -/
  firstInstanceId : InstanceId := 100000
  /-- How many items an array may grow to by indexed stores. -/
  maxArrayLength : Nat := 32000
deriving DecidableEq, Repr

end ScriptMachine
