import ScriptMachine.Instruction.Basic
import Std.Data.ExtTreeMap

/-!
Compiled scripts: instructions, and labels that branches and function calls aim at. Labels are kept
in ascending numeric order.
-/

namespace ScriptMachine

/-- Identifies an asset: a script, or the type that many instances share. -/
abbrev AssetId := Int32

/-- The shown form of an asset id. -/
def AssetId.display (id : AssetId) : String :=
  "asset_" ++ toString id

/-- A place in a script that a branch can aim at. -/
structure Label where
  instructionIndex : UInt64
  /-- The name of the function that starts here, if one does. -/
  function? : Option String := none
deriving DecidableEq

/-- The labels of a script, by their numbers. -/
abbrev Labels := Std.ExtTreeMap Int64 Label compare

/-- A compiled script. -/
structure Script where
  assetId : AssetId
  name : String
  /-- Runs once, before any other script. -/
  isGlobalInit : Bool := false
  localVariables : List String := []
  labels : Labels := ∅
  instructions : Array Instruction

namespace Script

/-- The script as a global initializer. -/
def asGlobalInit (s : Script) : Script :=
  { s with isGlobalInit := true }

/-- The script with a branch label. -/
def withLabel (s : Script) (label : Int64) (index : UInt64) : Script :=
  { s with labels := s.labels.insert label ⟨index, none⟩ }

/-- The script with a label where a named function starts. -/
def withFunction (s : Script) (label : Int64) (index : UInt64) (name : String) : Script :=
  { s with labels := s.labels.insert label ⟨index, some name⟩ }

/-- The instruction index that a label stands for. -/
def labelTarget? (s : Script) (label : Int64) : Option Nat :=
  s.labels[label]?.map fun l => l.instructionIndex.toNat

/-- The functions that a script declares with their first instructions, in ascending order of their
labels; a name may occur more than once. -/
def functions (s : Script) : List (String × Nat) :=
  s.labels.toList.filterMap fun (_, l) => l.function?.map fun name => (name, l.instructionIndex.toNat)

/-- Two scripts with the same fields, where reals are compared as numbers. -/
def same (s t : Script) : Bool :=
  s.assetId == t.assetId && s.name == t.name && s.isGlobalInit == t.isGlobalInit
    && s.localVariables == t.localVariables && s.labels.toList == t.labels.toList
    && s.instructions.size == t.instructions.size
    && (s.instructions.toList.zip t.instructions.toList).all fun (i, j) => i.same j

end Script

end ScriptMachine
