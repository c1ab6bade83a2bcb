import ScriptMachine.Error
import ScriptMachine.Script

/-!
What a machine reports while it works, in the order in which it happens.
-/

namespace ScriptMachine

/-- Why a run stops before it returns. -/
inductive AbortKind where
  /-- An instruction failed. -/
  | fatal
  /-- An instruction addressed storage in a way that has no meaning. -/
  | refused
deriving DecidableEq, Repr

/-- The place in a script where something happens. -/
structure Site where
  script : String
  index : Nat
  /-- The text form of the instruction there. -/
  raw : String
deriving DecidableEq, Repr

/-- One report. -/
inductive Event where
  /-- Running code shows a message. -/
  | message (text : String)
  | scriptLoaded (script : String) (asset : AssetId) (instructions : Nat) (replaced : Bool)
  /-- An instruction is about to be executed. -/
  | step (site : Site)
  /-- A call was entered; `depth` counts it. -/
  | call (script : String) (entry depth : Nat)
  /-- A call is about to be left; `depth` counts it. -/
  | ret (depth : Nat) (value : String)
  /-- A run was stopped, and so many frames were dropped. -/
  | aborted (kind : AbortKind) (site : Site) (frames : Nat) (cause : RuntimeError)
  | initializers (count : Nat)
  | globalInit (script : String)
  | reset
deriving DecidableEq, Repr

end ScriptMachine
