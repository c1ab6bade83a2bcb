import ScriptMachine.Config
import ScriptMachine.Machine.Event
import ScriptMachine.Native.Standard

/-!
Programs: the loaded scripts, an index of the functions that their labels declare, the native
functions and the settings. Loading changes a program; running only reads it.
-/

namespace ScriptMachine

/-- Where a function starts. -/
structure Entry where
  script : Script
  index : Nat

/-- The global initializers among scripts that are listed in some order, in ascending order of their
asset ids. Scripts with equal asset ids stay in the order in which they are listed. -/
def initializersOf (scripts : List Script) : List Script :=
  (scripts.filter Script.isGlobalInit).mergeSort fun a b => a.assetId ≤ b.assetId

/-- What a machine runs. -/
structure Program where
  config : Config := {}
  natives : Natives := ∅
  /-- The loaded scripts by name. -/
  scripts : Std.ExtTreeMap String Script compare := ∅
  /-- The functions that labels declare, by name. -/
  functions : Std.ExtTreeMap String Entry compare := ∅

namespace Program

/-- The index with the functions of a script, in ascending order of their labels; of two functions
with one name the later one stays. -/
def declare (functions : Std.ExtTreeMap String Entry compare) (s : Script) :
    Std.ExtTreeMap String Entry compare :=
  s.functions.foldl (fun m (name, index) => m.insert name ⟨s, index⟩) functions

/-- Loads a script in place of any of the same name. The functions of the replaced script leave the
index before those of the new one enter it. -/
def load (p : Program) (s : Script) : Program :=
  { p with
    scripts := p.scripts.insert s.name s
    functions := declare (p.functions.filter fun _ e => e.script.name != s.name) s }

/-- The report of loading a script. -/
def loadEvent (p : Program) (s : Script) : Event :=
  .scriptLoaded s.name s.assetId s.instructions.size (p.scripts.contains s.name)

/-- Registers a native function in place of any of the same name. -/
def register (p : Program) (name : String) (native : Native) : Program :=
  { p with natives := p.natives.insert name native }

/-- Where a call to a name goes: to the script of that name, or else to a declared function. -/
def lookup? (p : Program) (name : String) : Option Entry :=
  match p.scripts[name]? with
  | some s => some ⟨s, 0⟩
  | none => p.functions[name]?

/-- The global initializers, in ascending order of their asset ids. The table here lists scripts by
name, so those with equal asset ids run in the order of their names. A hash table may list them in any
order: between equal asset ids nothing is promised. -/
def initializers (p : Program) : List Script :=
  initializersOf p.scripts.values

end Program

end ScriptMachine
