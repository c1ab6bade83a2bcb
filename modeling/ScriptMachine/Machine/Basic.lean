import ScriptMachine.Machine.State

/-!
Machines: a program together with the global variables and the calls in progress. The instances
belong to the host, which passes them to every operation that runs code.
-/

namespace ScriptMachine

/-- A program with its global variables and its active calls. -/
structure Machine where
  program : Program := {}
  globals : Variables := ∅
  calls : CallStack := {}

/-- Why an operation that runs code gives no value. -/
inductive ExecError where
  | aborted (abort : Abort)
  | unknownScript (name : String)
deriving DecidableEq

/-- The wording of such an error. -/
def ExecError.message : ExecError → String
  | aborted ⟨kind, site, cause⟩ =>
      let failed :=
        match kind with
        | .fatal => ""
        | .refused => " failed"
      site.script ++ "[" ++ toString site.index ++ "] `" ++ site.raw ++ "`" ++ failed ++ ": "
        ++ cause.message
  | unknownScript name => "unknown script `" ++ name ++ "`"

/-- How an operation that runs code ends. -/
inductive Outcome (α : Type) where
  | done (result : α)
  | failed (error : ExecError)
  /-- The bound on the number of steps was reached. -/
  | unfinished

/-- The outcome of an operation, and what it leaves behind. -/
structure Report (α : Type) where
  outcome : Outcome α
  machine : Machine
  instances : Registry
  /-- What was reported, in order. -/
  events : List Event

namespace Machine

/-- A machine without scripts. -/
def new (config : Config) (natives : Natives) : Machine :=
  { program := { config := config, natives := natives } }

/-- How many calls are in progress. -/
def callDepth (m : Machine) : Nat :=
  m.calls.depth

/-- Loads a script in place of any of the same name. -/
def load (m : Machine) (s : Script) : Machine × Event :=
  ({ m with program := m.program.load s }, m.program.loadEvent s)

/-- Loads scripts in order. -/
def loadAll (m : Machine) : List Script → Machine × List Event
  | [] => (m, [])
  | s :: rest =>
      let (m, event) := m.load s
      let (m, events) := m.loadAll rest
      (m, event :: events)

/-- Registers a native function in place of any of the same name. -/
def register (m : Machine) (name : String) (native : Native) : Machine :=
  { m with program := m.program.register name native }

/-- Forgets the global variables and any calls in progress. -/
def reset (m : Machine) : Machine × Event :=
  ({ m with globals := ∅, calls := {} }, .reset)

variable (fuel : Nat)

/-- Runs a function from its first instruction, in at most `fuel` steps. -/
def enter (m : Machine) (instances : Registry) (e : Entry) (self? : Option InstanceId)
    (arguments : Array Value) : Report Value :=
  let start := State.start m.program.config e self? arguments m.globals instances m.calls
  let finish (outcome : Outcome Value) (left : Aftermath) : Report Value :=
    ⟨outcome, { m with globals := left.globals, calls := left.calls }, left.instances,
      left.events.reverse⟩
  match run m.program m.calls.depth fuel start with
  | .returned value left => finish (.done value) left
  | .aborted abort left => finish (.failed (.aborted abort)) left
  | .running s => finish .unfinished (s.leave (s.callers.push s.frame))

/-- The report of an operation that names no known script or function. -/
def unknown {α : Type} (m : Machine) (instances : Registry) (name : String) : Report α :=
  ⟨.failed (.unknownScript name), m, instances, []⟩

/-- Runs a script from its first instruction. -/
def execute (m : Machine) (instances : Registry) (name : String) (self? : Option InstanceId)
    (arguments : Array Value) : Report Value :=
  match m.program.scripts[name]? with
  | some s => m.enter fuel instances ⟨s, 0⟩ self? arguments
  | none => m.unknown instances name

/-- Runs a function, which may be a script or be declared by a label. -/
def call (m : Machine) (instances : Registry) (name : String) (self? : Option InstanceId)
    (arguments : Array Value) : Report Value :=
  match m.program.lookup? name with
  | some e => m.enter fuel instances e self? arguments
  | none => m.unknown instances name

/-- Runs scripts in order, with no instance and no arguments, until one gives no value. -/
def initializeEach (m : Machine) (instances : Registry) : List Script → Report Unit
  | [] => ⟨.done (), m, instances, []⟩
  | s :: rest =>
      let first := m.enter fuel instances ⟨s, 0⟩ none #[]
      let events := .globalInit s.name :: first.events
      match first.outcome with
      | .done _ =>
          let others := initializeEach first.machine first.instances rest
          { others with events := events ++ others.events }
      | .failed error => ⟨.failed error, first.machine, first.instances, events⟩
      | .unfinished => ⟨.unfinished, first.machine, first.instances, events⟩

/-- Runs the global initializers, in ascending order of their asset ids. -/
def runInitializers (m : Machine) (instances : Registry) : Report Unit :=
  let scripts := m.program.initializers
  let report := m.initializeEach fuel instances scripts
  { report with events := .initializers scripts.length :: report.events }

end Machine

end ScriptMachine
