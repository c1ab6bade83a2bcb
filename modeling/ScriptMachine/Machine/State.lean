import ScriptMachine.Exec.Instruction
import ScriptMachine.Machine.CallStack
import ScriptMachine.Value.Display

/-!
The run of a program. A call suspends its caller and a return resumes it, so that one loop runs all
nested calls. `step` executes one instruction of the running call and does what it asks for; `run`
repeats it, up to a bound, until the call at the base returns or an error drops all calls above the
base.
-/

namespace ScriptMachine

/-- The state of a run: the running call, and the calls that wait for it. -/
structure State where
  script : Script
  /-- The index of the next instruction. -/
  position : Nat
  env : Env
  callers : CallStack
  /-- The reports, the latest first. -/
  events : List Event := []

/-- Why a run stopped, and where. -/
structure Abort where
  kind : AbortKind
  site : Site
  cause : RuntimeError
deriving DecidableEq

/-- What a run leaves behind. -/
structure Aftermath where
  calls : CallStack
  globals : Variables
  instances : Registry
  /-- The reports, the latest first. -/
  events : List Event

/-- Where a run stands after a step. -/
inductive Progress where
  | running (s : State)
  | returned (value : Value) (left : Aftermath)
  | aborted (abort : Abort) (left : Aftermath)

namespace State

/-- A call that is about to start, with an instance that is both the running one and the one that
made it run. -/
def start (c : Config) (e : Entry) (self? : Option InstanceId) (arguments : Array Value)
    (globals : Variables) (instances : Registry) (callers : CallStack) : State where
  script := e.script
  position := e.index
  env :=
    { stack := .empty c.maxStackDepth
      store := ⟨{ arguments := arguments, self? := self?, other? := self? }, globals, instances⟩ }
  callers := callers

/-- How many calls are in progress above a base, the running one included. -/
def depth (base : Nat) (s : State) : Nat :=
  s.callers.depth + 1 - base

/-- The state with one more report. -/
def report (s : State) (e : Event) : State :=
  { s with events := e :: s.events }

/-- The running call, as one that waits. -/
def frame (s : State) : Frame :=
  ⟨s.script, s.position, s.env.stack, s.env.store.bindings⟩

/-- What is left when the calls in progress are `calls`. -/
def leave (s : State) (calls : CallStack) : Aftermath :=
  ⟨calls, s.env.store.globals, s.env.store.instances, s.events⟩

/-- Drops all calls above the base and says where and why. -/
def abort (base : Nat) (site : Site) (kind : AbortKind) (cause : RuntimeError) (s : State) :
    Progress :=
  .aborted ⟨kind, site, cause⟩
    ((s.report (.aborted kind site (s.depth base) cause)).leave (s.callers.cutTo base))

/-- Suspends the running call behind its call instruction, and starts another in its place. -/
def enter (c : Config) (e : Entry) (arguments : Array Value) (s : State) : State :=
  let store := s.env.store
  { start c e store.bindings.self? arguments store.globals store.instances
      (s.callers.push { s.frame with position := s.position + 1 }) with
    events := s.events }

/-- Resumes a call in place of the running one. -/
def resume (caller : Frame) (callers : CallStack) (s : State) : State where
  script := caller.script
  position := caller.position
  env :=
    { stack := caller.stack
      store := { s.env.store with bindings := caller.bindings } }
  callers := callers
  events := s.events

end State

variable (p : Program) (base : Nat) (site : Site)

/-- Enters a function, unless calls are nested too deep or there is no such function. -/
def enterCall (function : String) (arguments : Array Value) (s : State) : Progress :=
  let depth := s.depth base
  if p.config.maxCallDepth ≤ depth then
    s.abort base site .fatal (.callDepthExceeded p.config.maxCallDepth)
  else
    match p.lookup? function with
    | none => s.abort base site .fatal (.unknownFunction function)
    | some e =>
        .running ((s.enter p.config e arguments).report (.call e.script.name e.index (depth + 1)))

/-- Leaves the running call. Its value goes to the caller, or is the result at the base. -/
def leaveCall (value : Value) (s : State) : Progress :=
  let s := s.report (.ret (s.depth base) value.display)
  if s.callers.depth ≤ base then .returned value (s.leave s.callers)
  else
    match s.callers.pop? with
    | none => .returned value (s.leave s.callers)
    | some (caller, callers) =>
        match OperandStack.push value caller.stack with
        | .ok () stack => .running (s.resume { caller with stack := stack } callers)
        | .error cause _ => (s.resume caller callers).abort base site .fatal cause

/-- Does what an instruction asks for. -/
def follow (s : State) : Flow → Progress
  | .next => .running { s with position := s.position + 1 }
  | .jump label =>
      match s.script.labelTarget? label with
      | some target => .running { s with position := target }
      | none => s.abort base site .fatal (.unknownLabel label)
  | .call function arguments => enterCall p base site function arguments s
  | .ret value => leaveCall base site value s
  | .refuse cause => s.abort base site .refused cause

/-- The messages that an instruction logged become reports. -/
def State.collect (s : State) : State :=
  { s with
    env := { s.env with messages := [] }
    events := s.env.messages.foldl (fun events text => .message text :: events) s.events }

/-- Executes the next instruction of the running call; running off the end returns nothing. -/
def step : State → Progress
  | ⟨script, position, env, callers, events⟩ =>
      match script.instructions[position]? with
      | none =>
          leaveCall base ⟨script.name, position, "<end>"⟩ .undefined
            ⟨script, position, env, callers, events⟩
      | some i =>
          let site : Site := ⟨script.name, position, i.raw⟩
          match exec p.config p.natives i env with
          | .ok flow env =>
              follow p base site
                (State.collect ⟨script, position, env, callers, .step site :: events⟩) flow
          | .error cause env =>
              State.abort base site .fatal cause
                (State.collect ⟨script, position, env, callers, .step site :: events⟩)

/-- Repeats `step` at most so many times. -/
def run : Nat → State → Progress
  | 0, s => .running s
  | fuel + 1, s =>
      match step p base s with
      | .running s => run fuel s
      | ended => ended

end ScriptMachine
