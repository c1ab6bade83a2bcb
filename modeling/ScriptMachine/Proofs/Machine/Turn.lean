import ScriptMachine.Machine.Basic
import ScriptMachine.Proofs.Machine.CallStack

/-!
One call by itself. A call is a frame, and what it shares with all other calls is a world; neither
knows the call stack. `Frame.turn` says what the next instruction of a call leads to, and
`step_ofCall` that a step of the machine is a turn of the running call, whatever calls wait for it.
-/

namespace ScriptMachine

/-- What all calls share. -/
structure World where
  globals : Variables
  instances : Registry
  /-- The reports, the latest first. -/
  events : List Event

/-- How a call ends. -/
inductive Ending where
  /-- It returns a value, by the instruction at a site. -/
  | returned (value : Value) (site : Site) (w : World)
  | aborted (abort : Abort) (w : World)

/-- What one instruction of a call leads to. -/
inductive Turn where
  | goOn (f : Frame) (w : World)
  /-- The call waits for a function; `f` is where it will go on. -/
  | wait (e : Entry) (arguments : Array Value) (f : Frame) (w : World)
  | finish (ending : Ending)

namespace World

/-- The world with one more report. -/
def report (w : World) (e : Event) : World :=
  { w with events := e :: w.events }

/-- The world that an instruction leaves; the messages that it logged become reports. -/
def after (w : World) (env : Env) : World :=
  ⟨env.store.globals, env.store.instances, (env.messages.map Event.message).reverse ++ w.events⟩

/-- A call at a nesting depth returns. -/
def leave (depth : Nat) (site : Site) (value : Value) (w : World) : Ending :=
  .returned value site (w.report (.ret depth value.display))

/-- A call at a nesting depth is aborted, with all that wait for it. -/
def abort (depth : Nat) (site : Site) (kind : AbortKind) (cause : RuntimeError) (w : World) : Ending :=
  .aborted ⟨kind, site, cause⟩ (w.report (.aborted kind site depth cause))

/-- What is left when the calls in progress are `calls`. -/
def aftermath (w : World) (calls : CallStack) : Aftermath :=
  ⟨calls, w.globals, w.instances, w.events⟩

end World

namespace Frame

/-- A call at its first instruction, with an instance that is both the running one and the one that
made it run. -/
def start (c : Config) (e : Entry) (self? : Option InstanceId) (arguments : Array Value) : Frame where
  script := e.script
  position := e.index
  stack := .empty c.maxStackDepth
  bindings := { arguments := arguments, self? := self?, other? := self? }

/-- What the instructions of a call work on. -/
def env (f : Frame) (w : World) : Env :=
  { stack := f.stack, store := ⟨f.bindings, w.globals, w.instances⟩ }

/-- The call that an instruction leaves. -/
def after (f : Frame) (env : Env) : Frame :=
  { f with stack := env.stack, bindings := env.store.bindings }

variable (p : Program) (depth : Nat)

/-- What an instruction at a site, which asks for `flow`, leads to. -/
def obey (site : Site) (f : Frame) (w : World) : Flow → Turn
  | .next => .goOn { f with position := f.position + 1 } w
  | .jump label =>
      match f.script.labelTarget? label with
      | some target => .goOn { f with position := target } w
      | none => .finish (w.abort depth site .fatal (.unknownLabel label))
  | .call function arguments =>
      if p.config.maxCallDepth ≤ depth then
        .finish (w.abort depth site .fatal (.callDepthExceeded p.config.maxCallDepth))
      else
        match p.lookup? function with
        | none => .finish (w.abort depth site .fatal (.unknownFunction function))
        | some e => .wait e arguments { f with position := f.position + 1 } w
  | .ret value => .finish (w.leave depth site value)
  | .refuse cause => .finish (w.abort depth site .refused cause)

/-- Executes the next instruction of a call; past the last one the call returns nothing. -/
def turn (f : Frame) (w : World) : Turn :=
  match f.script.instructions[f.position]? with
  | none => .finish (w.leave depth ⟨f.script.name, f.position, "<end>"⟩ .undefined)
  | some i =>
      let site : Site := ⟨f.script.name, f.position, i.raw⟩
      match exec p.config p.natives i (f.env w) with
      | .ok flow env => (f.after env).obey p depth site ((w.report (.step site)).after env) flow
      | .error cause env =>
          .finish (((w.report (.step site)).after env).abort depth site .fatal cause)

end Frame

/-- The state of a run in which a call runs and others wait for it. -/
def State.ofCall (f : Frame) (w : World) (callers : CallStack) : State where
  script := f.script
  position := f.position
  env := f.env w
  callers := callers
  events := w.events

/-- What a run makes of the end of its running call: a value goes to the call that waited for it,
unless that call is not part of the run. -/
def Ending.progress (base : Nat) (callers : CallStack) : Ending → Progress
  | .aborted abort w => .aborted abort (w.aftermath (callers.cutTo base))
  | .returned value site w =>
      if callers.depth ≤ base then .returned value (w.aftermath callers)
      else
        match callers.pop? with
        | none => .returned value (w.aftermath callers)
        | some (caller, callers) =>
            match OperandStack.push value caller.stack with
            | .ok () stack => .running (.ofCall { caller with stack := stack } w callers)
            | .error cause _ =>
                .aborted ⟨.fatal, site, cause⟩
                  ((w.report (.aborted .fatal site (callers.depth + 1 - base) cause)).aftermath
                    (callers.cutTo base))

/-- What a run makes of a turn of its running call. -/
def Turn.progress (p : Program) (base : Nat) (callers : CallStack) : Turn → Progress
  | .goOn f w => .running (.ofCall f w callers)
  | .wait e arguments f w =>
      .running (.ofCall (.start p.config e f.bindings.self? arguments)
        (w.report (.call e.script.name e.index (callers.depth + 1 - base + 1))) (callers.push f))
  | .finish ending => ending.progress base callers

variable {p : Program} {base : Nat}

theorem leaveCall_ofCall (site : Site) (value : Value) (f : Frame) (w : World)
    (callers : CallStack) :
    leaveCall base site value (.ofCall f w callers)
      = (w.leave (callers.depth + 1 - base) site value).progress base callers := by
  rfl

theorem enterCall_ofCall (site : Site) (function : String) (arguments : Array Value) (f : Frame)
    (w : World) (callers : CallStack) :
    enterCall p base site function arguments (.ofCall f w callers)
      = (f.obey p (callers.depth + 1 - base) site w (.call function arguments)).progress p base
          callers := by
  unfold enterCall Frame.obey
  by_cases tooDeep : p.config.maxCallDepth ≤ callers.depth + 1 - base
  · simp only [State.depth, State.ofCall, tooDeep, if_true]
    rfl
  · simp only [State.depth, State.ofCall, tooDeep, if_false]
    cases p.lookup? function <;> rfl

/-- Every flow is obeyed by the frame alone. -/
theorem follow_ofCall (site : Site) (f : Frame) (w : World) (callers : CallStack) (flow : Flow) :
    follow p base site (.ofCall f w callers) flow
      = (f.obey p (callers.depth + 1 - base) site w flow).progress p base callers := by
  cases flow with
  | next => rfl
  | jump label =>
      simp only [follow, Frame.obey, State.ofCall]
      cases f.script.labelTarget? label <;> rfl
  | call function arguments => exact enterCall_ofCall site function arguments f w callers
  | ret value => exact leaveCall_ofCall site value f w callers
  | refuse cause => rfl

/-- The messages that an instruction logged are reported in their order. -/
theorem collect_ofCall (f : Frame) (w : World) (callers : CallStack) (env : Env) :
    State.collect ⟨f.script, f.position, env, callers, w.events⟩
      = .ofCall (f.after env) (w.after env) callers := by
  simp only [State.collect, State.ofCall, Frame.after, Frame.env, World.after,
    List.foldl_flip_cons_eq_append]

/-- An abort is the end of the call and of all its callers. -/
theorem abort_ofCall (site : Site) (kind : AbortKind) (cause : RuntimeError) (f : Frame) (w : World)
    (callers : CallStack) :
    (State.ofCall f w callers).abort base site kind cause
      = (w.abort (callers.depth + 1 - base) site kind cause).progress base callers := by
  rfl

/-- A step of the machine is a turn of the running call. -/
theorem step_ofCall (f : Frame) (w : World) (callers : CallStack) :
    step p base (.ofCall f w callers)
      = (f.turn p (callers.depth + 1 - base) w).progress p base callers := by
  unfold step Frame.turn
  simp only [State.ofCall]
  cases f.script.instructions[f.position]? with
  | none => exact leaveCall_ofCall _ _ f w callers
  | some i =>
      let site : Site := ⟨f.script.name, f.position, i.raw⟩
      have collected := collect_ofCall f (w.report (.step site)) callers
      simp only
      cases exec p.config p.natives i (f.env w) with
      | ok flow env =>
          have followed := congrArg (follow p base site · flow) (collected env)
          exact followed.trans (follow_ofCall site _ _ callers flow)
      | error cause env =>
          have aborted := congrArg (State.abort base site .fatal cause) (collected env)
          exact aborted.trans (abort_ofCall site .fatal cause _ _ callers)

/-! ### What a turn can do -/

section Inversion

variable {depth : Nat} {f f' : Frame} {w w' : World}

/-- A call that goes on or waits has executed an instruction. -/
theorem Frame.exists_of_turn {t : Turn} (turned : f.turn p depth w = t)
    (open_ : ∀ ending, t ≠ .finish ending) :
    ∃ i flow env, f.script.instructions[f.position]? = some i ∧
      exec p.config p.natives i (f.env w) = .ok flow env ∧
        (f.after env).obey p depth ⟨f.script.name, f.position, i.raw⟩
          ((w.report (.step ⟨f.script.name, f.position, i.raw⟩)).after env) flow = t := by
  subst turned
  unfold turn at open_ ⊢
  cases fetched : f.script.instructions[f.position]? with
  | none =>
      simp only [fetched] at open_
      exact absurd rfl (open_ _)
  | some i =>
      simp only [fetched] at open_ ⊢
      cases executed : exec p.config p.natives i (f.env w) with
      | ok flow env => exact ⟨i, flow, env, rfl, executed, rfl⟩
      | error cause env =>
          simp only [executed] at open_
          exact absurd rfl (open_ _)

/-- A call goes on to the next instruction, or to a label of its script. -/
theorem Frame.obey_goOn {site : Site} {flow : Flow}
    (obeyed : f.obey p depth site w flow = .goOn f' w') :
    w' = w ∧ ((flow = .next ∧ f' = { f with position := f.position + 1 }) ∨
      ∃ label target, flow = .jump label ∧ f.script.labelTarget? label = some target ∧
        f' = { f with position := target }) := by
  cases flow with
  | next =>
      cases obeyed
      exact ⟨rfl, .inl ⟨rfl, rfl⟩⟩
  | jump label =>
      simp only [obey] at obeyed
      cases found : f.script.labelTarget? label with
      | none => simp only [found] at obeyed; cases obeyed
      | some target =>
          simp only [found] at obeyed
          cases obeyed
          exact ⟨rfl, .inr ⟨label, target, rfl, found, rfl⟩⟩
  | call function arguments =>
      simp only [obey] at obeyed
      split at obeyed
      · cases obeyed
      · split at obeyed <;> cases obeyed
  | ret value => cases obeyed
  | refuse cause => cases obeyed

/-- A call waits for a known function, with its position past the call, if there is room for one more
call. -/
theorem Frame.obey_wait {site : Site} {flow : Flow} {e : Entry} {arguments : Array Value}
    (obeyed : f.obey p depth site w flow = .wait e arguments f' w') :
    w' = w ∧ f' = { f with position := f.position + 1 } ∧ depth < p.config.maxCallDepth ∧
      ∃ function, flow = .call function arguments ∧ p.lookup? function = some e := by
  cases flow with
  | next => cases obeyed
  | jump label =>
      simp only [obey] at obeyed
      split at obeyed <;> cases obeyed
  | call function passed =>
      simp only [obey] at obeyed
      split at obeyed
      · cases obeyed
      · rename_i shallow
        cases found : p.lookup? function with
        | none => simp only [found] at obeyed; cases obeyed
        | some entry =>
            simp only [found] at obeyed
            cases obeyed
            exact ⟨rfl, rfl, Nat.lt_of_not_le shallow, function, rfl, found⟩
  | ret value => cases obeyed
  | refuse cause => cases obeyed

end Inversion

/-- A run goes on after a call only by handing its value to the call that waits on top. -/
theorem Ending.exists_of_progress_running {callers : CallStack} {ending : Ending} {s : State}
    (gone : ending.progress base callers = .running s) :
    ∃ value site w caller rest stack, ending = .returned value site w ∧
      callers = rest.push caller ∧ base < callers.depth ∧
        OperandStack.push value caller.stack = .ok () stack ∧
          s = .ofCall { caller with stack := stack } w rest := by
  cases ending with
  | aborted abort w => cases gone
  | returned value site w =>
      simp only [progress] at gone
      split at gone
      · cases gone
      · rename_i inside
        cases popped : callers.pop? with
        | none => simp only [popped] at gone; cases gone
        | some top =>
            obtain ⟨caller, rest⟩ := top
            simp only [popped] at gone
            cases pushed : OperandStack.push value caller.stack with
            | ok done stack =>
                simp only [pushed] at gone
                cases gone
                exact ⟨value, site, w, caller, rest, stack, rfl, CallStack.eq_push_of_pop? popped,
                  Nat.lt_of_not_le inside, pushed, rfl⟩
            | error cause full => simp only [pushed] at gone; cases gone

end ScriptMachine
