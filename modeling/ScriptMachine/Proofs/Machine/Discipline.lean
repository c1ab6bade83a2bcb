import ScriptMachine.Proofs.Exec.Discipline
import ScriptMachine.Proofs.Machine.CallBounds

/-!
Runs under a discipline. Two machines with the standard natives that differ at most in the instances
go through the same steps, and what a discipline admits before the first step it admits after every
one: the instructions keep to it, a call that is entered starts within it, and a value that is
returned may go to the call that waits for it. A run that is over leaves the calls that were in
progress before, and it was refused exactly if addressing was the cause.
-/

namespace ScriptMachine

/-- A run is refused because of addressing, and for no other cause. -/
def Abort.Classified (abort : Abort) : Prop :=
  abort.kind = .refused ↔ abort.cause.isAddressing

namespace Discipline

structure AdmitsFrame (d : Discipline) (c : Config) (f : Frame) : Prop where
  stack : d.AdmitsStack c.maxStackDepth f.stack
  bindings : d.bindings f.bindings

/-- What all calls share in two runs. -/
structure AdmitsWorlds (d : Discipline) (w w' : World) : Prop where
  globals_eq : w'.globals = w.globals
  events_eq : w'.events = w.events
  globals : d.globals w.globals
  instances : d.instances w.instances w'.instances

inductive AdmitsEndings (d : Discipline) : Ending → Ending → Prop where
  | returned {value : Value} {site : Site} {w w' : World} (held : d.value value)
      (worlds : d.AdmitsWorlds w w') :
      AdmitsEndings d (.returned value site w) (.returned value site w')
  | aborted {abort : Abort} {w w' : World} (classified : abort.Classified)
      (worlds : d.AdmitsWorlds w w') : AdmitsEndings d (.aborted abort w) (.aborted abort w')

inductive AdmitsTurns (d : Discipline) (c : Config) : Turn → Turn → Prop where
  | goOn {f : Frame} {w w' : World} (running : d.AdmitsFrame c f) (worlds : d.AdmitsWorlds w w') :
      AdmitsTurns d c (.goOn f w) (.goOn f w')
  | wait {e : Entry} {arguments : Array Value} {f : Frame} {w w' : World}
      (passed : d.AdmitsArguments c.maxStackDepth arguments) (suspended : d.AdmitsFrame c f)
      (worlds : d.AdmitsWorlds w w') : AdmitsTurns d c (.wait e arguments f w) (.wait e arguments f w')
  | finish {ending ending' : Ending} (endings : d.AdmitsEndings ending ending') :
      AdmitsTurns d c (.finish ending) (.finish ending')

/-- What holds before every step of two runs on top of the calls `below`. -/
inductive AdmitsStates (d : Discipline) (c : Config) (below : CallStack) : State → State → Prop where
  | ofCall {f : Frame} {w w' : World} {callers : CallStack} {own : List Frame}
      (running : d.AdmitsFrame c f) (worlds : d.AdmitsWorlds w w')
      (frames_eq : callers.frames = own ++ below.frames) (waiting : ∀ g ∈ own, d.AdmitsFrame c g) :
      AdmitsStates d c below (.ofCall f w callers) (.ofCall f w' callers)

/-- How far two runs on top of the calls `below` have come. -/
inductive AdmitsProgress (d : Discipline) (c : Config) (below : CallStack) :
    Progress → Progress → Prop where
  | running {s s' : State} (states : d.AdmitsStates c below s s') :
      AdmitsProgress d c below (.running s) (.running s')
  | returned {value : Value} {w w' : World} (held : d.value value) (worlds : d.AdmitsWorlds w w') :
      AdmitsProgress d c below (.returned value (w.aftermath below))
        (.returned value (w'.aftermath below))
  | aborted {abort : Abort} {w w' : World} (classified : abort.Classified)
      (worlds : d.AdmitsWorlds w w') :
      AdmitsProgress d c below (.aborted abort (w.aftermath below))
        (.aborted abort (w'.aftermath below))

variable {d : Discipline} {p : Program} {c : Config} {below callers : CallStack} {f : Frame}
  {w w' : World}

/-! ### One turn -/

theorem AdmitsFrame.goTo (admitted : d.AdmitsFrame c f) (position : Nat) :
    d.AdmitsFrame c { f with position := position } :=
  ⟨admitted.stack, admitted.bindings⟩

theorem AdmitsWorlds.report (worlds : d.AdmitsWorlds w w') (e : Event) :
    d.AdmitsWorlds (w.report e) (w'.report e) :=
  ⟨worlds.globals_eq, congrArg (e :: ·) worlds.events_eq, worlds.globals, worlds.instances⟩

/-- What an instruction leaves in admitted worlds. -/
theorem AdmitsWorlds.after (worlds : d.AdmitsWorlds w w') {limit : Nat} {env env' : Env}
    (left : d.AdmitsEnvs limit env env') : d.AdmitsWorlds (w.after env) (w'.after env') where
  globals_eq := left.store.globals_eq
  events_eq := by simp only [World.after, left.messages_eq, worlds.events_eq]
  globals := left.store.globals
  instances := left.store.instances

theorem classified_fatal {cause : RuntimeError} (ordinary : cause.IsOrdinary) :
    AbortKind.fatal = .refused ↔ cause.isAddressing := by
  rw [ordinary]
  simp

theorem admits_abort (worlds : d.AdmitsWorlds w w') (depth : Nat) (site : Site) {kind : AbortKind}
    {cause : RuntimeError} (classified : kind = .refused ↔ cause.isAddressing) :
    d.AdmitsTurns c (.finish (w.abort depth site kind cause))
      (.finish (w'.abort depth site kind cause)) :=
  .finish (.aborted classified (worlds.report _))

/-- Two runs that are asked the same flow obey it alike. -/
theorem admits_obey (frame : d.AdmitsFrame c f) (worlds : d.AdmitsWorlds w w') {flow : Flow}
    (asked : d.AdmitsFlow c.maxStackDepth flow) (depth : Nat) (site : Site) :
    d.AdmitsTurns c (f.obey p depth site w flow) (f.obey p depth site w' flow) := by
  cases flow with
  | next => exact .goOn (frame.goTo _) worlds
  | jump label =>
      simp only [Frame.obey]
      split
      · exact .goOn (frame.goTo _) worlds
      · exact admits_abort worlds depth site (classified_fatal rfl)
  | call function arguments =>
      simp only [Frame.obey]
      split
      · exact admits_abort worlds depth site (classified_fatal rfl)
      · split
        · exact admits_abort worlds depth site (classified_fatal rfl)
        · exact .wait asked (frame.goTo _) worlds
  | ret value => exact .finish (.returned asked (worlds.report _))
  | refuse cause =>
      have addressing : cause.isAddressing := asked
      exact admits_abort worlds depth site (by simp [addressing])

/-- Two runs of a call that differ only where the discipline allows take the same turn, and still
differ only there. -/
theorem admits_turn (sound : d.Sound p.config) (standard : p.natives = Native.standard)
    (frame : d.AdmitsFrame p.config f) (worlds : d.AdmitsWorlds w w') (depth : Nat) :
    d.AdmitsTurns p.config (f.turn p depth w) (f.turn p depth w') := by
  unfold Frame.turn
  cases f.script.instructions[f.position]? with
  | none => exact .finish (.returned (sound.scalar rfl) (worlds.report _))
  | some i =>
      have envs : d.AdmitsEnvs p.config.maxStackDepth (f.env w) (f.env w') :=
        ⟨rfl, rfl, frame.stack, rfl, worlds.globals_eq, frame.bindings, worlds.globals,
          worlds.instances⟩
      have outcome := governs_exec sound i (f.env w) (f.env w') envs
      simp only [standard]
      generalize exec p.config Native.standard i (f.env w) = r,
        exec p.config Native.standard i (f.env w') = r' at outcome
      cases outcome with
      | @ok flow env env' asked left =>
          have same : f.after env' = f.after env := by
            simp only [Frame.after, left.stack_eq, left.store.bindings_eq]
          simp only [same]
          exact admits_obey ⟨left.stack, left.store.bindings⟩ ((worlds.report _).after left) asked
            depth _
      | error ordinary left =>
          exact admits_abort ((worlds.report _).after left) depth _ (classified_fatal ordinary)

/-! ### One step -/

/-- Two calls that end alike go back to the same caller with the same value, or both end their runs. -/
theorem AdmitsEndings.progress {ending ending' : Ending} (endings : d.AdmitsEndings ending ending')
    {own : List Frame} (frames_eq : callers.frames = own ++ below.frames)
    (waiting : ∀ g ∈ own, d.AdmitsFrame c g) :
    d.AdmitsProgress c below (ending.progress below.depth callers)
      (ending'.progress below.depth callers) := by
  cases endings with
  | aborted classified worlds =>
      simp only [Ending.progress, CallStack.cutTo_of_frames frames_eq]
      exact .aborted classified worlds
  | @returned value site w w' held worlds =>
      simp only [Ending.progress]
      split
      · rename_i le
        rw [CallStack.eq_of_frames_of_le frames_eq le]
        exact .returned held worlds
      · rename_i above
        obtain ⟨caller, rest, own', rfl, rfl, rest_eq⟩ :=
          CallStack.exists_of_frames_of_lt frames_eq (Nat.lt_of_not_le above)
        obtain ⟨resumed, others⟩ := List.forall_mem_cons.mp waiting
        have pushed := respects_push held caller.stack caller.stack ⟨rfl, resumed.stack⟩
        simp only [CallStack.pop?_push]
        generalize OperandStack.push value caller.stack = r at pushed
        cases pushed with
        | ok _ left => exact .running (.ofCall ⟨left.2, resumed.bindings⟩ worlds rest_eq others)
        | error ordinary left =>
            -- The callee has left already: the calls are cut from those below its caller.
            simp only [CallStack.cutTo_of_frames rest_eq]
            exact .aborted (classified_fatal ordinary) (worlds.report _)

theorem admitsStack_empty (d : Discipline) (limit : Nat) : d.AdmitsStack limit (.empty limit) :=
  ⟨OperandStack.limit_empty limit, by simp [OperandStack.empty]⟩

/-- Two runs that differ only where the discipline allows take the same step. -/
theorem admits_step (sound : d.Sound p.config) (standard : p.natives = Native.standard)
    {s s' : State} (states : d.AdmitsStates p.config below s s') :
    d.AdmitsProgress p.config below (step p below.depth s) (step p below.depth s') := by
  cases states with
  | @ofCall f w w' callers own running worlds frames_eq waiting =>
      have turned := admits_turn sound standard running worlds (callers.depth + 1 - below.depth)
      rw [step_ofCall, step_ofCall]
      generalize f.turn p (callers.depth + 1 - below.depth) w = t,
        f.turn p (callers.depth + 1 - below.depth) w' = t' at turned
      cases turned with
      | goOn running worlds => exact .running (.ofCall running worlds frames_eq waiting)
      | @wait e arguments f' w w' passed suspended worlds =>
          have pushed_eq : (callers.push f').frames = f' :: own ++ below.frames :=
            congrArg (f' :: ·) frames_eq
          -- The callee starts with an empty stack and has nothing of the caller but its arguments.
          exact .running (.ofCall ⟨admitsStack_empty d _, sound.start _ passed⟩ (worlds.report _)
            pushed_eq (List.forall_mem_cons.mpr ⟨suspended, waiting⟩))
      | finish endings => exact endings.progress frames_eq waiting

/-- By induction on the steps, two runs of the same length differ only where the discipline allows. -/
theorem admits_run (sound : d.Sound p.config) (standard : p.natives = Native.standard)
    {s s' : State} (states : d.AdmitsStates p.config below s s') (n : Nat) :
    d.AdmitsProgress p.config below (run p below.depth n s) (run p below.depth n s') := by
  induction n generalizing s s' with
  | zero => exact .running states
  | succ n ih =>
      have next := admits_step sound standard states
      simp only [run]
      generalize step p below.depth s = r, step p below.depth s' = r' at next
      cases next with
      | running states => exact ih states
      | returned held worlds => exact .returned held worlds
      | aborted classified worlds => exact .aborted classified worlds

/-! ### Whole requests -/

/-- A result is as `good` says, and an abort is classified. -/
def AdmitsOutcome {α : Type} (good : α → Prop) : Outcome α → Prop
  | .done a => good a
  | .failed (.aborted abort) => abort.Classified
  | .failed (.unknownScript _) | .unfinished => True

/-- What two runs of a request report when the calls before it were `below`. -/
structure AdmitsReports {α : Type} (d : Discipline) (below : CallStack) (good : α → Prop)
    (report report' : Report α) : Prop where
  outcome_eq : report'.outcome = report.outcome
  machine_eq : report'.machine = report.machine
  events_eq : report'.events = report.events
  globals : d.globals report.machine.globals
  instances : d.instances report.instances report'.instances
  calls : report.outcome ≠ .unfinished → report.machine.calls = below
  outcome : AdmitsOutcome good report.outcome

/-- What a machine and the instances have to be like when a call is asked for. -/
structure AdmitsCalls (d : Discipline) (m : Machine) (instances instances' : Registry)
    (self? : Option InstanceId) (arguments : Array Value) : Prop where
  globals : d.globals m.globals
  instances : d.instances instances instances'
  bindings : d.bindings { arguments := arguments, self? := self?, other? := self? }

variable {m : Machine} {instances instances' : Registry} {self? : Option InstanceId}
  {arguments : Array Value}

theorem AdmitsCalls.entered (admitted : d.AdmitsCalls m instances instances' self? arguments)
    (e : Entry) :
    d.AdmitsStates m.program.config m.calls (m.entered instances e self? arguments)
      (m.entered instances' e self? arguments) := by
  have frames_eq : m.calls.frames = [] ++ m.calls.frames := rfl
  exact .ofCall ⟨admitsStack_empty d _, admitted.bindings⟩
    ⟨rfl, rfl, admitted.globals, admitted.instances⟩ frames_eq (by simp)

/-- Two runs of a function from admissible starts give the same report, up to what the discipline
allows. -/
theorem AdmitsCalls.enter (admitted : d.AdmitsCalls m instances instances' self? arguments)
    (sound : d.Sound m.program.config) (standard : m.program.natives = Native.standard) (fuel : Nat)
    (e : Entry) :
    d.AdmitsReports m.calls d.value (m.enter fuel instances e self? arguments)
      (m.enter fuel instances' e self? arguments) := by
  have reached := admits_run sound standard (admitted.entered e) fuel
  rw [enter_eq_report, enter_eq_report]
  generalize run m.program m.calls.depth fuel (m.entered instances e self? arguments) = r,
    run m.program m.calls.depth fuel (m.entered instances' e self? arguments) = r' at reached
  cases reached with
  | running states =>
      cases states with
      | @ofCall f w w' callers own running worlds frames_eq waiting =>
          exact
            { outcome_eq := rfl
              machine_eq := by simp only [Progress.report, State.ofCall, Frame.env, State.frame,
                worlds.globals_eq]
              events_eq := congrArg List.reverse worlds.events_eq
              globals := worlds.globals
              instances := worlds.instances
              calls := fun finished => absurd rfl finished
              outcome := trivial }
  | @returned value w w' held worlds =>
      exact
        { outcome_eq := rfl
          machine_eq := by simp only [Progress.report, World.aftermath, worlds.globals_eq]
          events_eq := congrArg List.reverse worlds.events_eq
          globals := worlds.globals
          instances := worlds.instances
          calls := fun _ => rfl
          outcome := held }
  | @aborted abort w w' classified worlds =>
      exact
        { outcome_eq := rfl
          machine_eq := by simp only [Progress.report, World.aftermath, worlds.globals_eq]
          events_eq := congrArg List.reverse worlds.events_eq
          globals := worlds.globals
          instances := worlds.instances
          calls := fun _ => rfl
          outcome := classified }

theorem AdmitsCalls.unknown {α : Type} (admitted : d.AdmitsCalls m instances instances' self? arguments)
    (good : α → Prop) (name : String) :
    d.AdmitsReports m.calls good (m.unknown instances name) (m.unknown instances' name) :=
  ⟨rfl, rfl, rfl, admitted.globals, admitted.instances, fun _ => rfl, trivial⟩

theorem AdmitsReports.map {α β : Type} {report report' : Report α} {good : α → Prop}
    {good' : β → Prop} (admitted : d.AdmitsReports below good report report') {f : α → β}
    (better : ∀ a, good a → good' (f a)) :
    d.AdmitsReports below good' (report.map f) (report'.map f) where
  outcome_eq := congrArg (Outcome.map f) admitted.outcome_eq
  machine_eq := admitted.machine_eq
  events_eq := admitted.events_eq
  globals := admitted.globals
  instances := admitted.instances
  calls finished := admitted.calls (mt (Outcome.map_unfinished_iff f _).mpr finished)
  outcome := by
    have outcome := admitted.outcome
    unfold Report.map
    generalize report.outcome = o at outcome ⊢
    cases o with
    | done a => exact better a outcome
    | failed error => cases error <;> exact outcome
    | unfinished => trivial

/-- A script that gave a value leaves the next one what it found, as far as the discipline goes. -/
theorem AdmitsReports.next {report report' : Report Value}
    (reports : d.AdmitsReports m.calls d.value report report')
    (admitted : d.AdmitsCalls m instances instances' none #[]) {value : Value}
    (done : report.outcome = .done value) :
    d.AdmitsCalls report.machine report.instances report'.instances none #[] ∧
      report.machine.calls = m.calls :=
  ⟨⟨reports.globals, reports.instances, admitted.bindings⟩, reports.calls (by simp [done])⟩

/-- Initializers keep what the discipline allows, one script after another. -/
theorem AdmitsCalls.initializeEach (admitted : d.AdmitsCalls m instances instances' none #[])
    (sound : d.Sound m.program.config) (standard : m.program.natives = Native.standard) (fuel : Nat)
    (scripts : List Script) :
    d.AdmitsReports m.calls (fun _ => True) (m.initializeEach fuel instances scripts)
      (m.initializeEach fuel instances' scripts) := by
  induction scripts generalizing m instances instances' with
  | nil =>
      exact ⟨rfl, rfl, rfl, admitted.globals, admitted.instances, fun _ => rfl, trivial⟩
  | cons i rest ih =>
      have first := admitted.enter sound standard fuel ⟨i, 0⟩
      have same : (m.enter fuel instances ⟨i, 0⟩ none #[]).machine.program = m.program :=
        Machine.program_enter _ _ _
      simp only [Machine.initializeEach, first.outcome_eq, first.machine_eq, first.events_eq]
      cases ended : (m.enter fuel instances ⟨i, 0⟩ none #[]).outcome with
      | done value =>
          obtain ⟨admitted', calls_eq⟩ := first.next admitted ended
          have others := ih admitted' (by rwa [same]) (by rwa [same])
          -- The first script has left no calls behind, so the others start from the same ones.
          rw [calls_eq] at others
          exact ⟨others.outcome_eq, others.machine_eq, congrArg (_ ++ ·) others.events_eq,
            others.globals, others.instances, others.calls, others.outcome⟩
      | failed error =>
          have outcome := first.outcome
          rw [ended] at outcome
          refine ⟨rfl, rfl, rfl, first.globals, first.instances,
            fun _ => first.calls (by simp [ended]), ?_⟩
          cases error <;> exact outcome
      | unfinished =>
          exact ⟨rfl, rfl, rfl, first.globals, first.instances, fun finished => absurd rfl finished,
            trivial⟩

/-- A request comes to the same in two runs, and keeps to the discipline. -/
theorem admits_perform (r : Request) (sound : d.Sound m.program.config)
    (standard : m.program.natives = Native.standard)
    (admitted : d.AdmitsCalls m instances instances' r.self? r.arguments) (fuel : Nat) :
    d.AdmitsReports m.calls (fun result => ∀ v, result = some v → d.value v)
      (r.perform fuel m instances) (r.perform fuel m instances') := by
  have wrapped (v : Value) (held : d.value v) (w : Value) (eq : some v = some w) : d.value w := by
    cases eq
    exact held
  rcases r.perform_cases m with rfl | ⟨name, performs⟩ | ⟨-, e, -, performs⟩
  · have reports := admitted.initializeEach sound standard fuel m.program.initializers
    have announced : d.AdmitsReports m.calls (fun _ => True) (m.runInitializers fuel instances)
        (m.runInitializers fuel instances') :=
      { reports with events_eq := congrArg (_ :: ·) reports.events_eq }
    exact announced.map fun _ _ _ eq => by cases eq
  · rw [(performs instances).1, (performs instances').1]
    exact (admitted.unknown d.value name).map wrapped
  · rw [(performs instances).1, (performs instances').1]
    exact (admitted.enter sound standard fuel e).map wrapped

/-! ### The states that a request comes to -/

/-- What admitted states hold, with the running call among the others. -/
theorem AdmitsStates.parts {s s' : State} (states : d.AdmitsStates c below s s') :
    d.globals s.env.store.globals ∧ d.instances s.env.store.instances s'.env.store.instances ∧
      ∃ own, s.calls.frames = own ++ below.frames ∧ ∀ f ∈ own, d.AdmitsFrame c f := by
  cases states with
  | @ofCall f w w' callers own running worlds frames_eq waiting =>
      exact ⟨worlds.globals, worlds.instances, f :: own, congrArg (f :: ·) frames_eq,
        List.forall_mem_cons.mpr ⟨running, waiting⟩⟩

theorem AdmitsCalls.visits (admitted : d.AdmitsCalls m instances instances self? arguments)
    (sound : d.Sound m.program.config) (standard : m.program.natives = Native.standard) {e : Entry}
    {s : State} (visited : m.Visits instances e self? arguments s) :
    d.AdmitsStates m.program.config m.calls s s := by
  obtain ⟨n, ran⟩ := visited
  have reached := admits_run sound standard (admitted.entered e) n
  rw [ran] at reached
  cases reached with
  | running states => exact states

theorem AdmitsCalls.visitsEach (admitted : d.AdmitsCalls m instances instances none #[])
    (sound : d.Sound m.program.config) (standard : m.program.natives = Native.standard)
    {scripts : List Script} {s : State} (visited : m.VisitsEach instances scripts s) :
    d.AdmitsStates m.program.config m.calls s s := by
  induction scripts generalizing m instances with
  | nil => exact visited.elim
  | cons i rest ih =>
      rcases visited with here | ⟨fuel, value, done, later⟩
      · exact admitted.visits sound standard here
      · have first := admitted.enter sound standard fuel ⟨i, 0⟩
        obtain ⟨admitted', calls_eq⟩ := first.next admitted done
        have same : (m.enter fuel instances ⟨i, 0⟩ none #[]).machine.program = m.program :=
          Machine.program_enter _ _ _
        have reached := ih admitted' (by rwa [same]) (by rwa [same]) later
        rwa [same, calls_eq] at reached

/-- In every state of a request, what the discipline admits at the start still holds. -/
theorem admits_of_visits {r : Request} (sound : d.Sound m.program.config)
    (standard : m.program.natives = Native.standard)
    (admitted : d.AdmitsCalls m instances instances r.self? r.arguments) {s : State}
    (visited : r.Visits m instances s) : d.AdmitsStates m.program.config m.calls s s := by
  rcases r.perform_cases m with rfl | ⟨name, performs⟩ | ⟨-, e, -, performs⟩
  · exact admitted.visitsEach sound standard visited
  · exact absurd visited ((performs instances).2 s)
  · exact admitted.visits sound standard (((performs instances).2 s).mp visited)

end Discipline

end ScriptMachine
