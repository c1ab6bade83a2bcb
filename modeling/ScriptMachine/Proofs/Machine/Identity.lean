import ScriptMachine.Proofs.Exec.Stores
import ScriptMachine.Proofs.Machine.Request
import ScriptMachine.Proofs.Storage.Resolution

/-!
The identities of instances. Running code changes variables of instances and nothing else about them:
it creates none, takes none away, and changes neither the id nor the asset of one. So every id stands
for the same instance after a request as before it, however the request ended.
-/

namespace ScriptMachine

/-! ### One instruction -/

/-- No instruction makes an instance, takes one away, or changes an id or an asset. -/
theorem Exec.exec_keeps_population {c : Config} {natives : Natives} {i : Instruction} :
    Action.Keeps (fun env => env.store.instances.population) (exec c natives i) := by
  let view (kept : Store × Nat) := kept.1.instances.population
  have overlooks : Exec.Overlooks view := by
    intro cell s t limit changed
    exact changed.population
  exact exec_keeps overlooks

/-! ### Whole requests -/

/-- Every instruction keeps what `view` shows of the instances. -/
def Program.Keeps {β : Type} (p : Program) (view : Registry → β) : Prop :=
  ∀ i, Action.Keeps (fun env => view env.store.instances) (exec p.config p.natives i)

/-- The instances that a run leaves, or has reached. -/
def Progress.instances : Progress → Registry
  | .running s => s.env.store.instances
  | .returned _ left | .aborted _ left => left.instances

section Views

variable {p : Program} {base : Nat}

theorem instances_enterCall (site : Site) (function : String) (arguments : Array Value) (s : State) :
    (enterCall p base site function arguments s).instances = s.env.store.instances := by
  simp only [enterCall]
  split
  · rfl
  · split <;> rfl

theorem instances_leaveCall (site : Site) (value : Value) (s : State) :
    (leaveCall base site value s).instances = s.env.store.instances := by
  simp only [leaveCall]
  split
  · rfl
  · split
    · rfl
    · split <;> rfl

/-- Doing what an instruction asks for changes no instance. -/
theorem instances_follow (site : Site) (s : State) (flow : Flow) :
    (follow p base site s flow).instances = s.env.store.instances := by
  cases flow with
  | next => rfl
  | jump label =>
      simp only [follow]
      split <;> rfl
  | call function arguments => exact instances_enterCall site function arguments s
  | ret value => exact instances_leaveCall site value s
  | refuse cause => rfl

variable {β : Type} {view : Registry → β}

/-- A step keeps what every instruction keeps of the instances. -/
theorem step_keeps (kept : p.Keeps view) (base : Nat) (s : State) :
    view (step p base s).instances = view s.env.store.instances := by
  obtain ⟨script, position, env, callers, events⟩ := s
  unfold step
  simp only
  split
  · exact congrArg view (instances_leaveCall _ _ _)
  · rename_i i fetched
    have after := kept i env
    unfold Action.after at after
    cases executed : exec p.config p.natives i env with
    | ok flow left =>
        rw [executed] at after
        exact (congrArg view (instances_follow _ _ flow)).trans after
    | error cause left =>
        rw [executed] at after
        exact after

/-- By induction on the steps, a run keeps what every instruction keeps of the instances. -/
theorem run_keeps (kept : p.Keeps view) (base fuel : Nat) (s : State) :
    view (run p base fuel s).instances = view s.env.store.instances := by
  induction fuel generalizing s with
  | zero => rfl
  | succ fuel ih =>
      have stepped := step_keeps kept base s
      simp only [run]
      cases taken : step p base s with
      | running t =>
          rw [taken] at stepped
          exact (ih t).trans stepped
      | returned value left =>
          rw [taken] at stepped
          exact stepped
      | aborted abort left =>
          rw [taken] at stepped
          exact stepped

end Views

namespace Machine

variable {m : Machine} {β : Type} {view : Registry → β}

theorem enter_keeps (kept : m.program.Keeps view) (fuel : Nat) (instances : Registry) (e : Entry)
    (self? : Option InstanceId) (arguments : Array Value) :
    view (m.enter fuel instances e self? arguments).instances = view instances := by
  have ran := run_keeps kept m.calls.depth fuel (m.entered instances e self? arguments)
  rw [enter_eq_report]
  generalize run m.program m.calls.depth fuel (m.entered instances e self? arguments) = r at ran
  cases r <;> exact ran

theorem initializeEach_keeps (kept : m.program.Keeps view) (fuel : Nat) (instances : Registry)
    (scripts : List Script) :
    view (m.initializeEach fuel instances scripts).instances = view instances := by
  induction scripts generalizing m instances with
  | nil => rfl
  | cons i rest ih =>
      have first := enter_keeps kept fuel instances ⟨i, 0⟩ none #[]
      have same : (m.enter fuel instances ⟨i, 0⟩ none #[]).machine.program = m.program :=
        program_enter ⟨i, 0⟩ none #[]
      simp only [initializeEach]
      split
      · exact (ih (by rwa [same]) _).trans first
      · exact first
      · exact first

end Machine

/-- A request keeps what every instruction keeps of the instances. -/
theorem Request.perform_keeps {m : Machine} {β : Type} {view : Registry → β}
    (kept : m.program.Keeps view) (r : Request) (fuel : Nat) (instances : Registry) :
    view (r.perform fuel m instances).instances = view instances := by
  rcases r.perform_cases m with rfl | ⟨name, performs⟩ | ⟨-, e, -, performs⟩
  · exact Machine.initializeEach_keeps kept fuel instances m.program.initializers
  · rw [(performs instances).1]
    rfl
  · rw [(performs instances).1]
    exact Machine.enter_keeps kept fuel instances e r.self? r.arguments

/-- In a registry that the host made by any changes every instance is under its own id. A request on
it, however it ends, leaves that so: the same ids are live, each instance has the id and the asset that
it had, the search for a new id starts where it did, and every id stands for the same instance. -/
theorem identities_kept_over_request (first : InstanceId) (changes : List Registry.Change)
    (m : Machine) (request : Request) (fuel : Nat) :
    let r := (Registry.startingAt first).changeAll changes
    let r' := (request.perform fuel m r).instances
    r.Keyed ∧ r'.Keyed ∧ (∀ id, r'.isLive id = r.isLive id) ∧
      (∀ id, (r'.get? id).map Instance.id = (r.get? id).map Instance.id ∧
        (r'.get? id).map Instance.assetId = (r.get? id).map Instance.assetId) ∧
      r'.nextId = r.nextId ∧
      ∀ (c : Config) (bindings : Bindings) (globals globals' : Variables) (id : Int32),
        (Store.mk bindings globals' r').resolve c id = (Store.mk bindings globals r).resolve c id := by
  intro r r'
  have keyed : r.Keyed := (Registry.keyed_startingAt first).changeAll changes
  have population : r'.population = r.population :=
    request.perform_keeps (fun _ => Exec.exec_keeps_population) fuel r
  have nextId : r'.nextId = r.nextId := congrArg Prod.fst population
  have identities : r'.identity? = r.identity? := congrArg Prod.snd population
  refine ⟨keyed, Registry.keyed_of_identity? identities keyed,
    congrFun (Registry.isLive_of_identity? identities), ?_, nextId, ?_⟩
  · intro id
    exact ⟨Registry.map_get?_of_identity? identities Prod.fst id,
      Registry.map_get?_of_identity? identities Prod.snd id⟩
  · intro c bindings globals globals' id
    exact Store.resolve_of_identity? (s := ⟨bindings, globals, r⟩) (t := ⟨bindings, globals', r'⟩) rfl
      identities c id

end ScriptMachine
