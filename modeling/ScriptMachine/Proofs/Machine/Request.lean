import ScriptMachine.Proofs.Machine.Run

/-!
What a host can ask a machine to run, and the states that running it goes through. No request
changes the program.
-/

namespace ScriptMachine

/-- Something to run: a script, a function, or the global initializers. -/
inductive Request where
  | execute (script : String) (self? : Option InstanceId) (arguments : Array Value)
  | call (function : String) (self? : Option InstanceId) (arguments : Array Value)
  | initializers

/-- The instance that a request binds. -/
def Request.self? : Request → Option InstanceId
  | .execute _ self? _ | .call _ self? _ => self?
  | .initializers => none

/-- The arguments that a request passes. -/
def Request.arguments : Request → Array Value
  | .execute _ _ arguments | .call _ _ arguments => arguments
  | .initializers => #[]

/-- The outcome with another result. -/
def Outcome.map {α β : Type} (f : α → β) : Outcome α → Outcome β
  | .done result => .done (f result)
  | .failed error => .failed error
  | .unfinished => .unfinished

/-- The report with another result. -/
def Report.map {α β : Type} (f : α → β) (r : Report α) : Report β :=
  { r with outcome := r.outcome.map f }

/-- Runs what is asked for; global initializers give no value. -/
def Request.perform (fuel : Nat) (m : Machine) (instances : Registry) :
    Request → Report (Option Value)
  | .execute script self? arguments => (m.execute fuel instances script self? arguments).map some
  | .call function self? arguments => (m.call fuel instances function self? arguments).map some
  | .initializers => (m.runInitializers fuel instances).map fun _ => none

namespace Machine

/-- Running a function comes to a state in which its loop executes the next instruction. -/
def Visits (m : Machine) (instances : Registry) (e : Entry) (self? : Option InstanceId)
    (arguments : Array Value) (s : State) : Prop :=
  ∃ n, run m.program m.calls.depth n (m.entered instances e self? arguments) = .running s

/-- Running scripts in order comes to a state: in the first, or in a later one after the first gave
a value. -/
def VisitsEach (m : Machine) (instances : Registry) : List Script → State → Prop
  | [], _ => False
  | i :: rest, s =>
      m.Visits instances ⟨i, 0⟩ none #[] s ∨
        ∃ fuel value, (m.enter fuel instances ⟨i, 0⟩ none #[]).outcome = .done value ∧
          (m.enter fuel instances ⟨i, 0⟩ none #[]).machine.VisitsEach
            (m.enter fuel instances ⟨i, 0⟩ none #[]).instances rest s

end Machine

/-- Running what is asked for comes to a state. -/
def Request.Visits (m : Machine) (instances : Registry) : Request → State → Prop
  | .execute script self? arguments, s =>
      ∃ found, m.program.scripts[script]? = some found ∧
        m.Visits instances ⟨found, 0⟩ self? arguments s
  | .call function self? arguments, s =>
      ∃ e, m.program.lookup? function = some e ∧ m.Visits instances e self? arguments s
  | .initializers, s => m.VisitsEach instances m.program.initializers s

theorem Outcome.map_unfinished_iff {α β : Type} (f : α → β) (o : Outcome α) :
    o.map f = .unfinished ↔ o = .unfinished := by
  cases o <;> simp [map]

theorem Outcome.map_eq_failed_iff {α β : Type} (f : α → β) (o : Outcome α) (error : ExecError) :
    o.map f = .failed error ↔ o = .failed error := by
  cases o <;> simp [map]

theorem Outcome.exists_of_map_eq_done {α β : Type} {f : α → β} {o : Outcome α} {result : β}
    (done : o.map f = .done result) : ∃ value, o = .done value := by
  cases o with
  | done value => exact ⟨value, rfl⟩
  | failed error => cases done
  | unfinished => cases done

/-- A request other than for the global initializers runs one function, which is found under a name,
or finds none. -/
theorem Request.perform_cases (m : Machine) (r : Request) :
    r = .initializers ∨
      (∃ name, ∀ instances,
        (∀ fuel, r.perform fuel m instances = (m.unknown instances name).map some) ∧
          ∀ s, ¬ r.Visits m instances s) ∨
      ∃ name e, m.program.lookup? name = some e ∧ ∀ instances,
        (∀ fuel, r.perform fuel m instances
          = (m.enter fuel instances e r.self? r.arguments).map some) ∧
          ∀ s, r.Visits m instances s ↔ m.Visits instances e r.self? r.arguments s := by
  cases r with
  | execute script self? arguments =>
      simp only [perform, Machine.execute, Visits]
      cases found : m.program.scripts[script]? with
      | none => exact .inr (.inl ⟨script, fun _ => ⟨fun _ => rfl, by simp⟩⟩)
      | some s =>
          have entry : m.program.lookup? script = some ⟨s, 0⟩ := by
            simp only [Program.lookup?, found]
          refine .inr (.inr ⟨script, ⟨s, 0⟩, entry, fun _ => ⟨fun _ => rfl, fun s => ?_⟩⟩)
          simp only [Option.some.injEq, exists_eq_left']
          exact Iff.rfl
  | call function self? arguments =>
      simp only [perform, Machine.call, Visits]
      cases found : m.program.lookup? function with
      | none => exact .inr (.inl ⟨function, fun _ => ⟨fun _ => rfl, by simp⟩⟩)
      | some e =>
          refine .inr (.inr ⟨function, e, found, fun _ => ⟨fun _ => rfl, fun s => ?_⟩⟩)
          simp only [Option.some.injEq, exists_eq_left']
          exact Iff.rfl
  | initializers => exact .inl rfl

variable {fuel : Nat} {m : Machine} {instances : Registry}

/-! ### The program -/

namespace Machine

theorem program_enter (e : Entry) (self? : Option InstanceId) (arguments : Array Value) :
    (m.enter fuel instances e self? arguments).machine.program = m.program := by
  rw [enter_eq_report]
  cases run m.program m.calls.depth fuel (m.entered instances e self? arguments) <;> rfl

theorem program_initializeEach (scripts : List Script) :
    (m.initializeEach fuel instances scripts).machine.program = m.program := by
  induction scripts generalizing m instances with
  | nil => rfl
  | cons i rest ih =>
      have first : (m.enter fuel instances ⟨i, 0⟩ none #[]).machine.program = m.program :=
        program_enter ⟨i, 0⟩ none #[]
      simp only [initializeEach]
      split
      · exact ih.trans first
      · exact first
      · exact first

end Machine

/-- No request changes the program. -/
theorem Request.program_perform (r : Request) :
    (r.perform fuel m instances).machine.program = m.program := by
  rcases r.perform_cases m with rfl | ⟨name, performs⟩ | ⟨-, e, -, performs⟩
  · exact Machine.program_initializeEach m.program.initializers
  · rw [(performs instances).1]
    rfl
  · rw [(performs instances).1]
    exact Machine.program_enter e r.self? r.arguments

end ScriptMachine
