import ScriptMachine.Proofs.Machine.Discipline

/-!
Failures of requests. With the standard natives a request is refused exactly if the cause is an
unsupported addressing. The site that a failure names is that of the step that failed: the running
script, and the instruction at which the step began. Past the last instruction only one thing can
fail: the value that the ended call returns may find no room on the operand stack of its caller.
-/

namespace ScriptMachine

/-- Where the next step takes place. -/
def State.site (s : State) : Site where
  script := s.script.name
  index := s.position
  raw :=
    match s.script.instructions[s.position]? with
    | some i => i.raw
    | none => "<end>"

/-- The running call waits to hand its value to a caller that has no room for it. -/
def State.Overflows (s : State) (value : Value) (cause : RuntimeError) : Prop :=
  ∃ callers caller, s.callers = CallStack.push callers caller ∧
    caller.stack.length = caller.stack.limit ∧ cause = .stackOverflow caller.stack.limit ∧
      OperandStack.push value caller.stack = .error cause caller.stack

theorem RuntimeError.isAddressing_iff (e : RuntimeError) :
    e.isAddressing ↔ ∃ scope access, e = .unsupportedAddressing scope access := by
  cases e <;> simp [isAddressing]

/-- A value is refused by a full stack only, which stays as it is. -/
theorem OperandStack.full_of_push_error {s full : OperandStack} {v : Value} {cause : RuntimeError}
    (overflown : push v s = .error cause full) :
    s.length = s.limit ∧ cause = .stackOverflow s.limit ∧ full = s := by
  obtain ⟨values, room⟩ := s
  cases room with
  | zero =>
      cases overflown
      exact ⟨rfl, rfl, rfl⟩
  | succ room => cases overflown

variable {p : Program} {base : Nat} {site : Site} {s : State} {abort : Abort} {left : Aftermath}

/-! ### The step that fails -/

/-- A return fails only if the stack of the caller has no room for the value, and then at the site of
the return. -/
theorem leaveCall_aborted {value : Value} (aborted : leaveCall base site value s = .aborted abort left) :
    abort.site = site ∧ s.Overflows value abort.cause := by
  unfold leaveCall at aborted
  simp only at aborted
  split at aborted
  · cases aborted
  · split at aborted
    · cases aborted
    · rename_i caller callers popped
      cases pushed : OperandStack.push value caller.stack with
      | ok done stack =>
          rw [pushed] at aborted
          cases aborted
      | error cause full =>
          rw [pushed] at aborted
          cases aborted
          obtain ⟨no_room, cause_eq, rfl⟩ := OperandStack.full_of_push_error pushed
          exact ⟨rfl, callers, caller, CallStack.eq_push_of_pop? popped, no_room, cause_eq, pushed⟩

theorem enterCall_aborted {function : String} {arguments : Array Value}
    (aborted : enterCall p base site function arguments s = .aborted abort left) :
    abort.site = site := by
  unfold enterCall at aborted
  simp only at aborted
  split at aborted
  · cases aborted
    rfl
  · split at aborted
    · cases aborted
      rfl
    · cases aborted

/-- What goes wrong in following a flow goes wrong at the site of its instruction. -/
theorem follow_aborted {flow : Flow} (aborted : follow p base site s flow = .aborted abort left) :
    abort.site = site := by
  cases flow with
  | next => cases aborted
  | jump label =>
      simp only [follow] at aborted
      split at aborted
      · cases aborted
      · cases aborted
        rfl
  | call function arguments => exact enterCall_aborted aborted
  | ret value => exact (leaveCall_aborted aborted).1
  | refuse cause =>
      cases aborted
      rfl

/-- A step that fails names its own site, also where the value of an ended call is to blame. -/
theorem step_aborted (aborted : step p base s = .aborted abort left) :
    abort.site = s.site ∧
      (s.script.instructions.size ≤ s.position → s.Overflows .undefined abort.cause) := by
  obtain ⟨script, position, env, callers, events⟩ := s
  simp only [step] at aborted
  simp only [State.site]
  cases fetched : script.instructions[position]? with
  | none =>
      rw [fetched] at aborted
      obtain ⟨site_eq, overflows⟩ := leaveCall_aborted aborted
      exact ⟨site_eq, fun _ => overflows⟩
  | some i =>
      have inside : position < script.instructions.size := (Array.getElem?_eq_some_iff.mp fetched).1
      rw [fetched] at aborted
      refine ⟨?_, fun past => absurd past (Nat.not_le.mpr inside)⟩
      simp only at aborted
      split at aborted
      · exact follow_aborted aborted
      · cases aborted
        rfl

/-! ### The kind of a failure -/

theorem Discipline.lax_admitsCalls (m : Machine) (instances : Registry) (self? : Option InstanceId)
    (arguments : Array Value) : Discipline.lax.AdmitsCalls m instances instances self? arguments :=
  ⟨trivial, rfl, trivial⟩

/-! ### The last step of a run -/

/-- A run that has ended took its last step from a state that it came to. -/
theorem exists_last_step {n : Nat} (ended : (run p base n s).Ended) :
    ∃ k t, run p base k s = .running t ∧ step p base t = run p base n s := by
  induction n generalizing s with
  | zero => exact ended.elim
  | succ n ih =>
      cases stepped : step p base s with
      | running next =>
          rw [run_succ_of_running stepped] at ended ⊢
          obtain ⟨k, t, reached, last⟩ := ih ended
          exact ⟨k + 1, t, (run_succ_of_running stepped k).trans reached, last⟩
      | returned value left => exact ⟨0, s, rfl, by simp only [run, stepped]⟩
      | aborted abort left => exact ⟨0, s, rfl, by simp only [run, stepped]⟩

namespace Machine

variable {m : Machine} {instances : Registry} {fuel : Nat}

theorem exists_of_enter_aborted {e : Entry} {self? : Option InstanceId} {arguments : Array Value}
    (failed : (m.enter fuel instances e self? arguments).outcome = .failed (.aborted abort)) :
    ∃ s left, m.Visits instances e self? arguments s ∧
      step m.program m.callDepth s = .aborted abort left := by
  rw [enter_eq_report] at failed
  cases ran : run m.program m.calls.depth fuel (m.entered instances e self? arguments) with
  | running s =>
      rw [ran] at failed
      cases failed
  | returned value left =>
      rw [ran] at failed
      cases failed
  | aborted abort' left =>
      rw [ran] at failed
      cases failed
      have ended : (run m.program m.calls.depth fuel (m.entered instances e self? arguments)).Ended := by
        rw [ran]
        trivial
      obtain ⟨k, s, reached, last⟩ := exists_last_step ended
      exact ⟨s, left, ⟨k, reached⟩, last.trans ran⟩

theorem exists_of_initializeEach_aborted (standard : m.program.natives = Native.standard)
    {scripts : List Script}
    (failed : (m.initializeEach fuel instances scripts).outcome = .failed (.aborted abort)) :
    ∃ s left, m.VisitsEach instances scripts s ∧ step m.program m.callDepth s = .aborted abort left := by
  induction scripts generalizing m instances with
  | nil => cases failed
  | cons i rest ih =>
      simp only [initializeEach] at failed
      cases ended : (m.enter fuel instances ⟨i, 0⟩ none #[]).outcome with
      | done value =>
          rw [ended] at failed
          have admitted := Discipline.lax_admitsCalls m instances none #[]
          have first := admitted.enter (Discipline.lax_sound _) standard fuel ⟨i, 0⟩
          -- The first script gave a value, so no call is left and the others start at the same depth.
          obtain ⟨-, calls_eq⟩ := first.next admitted ended
          have same : (m.enter fuel instances ⟨i, 0⟩ none #[]).machine.program = m.program :=
            program_enter _ _ _
          obtain ⟨s, left, visited, last⟩ := ih (by rwa [same]) failed
          rw [same, callDepth, calls_eq] at last
          exact ⟨s, left, .inr ⟨fuel, value, ended, visited⟩, last⟩
      | failed error =>
          rw [ended] at failed
          cases failed
          obtain ⟨s, left, visited, last⟩ := exists_of_enter_aborted ended
          exact ⟨s, left, .inl visited, last⟩
      | unfinished =>
          rw [ended] at failed
          cases failed

end Machine

/-- A request that is stopped was stopped by a step from one of its states. -/
theorem Request.exists_of_perform_aborted {m : Machine} {instances : Registry} {fuel : Nat}
    {r : Request} (standard : m.program.natives = Native.standard)
    (failed : (r.perform fuel m instances).outcome = .failed (.aborted abort)) :
    ∃ s left, r.Visits m instances s ∧ step m.program m.callDepth s = .aborted abort left := by
  rcases r.perform_cases m with rfl | ⟨name, performs⟩ | ⟨-, e, -, performs⟩
  · exact Machine.exists_of_initializeEach_aborted standard
      ((Outcome.map_eq_failed_iff _ _ _).mp failed)
  · rw [(performs instances).1] at failed
    cases failed
  · obtain ⟨same, visits⟩ := performs instances
    rw [same] at failed
    obtain ⟨s, left, visited, last⟩ :=
      Machine.exists_of_enter_aborted ((Outcome.map_eq_failed_iff some _ _).mp failed)
    exact ⟨s, left, (visits s).mpr visited, last⟩

/-- A call without arguments of what is no native function is left to the machine. -/
theorem exec_call_zero (c : Config) {natives : Natives} {name : String}
    (missing : natives[name]? = none) (env : Env) :
    exec c natives (.call name 0) env = .ok (.call name #[]) env := by
  simp [exec, Exec.call, Exec.required, Instruction.call, missing, bind, EStateM.bind, pure,
    EStateM.pure, Exec.onStack, Action.restore, OperandStack.takeMany]

/-- A request that fails was refused exactly if the cause is an unsupported addressing, and it names
the site at which its last step began. Past the end of a script that step failed to hand nothing to
a caller whose operand stack is full. -/
theorem failure_classified_and_attributed (m : Machine)
    (standard : m.program.natives = Native.standard) (instances : Registry) (r : Request) (fuel : Nat)
    (abort : Abort) (failed : (r.perform fuel m instances).outcome = .failed (.aborted abort)) :
    (abort.kind = .refused ↔ ∃ scope access, abort.cause = .unsupportedAddressing scope access) ∧
      ∃ s left, r.Visits m instances s ∧ step m.program m.callDepth s = .aborted abort left ∧
        abort.site.script = s.script.name ∧ abort.site.index = s.position ∧
        (∀ i, s.script.instructions[s.position]? = some i → abort.site.raw = i.raw) ∧
        (s.script.instructions.size ≤ s.position →
          abort.site.raw = "<end>" ∧ s.Overflows .undefined abort.cause) := by
  have report := Discipline.admits_perform r (Discipline.lax_sound _) standard
    (Discipline.lax_admitsCalls m instances _ _) fuel
  obtain ⟨s, left, visited, last⟩ := r.exists_of_perform_aborted standard failed
  obtain ⟨site_eq, past_end⟩ := step_aborted last
  have classified := report.outcome
  rw [failed] at classified
  refine ⟨classified.trans abort.cause.isAddressing_iff, s, left, visited, last,
    ?_, ?_, ?_, ?_⟩
  · rw [site_eq]
    rfl
  · rw [site_eq]
    rfl
  · intro i fetched
    rw [site_eq]
    simp only [State.site, fetched]
  · intro past
    refine ⟨?_, past_end past⟩
    rw [site_eq]
    simp only [State.site, Array.getElem?_eq_none past]

/-- A script without instructions returns nothing, and a caller without an operand stack has no room
for it: the failure is that of the callee, past its end. -/
theorem failure_attributed_past_end :
    let idle : Script := { assetId := 1, name := "idle", instructions := #[] }
    let main : Script := { assetId := 0, name := "main", instructions := #[.call "idle" 0] }
    let m := ((Machine.new { maxStackDepth := 0 } Native.standard).loadAll [main, idle]).1
    let r := Request.execute "main" none #[]
    let abort : Abort := ⟨.fatal, ⟨"idle", 0, "<end>"⟩, .stackOverflow 0⟩
    m.program.natives = Native.standard ∧
      (r.perform 2 m (.startingAt 100000)).outcome = .failed (.aborted abort) ∧
      ∃ s left, r.Visits m (.startingAt 100000) s ∧ step m.program 0 s = .aborted abort left ∧
        s.script.name = "idle" ∧ s.position = 0 := by
  intro idle main m r abort
  have standard : m.program.natives = Native.standard := rfl
  have scripts_eq : m.program.scripts = (Std.ExtTreeMap.insert ∅ "main" main).insert "idle" idle := rfl
  have main_found : m.program.scripts["main"]? = some main := by
    rw [scripts_eq, Std.ExtTreeMap.getElem?_insert, if_neg (by decide),
      Std.ExtTreeMap.getElem?_insert_self]
  have idle_found : m.program.lookup? "idle" = some ⟨idle, 0⟩ := by
    rw [Program.lookup?, scripts_eq, Std.ExtTreeMap.getElem?_insert_self]
  have no_native : m.program.natives["idle"]? = none :=
    Std.ExtTreeMap.getElem?_ofList_of_contains_eq_false (by decide)
  let start := m.entered (.startingAt 100000) ⟨main, 0⟩ none #[]
  let site : Site := ⟨"main", 0, (Instruction.call "idle" 0).raw⟩
  have first : step m.program m.calls.depth start
      = enterCall m.program 0 site "idle" #[] (start.report (.step site)) := by
    have fetched : start.script.instructions[start.position]? = some (.call "idle" 0) := rfl
    have called := exec_call_zero m.program.config no_native start.env
    simp only [step, start, Machine.entered, State.ofCall] at fetched called ⊢
    simp only [fetched, called]
    rfl
  have failed : (r.perform 2 m (.startingAt 100000)).outcome = .failed (.aborted abort) := by
    simp only [start] at first
    simp only [r, Request.perform, Report.map, Machine.execute, main_found, enter_eq_report, run,
      first, enterCall, idle_found]
    rfl
  obtain ⟨-, s, left, visited, last, script, index, -⟩ :=
    failure_classified_and_attributed m standard (.startingAt 100000) r 2 abort failed
  exact ⟨standard, failed, s, left, visited, last, script.symm, index.symm⟩

end ScriptMachine
