import ScriptMachine.Proofs.Machine.Run

/-!
The recursive reading of calls. `evaluate` runs one call by itself and evaluates the calls that it
makes by recursion, without a call stack. The loop of the machine refines it: entering a function
finishes exactly when its evaluation does, and then both give the same value or error and leave the
same globals, instances and reports.
-/

namespace ScriptMachine

/-- Evaluates what is left of a call at a nesting depth; `none` if it never ends. A callee is
evaluated one level deeper, and its value is put on the caller's operand stack. Where that stack is
full, the abort names the site at which the callee returned. -/
def Frame.evaluate (p : Program) (depth : Nat) (f : Frame) (w : World) : Option Ending := do
  match f.turn p depth w with
  | .goOn f w => f |>.evaluate p depth w
  | .finish ending => some ending
  | .wait e arguments f w =>
      let w := w.report (.call e.script.name e.index (depth + 1))
      match ← Frame.start p.config e f.bindings.self? arguments |>.evaluate p (depth + 1) w with
      | .aborted abort w => some (.aborted abort w)
      | .returned value site w =>
          match OperandStack.push value f.stack with
          | .ok () stack => ({ f with stack := stack }) |>.evaluate p depth w
          | .error cause _ => some (w.abort depth site .fatal cause)
partial_fixpoint

/-- What a host is told of the end of a call that it asked for. -/
def Ending.report (m : Machine) : Ending → Report Value
  | .returned value _ w => ⟨.done value, { m with globals := w.globals }, w.instances, w.events.reverse⟩
  | .aborted abort w =>
      ⟨.failed (.aborted abort), { m with globals := w.globals }, w.instances, w.events.reverse⟩

variable {p : Program} {base depth : Nat}

/-! ### The end of a callee -/

/-- A callee that is stopped stops its caller, and so the whole run. -/
theorem Ending.progress_aborted_push {callers : CallStack} (above : base ≤ callers.depth)
    (abort : Abort) (w : World) (f : Frame) :
    (Ending.aborted abort w).progress base (callers.push f)
      = (Ending.aborted abort w).progress base callers := by
  simp only [Ending.progress, CallStack.cutTo_push above]

/-- A value goes to the call that waits on top. -/
theorem Ending.progress_returned_push {callers : CallStack} (above : base ≤ callers.depth)
    (value : Value) (site : Site) (w : World) (f : Frame) :
    (Ending.returned value site w).progress base (callers.push f)
      = match OperandStack.push value f.stack with
        | .ok () stack => .running (.ofCall { f with stack := stack } w callers)
        | .error cause _ =>
            (w.abort (callers.depth + 1 - base) site .fatal cause).progress base callers := by
  have inside : ¬ (callers.push f).depth ≤ base := by
    rw [CallStack.depth_push]
    omega
  simp only [Ending.progress, inside, if_false, CallStack.pop?_push]
  cases OperandStack.push value f.stack <;> rfl

/-! ### The loop follows an evaluation -/

/-- Whatever calls wait, the loop comes to the end that the evaluation gives. -/
theorem run_of_evaluate {f : Frame} {w : World} {ending : Ending}
    (evaluated : f.evaluate p depth w = some ending) (callers : CallStack)
    (above : base ≤ callers.depth) (nested : depth = callers.depth + 1 - base) :
    ∃ n, run p base n (.ofCall f w callers) = ending.progress base callers := by
  -- The calls that wait stay arbitrary, so that the induction covers a callee above its caller.
  revert callers
  refine Frame.evaluate.partial_correctness p (fun depth f w ending => ∀ callers : CallStack,
    base ≤ callers.depth → depth = callers.depth + 1 - base →
      ∃ n, run p base n (.ofCall f w callers) = ending.progress base callers) ?_
    depth f w ending evaluated
  intro recurse ih depth f w ending evaluated callers above nested
  subst nested
  have stepped : step p base (.ofCall f w callers) = _ := step_ofCall f w callers
  cases turned : f.turn p (callers.depth + 1 - base) w with
  | goOn f' w' =>
      rw [turned] at evaluated stepped
      obtain ⟨n, ran⟩ := ih _ f' w' ending evaluated callers above rfl
      exact ⟨n + 1, (run_succ_of_running stepped n).trans ran⟩
  | finish ended =>
      rw [turned] at evaluated stepped
      cases evaluated
      exact ⟨1, (run_one _).trans stepped⟩
  | wait e arguments f' w' =>
      rw [turned] at evaluated stepped
      obtain ⟨inner, called, evaluated⟩ := Option.bind_eq_some_iff.mp evaluated
      obtain ⟨n, ran⟩ := ih _ _ _ inner called (callers.push f') (by
        rw [CallStack.depth_push]
        omega) (by
        rw [CallStack.depth_push]
        omega)
      have reached := (run_succ_of_running stepped n).trans ran
      -- The callee comes to its end on top of its caller, which is stopped with it or gets its value.
      cases inner with
      | aborted abort w'' =>
          cases evaluated
          exact ⟨n + 1, reached.trans (Ending.progress_aborted_push above abort w'' f')⟩
      | returned value site w'' =>
          rw [Ending.progress_returned_push above] at reached
          simp only at evaluated
          cases pushed : OperandStack.push value f'.stack with
          | ok done stack =>
              rw [pushed] at evaluated reached
              obtain ⟨k, rest⟩ := ih _ _ _ ending evaluated callers above rfl
              exact ⟨n + 1 + k, (run_add_of_running reached k).trans rest⟩
          | error cause full =>
              rw [pushed] at evaluated reached
              cases evaluated
              exact ⟨n + 1, reached⟩

/-! ### An evaluation follows the loop -/

/-- If the loop comes to an end with a call and those that wait for it, the evaluation of the call
comes to one too. -/
theorem evaluate_of_run {n : Nat} {f : Frame} {w : World} {callers : CallStack}
    (above : base ≤ callers.depth) (ended : (run p base n (.ofCall f w callers)).Ended) :
    ∃ ending, f.evaluate p (callers.depth + 1 - base) w = some ending := by
  induction n using Nat.strongRecOn generalizing f w callers with
  | ind n ih =>
    cases n with
    | zero => exact ended.elim
    | succ n =>
      have stepped : step p base (.ofCall f w callers) = _ := step_ofCall f w callers
      rw [Frame.evaluate]
      cases turned : f.turn p (callers.depth + 1 - base) w with
      | goOn f' w' =>
          rw [turned] at stepped
          rw [run_succ_of_running stepped] at ended
          exact ih n (Nat.lt_succ_self n) above ended
      | finish ending => exact ⟨ending, rfl⟩
      | wait e arguments f' w' =>
          rw [turned] at stepped
          rw [run_succ_of_running stepped] at ended
          have deeper : (callers.push f').depth + 1 - base = callers.depth + 1 - base + 1 := by
            rw [CallStack.depth_push]
            omega
          have above' : base ≤ (callers.push f').depth := Nat.le_succ_of_le above
          obtain ⟨inner, called⟩ := ih n (Nat.lt_succ_self n) above' ended
          -- By the other direction the loop comes to the same end of the callee, in `m` steps.
          obtain ⟨m, ran⟩ := run_of_evaluate called (callers.push f') above' rfl
          rw [deeper] at called
          simp only [called, Option.bind_eq_bind, Option.bind_some]
          cases inner with
          | aborted abort w'' => exact ⟨_, rfl⟩
          | returned value site w'' =>
              rw [Ending.progress_returned_push above] at ran
              simp only
              cases pushed : OperandStack.push value f'.stack with
              | ok done stack =>
                  rw [pushed] at ran
                  -- The callee took `m` of the steps, so fewer than `n` are left for its caller.
                  obtain ⟨k, le, rest⟩ := run_ended_of_running ran ended
                  rw [← rest] at ended
                  exact ih k (Nat.lt_succ_of_le le) above ended
              | error cause full => exact ⟨_, rfl⟩

/-! ### Entering a function -/

/-- At the base the end of a call is the end of the run, and no call is left of it. -/
theorem Ending.report_progress (m : Machine) (ending : Ending) :
    (ending.progress m.calls.depth m.calls).report m = ending.report m := by
  cases ending with
  | returned value site w => simp only [progress, Nat.le_refl, if_true]; rfl
  | aborted abort w => simp only [progress, CallStack.cutTo_of_le (Nat.le_refl _)]; rfl

/-- The end of an evaluation is the end of the request. -/
theorem Ending.report_finished (m : Machine) (ending : Ending) :
    (ending.report m).outcome ≠ .unfinished := by
  cases ending <;> simp [report]

/-- Entering a function finishes with a report exactly when the recursive evaluation of the
function, at depth 1, ends with that report. -/
theorem enter_finishes_iff_evaluate (m : Machine) (instances : Registry) (e : Entry)
    (self? : Option InstanceId) (arguments : Array Value) (report : Report Value) :
    (∃ fuel, m.enter fuel instances e self? arguments = report ∧ report.outcome ≠ .unfinished) ↔
      ((Frame.start m.program.config e self? arguments).evaluate m.program 1
        ⟨m.globals, instances, []⟩).map (Ending.report m) = some report := by
  have nested : m.calls.depth + 1 - m.calls.depth = 1 := by omega
  constructor
  · rintro ⟨fuel, rfl, finished⟩
    rw [enter_eq_report] at finished ⊢
    have ended := (Progress.report_finished_iff m _).mp finished
    obtain ⟨ending, evaluated⟩ := evaluate_of_run (Nat.le_refl _) ended
    obtain ⟨n, ran⟩ := run_of_evaluate evaluated m.calls (Nat.le_refl _) rfl
    have ended' : (ending.progress m.calls.depth m.calls).Ended := by
      rw [← Progress.report_finished_iff m, ending.report_progress]
      exact ending.report_finished m
    rw [← ran] at ended'
    rw [nested] at evaluated
    rw [evaluated, Option.map_some, ← ending.report_progress, ← ran]
    rw [Machine.entered, run_eq_of_ended ended' ended]
  · intro told
    obtain ⟨ending, evaluated, rfl⟩ := Option.map_eq_some_iff.mp told
    obtain ⟨n, ran⟩ := run_of_evaluate evaluated m.calls (Nat.le_refl _) nested.symm
    refine ⟨n, ?_, ending.report_finished m⟩
    rw [enter_eq_report, Machine.entered, ran, ending.report_progress]

end ScriptMachine
