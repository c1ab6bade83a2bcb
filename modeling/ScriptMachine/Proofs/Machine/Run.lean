import ScriptMachine.Proofs.Machine.Turn

/-!
Runs of the loop. A run that goes on after `m` steps is the run of what is left, and a run that has
ended stays ended.
-/

namespace ScriptMachine

/-- The run returned or was aborted. -/
def Progress.Ended : Progress → Prop
  | .running _ => False
  | _ => True

variable {p : Program} {base : Nat} {s t : State}

theorem run_succ_of_running (stepped : step p base s = .running t) (n : Nat) :
    run p base (n + 1) s = run p base n t := by
  simp only [run, stepped]

theorem run_one (s : State) : run p base 1 s = step p base s := by
  simp only [run]
  cases step p base s <;> rfl

/-- A run that has not ended goes on from the state that it came to. -/
theorem run_add_of_running {m : Nat} (first : run p base m s = .running t) (n : Nat) :
    run p base (m + n) s = run p base n t := by
  induction m generalizing s with
  | zero =>
      cases first
      rw [Nat.zero_add]
  | succ m ih =>
      rw [Nat.succ_add]
      cases stepped : step p base s with
      | running next =>
          rw [run_succ_of_running stepped] at first ⊢
          exact ih first
      | returned value left => simp [run, stepped] at first
      | aborted abort left => simp [run, stepped] at first

/-- More fuel changes nothing for a run that has ended. -/
theorem run_add_of_ended {m : Nat} (ended : (run p base m s).Ended) (n : Nat) :
    run p base (m + n) s = run p base m s := by
  induction m generalizing s with
  | zero => exact ended.elim
  | succ m ih =>
      rw [Nat.succ_add]
      cases stepped : step p base s with
      | running next =>
          rw [run_succ_of_running stepped] at ended
          rw [run_succ_of_running stepped, run_succ_of_running stepped]
          exact ih ended
      | returned value left => simp only [run, stepped]
      | aborted abort left => simp only [run, stepped]

/-- Two runs of one state that both end, end alike. -/
theorem run_eq_of_ended {m n : Nat} (first : (run p base m s).Ended)
    (second : (run p base n s).Ended) : run p base m s = run p base n s := by
  rcases Nat.le_total m n with le | le
  · obtain ⟨k, rfl⟩ := Nat.exists_eq_add_of_le le
    exact (run_add_of_ended first k).symm
  · obtain ⟨k, rfl⟩ := Nat.exists_eq_add_of_le le
    exact run_add_of_ended second k

/-- A run that ends after it went on for `m` steps, ends in the steps that are left. -/
theorem run_ended_of_running {m n : Nat} (first : run p base m s = .running t)
    (ended : (run p base n s).Ended) : ∃ k ≤ n, run p base k t = run p base n s := by
  rcases Nat.le_total m n with le | le
  · obtain ⟨k, rfl⟩ := Nat.exists_eq_add_of_le le
    exact ⟨k, Nat.le_add_left k m, (run_add_of_running first k).symm⟩
  · obtain ⟨k, rfl⟩ := Nat.exists_eq_add_of_le le
    rw [run_add_of_ended ended k] at first
    rw [first] at ended
    exact ended.elim

/-! ### Entering a function -/

/-- The state in which a function that the host asks for starts. -/
def Machine.entered (m : Machine) (instances : Registry) (e : Entry) (self? : Option InstanceId)
    (arguments : Array Value) : State :=
  .ofCall (.start m.program.config e self? arguments) ⟨m.globals, instances, []⟩ m.calls

/-- What the host is told of a run. -/
def Progress.report (m : Machine) : Progress → Report Value
  | .returned value left =>
      ⟨.done value, { m with globals := left.globals, calls := left.calls }, left.instances,
        left.events.reverse⟩
  | .aborted abort left =>
      ⟨.failed (.aborted abort), { m with globals := left.globals, calls := left.calls },
        left.instances, left.events.reverse⟩
  | .running s =>
      ⟨.unfinished, { m with globals := s.env.store.globals, calls := s.callers.push s.frame },
        s.env.store.instances, s.events.reverse⟩

/-- A report is finished exactly if the run has ended. -/
theorem Progress.report_finished_iff (m : Machine) (r : Progress) :
    (r.report m).outcome ≠ .unfinished ↔ r.Ended := by
  cases r <;> simp [report, Ended]

/-- Entering a function is running it on top of the calls in progress and reporting how far it came. -/
theorem enter_eq_report (m : Machine) (fuel : Nat) (instances : Registry) (e : Entry)
    (self? : Option InstanceId) (arguments : Array Value) :
    m.enter fuel instances e self? arguments
      = (run m.program m.calls.depth fuel (m.entered instances e self? arguments)).report m := by
  unfold Machine.enter
  change (match run m.program m.calls.depth fuel (m.entered instances e self? arguments) with
    | .returned value left => _ | .aborted abort left => _ | .running s => _) = _
  cases run m.program m.calls.depth fuel (m.entered instances e self? arguments) <;> rfl

end ScriptMachine
