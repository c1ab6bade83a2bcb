import ScriptMachine.Proofs.Machine.History

/-!
Resets. Running code leaves its traces in the global variables and in the calls in progress, and a
reset forgets both. So a machine that was reset has nothing left of its history but the scripts that
were loaded and the natives that were registered: it is the machine on which nothing else was done.
-/

namespace ScriptMachine

/-- The action changes what the machine runs, by loading scripts or registering a native. -/
def HostAction.isProgramming : HostAction → Bool
  | .load _ | .loadText _ | .register _ _ => true
  | .request _ _ _ | .reset => false

namespace Machine

/-- Only the program outlasts a reset. -/
theorem reset_eq_of_program {m m' : Machine} (same : m'.program = m.program) :
    m'.reset.1 = m.reset.1 := by
  simp only [reset, same]

/-- Loading may as well come after a reset. -/
theorem reset_loadAll (m : Machine) (scripts : List Script) :
    (m.loadAll scripts).1.reset.1 = (m.reset.1.loadAll scripts).1 := by
  rw [loadAll_eq, loadAll_eq]
  rfl

/-- Before a reset, an action matters only by what it programs. -/
theorem reset_perform (m : Machine) (a : HostAction) :
    (a.perform m).reset.1 = if a.isProgramming then a.perform m.reset.1 else m.reset.1 := by
  cases a with
  | load s => rfl
  | loadText text =>
      simp only [HostAction.perform, HostAction.isProgramming, if_true]
      cases Script.artifactOfText? text with
      | none => rfl
      | some scripts => exact m.reset_loadAll scripts
  | register name native => rfl
  | request fuel instances r => exact reset_eq_of_program r.program_perform
  | reset => rfl

/-- Before a reset, a history matters only by what it programs. -/
theorem reset_performAll (m : Machine) (history : List HostAction) :
    (m.performAll history).reset.1
      = m.reset.1.performAll (history.filter HostAction.isProgramming) := by
  induction history generalizing m with
  | nil => rfl
  | cons a history ih =>
      have after : ((a.perform m).performAll history).reset.1
          = (a.perform m).reset.1.performAll (history.filter HostAction.isProgramming) :=
        ih (a.perform m)
      rw [reset_perform] at after
      cases programming : a.isProgramming with
      | true =>
          rw [List.filter_cons_of_pos programming]
          rwa [if_pos programming] at after
      | false =>
          rw [List.filter_cons_of_neg (by simp [programming])]
          rwa [if_neg (by simp [programming])] at after

end Machine

/-- After any history and a reset, a new machine is the one on which only the loads and registrations
of the history were performed: with the same scripts, functions, natives and settings, without global
variables and calls in progress, and alike in all that is done later. -/
theorem reset_after_history (config : Config) (natives : Natives) (history : List HostAction) :
    let m := ((Machine.new config natives).performAll history).reset.1
    let fresh :=
      (Machine.new config natives).performAll (history.filter HostAction.isProgramming)
    (m.program.scripts = fresh.program.scripts ∧ m.program.functions = fresh.program.functions ∧
        m.program.natives = fresh.program.natives ∧ m.program.config = fresh.program.config) ∧
      (m.globals = ∅ ∧ fresh.globals = ∅ ∧ m.callDepth = 0 ∧ fresh.callDepth = 0) ∧
      ∀ later : List HostAction, m.performAll later = fresh.performAll later ∧
        ∀ (r : Request) fuel instances,
          r.perform fuel (m.performAll later) instances
            = r.perform fuel (fresh.performAll later) instances := by
  intro m fresh
  have same : m = fresh := (Machine.new config natives).reset_performAll history
  have globals : m.globals = ∅ := rfl
  have calls : m.callDepth = 0 := rfl
  rw [← same]
  exact ⟨⟨rfl, rfl, rfl, rfl⟩, ⟨globals, globals, calls, calls⟩, fun _ => ⟨rfl, fun _ _ _ => rfl⟩⟩

end ScriptMachine
