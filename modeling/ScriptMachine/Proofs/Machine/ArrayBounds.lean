import ScriptMachine.Proofs.Machine.Discipline
import ScriptMachine.Proofs.Storage.ArrayLength

/-!
Bounds on arrays over whole requests. Whatever a request runs, no array at any depth gets longer than
the longest it starts from, the two limits that are set, and the list of arguments that the host
passes.
-/

namespace ScriptMachine

/-- The values that a request starts from. -/
def Request.given (m : Machine) (instances : Registry) (r : Request) : List Value :=
  m.globals.values ++ instances.toList.flatMap (fun i => i.members.values) ++ r.arguments.toList

/-- How long arrays may be while a request runs. -/
def Request.arrayBound (m : Machine) (instances : Registry) (r : Request) : Nat :=
  max (max m.program.config.maxArrayLength m.program.config.maxStackDepth)
    (max r.arguments.size (Value.longestItems (r.given m instances)))

/-- No array that a call holds exceeds the bound, and neither does its list of arguments. -/
structure Frame.ArraysWithin (bound : Nat) (f : Frame) : Prop where
  locals : f.bindings.locals.ArraysWithin bound
  argument_count : f.bindings.arguments.size ≤ bound
  arguments : ∀ v ∈ f.bindings.arguments, v.ArraysWithin bound
  stack : ∀ v ∈ f.stack.values, v.ArraysWithin bound

variable {m : Machine} {instances : Registry} {r : Request} {bound : Nat}

/-- The bound of a request is the least one that covers the two limits, the list of arguments and every
array that is given. -/
theorem Request.arrayBound_le_iff :
    r.arrayBound m instances ≤ bound ↔
      (m.program.config.maxArrayLength ≤ bound ∧ m.program.config.maxStackDepth ≤ bound) ∧
        r.arguments.size ≤ bound ∧ ∀ v ∈ r.given m instances, v.ArraysWithin bound := by
  rw [arrayBound, Nat.max_le, Nat.max_le, Nat.max_le, Value.longestItems_le_iff]

/-- Arrays within a bound, in the arguments, the globals and the instances, make an admissible start of
a request. -/
theorem Request.admitsCalls_of_given (passed : r.arguments.size ≤ bound)
    (given : ∀ v ∈ r.given m instances, v.ArraysWithin bound) :
    (Discipline.arraysWithin bound).AdmitsCalls m instances instances r.self? r.arguments := by
  refine ⟨?_, ⟨rfl, ?_⟩, ?_, passed, ?_⟩
  · intro name v found
    exact given v (List.mem_append_left _ (List.mem_append_left _ (Table.mem_values_of_getElem? found)))
  · intro id i live name v found
    have member : v ∈ instances.toList.flatMap (fun i => i.members.values) :=
      List.mem_flatMap.mpr ⟨i, Table.mem_values_of_getElem? live, Table.mem_values_of_getElem? found⟩
    exact given v (List.mem_append_left _ (List.mem_append_right _ member))
  · intro name v found
    simp at found
  · intro v mem
    exact given v (List.mem_append_right _ (Array.mem_toList_iff.mpr mem))

theorem Discipline.AdmitsFrame.arraysWithin {c : Config} {f : Frame}
    (admitted : (Discipline.arraysWithin bound).AdmitsFrame c f) : f.ArraysWithin bound where
  locals := admitted.bindings.locals
  argument_count := admitted.bindings.arguments.size_le
  arguments := admitted.bindings.arguments.values
  stack := admitted.stack.values

/-- With the standard natives no array, at any depth, exceeds the bound of a request: not in the
globals, the instances or the calls of the request at any state that it comes to, and not in what it
reports. -/
theorem arrays_bounded_over_request (m : Machine) (standard : m.program.natives = Native.standard)
    (instances : Registry) (r : Request) :
    let bound := r.arrayBound m instances
    (∀ s, r.Visits m instances s →
      s.env.store.globals.ArraysWithin bound ∧ s.env.store.instances.ArraysWithin bound ∧
        ∃ own, s.calls.frames = own ++ m.calls.frames ∧ ∀ f ∈ own, f.ArraysWithin bound) ∧
      ∀ fuel, (r.perform fuel m instances).machine.globals.ArraysWithin bound ∧
        (r.perform fuel m instances).instances.ArraysWithin bound ∧
          ∀ v, (r.perform fuel m instances).outcome = .done (some v) → v.ArraysWithin bound := by
  intro bound
  obtain ⟨⟨limited, stacked⟩, passed, given⟩ := Request.arrayBound_le_iff.mp (Nat.le_refl bound)
  have sound := Discipline.arraysWithin_sound limited stacked
  have admitted := Request.admitsCalls_of_given passed given
  constructor
  · intro s visited
    obtain ⟨globals, instances, own, frames_eq, admitted⟩ :=
      (Discipline.admits_of_visits sound standard admitted visited).parts
    exact ⟨globals, instances.2, own, frames_eq, fun f mem => (admitted f mem).arraysWithin⟩
  · intro fuel
    have report := Discipline.admits_perform r sound standard admitted fuel
    refine ⟨report.globals, report.instances.2, fun v done => ?_⟩
    have outcome := report.outcome
    rw [done] at outcome
    exact outcome v rfl

/-- The limits alone are no bound: a script that returns its arguments as an array gives the host one
as long as the list that the host passed. -/
theorem arrays_bounded_by_passed_arguments :
    let echo : Script :=
      { assetId := 0, name := "echo", instructions := #[.pushVariable .push "arg.argument", .ret] }
    let m := ((Machine.new { maxStackDepth := 1, maxArrayLength := 1 } Native.standard).load echo).1
    let passed : Array Value := #[.undefined, .undefined, .undefined]
    let r := Request.execute "echo" none passed
    m.program.natives = Native.standard ∧ r.arrayBound m (.startingAt 100000) = 3 ∧
      (r.perform 2 m (.startingAt 100000)).outcome = .done (some (.array passed)) ∧
        (Value.array passed).ArraysWithin 3 := by
  intro echo m passed r
  have standard : m.program.natives = Native.standard := rfl
  have found : m.program.scripts["echo"]? = some echo := Std.ExtTreeMap.getElem?_insert_self
  have done : (r.perform 2 m (.startingAt 100000)).outcome = .done (some (.array passed)) := by
    simp only [r, Request.perform, Report.map, Machine.execute, found]
    rfl
  have bounded := (arrays_bounded_over_request m standard (.startingAt 100000) r).2 2
  exact ⟨standard, rfl, done, bounded.2.2 (.array passed) done⟩

end ScriptMachine
