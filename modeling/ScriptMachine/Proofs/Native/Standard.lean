import ScriptMachine.Native.Standard
import ScriptMachine.Proofs.Value.Computed

/-!
What all standard natives have in common: they give no arrays, they never fail because of addressing,
and they do not look at the instances.
-/

namespace ScriptMachine.Native

/-- A native that answers alike whatever instances are live. -/
def Blind (native : Native) : Prop :=
  ∀ (call : NativeCall) (instances : Registry), native { call with instances := instances } = native call

section Table

variable {P : Native → Prop} {name : String} {native : Native}

/-- What holds of the natives of a table and of those that are added holds in the larger table. -/
theorem forall_insertMany {natives : Natives} {added : List (String × Native)}
    (held : ∀ (other : String) (native : Native), natives[other]? = some native → P native)
    (each : ∀ pair ∈ added, P pair.2) (found : (natives.insertMany added)[name]? = some native) :
    P native := by
  induction added generalizing natives with
  | nil => exact held name native (by rwa [Std.ExtTreeMap.insertMany_nil] at found)
  | cons pair added ih =>
      rw [Std.ExtTreeMap.insertMany_cons] at found
      refine ih ?_ (fun other mem => each other (List.mem_cons_of_mem _ mem)) found
      intro other native found
      rw [Std.ExtTreeMap.getElem?_insert] at found
      split at found
      · cases found
        exact each pair List.mem_cons_self
      · exact held other native found

/-- What holds of each of the nine natives holds of whatever the standard table finds. -/
theorem forall_standard
    (each : ∀ native ∈ [showDebugMessage, string, real, floor, abs, arrayLength, isUndefined,
      isString, isArray], P native) (found : standard[name]? = some native) : P native := by
  rw [standard, Std.ExtTreeMap.ofList_eq_insertMany_empty] at found
  refine forall_insertMany (fun other native found => ?_) (fun pair mem => ?_) found
  · simp at found
  · exact each pair.2 (List.mem_map_of_mem (f := Prod.snd) mem)

end Table

variable {name : String} {native : Native}

theorem argument_withInstances (call : NativeCall) (instances : Registry) (index : Nat) :
    NativeCall.argument { call with instances := instances } index = call.argument index :=
  rfl

/-- The error of a call does not depend on the instances. -/
theorem failure_withInstances (call : NativeCall) (instances : Registry) (message : String) :
    NativeCall.failure { call with instances := instances } message = call.failure message :=
  rfl

theorem blind_real : real.Blind := by
  intro call instances
  simp only [real, quiet, argument_withInstances, failure_withInstances]

/-- No standard native looks at the instances. -/
theorem blind_of_standard (found : standard[name]? = some native) : native.Blind := by
  refine forall_standard (fun native mem => ?_) found
  simp only [List.mem_cons, List.not_mem_nil, or_false] at mem
  rcases mem with rfl | rfl | rfl | rfl | rfl | rfl | rfl | rfl | rfl
  · exact fun _ _ => rfl
  · exact fun _ _ => rfl
  · exact blind_real
  all_goals exact fun _ _ => rfl

theorem computed_real (call : NativeCall) : Computed (real call).result := by
  simp only [real, quiet]
  split
  · split <;> rfl
  · exact (answers_conversion _).bind fun _ _ => rfl

/-- A rounded number is a number, or the conversion of the argument fails. -/
theorem computed_floor (call : NativeCall) : Computed (floor call).result := by
  have argument : Answers (fun _ => True) RuntimeError.IsOrdinary (call.argumentAs Float 0) := by
    unfold NativeCall.argumentAs
    split
    · exact answers_conversion _
    · rfl
  exact argument.bind fun _ _ => rfl

theorem computed_abs (call : NativeCall) : Computed (abs call).result := by
  simp only [abs, quiet]
  split
  · rfl
  · rfl
  · exact (answers_conversion _).bind fun _ _ => rfl

theorem computed_arrayLength (call : NativeCall) : Computed (arrayLength call).result := by
  simp only [arrayLength, quiet]
  split <;> rfl

/-- No standard native gives an array or fails because of addressing. -/
theorem computed_of_standard (found : standard[name]? = some native) (call : NativeCall) :
    Computed (native call).result := by
  refine forall_standard (P := fun native => ∀ call, Computed (native call).result)
    (fun native mem => ?_) found call
  simp only [List.mem_cons, List.not_mem_nil, or_false] at mem
  rcases mem with rfl | rfl | rfl | rfl | rfl | rfl | rfl | rfl | rfl
  · exact fun _ => rfl
  · exact fun _ => rfl
  · exact computed_real
  · exact computed_floor
  · exact computed_abs
  · exact computed_arrayLength
  all_goals exact fun _ => rfl

end ScriptMachine.Native
