import ScriptMachine.Proofs.Machine.Discipline
import ScriptMachine.Proofs.Storage.Shadowed

/-!
Shadowed members over whole requests. No request can tell what members an instance has under the
names of built-in fields, and none of them creates, changes or removes one.
-/

namespace ScriptMachine

/-- Two requests on one machine with the standard natives, whose instances agree but for shadowed
members, come to the same in the same number of steps. Their instances agree again but for shadowed
members, and in each of them these are as they were. -/
theorem shadowed_members_unnoticed (m : Machine) (standard : m.program.natives = Native.standard)
    (instances instances' : Registry) (same : instances.SameButShadowed instances') (r : Request)
    (fuel : Nat) :
    let first := r.perform fuel m instances
    let second := r.perform fuel m instances'
    second.outcome = first.outcome ∧ second.machine = first.machine ∧
      second.events = first.events ∧ first.instances.SameButShadowed second.instances ∧
        instances.KeepsShadowed first.instances ∧ instances'.KeepsShadowed second.instances := by
  intro first second
  have related : (Discipline.shadowing instances instances').instances instances instances' :=
    ⟨same, fun _ _ _ => rfl, fun _ _ _ => rfl⟩
  have reports := Discipline.admits_perform r (Discipline.shadowing_sound instances instances' _)
    standard ⟨trivial, related, trivial⟩ fuel
  obtain ⟨same', kept, kept'⟩ := reports.instances
  exact ⟨reports.outcome_eq, reports.machine_eq, reports.events_eq, same', kept, kept'⟩

/-- A member stored under the name of the built-in field `x` is not what `self.x` reads, and reading
leaves it in place. -/
theorem shadowed_members_unnoticed_by_load :
    let peek : Script :=
      { assetId := 0, name := "peek", instructions := #[.pushVariable .push "self.x", .ret] }
    let m := ((Machine.new {} Native.standard).load peek).1
    let plain : Instance := { assetId := 0, id := 100000 }
    let marked : Instance := { plain with members := Std.ExtTreeMap.insert ∅ "x" (.bool true) }
    let instances := (Registry.startingAt 100001).insert plain
    let instances' := (Registry.startingAt 100001).insert marked
    let r := Request.execute "peek" (some 100000) #[]
    m.program.natives = Native.standard ∧ instances.SameButShadowed instances' ∧
      (r.perform 2 m instances).outcome = .done (some (.real 0)) ∧
        (r.perform 2 m instances').outcome = .done (some (.real 0)) ∧
          (r.perform 2 m instances').instances.member? 100000 "x" = some (.bool true) := by
  intro peek m plain marked instances instances' r
  have standard : m.program.natives = Native.standard := rfl
  have same : instances.SameButShadowed instances' := by
    refine ⟨rfl, fun id => ?_⟩
    simp only [instances, instances', Registry.get?_insert, Registry.get?_startingAt]
    split
    · refine .some ⟨rfl, fun name plain_name => ?_⟩
      have different : "x" ≠ name := fun eq => plain_name (eq ▸ rfl)
      simp [plain, marked, different]
    · exact .none
  have found : m.program.scripts["peek"]? = some peek := Std.ExtTreeMap.getElem?_insert_self
  have done : (r.perform 2 m instances).outcome = .done (some (.real 0)) := by
    simp only [r, Request.perform, Report.map, Machine.execute, found]
    rfl
  obtain ⟨outcome_eq, -, -, -, -, kept⟩ :=
    shadowed_members_unnoticed m standard instances instances' same r 2
  refine ⟨standard, same, done, outcome_eq.trans done, (kept 100000 "x" rfl).trans ?_⟩
  simp [Registry.member?, instances', marked, plain]

end ScriptMachine
