import Mathlib.Data.List.Nodup
import ScriptMachine.Proofs.Machine.Request
import ScriptMachine.Proofs.Table

/-!
Global initializers: which scripts they are, in which order they run, and which of them run. Where
their asset ids differ, the order does not depend on the order in which the scripts are listed. They
run one after another, each on what the one before it left, up to the first that gives no value.
-/

namespace ScriptMachine

/-- A script that ran, and what came of it. -/
structure Initialization where
  script : Script
  report : Report Value

namespace Machine

/-- Each script ran from its first instruction, with no instance and no arguments, on what the one
before it left. -/
def RanInTurn (fuel : Nat) : Machine → Registry → List Initialization → Prop
  | _, _, [] => True
  | m, instances, i :: rest =>
      i.report = m.enter fuel instances ⟨i.script, 0⟩ none #[] ∧
        RanInTurn fuel i.report.machine i.report.instances rest

/-- Of the scripts, those that `ran` ran in their order up to the first that gave no value, and came
to what is reported. -/
structure InitializesInOrder (fuel : Nat) (m : Machine) (instances : Registry)
    (scripts : List Script) (ran : List Initialization) (report : Report Unit) : Prop where
  /-- The first scripts ran, each of them once. -/
  first : ran.map Initialization.script <+: scripts
  in_turn : m.RanInTurn fuel instances ran
  /-- None ran after one that gave no value. -/
  stopped : ∀ i ∈ ran.dropLast, ∃ value, i.report.outcome = .done value
  /-- The last one that ran decides. -/
  outcome : report.outcome
    = (ran.getLast?.map fun i => i.report.outcome.map fun _ => ()).getD (.done ())
  /-- If all that ran gave a value, no script is left. -/
  complete : report.outcome = .done () → ran.map Initialization.script = scripts
  left : (report.machine, report.instances)
    = (ran.getLast?.map fun i => (i.report.machine, i.report.instances)).getD (m, instances)

end Machine

/-! ### The order -/

/-- The initializers of a program are those of its scripts that are marked as such. -/
theorem Program.mem_initializers {p : Program} {s : Script} :
    s ∈ p.initializers ↔ (∃ name : String, p.scripts[name]? = some s) ∧ s.isGlobalInit := by
  rw [initializers, initializersOf, List.mem_mergeSort, List.mem_filter, Table.mem_values_iff]

section Order

variable {scripts order : List Script}

/-- Initializers run in ascending order of their asset ids. -/
theorem pairwise_initializersOf (scripts : List Script) :
    (initializersOf scripts).Pairwise (·.assetId ≤ ·.assetId) := by
  let le (a b : Script) : Bool := a.assetId ≤ b.assetId
  have transitive (a b c : Script) (first : le a b) (second : le b c) : le a c := by
    simp only [le, decide_eq_true_eq] at first second ⊢
    exact Int32.le_trans first second
  have total (a b : Script) : le a b || le b a := by
    simpa [le] using Int32.le_total a.assetId b.assetId
  have sorted := List.pairwise_mergeSort transitive total (scripts.filter Script.isGlobalInit)
  simpa only [le, decide_eq_true_eq, initializersOf] using sorted

/-- Every initializer among the scripts runs, and as often as it is listed. -/
theorem perm_initializersOf (scripts : List Script) :
    (initializersOf scripts).Perm (scripts.filter Script.isGlobalInit) :=
  List.mergeSort_perm _ _

/-- Distinct asset ids are in strictly ascending order. -/
theorem pairwise_lt_initializersOf
    (distinct : ((scripts.filter Script.isGlobalInit).map Script.assetId).Nodup) :
    (initializersOf scripts).Pairwise (·.assetId < ·.assetId) := by
  have perm := (perm_initializersOf scripts).map Script.assetId
  have apart := List.pairwise_map.mp (perm.nodup_iff.mpr distinct)
  refine ((pairwise_initializersOf scripts).and apart).imp ?_
  rintro a b ⟨le, ne⟩
  exact Int32.lt_of_le_of_ne le ne

/-- Scripts with distinct asset ids are in one order only, however they are listed. -/
theorem initializersOf_perm (perm : order.Perm scripts)
    (distinct : ((scripts.filter Script.isGlobalInit).map Script.assetId).Nodup) :
    initializersOf order = initializersOf scripts := by
  have listed : (initializersOf order).Perm (initializersOf scripts) :=
    ((perm_initializersOf order).trans (perm.filter _)).trans (perm_initializersOf scripts).symm
  refine listed.eq_of_pairwise ?_ (pairwise_initializersOf order) (pairwise_initializersOf scripts)
  intro a b a_mem b_mem le ge
  have a_listed := (perm_initializersOf scripts).subset (listed.subset a_mem)
  have b_listed := (perm_initializersOf scripts).subset b_mem
  exact List.inj_on_of_nodup_map distinct a_listed b_listed (Int32.le_antisymm le ge)

end Order

/-! ### The run -/

namespace Machine

section InOrder

variable {m : Machine} {instances : Registry} {fuel : Nat}

/-- One more script in front, which gave a value. -/
theorem InitializesInOrder.cons {s : Script} {rest : List Script} {ran : List Initialization}
    {report : Report Unit} {value : Value}
    (gave : (m.enter fuel instances ⟨s, 0⟩ none #[]).outcome = .done value)
    (others : InitializesInOrder fuel (m.enter fuel instances ⟨s, 0⟩ none #[]).machine
      (m.enter fuel instances ⟨s, 0⟩ none #[]).instances rest ran report) (events : List Event) :
    InitializesInOrder fuel m instances (s :: rest)
      (⟨s, m.enter fuel instances ⟨s, 0⟩ none #[]⟩ :: ran) { report with events := events } where
  first := (List.prefix_cons_inj s).mpr others.first
  in_turn := ⟨rfl, others.in_turn⟩
  stopped := by
    cases ran with
    | nil => simp
    | cons i ran =>
        rw [List.dropLast_cons_cons]
        exact List.forall_mem_cons.mpr ⟨⟨value, gave⟩, others.stopped⟩
  outcome := by
    cases ran with
    | nil =>
        have done := others.outcome
        simpa [gave, Outcome.map] using done
    | cons i ran =>
        rw [List.getLast?_cons_cons]
        exact others.outcome
  complete := by
    intro done
    rw [List.map_cons, others.complete done]
  left := by
    cases ran with
    | nil => exact others.left
    | cons i ran =>
        rw [List.getLast?_cons_cons]
        exact others.left

/-- The first script gave no value, so no other ran. -/
theorem InitializesInOrder.single {s : Script} (rest : List Script) {report : Report Unit}
    (ended : report.outcome = (m.enter fuel instances ⟨s, 0⟩ none #[]).outcome.map fun _ => ())
    (stopped : report.outcome ≠ .done ())
    (left : (report.machine, report.instances)
      = ((m.enter fuel instances ⟨s, 0⟩ none #[]).machine,
        (m.enter fuel instances ⟨s, 0⟩ none #[]).instances)) :
    InitializesInOrder fuel m instances (s :: rest) [⟨s, m.enter fuel instances ⟨s, 0⟩ none #[]⟩]
      report where
  first := (List.prefix_cons_inj s).mpr List.nil_prefix
  in_turn := ⟨rfl, trivial⟩
  stopped := by simp
  outcome := ended
  complete := fun done => absurd done stopped
  left := left

end InOrder

/-- Scripts run in their order, up to the first that gives no value. -/
theorem initializeEach_inOrder (m : Machine) (fuel : Nat) (instances : Registry)
    (scripts : List Script) :
    ∃ ran, InitializesInOrder fuel m instances scripts ran (m.initializeEach fuel instances scripts) ∧
      (m.initializeEach fuel instances scripts).events
        = ran.flatMap fun i => .globalInit i.script.name :: i.report.events := by
  induction scripts generalizing m instances with
  | nil =>
      refine ⟨[], ⟨List.nil_prefix, trivial, ?_, rfl, fun _ => rfl, rfl⟩, rfl⟩
      simp
  | cons s rest ih =>
      let first := m.enter fuel instances ⟨s, 0⟩ none #[]
      simp only [initializeEach]
      cases gave : first.outcome with
      | done value =>
          obtain ⟨ran, others, events⟩ := ih first.machine first.instances
          refine ⟨⟨s, first⟩ :: ran, others.cons gave _, ?_⟩
          simp only [first] at events
          simp [events, first]
      | failed error =>
          -- The run ends with the script that failed; no other is entered.
          refine ⟨[⟨s, first⟩], .single rest ?_ (by simp) rfl, by simp [first]⟩
          rw [gave]
          rfl
      | unfinished =>
          refine ⟨[⟨s, first⟩], .single rest ?_ (by simp) rfl, by simp [first]⟩
          rw [gave]
          rfl

/-- The global initializers run in their order, up to the first that gives no value. -/
theorem runInitializers_inOrder (m : Machine) (fuel : Nat) (instances : Registry) :
    ∃ ran, InitializesInOrder fuel m instances m.program.initializers ran
        (m.runInitializers fuel instances) ∧
      (m.runInitializers fuel instances).events = .initializers m.program.initializers.length ::
        ran.flatMap fun i => .globalInit i.script.name :: i.report.events := by
  obtain ⟨ran, inOrder, events⟩ := m.initializeEach_inOrder fuel instances m.program.initializers
  exact ⟨ran, { inOrder with }, congrArg (_ :: ·) events⟩

end Machine

end ScriptMachine
