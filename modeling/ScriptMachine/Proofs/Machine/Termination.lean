import Mathlib.Algebra.Group.Nat.Defs
import ScriptMachine.Proofs.Exec.Flow
import ScriptMachine.Proofs.Machine.History
import ScriptMachine.Proofs.Machine.Initializers

/-!
Programs without backward branches end, however they recurse. The instructions that the calls in
progress have left are not a measure, since a call adds those of another script. But the limit on
nested calls bounds how deep this goes: if an instruction counts more than all instructions of a call
one level deeper together, every step lowers the sum. So there is a number of steps, which depends on
the program alone, within which every request is over.
-/

namespace ScriptMachine

/-- A branch to a label of the script goes forward. -/
def Script.Forward (s : Script) : Prop :=
  ∀ index i label target, s.instructions[index]? = some i → i.opcode.isBranch →
    i.jumpToEnd = false → i.int? = some label → s.labelTarget? label = some target → index < target

/-- How many instructions a call has left while it goes forward. -/
def Frame.remaining (f : Frame) : Nat :=
  f.script.instructions.size - f.position

/-- How many steps a call has left at most, when calls may nest so many levels deeper. An instruction
may enter a call one level deeper, which has at most `longest` instructions and a return. -/
def Frame.stepsLeft (longest levels : Nat) (f : Frame) : Nat :=
  (f.remaining + 1) * (longest + 2) ^ levels

/-- How many steps the calls of a run, the innermost first, have left at most. -/
def stepsLeft (limit longest : Nat) : List Frame → Nat
  | [] => 0
  | f :: waiting =>
      f.stepsLeft longest (limit - (waiting.length + 1)) + stepsLeft limit longest waiting

/-- The length of the longest loaded script. -/
def Program.longest (p : Program) : Nat :=
  (p.scripts.values.map (·.instructions.size)).max?.getD 0

/-- Within so many steps a run is over if no script branches backward. -/
def Program.stepBound (p : Program) : Nat :=
  (p.longest + 1) * (p.longest + 2) ^ (p.config.maxCallDepth - 1)

/-- The script goes forward and has at most so many instructions. -/
structure Script.Bounded (longest : Nat) (s : Script) : Prop where
  forward : s.Forward
  length : s.instructions.size ≤ longest

/-- Every function that can be called belongs to a bounded script. -/
def Program.Bounded (longest : Nat) (p : Program) : Prop :=
  ∀ name e, p.lookup? name = some e → e.script.Bounded longest

/-- The calls of a run on top of `below` are `own`, the running one first. -/
inductive State.Runs (below : CallStack) : List Frame → State → Prop where
  | ofCall {f : Frame} {w : World} {callers : CallStack} {waiting : List Frame}
      (frames_eq : callers.frames = waiting ++ below.frames) :
      Runs below (f :: waiting) (.ofCall f w callers)

variable {p : Program} {longest limit depth : Nat} {f f' : Frame} {w w' : World}

/-! ### One turn -/

/-- A call that goes on has fewer instructions left. -/
theorem Frame.remaining_of_goOn (forward : f.script.Forward)
    (turned : f.turn p depth w = .goOn f' w') :
    f'.script = f.script ∧ f'.remaining < f.remaining := by
  obtain ⟨i, flow, env, fetched, executed, obeyed⟩ := exists_of_turn turned (by simp)
  have inside : f.position < f.script.instructions.size := (Array.getElem?_eq_some_iff.mp fetched).1
  obtain ⟨-, ⟨-, rfl⟩ | ⟨label, target, rfl, found, rfl⟩⟩ := obey_goOn obeyed
  · refine ⟨rfl, ?_⟩
    simp only [remaining, after]
    omega
  · obtain ⟨branch, to_label, carried⟩ := Exec.jump_of_exec executed
    have later : f.position < target := forward _ i label target fetched branch to_label carried found
    refine ⟨rfl, ?_⟩
    simp only [remaining, after]
    omega

/-- A call that waits goes on behind its call instruction, and is not at the limit. -/
theorem Frame.remaining_of_wait {e : Entry} {arguments : Array Value}
    (turned : f.turn p depth w = .wait e arguments f' w') :
    f'.script = f.script ∧ f'.remaining < f.remaining ∧ depth < p.config.maxCallDepth ∧
      ∃ name, p.lookup? name = some e := by
  obtain ⟨i, flow, env, fetched, -, obeyed⟩ := exists_of_turn turned (by simp)
  have inside : f.position < f.script.instructions.size := (Array.getElem?_eq_some_iff.mp fetched).1
  obtain ⟨-, rfl, shallow, name, -, found⟩ := obey_wait obeyed
  refine ⟨rfl, ?_, shallow, name, found⟩
  simp only [remaining, after]
  omega

theorem Frame.remaining_le (f : Frame) : f.remaining ≤ f.script.instructions.size :=
  Nat.sub_le _ _

/-! ### The measure -/

section Measure

variable {waiting : List Frame}

theorem Frame.stepsLeft_pos (f : Frame) (longest levels : Nat) : 0 < f.stepsLeft longest levels :=
  Nat.mul_pos (Nat.succ_pos _) (Nat.pow_pos (Nat.succ_pos _))

theorem Frame.stepsLeft_lt (less : f'.remaining < f.remaining) (levels : Nat) :
    f'.stepsLeft longest levels < f.stepsLeft longest levels :=
  Nat.mul_lt_mul_of_pos_right (Nat.succ_lt_succ less) (Nat.pow_pos (Nat.succ_pos _))

/-- One instruction counts more than a whole call one level deeper. -/
theorem Frame.stepsLeft_call_lt {callee : Frame} (short : callee.remaining ≤ longest)
    (less : f'.remaining < f.remaining) (levels : Nat) :
    callee.stepsLeft longest levels + f'.stepsLeft longest (levels + 1)
      < f.stepsLeft longest (levels + 1) := by
  have call : callee.stepsLeft longest levels < (longest + 2) ^ (levels + 1) := by
    rw [Nat.pow_succ', stepsLeft]
    exact Nat.mul_lt_mul_of_pos_right (by omega) (Nat.pow_pos (Nat.succ_pos _))
  calc callee.stepsLeft longest levels + f'.stepsLeft longest (levels + 1)
      < (longest + 2) ^ (levels + 1) + f'.stepsLeft longest (levels + 1) := Nat.add_lt_add_right call _
    _ = (f'.remaining + 2) * (longest + 2) ^ (levels + 1) := by
        rw [stepsLeft, Nat.add_comm, ← Nat.succ_mul]
    _ ≤ f.stepsLeft longest (levels + 1) := Nat.mul_le_mul_right _ (by omega)

theorem stepsLeft_goOn_lt (less : f'.remaining < f.remaining) :
    stepsLeft limit longest (f' :: waiting) < stepsLeft limit longest (f :: waiting) :=
  Nat.add_lt_add_right (Frame.stepsLeft_lt less _) _

/-- A call that enters another gives up one instruction, which counts more than the whole callee. -/
theorem stepsLeft_wait_lt {callee : Frame} (short : callee.remaining ≤ longest)
    (less : f'.remaining < f.remaining) (shallow : waiting.length + 1 < limit) :
    stepsLeft limit longest (callee :: f' :: waiting) < stepsLeft limit longest (f :: waiting) := by
  obtain ⟨levels, eq⟩ : ∃ levels, limit - (waiting.length + 1) = levels + 1 :=
    Nat.exists_eq_succ_of_ne_zero (by omega)
  have deeper : limit - (waiting.length + 1 + 1) = levels := by omega
  have call := Frame.stepsLeft_call_lt short less levels
  simp only [stepsLeft, List.length_cons, eq, deeper]
  omega

/-- A call that is left takes at least one step with it. -/
theorem stepsLeft_return_lt (f : Frame) :
    stepsLeft limit longest waiting < stepsLeft limit longest (f :: waiting) :=
  Nat.lt_add_of_pos_left (f.stepsLeft_pos longest _)

/-- The call that the host asks for has no more steps left than the bound says. -/
theorem stepsLeft_start_le (bounded : f.script.Bounded longest) :
    stepsLeft limit longest [f] ≤ (longest + 1) * (longest + 2) ^ (limit - 1) := by
  have short := Nat.le_trans f.remaining_le bounded.length
  exact Nat.mul_le_mul_right _ (Nat.succ_le_succ short)

end Measure

/-! ### One step -/

variable {below : CallStack} {own : List Frame} {s t : State}

/-- A step that does not end the run lowers the number of steps left. -/
theorem step_stepsLeft_lt (bounded : p.Bounded longest) (runs : s.Runs below own)
    (scripts : ∀ g ∈ own, g.script.Bounded longest) (stepped : step p below.depth s = .running t) :
    ∃ own', t.Runs below own' ∧ (∀ g ∈ own', g.script.Bounded longest) ∧
      stepsLeft p.config.maxCallDepth longest own' < stepsLeft p.config.maxCallDepth longest own := by
  cases runs with
  | @ofCall f w callers waiting frames_eq =>
      have depth_eq : callers.depth + 1 - below.depth = waiting.length + 1 := by
        have depth := CallStack.depth_of_frames frames_eq
        omega
      obtain ⟨running, others⟩ := List.forall_mem_cons.mp scripts
      rw [step_ofCall, depth_eq] at stepped
      cases turned : f.turn p (waiting.length + 1) w with
      | goOn f' w' =>
          rw [turned] at stepped
          cases stepped
          obtain ⟨same, less⟩ := Frame.remaining_of_goOn running.forward turned
          refine ⟨f' :: waiting, .ofCall frames_eq, ?_, stepsLeft_goOn_lt less⟩
          exact List.forall_mem_cons.mpr ⟨same ▸ running, others⟩
      | wait e arguments f' w' =>
          rw [turned] at stepped
          cases stepped
          obtain ⟨same, less, shallow, name, found⟩ := Frame.remaining_of_wait turned
          let callee := Frame.start p.config e f'.bindings.self? arguments
          have entered : callee.script.Bounded longest := bounded name e found
          have pushed_eq : (callers.push f').frames = f' :: waiting ++ below.frames :=
            congrArg (f' :: ·) frames_eq
          -- The callee is one level deeper, where it counts less than the call instruction did.
          refine ⟨callee :: f' :: waiting, .ofCall pushed_eq, ?_, ?_⟩
          · exact List.forall_mem_cons.mpr ⟨entered, List.forall_mem_cons.mpr ⟨same ▸ running, others⟩⟩
          · exact stepsLeft_wait_lt (Nat.le_trans callee.remaining_le entered.length) less shallow
      | finish ending =>
          rw [turned] at stepped
          obtain ⟨value, site, w', caller, rest, stack, -, rfl, inside, -, rfl⟩ :=
            Ending.exists_of_progress_running stepped
          -- The outermost call would have ended the run, so another one of the run waits.
          cases waiting with
          | nil =>
              have depth := CallStack.depth_of_frames frames_eq
              exact absurd depth (by simp only [List.length_nil]; omega)
          | cons g waiting =>
              obtain ⟨rfl, rest_eq⟩ := List.cons.inj frames_eq
              obtain ⟨resumed, others⟩ := List.forall_mem_cons.mp others
              refine ⟨{ caller with stack := stack } :: waiting, .ofCall rest_eq, ?_, ?_⟩
              · exact List.forall_mem_cons.mpr ⟨resumed, others⟩
              · exact stepsLeft_return_lt f

/-- By induction on the steps, a run is over within those that it has left. -/
theorem run_ended_of_stepsLeft_le (bounded : p.Bounded longest) (runs : s.Runs below own)
    (scripts : ∀ g ∈ own, g.script.Bounded longest) {n : Nat}
    (enough : stepsLeft p.config.maxCallDepth longest own ≤ n) : (run p below.depth n s).Ended := by
  induction n generalizing s own with
  | zero =>
      cases runs with
      | @ofCall f w callers waiting frames_eq =>
          exact absurd (Nat.lt_of_lt_of_le (stepsLeft_return_lt f) enough) (Nat.not_lt_zero _)
  | succ n ih =>
      cases stepped : step p below.depth s with
      | running t =>
          rw [run_succ_of_running stepped]
          obtain ⟨own', runs', scripts', less⟩ := step_stepsLeft_lt bounded runs scripts stepped
          exact ih runs' scripts' (by omega)
      | returned value left => simp [run, stepped, Progress.Ended]
      | aborted abort left => simp [run, stepped, Progress.Ended]

/-! ### Whole requests -/

namespace Program

theorem length_le_longest {name : String} {s : Script} (found : p.scripts[name]? = some s) :
    s.instructions.size ≤ p.longest :=
  List.le_max?_getD_of_mem (List.mem_map_of_mem (Table.mem_values_of_getElem? found))

/-- What a call can enter is loaded, so it is enough that the loaded scripts go forward. -/
theorem Indexes.bounded {loads : List Script} (indexed : p.Indexes loads)
    (forward : ∀ (name : String) s, p.scripts[name]? = some s → s.Forward) : p.Bounded p.longest := by
  intro name e found
  obtain ⟨own, loaded⟩ := indexed.exists_loaded_of_lookup? found
  exact ⟨forward own e.script loaded, length_le_longest loaded⟩

/-- In a bounded program every script is bounded, as it can be called by its name. -/
theorem Bounded.script {name : String} {s : Script} (bounded : p.Bounded longest)
    (found : p.scripts[name]? = some s) : s.Bounded longest := by
  have entry : p.lookup? name = some ⟨s, 0⟩ := by simp only [lookup?, found]
  exact bounded name ⟨s, 0⟩ entry

end Program

variable {m : Machine} {instances : Registry} {fuel : Nat}

namespace Machine

theorem enter_finishes (bounded : m.program.Bounded longest) {e : Entry}
    (entered : e.script.Bounded longest)
    (enough : (longest + 1) * (longest + 2) ^ (m.program.config.maxCallDepth - 1) ≤ fuel)
    (self? : Option InstanceId) (arguments : Array Value) :
    (m.enter fuel instances e self? arguments).outcome ≠ .unfinished := by
  rw [enter_eq_report, Progress.report_finished_iff]
  let f := Frame.start m.program.config e self? arguments
  have frames_eq : m.calls.frames = [] ++ m.calls.frames := rfl
  have runs : (m.entered instances e self? arguments).Runs m.calls [f] := .ofCall frames_eq
  have started : f.script.Bounded longest := entered
  refine run_ended_of_stepsLeft_le bounded runs ?_ ?_
  · exact List.forall_mem_singleton.mpr started
  · exact Nat.le_trans (stepsLeft_start_le started) enough

theorem initializeEach_finishes (bounded : m.program.Bounded longest) {scripts : List Script}
    (all : ∀ s ∈ scripts, s.Bounded longest)
    (enough : (longest + 1) * (longest + 2) ^ (m.program.config.maxCallDepth - 1) ≤ fuel) :
    (m.initializeEach fuel instances scripts).outcome ≠ .unfinished := by
  induction scripts generalizing m instances with
  | nil => simp [initializeEach]
  | cons s rest ih =>
      obtain ⟨here, others⟩ := List.forall_mem_cons.mp all
      have first : (m.enter fuel instances ⟨s, 0⟩ none #[]).outcome ≠ .unfinished :=
        enter_finishes bounded here enough none #[]
      have same : (m.enter fuel instances ⟨s, 0⟩ none #[]).machine.program = m.program :=
        program_enter ⟨s, 0⟩ none #[]
      simp only [initializeEach]
      split
      · exact ih (by rwa [same]) others (by rwa [same])
      · simp
      · rename_i unfinished
        exact absurd unfinished first

end Machine

/-- In a bounded program every request comes to an end. -/
theorem Request.perform_finishes (bounded : m.program.Bounded longest)
    (enough : (longest + 1) * (longest + 2) ^ (m.program.config.maxCallDepth - 1) ≤ fuel)
    (r : Request) : (r.perform fuel m instances).outcome ≠ .unfinished := by
  rcases r.perform_cases m with rfl | ⟨name, performs⟩ | ⟨name, e, found, performs⟩
  · refine mt (Outcome.map_unfinished_iff _ _).mp ?_
    refine Machine.initializeEach_finishes bounded ?_ enough
    intro s member
    obtain ⟨⟨name, loaded⟩, -⟩ := Program.mem_initializers.mp member
    exact bounded.script loaded
  · rw [(performs instances).1]
    intro unfinished
    cases unfinished
  · rw [(performs instances).1]
    refine mt (Outcome.map_unfinished_iff some _).mp ?_
    exact Machine.enter_finishes bounded (bounded name e found) enough r.self? r.arguments

/-- After any history, if no loaded script branches backward to a label of its own, every request
comes to a result or an error within a number of steps that the program fixes, whatever the globals,
the instances and the arguments are and however its functions call each other. -/
theorem forward_programs_finish (config : Config) (natives : Natives) (history : List HostAction)
    (globals : Variables) :
    let m := { (Machine.new config natives).performAll history with globals := globals }
    (∀ (name : String) s, m.program.scripts[name]? = some s → s.Forward) →
      ∀ (r : Request) (instances : Registry) (fuel : Nat), m.program.stepBound ≤ fuel →
        (∃ result, (r.perform fuel m instances).outcome = .done result) ∨
          ∃ error, (r.perform fuel m instances).outcome = .failed error := by
  intro m forward r instances fuel enough
  have indexed : m.program.Indexes (history.flatMap HostAction.loads) :=
    (Machine.new config natives).indexes_performAll (Program.Indexes.empty config natives) history
  have finished : (r.perform fuel m instances).outcome ≠ .unfinished :=
    r.perform_finishes (indexed.bounded forward) enough
  cases ended : (r.perform fuel m instances).outcome with
  | done result => exact .inl ⟨result, rfl⟩
  | failed error => exact .inr ⟨error, rfl⟩
  | unfinished => exact absurd ended finished

/-- A script that calls itself is over within 180 steps if calls nest three deep: its branch leads
past the call and not back. -/
theorem self_calling_script_finishes :
    let spin := Script.withLabel
      { assetId := 0
        name := "spin"
        instructions := #[.pushBool true, .branch .branchFalse 7, .call "spin" 0, .exit] } 7 3
    let m := (Machine.new { maxCallDepth := 3 } Native.standard).performAll [.load spin]
    let r := Request.execute "spin" none #[]
    spin.Forward ∧ m.program.stepBound = 180 ∧
      ((∃ result, (r.perform 180 m (.startingAt 100000)).outcome = .done result) ∨
        ∃ error, (r.perform 180 m (.startingAt 100000)).outcome = .failed error) := by
  intro spin m r
  have forward : spin.Forward := by
    intro index i label target fetched branch to_label carried found
    match index with
    | 0 =>
        cases fetched
        cases branch
    | 1 =>
        cases fetched
        cases carried
        have target_eq : spin.labelTarget? 7 = some 3 := by
          simp [spin, Script.labelTarget?, Script.withLabel]
        rw [target_eq] at found
        cases found
        decide
    | 2 =>
        cases fetched
        cases branch
    | 3 =>
        cases fetched
        cases branch
    | n + 4 => cases fetched
  have bound : m.program.stepBound = 180 := rfl
  have scripts_eq : m.program.scripts = Std.ExtTreeMap.insert ∅ "spin" spin := rfl
  have all : ∀ (name : String) s, m.program.scripts[name]? = some s → s.Forward := by
    intro name s found
    rw [scripts_eq, Std.ExtTreeMap.getElem?_insert] at found
    split at found
    · cases found
      exact forward
    · simp at found
  have finished := forward_programs_finish { maxCallDepth := 3 } Native.standard [.load spin] ∅ all r
    (.startingAt 100000) 180 (Nat.le_of_eq bound)
  exact ⟨forward, bound, finished⟩

end ScriptMachine
