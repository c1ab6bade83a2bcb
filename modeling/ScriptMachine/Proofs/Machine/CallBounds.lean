import ScriptMachine.Proofs.Exec.Stores
import ScriptMachine.Proofs.Machine.Request

/-!
Bounds on the calls in progress. Before every step of a run there is at least one call above the
base and at most as many as the settings allow, no operand stack exceeds its limit, and every call is
bound to the instance that the host passed. A step moves at most the position of the running call,
and only from an instruction that exists. A request that is over leaves no call behind, however it
ended.
-/

namespace ScriptMachine

/-- All calls in progress, with the running one on top. -/
def State.calls (s : State) : CallStack :=
  s.callers.push s.frame

/-- A call with an operand stack of the limit that is set, bound to an instance. -/
structure Frame.Within (c : Config) (self? : Option InstanceId) (f : Frame) : Prop where
  limit : f.stack.limit = c.maxStackDepth
  self_eq : f.bindings.self? = self?
  other_eq : f.bindings.other? = self?

/-- What holds before every step of a run. -/
structure State.Within (c : Config) (base : Nat) (self? : Option InstanceId) (s : State) : Prop where
  /-- All messages of the instructions before were reported. -/
  settled : s.env.messages = []
  above : base ≤ s.callers.depth
  nested : s.callers.depth + 1 ≤ base + max 1 c.maxCallDepth
  frames : ∀ f ∈ s.calls.frames, f.Within c self?

/-- What holds after every step of a run: an ended run leaves the calls below its base. -/
def Progress.Within (c : Config) (base : Nat) (self? : Option InstanceId) : Progress → Prop
  | .running s => s.Within c base self?
  | .returned _ left | .aborted _ left => left.calls.depth = base

/-- The call at a level, where the outermost call has level 0. -/
def CallStack.level? (c : CallStack) (k : Nat) : Option Frame :=
  c.frames.reverse[k]?

/-- The call has executed an instruction that exists, and goes to the following one or to a label
of its script. -/
def Frame.Advances (f g : Frame) : Prop :=
  f.position < f.script.instructions.size ∧
    (g.position = f.position + 1 ∨ ∃ label, f.script.labelTarget? label = some g.position)

/-- Of the calls that are in progress both before and after a step, only the running one may get
another position, and only by advancing. -/
def State.Moves (s t : State) : Prop :=
  ∀ k f g, s.calls.level? k = some f → t.calls.level? k = some g → g.position ≠ f.position →
    k = s.callers.depth ∧ f.Advances g

variable {p : Program} {base : Nat} {self? : Option InstanceId}

/-- Between two steps, a state is a running call, its world and the callers. -/
theorem State.exists_eq_ofCall {s : State} (settled : s.env.messages = []) :
    ∃ w, s = .ofCall s.frame w s.callers := by
  obtain ⟨script, position, ⟨stack, ⟨bindings, globals, instances⟩, messages⟩, callers, events⟩ := s
  cases settled
  exact ⟨⟨globals, instances, events⟩, rfl⟩

/-! ### One call -/

/-- A call starts with an empty stack of the limit that is set, and with the instance of its caller. -/
theorem Frame.within_start (c : Config) (e : Entry) (self? : Option InstanceId)
    (arguments : Array Value) : (Frame.start c e self? arguments).Within c self? :=
  ⟨OperandStack.limit_empty _, rfl, rfl⟩

/-- No instruction takes a call out of its bounds. -/
theorem Frame.Within.after {c : Config} {f : Frame} {w : World} {i : Instruction} {flow : Flow}
    {env : Env} (within : f.Within c self?)
    (executed : exec p.config p.natives i (f.env w) = .ok flow env) :
    (f.after env).Within c self? := by
  have kept : Exec.fixed ((exec p.config p.natives i).after (f.env w)) = Exec.fixed (f.env w) :=
    Exec.exec_keeps_fixed (f.env w)
  simp only [Action.after, executed, Exec.fixed, Prod.mk.injEq] at kept
  obtain ⟨limit, self_eq, other_eq⟩ := kept
  exact ⟨limit.trans within.limit, self_eq.trans within.self_eq, other_eq.trans within.other_eq⟩

theorem Frame.Within.goTo {c : Config} {f : Frame} (within : f.Within c self?) (position : Nat) :
    ({ f with position := position } : Frame).Within c self? :=
  ⟨within.limit, within.self_eq, within.other_eq⟩

/-- A call that goes on stays within its bounds. -/
theorem Frame.Within.turn_goOn {c : Config} {depth : Nat} {f f' : Frame} {w w' : World}
    (within : f.Within c self?) (turned : f.turn p depth w = .goOn f' w') : f'.Within c self? := by
  obtain ⟨i, flow, env, -, executed, obeyed⟩ := exists_of_turn turned (by simp)
  have after := within.after executed
  obtain ⟨-, ⟨-, rfl⟩ | ⟨label, target, -, -, rfl⟩⟩ := obey_goOn obeyed
  · exact after.goTo _
  · exact after.goTo target

/-- A call that waits for another stays within its bounds, and there was room for one more. -/
theorem Frame.Within.turn_wait {c : Config} {depth : Nat} {f f' : Frame} {w w' : World} {e : Entry}
    {arguments : Array Value} (within : f.Within c self?)
    (turned : f.turn p depth w = .wait e arguments f' w') :
    f'.Within c self? ∧ depth < p.config.maxCallDepth := by
  obtain ⟨i, flow, env, -, executed, obeyed⟩ := exists_of_turn turned (by simp)
  have after := within.after executed
  obtain ⟨-, rfl, shallow, -⟩ := obey_wait obeyed
  exact ⟨after.goTo _, shallow⟩

/-! ### One step -/

theorem State.within_ofCall {c : Config} {f : Frame} {callers : CallStack} (w : World)
    (above : base ≤ callers.depth) (nested : callers.depth + 1 ≤ base + max 1 c.maxCallDepth)
    (running : f.Within c self?) (waiting : ∀ g ∈ callers.frames, g.Within c self?) :
    (State.ofCall f w callers).Within c base self? where
  settled := rfl
  above := above
  nested := nested
  frames := by
    intro g mem
    rcases List.mem_cons.mp mem with rfl | mem
    · exact running
    · exact waiting g mem

/-- The end of a call leaves its callers within bounds, whether one goes on or the run is over. -/
theorem Ending.progress_within {c : Config} {callers : CallStack} (ending : Ending)
    (above : base ≤ callers.depth) (nested : callers.depth + 1 ≤ base + max 1 c.maxCallDepth)
    (waiting : ∀ f ∈ callers.frames, f.Within c self?) :
    (ending.progress base callers).Within c base self? := by
  cases ending with
  | aborted abort w => exact CallStack.depth_cutTo above
  | returned value site w =>
      simp only [progress]
      split
      · rename_i below
        exact Nat.le_antisymm below above
      · rename_i inside
        cases popped : callers.pop? with
        | none => exact absurd (CallStack.depth_eq_zero_of_pop? popped) (by omega)
        | some top =>
            obtain ⟨caller, rest⟩ := top
            obtain rfl := CallStack.eq_push_of_pop? popped
            rw [CallStack.depth_push] at inside nested
            have above' : base ≤ rest.depth := by omega
            have caller_within := waiting caller List.mem_cons_self
            simp only
            cases pushed : OperandStack.push value caller.stack with
            | ok done stack =>
                refine State.within_ofCall w above' (by omega) ?_
                  fun f mem => waiting f (List.mem_cons_of_mem _ mem)
                exact ⟨(OperandStack.limit_push pushed).trans caller_within.limit,
                  caller_within.self_eq, caller_within.other_eq⟩
            | error cause full =>
                -- The callee has already left, so the calls are cut from those below its caller.
                exact CallStack.depth_cutTo above'

/-- A call is entered only below the limit, so one more is still within it. -/
theorem step_within {s : State} (within : s.Within p.config base self?) :
    (step p base s).Within p.config base self? := by
  obtain ⟨w, eq⟩ := State.exists_eq_ofCall within.settled
  have above := within.above
  have running : s.frame.Within p.config self? := within.frames _ List.mem_cons_self
  have waiting : ∀ f ∈ s.callers.frames, f.Within p.config self? :=
    fun f mem => within.frames f (List.mem_cons_of_mem _ mem)
  rw [eq, step_ofCall]
  cases turned : s.frame.turn p (s.callers.depth + 1 - base) w with
  | goOn f' w' =>
      exact State.within_ofCall w' above within.nested (running.turn_goOn turned) waiting
  | wait e arguments f' w' =>
      obtain ⟨suspended, shallow⟩ := running.turn_wait turned
      refine State.within_ofCall _ ?_ ?_ ?_ ?_
      · exact Nat.le_succ_of_le above
      · rw [CallStack.depth_push]
        omega
      · rw [suspended.self_eq]
        exact Frame.within_start _ e self? arguments
      · intro g mem
        rcases List.mem_cons.mp mem with rfl | mem
        · exact suspended
        · exact waiting g mem
  | finish ending => exact ending.progress_within above within.nested waiting

/-- By induction on the steps, a run stays within the bounds that it starts in. -/
theorem run_within {s : State} (within : s.Within p.config base self?) (n : Nat) :
    (run p base n s).Within p.config base self? := by
  induction n generalizing s with
  | zero => exact within
  | succ n ih =>
      have next := step_within within
      simp only [run]
      cases stepped : step p base s with
      | running t =>
          rw [stepped] at next
          exact ih next
      | returned value left =>
          rw [stepped] at next
          exact next
      | aborted abort left =>
          rw [stepped] at next
          exact next

/-! ### Positions -/

theorem CallStack.level?_push (c : CallStack) (f : Frame) (k : Nat) :
    (c.push f).level? k = if k = c.depth then some f else c.level? k := by
  have length : c.frames.reverse.length = c.depth := by rw [List.length_reverse, c.depth_eq]
  simp only [level?, push, List.reverse_cons]
  split
  · rename_i eq
    rw [eq, ← length, List.getElem?_concat_length]
  · rename_i ne
    rcases Nat.lt_or_ge k c.depth with lt | ge
    · rw [List.getElem?_append_left (by omega)]
    · have past : c.frames.reverse.length ≤ k := by omega
      rw [List.getElem?_append_right past, List.getElem?_eq_none past]
      exact List.getElem?_eq_none (by rw [List.length_singleton]; omega)

section Advances

variable {depth : Nat} {f f' : Frame} {w w' : World}

theorem Frame.advances_of_goOn (turned : f.turn p depth w = .goOn f' w') : f.Advances f' := by
  obtain ⟨i, flow, env, fetched, -, obeyed⟩ := exists_of_turn turned (by simp)
  refine ⟨(Array.getElem?_eq_some_iff.mp fetched).1, ?_⟩
  obtain ⟨-, ⟨-, rfl⟩ | ⟨label, target, -, found, rfl⟩⟩ := obey_goOn obeyed
  · exact .inl rfl
  · exact .inr ⟨label, found⟩

/-- A call waits at the instruction after the one that calls. -/
theorem Frame.advances_of_wait {e : Entry} {arguments : Array Value}
    (turned : f.turn p depth w = .wait e arguments f' w') : f.Advances f' := by
  obtain ⟨i, flow, env, fetched, -, obeyed⟩ := exists_of_turn turned (by simp)
  obtain ⟨-, rfl, -⟩ := obey_wait obeyed
  exact ⟨(Array.getElem?_eq_some_iff.mp fetched).1, .inl rfl⟩

end Advances

theorem State.calls_ofCall (f : Frame) (w : World) (callers : CallStack) :
    (State.ofCall f w callers).calls = callers.push f :=
  rfl

/-- The call on top may have moved; the others are the same before and after. -/
theorem CallStack.eq_of_level?_push {c : CallStack} {f g f' g' : Frame} {k : Nat}
    (before : (c.push f).level? k = some f') (after : (c.push g).level? k = some g') :
    (k = c.depth ∧ f' = f ∧ g' = g) ∨ g' = f' := by
  rw [level?_push] at before after
  by_cases top : k = c.depth
  · rw [if_pos top] at before after
    cases before
    cases after
    exact .inl ⟨top, rfl, rfl⟩
  · rw [if_neg top] at before after
    exact .inr (Option.some.inj (after.symm.trans before))

theorem CallStack.lt_of_level? {c : CallStack} {f : Frame} {k : Nat} (found : c.level? k = some f) :
    k < c.depth := by
  have lt := (List.getElem?_eq_some_iff.mp found).1
  rwa [List.length_reverse, ← c.depth_eq] at lt

/-- One more call on top leaves those below in place. -/
theorem CallStack.level?_push_of_lt {c : CallStack} {k : Nat} (below : k < c.depth) (f : Frame) :
    (c.push f).level? k = c.level? k := by
  rw [level?_push, if_neg (Nat.ne_of_lt below)]

/-- Every step moves at most the running call. A callee is new, and a caller goes on from the position
at which it waited. -/
theorem step_moves {s t : State} (settled : s.env.messages = [])
    (stepped : step p base s = .running t) : s.Moves t := by
  obtain ⟨w, eq⟩ := State.exists_eq_ofCall settled
  rw [eq, step_ofCall] at stepped
  intro k f g before after moved
  cases turned : s.frame.turn p (s.callers.depth + 1 - base) w with
  | goOn f' w' =>
      rw [turned] at stepped
      cases stepped
      rw [State.calls_ofCall] at after
      rcases CallStack.eq_of_level?_push before after with ⟨top, rfl, rfl⟩ | rfl
      · exact ⟨top, Frame.advances_of_goOn turned⟩
      · exact absurd rfl moved
  | wait e arguments f' w' =>
      rw [turned] at stepped
      cases stepped
      -- The level of the new call was empty before, so both calls lie below it.
      have lt := CallStack.lt_of_level? before
      have below : k < (s.callers.push f').depth := lt
      rw [State.calls_ofCall, CallStack.level?_push_of_lt below] at after
      rcases CallStack.eq_of_level?_push before after with ⟨top, rfl, rfl⟩ | rfl
      · exact ⟨top, Frame.advances_of_wait turned⟩
      · exact absurd rfl moved
  | finish ending =>
      rw [turned] at stepped
      obtain ⟨value, site, w', caller, rest, stack, rfl, eq_push, -, -, rfl⟩ :=
        Ending.exists_of_progress_running stepped
      rw [State.calls_ofCall] at after
      -- The level of the ended call is empty afterwards.
      have lt := CallStack.lt_of_level? after
      have below : k < (rest.push caller).depth := lt
      rw [State.calls, eq_push, CallStack.level?_push_of_lt below] at before
      rcases CallStack.eq_of_level?_push before after with ⟨-, rfl, rfl⟩ | rfl
      · exact absurd rfl moved
      · exact absurd rfl moved

/-! ### Whole requests -/

/-- The calls in progress at the head of the loop, when a request with an instance runs above a
base. -/
structure State.Bounded (p : Program) (base : Nat) (self? : Option InstanceId) (s : State) :
    Prop where
  above : base + 1 ≤ s.calls.depth
  nested : s.calls.depth ≤ base + max 1 p.config.maxCallDepth
  /-- The depth of nesting is a difference that never underflows. -/
  counted : s.depth base + base = s.calls.depth
  /-- Where a value goes to a caller, there is one. -/
  waiting : base < s.callers.depth → s.callers.pop?.isSome
  fits : ∀ f ∈ s.calls.frames, f.stack.length ≤ p.config.maxStackDepth
  bound : ∀ f ∈ s.calls.frames, f.bindings.self? = self? ∧ f.bindings.other? = self?
  moves : ∀ t, step p base s = .running t → s.Moves t

theorem State.Within.bounded {s : State} (within : s.Within p.config base self?) :
    s.Bounded p base self? where
  above := Nat.succ_le_succ within.above
  nested := within.nested
  counted := Nat.sub_add_cancel (Nat.le_succ_of_le within.above)
  waiting := by
    intro inside
    cases popped : s.callers.pop? with
    | none => exact absurd (CallStack.depth_eq_zero_of_pop? popped) (by omega)
    | some top => rfl
  fits := by
    intro f mem
    have limited := f.stack.length_le_limit
    rwa [(within.frames f mem).limit] at limited
  bound f mem := ⟨(within.frames f mem).self_eq, (within.frames f mem).other_eq⟩
  moves _ stepped := step_moves within.settled stepped

namespace Machine

variable {m : Machine} {instances : Registry}

/-- A run starts within bounds if no call is in progress. -/
theorem entered_within (idle : m.callDepth = 0) (instances : Registry) (e : Entry)
    (self? : Option InstanceId) (arguments : Array Value) :
    (m.entered instances e self? arguments).Within m.program.config m.calls.depth self? := by
  refine State.within_ofCall _ (Nat.le_refl _) ?_ (Frame.within_start _ e self? arguments) ?_
  · omega
  · intro f mem
    have empty : m.calls.frames = [] :=
      List.eq_nil_of_length_eq_zero (m.calls.depth_eq.symm.trans idle)
    rw [empty] at mem
    cases mem

theorem Visits.bounded {e : Entry} {arguments : Array Value} {s : State} (idle : m.callDepth = 0)
    (visited : m.Visits instances e self? arguments s) : s.Bounded m.program 0 self? := by
  obtain ⟨n, ran⟩ := visited
  have within := run_within (entered_within idle instances e self? arguments) n
  rw [ran] at within
  rw [← idle]
  exact State.Within.bounded within

/-- A call that is over, whether with a value or with an error, leaves no call in progress. -/
theorem enter_idle (idle : m.callDepth = 0) (fuel : Nat) (instances : Registry) (e : Entry)
    (self? : Option InstanceId) (arguments : Array Value)
    (finished : (m.enter fuel instances e self? arguments).outcome ≠ .unfinished) :
    (m.enter fuel instances e self? arguments).machine.callDepth = 0 := by
  have within := run_within (entered_within idle instances e self? arguments) fuel
  rw [enter_eq_report] at finished ⊢
  cases ran : run m.program m.calls.depth fuel (m.entered instances e self? arguments) with
  | running s =>
      rw [ran] at finished
      exact absurd rfl finished
  | returned value left =>
      rw [ran] at within
      exact within.trans idle
  | aborted abort left =>
      rw [ran] at within
      exact within.trans idle

/-- Scripts that run one after another each start idle, so the bounds hold in all of their states. -/
theorem VisitsEach.bounded {scripts : List Script} {s : State} (idle : m.callDepth = 0)
    (visited : m.VisitsEach instances scripts s) : s.Bounded m.program 0 none := by
  induction scripts generalizing m instances with
  | nil => exact visited.elim
  | cons i rest ih =>
      rcases visited with here | ⟨fuel, value, done, later⟩
      · exact here.bounded idle
      · have next := ih (enter_idle idle fuel instances ⟨i, 0⟩ none #[] (by rw [done]; simp)) later
        rwa [program_enter] at next

theorem initializeEach_idle {fuel : Nat} {scripts : List Script} (idle : m.callDepth = 0)
    (finished : (m.initializeEach fuel instances scripts).outcome ≠ .unfinished) :
    (m.initializeEach fuel instances scripts).machine.callDepth = 0 := by
  induction scripts generalizing m instances with
  | nil => exact idle
  | cons i rest ih =>
      have first := enter_idle idle fuel instances ⟨i, 0⟩ none #[]
      simp only [initializeEach] at finished ⊢
      cases ended : (m.enter fuel instances ⟨i, 0⟩ none #[]).outcome with
      | done value =>
          simp only [ended] at finished ⊢
          exact ih (first (by rw [ended]; simp)) finished
      | failed error => exact first (by rw [ended]; simp)
      | unfinished =>
          simp only [ended] at finished
          exact absurd rfl finished

end Machine

variable {m : Machine} {instances : Registry}

theorem Request.Visits.bounded {r : Request} {s : State} (idle : m.callDepth = 0)
    (visited : r.Visits m instances s) : s.Bounded m.program 0 r.self? := by
  rcases r.perform_cases m with rfl | ⟨name, performs⟩ | ⟨-, e, -, performs⟩
  · exact Machine.VisitsEach.bounded idle visited
  · exact absurd visited ((performs instances).2 s)
  · exact (((performs instances).2 s).mp visited).bounded idle

/-- A request that is over leaves no call in progress. -/
theorem Request.perform_idle {r : Request} {fuel : Nat} (idle : m.callDepth = 0)
    (finished : (r.perform fuel m instances).outcome ≠ .unfinished) :
    (r.perform fuel m instances).machine.callDepth = 0 := by
  rcases r.perform_cases m with rfl | ⟨name, performs⟩ | ⟨-, e, -, performs⟩
  · exact Machine.initializeEach_idle idle (mt (Outcome.map_unfinished_iff _ _).mpr finished)
  · rw [(performs instances).1]
    exact idle
  · rw [(performs instances).1] at finished ⊢
    exact Machine.enter_idle idle fuel instances e r.self? r.arguments
      (mt (Outcome.map_unfinished_iff some _).mpr finished)

/-- While a machine without calls in progress runs a request, its calls stay within their bounds, and
when the request is over no call is left. -/
theorem request_calls_bounded (m : Machine) (idle : m.callDepth = 0) (instances : Registry)
    (r : Request) :
    (∀ s, r.Visits m instances s → s.Bounded m.program m.callDepth r.self?) ∧
      ∀ fuel, (r.perform fuel m instances).outcome ≠ .unfinished →
        (r.perform fuel m instances).machine.callDepth = 0 := by
  rw [idle]
  exact ⟨fun s visited => visited.bounded idle, fun fuel finished => r.perform_idle idle finished⟩

/-- A limit of 0 admits the call that the host asks for and no other, so a script that calls itself
is stopped in its first step, and leaves no call. -/
theorem request_calls_bounded_without_nesting :
    let loop : Script := { assetId := 0, name := "loop", instructions := #[.call "loop" 0] }
    let m := ((Machine.new { maxCallDepth := 0 } ∅).load loop).1
    let r := Request.execute "loop" (some 100000) #[]
    let report := r.perform 1 m (.startingAt 100000)
    m.callDepth = 0 ∧
      (∃ s, r.Visits m (.startingAt 100000) s ∧ s.Bounded m.program m.callDepth r.self?) ∧
        report.outcome ≠ .unfinished ∧ report.machine.callDepth = 0 := by
  intro loop m r report
  have idle : m.callDepth = 0 := rfl
  obtain ⟨bounded, left⟩ := request_calls_bounded m idle (.startingAt 100000) r
  have found : m.program.scripts["loop"]? = some loop := Std.ExtTreeMap.getElem?_insert_self
  have visited : r.Visits m (.startingAt 100000) (m.entered _ ⟨loop, 0⟩ (some 100000) #[]) :=
    ⟨loop, found, 0, rfl⟩
  have finished : report.outcome ≠ .unfinished := by
    simp only [report, r, Request.perform, Report.map, Machine.execute, found]
    intro unfinished
    cases unfinished
  exact ⟨idle, ⟨_, visited, bounded _ visited⟩, finished, left 1 finished⟩
end ScriptMachine
