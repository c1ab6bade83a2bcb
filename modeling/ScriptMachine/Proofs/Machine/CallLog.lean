import ScriptMachine.Proofs.Machine.Failure

/-!
The log of calls and returns. A run starts with one call in progress, every report of a call opens
one more and every report of a return closes the innermost one. The depths in these reports are the
numbers of calls in progress, so that a return carries the depth of the call that it closes. A run
that returns has closed all its calls, and a run that is aborted says last how many it dropped.
-/

namespace ScriptMachine

/-! ### Counting -/

namespace Event

/-- A call is entered. -/
def isCall : Event → Bool
  | call .. => true
  | _ => false

/-- A call is left. -/
def isReturn : Event → Bool
  | ret .. => true
  | _ => false

/-- A run is stopped. -/
def isAbort : Event → Bool
  | aborted .. => true
  | _ => false

/-- The number of calls in progress changes. -/
def isMark (e : Event) : Bool :=
  e.isCall || e.isReturn

/-- Nothing happens to any call. -/
def isInner (e : Event) : Bool :=
  !e.isMark && !e.isAbort

end Event

/-- How many reports of a log say that a call was entered. -/
def callCount (log : List Event) : Nat :=
  log.countP Event.isCall

/-- How many reports of a log say that a call is left. -/
def returnCount (log : List Event) : Nat :=
  log.countP Event.isReturn

/-- The calls in progress after a log, by count: a run starts with one. -/
def openCalls (log : List Event) : Int :=
  1 + callCount log - returnCount log

/-- The reports of calls and returns. -/
def marks (log : List Event) : List Event :=
  log.filter Event.isMark

/-- As many calls are left as entered, and never more up to any point. -/
structure Balanced (log : List Event) : Prop where
  closed : returnCount log = callCount log
  nested : ∀ before, before <+: log → returnCount before ≤ callCount before

theorem openCalls_append (first second : List Event) :
    openCalls (first ++ second) = openCalls first + callCount second - returnCount second := by
  simp only [openCalls, callCount, returnCount, List.countP_append]
  omega

theorem openCalls_reverse (log : List Event) : openCalls log.reverse = openCalls log := by
  simp only [openCalls, callCount, returnCount, List.countP_reverse]

/-- A call counts one more, a return one less, and any other report leaves the count. -/
theorem openCalls_cons (e : Event) (log : List Event) :
    openCalls (e :: log)
      = openCalls log + (if e.isCall then 1 else 0) - (if e.isReturn then 1 else 0) := by
  simp only [openCalls, callCount, returnCount, List.countP_cons]
  split <;> split <;> omega

theorem openCalls_call (script : String) (entry depth : Nat) (log : List Event) :
    openCalls (.call script entry depth :: log) = openCalls log + 1 := by
  simp [openCalls_cons, Event.isCall, Event.isReturn]

theorem openCalls_ret (depth : Nat) (value : String) (log : List Event) :
    openCalls (.ret depth value :: log) = openCalls log - 1 := by
  simp [openCalls_cons, Event.isCall, Event.isReturn]

/-! ### Logs, the latest report first -/

/-- A report agrees with the number of calls that were in progress before it. The call at the base
stays in progress. -/
def Event.Fits (opened : Int) : Event → Prop
  | call _ _ depth => (depth : Int) = opened + 1
  | ret depth _ => (depth : Int) = opened ∧ 1 < depth
  | aborted .. => False
  | _ => True

/-- Every report of a run in progress agrees with those before it. -/
def Consistent : List Event → Prop
  | [] => True
  | e :: earlier => e.Fits (openCalls earlier) ∧ Consistent earlier

/-- The log goes on with reports that say nothing of calls. -/
def Continues (log log' : List Event) : Prop :=
  ∃ inner, (∀ e ∈ inner, e.isInner = true) ∧ log' = inner ++ log

theorem Event.isInner_eq {e : Event} (inner : e.isInner = true) :
    e.isCall = false ∧ e.isReturn = false ∧ e.isAbort = false := by
  cases e <;> simp_all [isInner, isMark, isCall, isReturn, isAbort]

theorem Event.fits_of_isInner {e : Event} (inner : e.isInner = true) (opened : Int) :
    e.Fits opened := by
  cases e <;> simp_all [isInner, isMark, isCall, isReturn, isAbort, Fits]

namespace Continues

variable {log log' : List Event}

theorem refl (log : List Event) : Continues log log :=
  ⟨[], by simp, rfl⟩

theorem openCalls_eq (continues : Continues log log') : openCalls log' = openCalls log := by
  obtain ⟨inner, all, rfl⟩ := continues
  have calls : inner.countP Event.isCall = 0 :=
    List.countP_eq_zero.mpr fun e mem => by simp [(Event.isInner_eq (all e mem)).1]
  have returns : inner.countP Event.isReturn = 0 :=
    List.countP_eq_zero.mpr fun e mem => by simp [(Event.isInner_eq (all e mem)).2.1]
  simp only [openCalls, callCount, returnCount, List.countP_append, calls, returns, Nat.zero_add]

theorem marks_eq (continues : Continues log log') : marks log' = marks log := by
  obtain ⟨inner, all, rfl⟩ := continues
  have none : inner.filter Event.isMark = [] := by
    apply List.filter_eq_nil_iff.mpr
    intro e mem
    obtain ⟨call, ret, -⟩ := Event.isInner_eq (all e mem)
    simp [Event.isMark, call, ret]
  simp only [marks, List.filter_append, none, List.nil_append]

theorem suffix (continues : Continues log log') : log <:+ log' := by
  obtain ⟨inner, -, rfl⟩ := continues
  exact List.suffix_append inner log

theorem consistent (continues : Continues log log') (before : Consistent log) : Consistent log' := by
  obtain ⟨inner, all, rfl⟩ := continues
  induction inner with
  | nil => exact before
  | cons e inner ih =>
      refine ⟨Event.fits_of_isInner (all e List.mem_cons_self) _, ih ?_⟩
      exact fun e mem => all e (List.mem_cons_of_mem _ mem)

/-- Further reports, of which at most one is of a call or a return. -/
theorem grows (continues : Continues log log') (new : List Event) (few : (marks new).length ≤ 1) :
    log <:+ new ++ log' ∧ (marks (new ++ log')).length ≤ (marks log).length + 1 := by
  refine ⟨continues.suffix.trans (List.suffix_append new log'), ?_⟩
  have split : marks (new ++ log') = marks new ++ marks log' := List.filter_append ..
  rw [split, List.length_append, continues.marks_eq]
  omega

end Continues

namespace Consistent

/-- In a consistent log, a report agrees with those before it. -/
theorem fits {later earlier : List Event} {e : Event} (consistent : Consistent (later ++ e :: earlier)) :
    e.Fits (openCalls earlier) ∧ Consistent earlier := by
  induction later with
  | nil => exact consistent
  | cons _ later ih => exact ih consistent.2

theorem not_isAbort {log : List Event} (consistent : Consistent log) :
    ∀ e ∈ log, e.isAbort = false := by
  intro e mem
  obtain ⟨later, earlier, rfl⟩ := List.append_of_mem mem
  have fits := consistent.fits.1
  cases e with
  | aborted => exact fits.elim
  | _ => rfl

/-- Of the calls in progress above the base, each was entered by a report of its depth, and was not
left since. -/
theorem exists_open_call {log : List Event} (consistent : Consistent log) {depth : Nat}
    (above : 1 < depth) (opened : (depth : Int) ≤ openCalls log) :
    ∃ later script entry earlier, log = later ++ .call script entry depth :: earlier ∧
      ∀ latest, latest <:+ later → returnCount latest ≤ callCount latest := by
  induction log with
  | nil =>
      simp only [openCalls, callCount, returnCount, List.countP_nil] at opened
      omega
  | cons e earlier ih =>
      obtain ⟨fits, consistent⟩ := consistent
      by_cases entered : ∃ script entry, e = .call script entry depth
      · obtain ⟨script, entry, rfl⟩ := entered
        refine ⟨[], script, entry, earlier, rfl, ?_⟩
        intro latest last
        rw [List.suffix_nil.mp last]
        exact Nat.le_refl _
      · -- A call at another depth opens one above `depth`, and no other report opens any.
        have before : (depth : Int) ≤ openCalls earlier := by
          cases e with
          | call script entry depth' =>
              have other : depth ≠ depth' := fun eq => entered ⟨script, entry, eq ▸ rfl⟩
              have fits : (depth' : Int) = openCalls earlier + 1 := fits
              rw [openCalls_call] at opened
              omega
          | _ =>
              simp only [openCalls_cons, Event.isCall, Event.isReturn, Bool.false_eq_true, if_false,
                if_true] at opened
              omega
        obtain ⟨later, script, entry, rest, rfl, kept⟩ := ih consistent before
        refine ⟨e :: later, script, entry, rest, rfl, ?_⟩
        intro latest last
        rcases List.suffix_cons_iff.mp last with rfl | last
        · -- All of it: the call that was found has the given depth, and so many are in progress now.
          have entered : (depth : Int) = openCalls rest + 1 := consistent.fits.1
          rw [← openCalls_reverse, ← List.cons_append, List.reverse_append, openCalls_append,
            openCalls_reverse, openCalls_call] at opened
          simp only [callCount, returnCount, List.countP_reverse] at opened ⊢
          omega
        · exact kept latest last

end Consistent

/-! ### What one step adds -/

/-- What a turn of a call at a nesting depth adds to the log. -/
inductive Turn.Logs (depth : Nat) (log : List Event) : Turn → Prop where
  | goOn {f : Frame} {w : World} (inner : Continues log w.events) : Logs depth log (.goOn f w)
  | wait {e : Entry} {arguments : Array Value} {f : Frame} {w : World}
      (inner : Continues log w.events) : Logs depth log (.wait e arguments f w)
  | returned {value : Value} {site : Site} {w : World} {log' : List Event}
      (inner : Continues log log') (events : w.events = .ret depth value.display :: log') :
      Logs depth log (.finish (.returned value site w))
  | aborted {abort : Abort} {w : World} {log' : List Event} (inner : Continues log log')
      (events : w.events = .aborted abort.kind abort.site depth abort.cause :: log') :
      Logs depth log (.finish (.aborted abort w))

/-- What a step adds to the log, and what it does to the calls in progress. -/
inductive Progress.Logs (base : Nat) (s : State) : Progress → Prop where
  | goesOn {t : State} (inner : Continues s.events t.events) (depth : t.depth base = s.depth base) :
      Logs base s (.running t)
  | enters {t : State} {script : String} {entry : Nat} {log : List Event}
      (inner : Continues s.events log)
      (events : t.events = .call script entry (s.depth base + 1) :: log)
      (depth : t.depth base = s.depth base + 1) : Logs base s (.running t)
  | leaves {t : State} {value : String} {log : List Event} (inner : Continues s.events log)
      (events : t.events = .ret (s.depth base) value :: log)
      (depth : s.depth base = t.depth base + 1) (waiting : 1 < s.depth base) :
      Logs base s (.running t)
  | returns {value : Value} {left : Aftermath} {log : List Event} (inner : Continues s.events log)
      (events : left.events = .ret (s.depth base) value.display :: log)
      (last : s.depth base = 1) (closed : left.calls.depth = base) : Logs base s (.returned value left)
  | aborts {abort : Abort} {left : Aftermath} {log : List Event} (inner : Continues s.events log)
      (events : left.events = .aborted abort.kind abort.site (s.depth base) abort.cause :: log) :
      Logs base s (.aborted abort left)
  /-- The value of a call that was left finds no room with its caller. -/
  | overflows {abort : Abort} {left : Aftermath} {value : String} {frames : Nat} {log : List Event}
      (inner : Continues s.events log)
      (events : left.events
        = .aborted abort.kind abort.site frames abort.cause :: .ret (s.depth base) value :: log)
      (depth : s.depth base = frames + 1) (waiting : 1 < s.depth base) :
      Logs base s (.aborted abort left)

theorem World.continues_after (w : World) (site : Site) (env : Env) :
    Continues w.events ((w.report (.step site)).after env).events := by
  refine ⟨(env.messages.map Event.message).reverse ++ [.step site], ?_, by simp [after, report]⟩
  intro e mem
  simp only [List.mem_append, List.mem_reverse, List.mem_map, List.mem_singleton] at mem
  rcases mem with ⟨text, -, rfl⟩ | rfl <;> rfl

variable {p : Program} {base : Nat}

/-- What a flow adds to the log: a return at the end of a call, an abort at a failure, else nothing. -/
theorem Frame.obey_logs {depth : Nat} {log : List Event} {f : Frame} {w : World} (site : Site)
    (inner : Continues log w.events) (flow : Flow) : (f.obey p depth site w flow).Logs depth log := by
  cases flow with
  | next => exact .goOn inner
  | jump label =>
      simp only [obey]
      split
      · exact .goOn inner
      · exact .aborted inner rfl
  | call function arguments =>
      simp only [obey]
      split
      · exact .aborted inner rfl
      · split
        · exact .aborted inner rfl
        · exact .wait inner
  | ret value => exact .returned inner rfl
  | refuse cause => exact .aborted inner rfl

/-- A turn adds the reports of its instruction, and at the end of the call what ended it. -/
theorem Frame.turn_logs (depth : Nat) (f : Frame) (w : World) :
    (f.turn p depth w).Logs depth w.events := by
  unfold turn
  split
  · exact .returned (.refl _) rfl
  · simp only
    split
    · exact obey_logs _ (w.continues_after _ _) _
    · exact .aborted (w.continues_after _ _) rfl

/-- A run with a call on top of those that were in progress before it. -/
structure State.Running (base : Nat) (s : State) : Prop where
  settled : s.env.messages = []
  above : base ≤ s.callers.depth

theorem State.running_ofCall {callers : CallStack} (f : Frame) (w : World)
    (above : base ≤ callers.depth) : (State.ofCall f w callers).Running base :=
  ⟨rfl, above⟩

/-- The end of a call is reported at its own depth: it leaves one call, or ends the run. -/
theorem Ending.progress_logs {s : State} (above : base ≤ s.callers.depth) {ending : Ending}
    (logged : (Turn.finish ending).Logs (s.depth base) s.events) :
    (ending.progress base s.callers).Logs base s := by
  cases logged with
  | aborted inner events => exact .aborts inner events
  | returned inner events =>
      simp only [progress]
      split
      · rename_i last
        refine .returns inner events ?_ (Nat.le_antisymm last above)
        simp only [State.depth]
        omega
      · rename_i inside
        split
        · rename_i popped
          exact absurd (CallStack.depth_eq_zero_of_pop? popped) (by omega)
        · rename_i caller rest popped
          have pushed : s.callers.depth = rest.depth + 1 :=
            congrArg CallStack.depth (CallStack.eq_push_of_pop? popped)
          have depth : s.depth base = rest.depth + 1 - base + 1 := by
            simp only [State.depth]
            omega
          have waiting : 1 < s.depth base := by
            simp only [State.depth]
            omega
          split
          · exact .leaves inner events depth waiting
          · exact .overflows inner (congrArg (List.cons _) events) depth waiting

/-- A step enters a call, leaves a call, stops the run, or does nothing to the calls in progress. -/
theorem step_logs {s : State} (running : s.Running base) : (step p base s).Logs base s := by
  obtain ⟨w, eq⟩ := State.exists_eq_ofCall running.settled
  have above := running.above
  have stepped : step p base s
      = (s.frame.turn p (s.depth base) w).progress p base s.callers := by
    conv => lhs; rw [eq]
    exact step_ofCall _ _ _
  have logged := Frame.turn_logs (p := p) (s.depth base) s.frame w
  have events : w.events = s.events := by rw [eq]; rfl
  rw [stepped]
  rw [events] at logged
  cases turned : s.frame.turn p (s.depth base) w with
  | goOn f w' =>
      rw [turned] at logged
      cases logged with
      | goOn inner => exact .goesOn inner rfl
  | wait e arguments f w' =>
      rw [turned] at logged
      cases logged with
      | wait inner =>
          refine .enters inner rfl ?_
          change s.callers.depth + 1 + 1 - base = s.callers.depth + 1 - base + 1
          omega
  | finish ending =>
      rw [turned] at logged
      exact ending.progress_logs above logged

/-- A step that goes on leaves the calls below the base alone. -/
theorem step_running {s t : State} (running : s.Running base)
    (stepped : step p base s = .running t) : t.Running base := by
  obtain ⟨w, eq⟩ := State.exists_eq_ofCall running.settled
  have above := running.above
  rw [eq, step_ofCall] at stepped
  cases turned : s.frame.turn p (s.callers.depth + 1 - base) w with
  | goOn f w' =>
      rw [turned] at stepped
      cases stepped
      exact State.running_ofCall f w' above
  | wait e arguments f w' =>
      rw [turned] at stepped
      cases stepped
      exact State.running_ofCall _ _ (Nat.le_succ_of_le above)
  | finish ending =>
      rw [turned] at stepped
      obtain ⟨value, site, w', caller, rest, stack, -, eq_push, inside, -, rfl⟩ :=
        Ending.exists_of_progress_running stepped
      rw [eq_push, CallStack.depth_push] at inside
      exact State.running_ofCall _ _ (Nat.le_of_lt_succ inside)

/-! ### Whole runs -/

/-- The reports so far. -/
def Progress.events : Progress → List Event
  | .running s => s.events
  | .returned _ left | .aborted _ left => left.events

/-- The log of a run in progress agrees with itself and with the calls in progress. -/
structure State.Traced (base : Nat) (s : State) : Prop extends s.Running base where
  opened : (s.depth base : Int) = openCalls s.events
  consistent : Consistent s.events

/-- The log of a run, which may have ended: a return at the base or an abort is the last report. -/
inductive Progress.Traced (base : Nat) : Progress → Prop where
  | running {s : State} (traced : s.Traced base) : Traced base (.running s)
  | returned {value : Value} {left : Aftermath} {log : List Event} (consistent : Consistent log)
      (opened : openCalls log = 1) (events : left.events = .ret 1 value.display :: log)
      (closed : left.calls.depth = base) : Traced base (.returned value left)
  | aborted {abort : Abort} {left : Aftermath} {frames : Nat} {log : List Event}
      (consistent : Consistent log) (opened : (frames : Int) = openCalls log)
      (events : left.events = .aborted abort.kind abort.site frames abort.cause :: log) :
      Traced base (.aborted abort left)

/-- A step keeps the log in agreement with the calls in progress: it counts every call as it is entered
and left. -/
theorem step_traced {s : State} (traced : s.Traced base) : (step p base s).Traced base := by
  have logged := step_logs (p := p) traced.toRunning
  have opened := traced.opened
  cases stepped : step p base s with
  | running t =>
      have running := step_running traced.toRunning stepped
      rw [stepped] at logged
      cases logged with
      | goesOn inner depth =>
          refine .running ⟨running, ?_, inner.consistent traced.consistent⟩
          rw [inner.openCalls_eq, depth, opened]
      | enters inner events depth =>
          have entered := inner.openCalls_eq
          refine .running ⟨running, ?_, ?_⟩
          · rw [events, openCalls_call]
            omega
          · rw [events]
            refine ⟨?_, inner.consistent traced.consistent⟩
            simp only [Event.Fits]
            omega
      | leaves inner events depth waiting =>
          -- The report is at the depth of the call that returns, so it fits the count before it.
          have left := inner.openCalls_eq
          refine .running ⟨running, ?_, ?_⟩
          · rw [events, openCalls_ret]
            omega
          · rw [events]
            exact ⟨⟨opened.trans left.symm, waiting⟩, inner.consistent traced.consistent⟩
  | returned value left =>
      rw [stepped] at logged
      cases logged with
      | returns inner events last closed =>
          rw [last] at events opened
          exact .returned (inner.consistent traced.consistent)
            (inner.openCalls_eq.trans opened.symm) events closed
  | aborted abort left =>
      rw [stepped] at logged
      cases logged with
      | aborts inner events =>
          exact .aborted (inner.consistent traced.consistent)
            (opened.trans inner.openCalls_eq.symm) events
      | overflows inner events depth waiting =>
          -- The callee is logged as left, but the caller has no room for its value.
          have left := inner.openCalls_eq
          refine .aborted ?_ ?_ events
          · exact ⟨⟨opened.trans left.symm, waiting⟩, inner.consistent traced.consistent⟩
          · rw [openCalls_ret]
            omega

/-- By induction on the steps, the log of a run agrees with its calls in progress. -/
theorem run_traced {s : State} (traced : s.Traced base) (n : Nat) : (run p base n s).Traced base := by
  induction n generalizing s with
  | zero => exact .running traced
  | succ n ih =>
      have next := step_traced (p := p) traced
      cases stepped : step p base s with
      | running t =>
          rw [stepped] at next
          rw [run_succ_of_running stepped]
          cases next with
          | running traced => exact ih traced
      | returned value left =>
          rw [stepped] at next
          simpa only [run, stepped] using next
      | aborted abort left =>
          rw [stepped] at next
          simpa only [run, stepped] using next

/-- A step keeps the log so far, and adds at most one report of a call or a return. -/
theorem Progress.Logs.grows {s : State} {r : Progress} (logged : r.Logs base s) :
    s.events <:+ r.events ∧ (marks r.events).length ≤ (marks s.events).length + 1 := by
  cases logged with
  | goesOn inner depth => exact inner.grows [] (Nat.zero_le 1)
  | enters inner eq depth =>
      simp only [events, eq]
      exact inner.grows [_] (Nat.le_refl 1)
  | leaves inner eq depth waiting =>
      simp only [events, eq]
      exact inner.grows [_] (Nat.le_refl 1)
  | returns inner eq last closed =>
      simp only [events, eq]
      exact inner.grows [_] (Nat.le_refl 1)
  | aborts inner eq =>
      simp only [events, eq]
      exact inner.grows [_] (Nat.zero_le 1)
  | overflows inner eq depth waiting =>
      simp only [events, eq]
      exact inner.grows [_, _] (Nat.le_refl 1)

/-- A run adds to its log and takes nothing back. -/
theorem run_suffix {s : State} (running : s.Running base) (n : Nat) :
    s.events <:+ (run p base n s).events := by
  induction n generalizing s with
  | zero => exact List.suffix_refl _
  | succ n ih =>
      have grown := (step_logs (p := p) running).grows.1
      cases stepped : step p base s with
      | running t =>
          rw [stepped] at grown
          rw [run_succ_of_running stepped]
          exact grown.trans (ih (step_running running stepped))
      | returned value left =>
          rw [stepped] at grown
          simpa only [run, stepped] using grown
      | aborted abort left =>
          rw [stepped] at grown
          simpa only [run, stepped] using grown

/-- A run comes to a state after each of its reports of a call or a return but the last: no step
adds two of them. -/
theorem exists_of_marks_lt {s : State} (running : s.Running base) {n k : Nat}
    (least : (marks s.events).length ≤ k) (more : k < (marks (run p base n s).events).length) :
    ∃ i t, run p base i s = .running t ∧ (marks t.events).length = k := by
  induction n generalizing s with
  | zero => exact absurd more (Nat.not_lt.mpr least)
  | succ n ih =>
      have grown := (step_logs (p := p) running).grows.2
      rcases Nat.eq_or_lt_of_le least with eq | lt
      · exact ⟨0, s, rfl, eq⟩
      · cases stepped : step p base s with
        | running t =>
            rw [stepped] at grown
            rw [run_succ_of_running stepped] at more
            obtain ⟨i, u, reached, count⟩ :=
              ih (step_running running stepped) (Nat.le_trans grown lt) more
            exact ⟨i + 1, u, (run_succ_of_running stepped i).trans reached, count⟩
        | returned value left =>
            simp only [stepped] at grown
            simp only [run, stepped] at more
            omega
        | aborted abort left =>
            simp only [stepped] at grown
            simp only [run, stepped] at more
            omega

/-! ### Requests -/

/-- A log in the order of its reports, in which depths are numbers of calls in progress and every
return closes the innermost call: the one at the base, which ends the log, or one of the depth that
it reports. -/
structure WellNested (log : List Event) : Prop where
  entered : ∀ (before after : List Event) (script : String) (entry depth : Nat),
    log = before ++ .call script entry depth :: after →
      (depth : Int) = openCalls (before ++ [.call script entry depth])
  left : ∀ (before after : List Event) (depth : Nat) (value : String),
    log = before ++ .ret depth value :: after →
      (depth : Int) = openCalls before ∧
        ((depth = 1 ∧ after = []) ∨
          ∃ earlier script entry inner, before = earlier ++ .call script entry depth :: inner ∧
            Balanced inner)

/-- Every call in progress above the base was entered by a report of its depth, and all calls that
it made since were left. -/
theorem Consistent.exists_balanced {log : List Event} (consistent : Consistent log) {depth : Nat}
    (above : 1 < depth) (opened : (depth : Int) = openCalls log) :
    ∃ earlier script entry inner, log.reverse = earlier ++ .call script entry depth :: inner ∧
      Balanced inner := by
  obtain ⟨later, script, entry, earlier, rfl, kept⟩ :=
    consistent.exists_open_call above (Int.le_of_eq opened)
  refine ⟨earlier.reverse, script, entry, later.reverse, by simp, ?_, ?_⟩
  · have entered : (depth : Int) = openCalls earlier + 1 := consistent.fits.1
    rw [← openCalls_reverse, List.reverse_append, openCalls_append, openCalls_reverse,
      openCalls_call] at opened
    omega
  · intro before first
    have last : before.reverse <:+ later := by simpa using List.reverse_suffix.mpr first
    simpa [callCount, returnCount, List.countP_reverse] using kept before.reverse last

/-- The last report of a run that ended. -/
inductive Event.Ends (log : List Event) : Event → Prop where
  | ret (value : String) (opened : openCalls log = 1) : Ends log (ret 1 value)
  | aborted (kind : AbortKind) (site : Site) (frames : Nat) (cause : RuntimeError)
      (opened : (frames : Int) = openCalls log) : Ends log (aborted kind site frames cause)

/-- A consistent log with its last report, told in the order of the reports, is well nested. -/
theorem Consistent.wellNested {log : List Event} (consistent : Consistent log) {last : Event}
    (ends : last.Ends log) : WellNested (last :: log).reverse where
  entered := by
    intro before after script entry depth eq
    have eq := congrArg List.reverse eq
    rw [List.reverse_reverse, List.reverse_append, List.reverse_cons, List.append_assoc,
      List.singleton_append] at eq
    rcases List.cons_eq_append_iff.mp eq with ⟨-, found⟩ | ⟨later, -, rfl⟩
    · cases ends <;> cases found
    · have fits : (depth : Int) = openCalls before.reverse + 1 := consistent.fits.1
      rw [← openCalls_reverse (before ++ _), List.reverse_append]
      exact fits.trans (openCalls_call script entry depth before.reverse).symm
  left := by
    intro before after depth value eq
    have eq := congrArg List.reverse eq
    rw [List.reverse_reverse, List.reverse_append, List.reverse_cons, List.append_assoc,
      List.singleton_append] at eq
    rcases List.cons_eq_append_iff.mp eq with ⟨none, found⟩ | ⟨later, -, rfl⟩
    · cases found
      cases ends with
      | ret value opened =>
          rw [openCalls_reverse] at opened
          exact ⟨opened.symm, .inl ⟨rfl, List.reverse_eq_nil_iff.mp none⟩⟩
    · obtain ⟨⟨opened, above⟩, earlier⟩ := consistent.fits
      have closes := earlier.exists_balanced above opened
      rw [List.reverse_reverse] at closes
      exact ⟨opened.trans (openCalls_reverse before), .inr closes⟩

/-- What the report of a finished request says of its calls, when the request came to certain
states. -/
structure Machine.LogsCalls {α : Type} (m : Machine) (visits : State → Prop) (report : Report α) :
    Prop where
  nested : WellNested report.events
  /-- Each state that the run comes to has reported a first part of the log, and has as many calls
  in progress as that part says. -/
  visited : ∀ s, visits s →
    s.events.reverse <+: report.events ∧ (s.depth m.callDepth : Int) = openCalls s.events.reverse
  /-- After each first part of the log that a call or a return follows, the run comes to a state with
  as many calls in progress as that part says. -/
  between : ∀ before, before <+: report.events → marks before ≠ marks report.events →
    ∃ s, visits s ∧ marks s.events.reverse = marks before ∧
      (s.depth m.callDepth : Int) = openCalls before
  done : ∀ result, report.outcome = .done result →
    returnCount report.events = callCount report.events + 1 ∧
      (∀ e ∈ report.events, e.isAbort = false) ∧ report.machine.callDepth = m.callDepth
  aborted : ∀ abort, report.outcome = .failed (.aborted abort) →
    ∃ (before : List Event) (frames : Nat), report.events
        = before ++ [.aborted abort.kind abort.site frames abort.cause] ∧
      (∀ e ∈ before, e.isAbort = false) ∧ (frames : Int) = openCalls report.events
  unknown : ∀ name, report.outcome = .failed (.unknownScript name) → report.events = []

namespace Progress

variable {r : Progress}

theorem events_report (m : Machine) (r : Progress) : (r.report m).events = r.events.reverse := by
  cases r <;> rfl

/-- The log of a run that is over is well nested. -/
theorem Traced.wellNested (traced : r.Traced base) (ended : r.Ended) :
    WellNested r.events.reverse := by
  cases traced with
  | running traced => exact ended.elim
  | returned consistent opened eq closed =>
      simp only [events, eq]
      exact consistent.wellNested (.ret _ opened)
  | aborted consistent opened eq =>
      simp only [events, eq]
      exact consistent.wellNested (.aborted _ _ _ _ opened)

/-- A run that gives a value has left every call that it entered, and its own. -/
theorem Traced.report_done {m : Machine} {value : Value} (traced : r.Traced base)
    (returned : (r.report m).outcome = .done value) :
    returnCount r.events = callCount r.events + 1 ∧ (∀ e ∈ r.events, e.isAbort = false) ∧
      (r.report m).machine.callDepth = base := by
  cases traced with
  | running traced => cases returned
  | aborted consistent opened eq => cases returned
  | returned consistent opened eq closed =>
      rename_i log
      cases returned
      simp only [events, eq]
      refine ⟨?_, ?_, closed⟩
      · have none := openCalls_ret 1 value.display log
        rw [opened] at none
        unfold openCalls at none
        omega
      · intro e mem
        rcases List.mem_cons.mp mem with rfl | mem
        · rfl
        · exact consistent.not_isAbort e mem

/-- A run that is stopped reports so at the end, with the number of calls that were in progress. -/
theorem Traced.report_aborted {m : Machine} {abort : Abort} (traced : r.Traced base)
    (stopped : (r.report m).outcome = .failed (.aborted abort)) :
    ∃ (log : List Event) (frames : Nat),
      r.events = .aborted abort.kind abort.site frames abort.cause :: log ∧
        (∀ e ∈ log, e.isAbort = false) ∧ (frames : Int) = openCalls r.events := by
  cases traced with
  | running traced => cases stopped
  | returned consistent opened eq closed => cases stopped
  | aborted consistent opened eq =>
      cases stopped
      refine ⟨_, _, eq, consistent.not_isAbort, ?_⟩
      simp only [events, eq, openCalls_cons]
      simpa [Event.isCall, Event.isReturn] using opened

end Progress

theorem openCalls_eq_of_marks {log log' : List Event} (same : marks log = marks log') :
    openCalls log = openCalls log' := by
  have count (p : Event → Bool) (mark : ∀ e, p e = true → e.isMark = true) (log : List Event) :
      log.countP p = (marks log).countP p := by
    rw [marks, List.countP_filter]
    apply List.countP_congr
    intro e _
    constructor
    · intro holds
      simp [holds, mark e holds]
    · intro holds
      exact (Bool.and_eq_true_iff.mp holds).1
  have call (log : List Event) := count Event.isCall (fun e holds => by simp [Event.isMark, holds]) log
  have ret (log : List Event) := count Event.isReturn (fun e holds => by simp [Event.isMark, holds]) log
  simp only [openCalls, callCount, returnCount]
  rw [call log, call log', ret log, ret log', same]

namespace Machine

variable {m : Machine} {instances : Registry} {e : Entry} {self? : Option InstanceId}
  {arguments : Array Value} {fuel : Nat}

theorem entered_traced (m : Machine) (instances : Registry) (e : Entry) (self? : Option InstanceId)
    (arguments : Array Value) : (m.entered instances e self? arguments).Traced m.calls.depth where
  settled := rfl
  above := Nat.le_refl _
  opened := by
    change ((m.calls.depth + 1 - m.calls.depth : Nat) : Int) = 1 + 0 - 0
    omega
  consistent := trivial

/-- The log in a state of a run is the beginning of the log of the whole run. -/
theorem visited_of_ended {s : State}
    (ended : (run m.program m.calls.depth fuel (m.entered instances e self? arguments)).Ended)
    (visited : m.Visits instances e self? arguments s) :
    s.events <:+ (run m.program m.calls.depth fuel (m.entered instances e self? arguments)).events ∧
      s.Traced m.calls.depth := by
  obtain ⟨n, reached⟩ := visited
  have traced := run_traced (p := m.program) (m.entered_traced instances e self? arguments) n
  rw [reached] at traced
  cases traced with
  | running traced =>
      obtain ⟨k, -, rest⟩ := run_ended_of_running reached ended
      rw [← rest]
      exact ⟨run_suffix traced.toRunning k, traced⟩

/-- A beginning of the log that leaves out a call or a return is, but for other reports, the log in a
state on the way. -/
theorem exists_visited_of_marks_ne {before : List Event}
    (ended : (run m.program m.calls.depth fuel (m.entered instances e self? arguments)).Ended)
    (first : before <+:
      (run m.program m.calls.depth fuel (m.entered instances e self? arguments)).events.reverse)
    (more : marks before ≠ marks
      (run m.program m.calls.depth fuel (m.entered instances e self? arguments)).events.reverse) :
    ∃ s, m.Visits instances e self? arguments s ∧ marks s.events.reverse = marks before ∧
      s.Traced m.calls.depth := by
  have running := (m.entered_traced instances e self? arguments).toRunning
  have part := first.filter Event.isMark
  have shorter := Nat.lt_of_le_of_ne part.length_le fun eq => more (part.eq_of_length eq)
  rw [List.filter_reverse, List.length_reverse] at shorter
  obtain ⟨i, t, reached, count⟩ := exists_of_marks_lt running (Nat.zero_le _) shorter
  have visited : m.Visits instances e self? arguments t := ⟨i, reached⟩
  obtain ⟨last, traced⟩ := visited_of_ended ended visited
  refine ⟨t, visited, ?_, traced⟩
  have part' := (List.reverse_prefix.mpr last).filter Event.isMark
  have same : (marks t.events.reverse).length = (marks before).length := by
    rw [marks, List.filter_reverse, List.length_reverse]
    exact count
  exact (List.prefix_of_prefix_length_le part' part (Nat.le_of_eq same)).eq_of_length same

/-- A request for one function that is over has logged its calls. -/
theorem enter_logsCalls
    (finished : (m.enter fuel instances e self? arguments).outcome ≠ .unfinished) :
    m.LogsCalls (m.Visits instances e self? arguments)
      (m.enter fuel instances e self? arguments) := by
  rw [enter_eq_report] at finished ⊢
  have ended := (Progress.report_finished_iff m _).mp finished
  have traced := run_traced (p := m.program) (m.entered_traced instances e self? arguments) fuel
  have events := Progress.events_report m
    (run m.program m.calls.depth fuel (m.entered instances e self? arguments))
  refine ⟨?_, ?_, ?_, ?_, ?_, ?_⟩
  · rw [events]
    exact traced.wellNested ended
  · intro s visited
    obtain ⟨last, traced⟩ := visited_of_ended ended visited
    rw [events, openCalls_reverse]
    exact ⟨List.reverse_prefix.mpr last, traced.opened⟩
  · intro before first more
    rw [events] at first more
    obtain ⟨s, visited, same, traced⟩ := exists_visited_of_marks_ne ended first more
    refine ⟨s, visited, same, ?_⟩
    rw [← openCalls_eq_of_marks same, openCalls_reverse]
    exact traced.opened
  · intro value returned
    obtain ⟨count, none, closed⟩ := traced.report_done returned
    rw [events]
    refine ⟨?_, fun e mem => none e (List.mem_reverse.mp mem), closed⟩
    simpa only [returnCount, callCount, List.countP_reverse] using count
  · intro abort stopped
    obtain ⟨log, frames, eq, none, opened⟩ := traced.report_aborted stopped
    rw [events, openCalls_reverse]
    refine ⟨log.reverse, frames, ?_, fun e mem => none e (List.mem_reverse.mp mem), opened⟩
    rw [eq, List.reverse_cons]
  · intro name unknown
    cases ran : run m.program m.calls.depth fuel (m.entered instances e self? arguments) <;>
      rw [ran] at unknown <;> cases unknown

end Machine

/-- What a request gives back does not matter for its log. -/
theorem Machine.LogsCalls.map {α β : Type} {m : Machine} {visits visits' : State → Prop}
    {report : Report α} (logs : m.LogsCalls visits report) (f : α → β)
    (same : ∀ s, visits' s ↔ visits s) : m.LogsCalls visits' (report.map f) where
  nested := logs.nested
  visited s visited := logs.visited s ((same s).mp visited)
  between before first more := by
    obtain ⟨s, visited, rest⟩ := logs.between before first more
    exact ⟨s, (same s).mpr visited, rest⟩
  done result returned := by
    obtain ⟨value, returned⟩ := Outcome.exists_of_map_eq_done returned
    exact logs.done value returned
  aborted abort stopped := logs.aborted abort ((Outcome.map_eq_failed_iff f _ _).mp stopped)
  unknown name unknown := logs.unknown name ((Outcome.map_eq_failed_iff f _ _).mp unknown)

/-- Where there is nothing to run, nothing is reported. -/
theorem Machine.unknown_logsCalls {α : Type} (m : Machine) (instances : Registry) (name : String)
    {visits : State → Prop} (none : ∀ s, ¬ visits s) :
    m.LogsCalls visits (m.unknown instances name : Report α) where
  nested := ⟨by simp [Machine.unknown], by simp [Machine.unknown]⟩
  visited s visited := absurd visited (none s)
  between before first more := by
    rw [List.prefix_nil.mp first] at more
    exact absurd rfl more
  done _ returned := by cases returned
  aborted _ stopped := by cases stopped
  unknown _ _ := rfl

/-- The log of a finished request for one script or function is well nested, it counts the calls in
progress at every point, and its end says how the request ended. -/
theorem call_log_well_nested (m : Machine) (instances : Registry) (r : Request)
    (single : r ≠ .initializers) (fuel : Nat)
    (finished : (r.perform fuel m instances).outcome ≠ .unfinished) :
    m.LogsCalls (r.Visits m instances) (r.perform fuel m instances) := by
  rcases r.perform_cases m with rfl | ⟨name, performs⟩ | ⟨-, e, -, performs⟩
  · exact absurd rfl single
  · obtain ⟨same, none⟩ := performs instances
    rw [same]
    exact (m.unknown_logsCalls instances name none).map some fun _ => Iff.rfl
  · obtain ⟨same, visits⟩ := performs instances
    rw [same] at finished ⊢
    have finished : (m.enter fuel instances e r.self? r.arguments).outcome ≠ .unfinished :=
      fun unfinished => finished ((Outcome.map_unfinished_iff some _).mpr unfinished)
    exact (Machine.enter_logsCalls finished).map some visits

/-- A script calls another, which returns nothing, and then returns nothing itself. -/
theorem call_log_well_nested_for_one_call :
    let idle : Script := { assetId := 1, name := "idle", instructions := #[] }
    let main : Script := { assetId := 0, name := "main", instructions := #[.call "idle" 0] }
    let m := ((Machine.new {} Native.standard).loadAll [main, idle]).1
    let r := Request.execute "main" none #[]
    let report := r.perform 3 m (.startingAt 100000)
    r ≠ .initializers ∧ report.outcome ≠ .unfinished ∧
      marks report.events = [.call "idle" 0 2, .ret 2 "undefined", .ret 1 "undefined"] ∧
        m.LogsCalls (r.Visits m (.startingAt 100000)) report := by
  intro idle main m r report
  have scripts_eq : m.program.scripts = (Std.ExtTreeMap.insert ∅ "main" main).insert "idle" idle := rfl
  have main_found : m.program.scripts["main"]? = some main := by
    rw [scripts_eq, Std.ExtTreeMap.getElem?_insert, if_neg (by decide),
      Std.ExtTreeMap.getElem?_insert_self]
  have idle_found : m.program.lookup? "idle" = some ⟨idle, 0⟩ := by
    rw [Program.lookup?, scripts_eq, Std.ExtTreeMap.getElem?_insert_self]
  have no_native : m.program.natives["idle"]? = none :=
    Std.ExtTreeMap.getElem?_ofList_of_contains_eq_false (by decide)
  let start := m.entered (.startingAt 100000) ⟨main, 0⟩ none #[]
  let site : Site := ⟨"main", 0, (Instruction.call "idle" 0).raw⟩
  have first : step m.program m.calls.depth start
      = enterCall m.program 0 site "idle" #[] (start.report (.step site)) := by
    have fetched : start.script.instructions[start.position]? = some (.call "idle" 0) := rfl
    have called := exec_call_zero m.program.config no_native start.env
    simp only [step, start, Machine.entered, State.ofCall] at fetched called ⊢
    simp only [fetched, called]
    rfl
  have ran : report.outcome = .done (some .undefined) ∧
      marks report.events = [.call "idle" 0 2, .ret 2 "undefined", .ret 1 "undefined"] := by
    simp only [start] at first
    simp only [report, r, Request.perform, Report.map, Machine.execute, main_found, enter_eq_report,
      run, first, enterCall, idle_found]
    exact ⟨rfl, rfl⟩
  have single : r ≠ .initializers := by simp [r]
  have finished : report.outcome ≠ .unfinished := by
    rw [ran.1]
    simp
  exact ⟨single, finished, ran.2, call_log_well_nested m _ r single 3 finished⟩

end ScriptMachine
