import ScriptMachine.Error

/-!
Actions that change a state and may fail. A failing action still says which state it leaves behind,
because some effects come before the failure: a value that was taken off a stack and then does not
convert is gone.
-/

namespace ScriptMachine

/-- A change of a `σ` that gives an `α` or fails, and leaves a `σ` behind either way. -/
abbrev Action (σ α : Type) := EStateM RuntimeError σ α

namespace Action

variable {σ τ α : Type}

/-- A result that does not touch the state. -/
@[inline]
def ofExcept : Except RuntimeError α → Action σ α
  | .ok a => fun s => .ok a s
  | .error e => fun s => .error e s

/-- A result read off the state, which stays as it is. -/
@[inline]
def inspect (f : σ → Except RuntimeError α) : Action σ α := fun s =>
  match f s with
  | .ok a => .ok a s
  | .error e => .error e s

/-- A change of the state that leaves it as it is when it fails. -/
def update (f : σ → Except RuntimeError σ) : Action σ Unit := fun s =>
  match f s with
  | .ok t => .ok () t
  | .error e => .error e s

/-- The outcome of an action on a part, with the part put back into the whole. -/
@[inline]
def restore (whole : τ → σ) :
    EStateM.Result RuntimeError τ α → EStateM.Result RuntimeError σ α
  | .ok a t => .ok a (whole t)
  | .error e t => .error e (whole t)

/-- The state that an action leaves behind. -/
def after (act : Action σ α) (s : σ) : σ :=
  match act s with
  | .ok _ t => t
  | .error _ t => t

/-- The result of an action, without the state. -/
def result (act : Action σ α) (s : σ) : Except RuntimeError α :=
  match act s with
  | .ok a _ => .ok a
  | .error e _ => .error e

end Action

end ScriptMachine
