import ScriptMachine.Action

/-!
What actions leave alone, and what they do not notice. An action keeps a view of its state if the
view is the same afterwards, whether the action succeeds or fails. It respects a relation between
states if it comes to the same from related states, and leaves related states. Actions in sequence do
what each of them does.
-/

namespace ScriptMachine

/-- A sequence succeeds only if both parts do. -/
theorem exists_of_bind_eq_ok {ε α β : Type} {x : Except ε α} {f : α → Except ε β} {b : β}
    (bound : x >>= f = .ok b) : ∃ a, x = .ok a ∧ f a = .ok b := by
  cases x with
  | ok a => exact ⟨a, rfl, bound⟩
  | error e => cases bound

/-- A result is `good`, and an error is `bad`. -/
def Answers {ε α : Type} (good : α → Prop) (bad : ε → Prop) : Except ε α → Prop
  | .ok a => good a
  | .error e => bad e

/-- The rest of a sequence only has to answer for the good results of the first part. -/
theorem Answers.bind {ε α β : Type} {good : α → Prop} {good' : β → Prop} {bad : ε → Prop}
    {x : Except ε α} {f : α → Except ε β} (first : Answers good bad x)
    (rest : ∀ a, good a → Answers good' bad (f a)) : Answers good' bad (x >>= f) := by
  cases x with
  | ok a => exact rest a first
  | error e => exact first

/-- Without a word on errors, only the results count. -/
theorem answers_of_ok {ε α : Type} {good : α → Prop} {x : Except ε α}
    (held : ∀ a, x = .ok a → good a) : Answers good (fun _ => True) x := by
  cases x with
  | ok a => exact held a rfl
  | error e => trivial

/-- Better results and worse errors may be promised instead. -/
theorem Answers.mono {ε α : Type} {good good' : α → Prop} {bad bad' : ε → Prop} {x : Except ε α}
    (answers : Answers good bad x) (better : ∀ a, good a → good' a) (worse : ∀ e, bad e → bad' e) :
    Answers good' bad' x := by
  cases x with
  | ok a => exact better a answers
  | error e => exact worse e answers

namespace Action

variable {σ τ α β γ : Type} {view : σ → β}

/-! ### The state after an action -/

/-- A bare result leaves the state alone. -/
@[simp] theorem after_ofExcept (r : Except RuntimeError α) (s : σ) : (ofExcept r).after s = s := by
  cases r <;> rfl

@[simp] theorem after_inspect (f : σ → Except RuntimeError α) (s : σ) :
    (inspect f).after s = s := by
  simp only [after, inspect]
  cases f s <;> rfl

/-- After a part that succeeds, a sequence goes on with its result. -/
theorem bind_of_ok {act : Action σ α} {f : α → Action σ γ} {s t : σ} {a : α}
    (acted : act s = .ok a t) : (act >>= f) s = f a t := by
  simp only [bind, EStateM.bind, acted]

/-- A sequence stops at the first part that fails, with the state which that part leaves. -/
theorem bind_of_error {act : Action σ α} {f : α → Action σ γ} {s t : σ} {e : RuntimeError}
    (acted : act s = .error e t) : (act >>= f) s = .error e t := by
  simp only [bind, EStateM.bind, acted]

theorem after_bind_ok {act : Action σ α} {f : α → Action σ γ} {s t : σ} {a : α}
    (acted : act s = .ok a t) : (act >>= f).after s = (f a).after t := by
  simp only [after, bind_of_ok acted]

theorem after_bind_error {act : Action σ α} {f : α → Action σ γ} {s t : σ} {e : RuntimeError}
    (acted : act s = .error e t) : (act >>= f).after s = t := by
  simp only [after, bind_of_error acted]

/-- A sequence succeeds exactly if both parts do, the second one from where the first one stopped. -/
theorem bind_eq_ok_iff {act : Action σ α} {f : α → Action σ γ} {s u : σ} {b : γ} :
    (act >>= f) s = .ok b u ↔ ∃ a t, act s = .ok a t ∧ f a t = .ok b u := by
  cases acted : act s with
  | ok a t =>
      rw [bind_of_ok acted]
      constructor
      · intro done
        exact ⟨a, t, rfl, done⟩
      · rintro ⟨_, _, ⟨⟩, done⟩
        exact done
  | error e t =>
      rw [bind_of_error acted]
      constructor
      · nofun
      · rintro ⟨_, _, ⟨⟩, -⟩

/-- An action on a part leaves the whole with the part as the action leaves it. -/
theorem after_restore (whole : τ → σ) (act : Action τ α) (s : τ) (outer : Action σ α) (w : σ)
    (acted : outer w = restore whole (act s)) : outer.after w = whole (act.after s) := by
  simp only [after, acted]
  cases act s <;> rfl

/-- What succeeded on the whole has succeeded on the part. -/
theorem restore_eq_ok {whole : τ → σ} {r : EStateM.Result RuntimeError τ α} {a : α} {w : σ}
    (restored : restore whole r = .ok a w) : ∃ t, r = .ok a t ∧ w = whole t := by
  cases r with
  | ok b t =>
      cases restored
      exact ⟨t, rfl, rfl⟩
  | error e t => cases restored

/-- What failed on the whole has failed on the part. -/
theorem restore_eq_error {whole : τ → σ} {r : EStateM.Result RuntimeError τ α} {e : RuntimeError}
    {w : σ} (restored : restore whole r = .error e w) : ∃ t, r = .error e t ∧ w = whole t := by
  cases r with
  | ok b t => cases restored
  | error e t =>
      cases restored
      exact ⟨t, rfl, rfl⟩

/-- A part of a part is put back in one step. -/
theorem restore_restore {ρ : Type} (whole : τ → σ) (part : ρ → τ)
    (r : EStateM.Result RuntimeError ρ α) :
    restore whole (restore part r) = restore (fun t => whole (part t)) r := by
  cases r <;> rfl

/-! ### Kept views -/

/-- What `view` shows of the state is the same after the action, also where it fails. -/
def Keeps (view : σ → β) (act : Action σ α) : Prop :=
  ∀ s, view (act.after s) = view s

theorem Keeps.pure (a : α) : Keeps view (Pure.pure a : Action σ α) :=
  fun _ => rfl

theorem Keeps.throw (e : RuntimeError) : Keeps view (MonadExcept.throw e : Action σ α) :=
  fun _ => rfl

theorem Keeps.ofExcept (r : Except RuntimeError α) : Keeps view (Action.ofExcept r) :=
  fun s => congrArg view (after_ofExcept r s)

/-- A sequence keeps a view if each of its parts does. -/
theorem Keeps.bind {act : Action σ α} {f : α → Action σ γ} (first : Keeps view act)
    (rest : ∀ a, Keeps view (f a)) : Keeps view (act >>= f) := by
  intro s
  have kept := first s
  cases acted : act s with
  | ok a t =>
      simp only [after, acted] at kept
      rw [after_bind_ok acted, rest a t, kept]
  | error e t =>
      simp only [after, acted] at kept
      rw [after_bind_error acted, kept]

/-- Part of a kept view is kept too. -/
theorem Keeps.part {act : Action σ α} (kept : Keeps view act) (f : β → γ) :
    Keeps (fun s => f (view s)) act :=
  fun s => congrArg f (kept s)

/-! ### Two runs of one action -/

/-- One outcome twice: the same result, which is `good`, or the same error, which is `bad`, and
related states. -/
inductive Alike (rel : σ → σ → Prop) (good : α → Prop) (bad : RuntimeError → Prop) :
    EStateM.Result RuntimeError σ α → EStateM.Result RuntimeError σ α → Prop where
  | ok {a : α} {s t : σ} (held : good a) (left : rel s t) : Alike rel good bad (.ok a s) (.ok a t)
  | error {e : RuntimeError} {s t : σ} (held : bad e) (left : rel s t) :
      Alike rel good bad (.error e s) (.error e t)

/-- From related states the action comes to the same and leaves related states. -/
def Respects (rel : σ → σ → Prop) (good : α → Prop) (bad : RuntimeError → Prop)
    (act : Action σ α) : Prop :=
  ∀ s t, rel s t → Alike rel good bad (act s) (act t)

section Respects

variable {rel : σ → σ → Prop} {good : α → Prop} {bad : RuntimeError → Prop}

/-- Parts that are left alike make wholes that are left alike. -/
theorem Alike.restore {rel' : τ → τ → Prop} {r r' : EStateM.Result RuntimeError τ α}
    {whole whole' : τ → σ} (alike : Alike rel' good bad r r')
    (lift : ∀ s t, rel' s t → rel (whole s) (whole' t)) :
    Alike rel good bad (Action.restore whole r) (Action.restore whole' r') := by
  cases alike with
  | ok held left => exact .ok held (lift _ _ left)
  | error held left => exact .error held (lift _ _ left)

/-- One outcome is like itself if the state that it leaves is related to itself. -/
theorem alike_self {act : Action σ α} {s : σ} (left : rel (act.after s) (act.after s)) :
    Alike rel (fun _ => True) (fun _ => True) (act s) (act s) := by
  unfold after at left
  cases acted : act s with
  | ok a t =>
      rw [acted] at left
      exact .ok trivial left
  | error e t =>
      rw [acted] at left
      exact .error trivial left

/-- An action on one part, in two wholes. -/
theorem alike_part {whole whole' : τ → σ} (act : Action τ α) (x : τ)
    (left : ∀ y, rel (whole y) (whole' y)) :
    Alike rel (fun _ => True) (fun _ => True) (Action.restore whole (act x))
      (Action.restore whole' (act x)) := by
  cases act x with
  | ok a y => exact .ok trivial (left y)
  | error e y => exact .error trivial (left y)

theorem Respects.pure {a : α} (held : good a) : Respects rel good bad (Pure.pure a) :=
  fun _ _ related => .ok held related

theorem Respects.throw {e : RuntimeError} (held : bad e) :
    Respects rel good bad (MonadExcept.throw e : Action σ α) :=
  fun _ _ related => .error held related

/-- A bare result respects every relation if it is good, or a bad error. -/
theorem Respects.ofExcept {r : Except RuntimeError α} (answers : Answers good bad r) :
    Respects rel good bad (Action.ofExcept r) := by
  intro s t related
  cases r with
  | ok a => exact .ok answers related
  | error e => exact .error answers related

/-- A look at the state respects a relation if related states look the same. -/
theorem Respects.inspect {f : σ → Except RuntimeError α}
    (answers : ∀ s t, rel s t → f t = f s ∧ Answers good bad (f s)) :
    Respects rel good bad (Action.inspect f) := by
  intro s t related
  obtain ⟨same, answer⟩ := answers s t related
  unfold Action.inspect
  rw [same]
  cases read : f s with
  | ok a =>
      rw [read] at answer
      exact .ok answer related
  | error e =>
      rw [read] at answer
      exact .error answer related

/-- A sequence respects a relation if its parts do, the rest for good results only. -/
theorem Respects.bind {act : Action σ α} {f : α → Action σ γ} {good' : γ → Prop}
    (first : Respects rel good bad act) (rest : ∀ a, good a → Respects rel good' bad (f a)) :
    Respects rel good' bad (act >>= f) := by
  intro s t related
  have outcome := first s t related
  simp only [Bind.bind, EStateM.bind]
  generalize act s = r, act t = r' at outcome
  cases outcome with
  | ok held left => exact rest _ held _ _ left
  | error held left => exact .error held left

/-- What is known of the results may be forgotten. -/
theorem Respects.forget {act : Action σ α} (respects : Respects rel good bad act) :
    Respects rel good (fun _ => True) act := by
  intro s t related
  have outcome := respects s t related
  generalize act s = r, act t = r' at outcome
  cases outcome with
  | ok held left => exact .ok held left
  | error held left => exact .error trivial left

end Respects

end Action

end ScriptMachine
