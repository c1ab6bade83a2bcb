import ScriptMachine.Proofs.Exec.Keeps
import ScriptMachine.Proofs.Storage.Write

/-!
What one instruction changes. Only a `pop` that succeeds changes the store, and then at most one
cell of it; no instruction changes the bound instances or the limit of the operand stack.
-/

namespace ScriptMachine.Exec

/-- What an attempt to store may come to, from a store and an operand stack of a limit: it goes on
with at most one cell changed, or it refuses or fails with nothing changed. -/
inductive StoreOutcome (s : Store) (limit : Nat) : EStateM.Result RuntimeError Env Flow → Prop where
  | next {after : Env} (cell : Cell) (changed : cell.SameBut s after.store)
      (kept : after.stack.limit = limit) : StoreOutcome s limit (.ok .next after)
  | refuse {after : Env} (cause : RuntimeError) (kept : stored after = (s, limit)) :
      StoreOutcome s limit (.ok (.refuse cause) after)
  | error {after : Env} (e : RuntimeError) (kept : stored after = (s, limit)) :
      StoreOutcome s limit (.error e after)

/-- Every run of the action is an attempt to store. -/
def Stores (act : Exec Flow) : Prop :=
  ∀ env, StoreOutcome env.store env.stack.limit (act env)

variable {α : Type} {c : Config} {natives : Natives} {i : Instruction}

theorem stores_refusal (scope : Scope) (access : Access) : Stores (pure (refusal scope access)) :=
  fun _ => .refuse _ rfl

theorem stores_throw (e : RuntimeError) : Stores (throw e) :=
  fun _ => .error e rfl

/-- A write that is confined to one cell is an attempt to store. -/
theorem stores_onStore {act : Action Store Unit} (confined : Store.Confined act) :
    Stores (do onStore act; return .next) := by
  rintro ⟨stack, store, messages⟩
  simp only [bind, EStateM.bind, onStore]
  cases acted : act store with
  | ok done after =>
      obtain ⟨cell, changed⟩ := confined.ok acted
      exact .next cell changed rfl
  | error e after =>
      rw [confined.error acted]
      exact .error e rfl

/-- Taking operands off and finding a place comes before a store and changes nothing. -/
theorem Stores.bind {act : Exec α} {f : α → Exec Flow} (first : Action.Keeps stored act)
    (rest : ∀ a, Stores (f a)) : Stores (act >>= f) := by
  intro env
  have kept := first env
  simp only [Bind.bind, EStateM.bind]
  cases acted : act env with
  | ok a t =>
      simp only [Action.after, acted, stored, Prod.mk.injEq] at kept
      rw [← kept.1, ← kept.2]
      exact rest a t
  | error e t =>
      simp only [Action.after, acted] at kept
      exact .error e kept

/-- An attempt to store stays one where it refuses in place of failing. -/
theorem Stores.soften {act : Exec Flow} (stores : Stores act) : Stores (soften act) := by
  intro env
  have outcome := stores env
  unfold Exec.soften
  cases acted : act env with
  | ok flow t =>
      rw [acted] at outcome
      exact outcome
  | error e t =>
      rw [acted] at outcome
      cases outcome with
      | error _ kept =>
          cases e with
          | unsupportedAddressing scope access => exact .refuse _ kept
          | _ => exact .error _ kept

/-- The operands of an item store come off the operand stack alone. -/
theorem keeps_popItemOperands : Action.Keeps stored (popItemOperands i) := by
  unfold popItemOperands
  split
  · exact (keeps_pop _).bind fun _ => keeps_popId.bind fun _ => keeps_popId.bind fun _ => .pure _
  · exact keeps_popId.bind fun _ => keeps_popId.bind fun _ => (keeps_pop _).bind fun _ => .pure _

/-- An index from the operand stack has 32 bits, and an array up to there can always be allocated. -/
theorem isAllocatable_index (index : Int32) : isAllocatable (index.toInt64.toInt.toNat + 1) := by
  have small := index.toInt_lt
  have pow : Numeric.pow2 63 = 2 ^ 63 := by decide
  rw [Int32.toInt_toInt64]
  simp only [isAllocatable, pow, decide_eq_true_eq]
  omega

/-- A store changes one cell at most, and only where it goes on. -/
theorem stores_storeVariable : Stores (storeVariable c i) := by
  refine Stores.bind keeps_variableOperand fun r => ?_
  split
  · exact stores_refusal _ _
  · exact Stores.bind (keeps_pop _) fun value => Stores.bind (keeps_fromStore _) fun place =>
      stores_onStore (Store.confined_write c place r.name value)
  · exact Stores.bind keeps_popItemOperands fun (value, index, object) =>
      Stores.bind (keeps_fromStore _) fun place =>
        stores_onStore (Store.confined_writeItem c place r.name value (isAllocatable_index index))
  · exact Stores.bind keeps_popStacktopId fun id => Stores.bind (keeps_pop _) fun value =>
      Stores.bind (keeps_fromStore _) fun place =>
        stores_onStore (Store.confined_write c place r.name value)
  · exact stores_refusal _ _

theorem stores_popVariable : Stores (popVariable c i) := by
  unfold popVariable
  split
  · exact stores_throw _
  · exact stores_storeVariable.soften

/-- Every instruction that stores is an attempt to store. -/
theorem stores_of_eq_pop (pop : i.opcode = .pop) : Stores (exec c natives i) := by
  unfold exec
  rw [pop]
  exact stores_popVariable

/-! ### What every instruction keeps -/

/-- The view of a store and a limit does not show a change of one cell. -/
def Overlooks {β : Type} (view : Store × Nat → β) : Prop :=
  ∀ (cell : Cell) (s t : Store) (limit : Nat), cell.SameBut s t → view (t, limit) = view (s, limit)

/-- A view that overlooks every change of one cell is kept by an attempt to store. -/
theorem Stores.keeps {β : Type} {view : Store × Nat → β} {act : Exec Flow} (stores : Stores act)
    (overlooks : Overlooks view) : Action.Keeps (fun env => view (stored env)) act := by
  intro env
  have outcome := stores env
  unfold Action.after
  generalize act env = result at outcome
  cases outcome with
  | next cell changed kept =>
      simp only [stored, kept]
      exact overlooks cell _ _ _ changed
  | refuse cause kept => exact congrArg view kept
  | error e kept => exact congrArg view kept

/-- What does not show in a change of one cell, no instruction changes. -/
theorem exec_keeps {β : Type} {view : Store × Nat → β} (overlooks : Overlooks view) :
    Action.Keeps (fun env => view (stored env)) (exec c natives i) := by
  by_cases pop : i.opcode = .pop
  · exact (stores_of_eq_pop pop).keeps overlooks
  · exact (keeps_store_of_ne_pop pop).part view

/-- The limit of the operand stack and the two bound instances. -/
def fixed (env : Env) : Nat × Option InstanceId × Option InstanceId :=
  (env.stack.limit, env.store.bindings.self?, env.store.bindings.other?)

/-- No instruction changes the bound instances or the limit of the operand stack. -/
theorem exec_keeps_fixed : Action.Keeps fixed (exec c natives i) := by
  let view (kept : Store × Nat) := (kept.2, kept.1.bindings.self?, kept.1.bindings.other?)
  have overlooks : Overlooks view := by
    intro cell s t limit changed
    simp only [view, changed.bound]
  exact exec_keeps overlooks

/-! ### One instruction -/

/-- An instruction that fails, refuses or is no `pop` leaves the store as it was, and a `pop` that
goes on changes at most one cell of it; a `pop` does nothing else than these. -/
theorem exec_changes_one_cell (c : Config) (natives : Natives) (i : Instruction) (env : Env) :
    (∀ e after, exec c natives i env = .error e after → after.store = env.store) ∧
    (∀ cause after, exec c natives i env = .ok (.refuse cause) after → after.store = env.store) ∧
    (i.opcode ≠ .pop → ((exec c natives i).after env).store = env.store) ∧
    (i.opcode = .pop → ∀ flow after, exec c natives i env = .ok flow after →
      (flow = .next ∧ ∃ cell : Cell, cell.SameBut env.store after.store) ∨
        ∃ cause, flow = .refuse cause) := by
  by_cases pop : i.opcode = .pop
  · have outcome : StoreOutcome env.store env.stack.limit (exec c natives i env) :=
      stores_of_eq_pop pop env
    refine ⟨?_, ?_, fun other => absurd pop other, fun _ => ?_⟩
    · intro e after failed
      rw [failed] at outcome
      cases outcome with
      | error _ kept => exact congrArg Prod.fst kept
    · intro cause after refused
      rw [refused] at outcome
      cases outcome with
      | refuse _ kept => exact congrArg Prod.fst kept
    · intro flow after done
      rw [done] at outcome
      cases outcome with
      | next cell changed _ => exact .inl ⟨rfl, cell, changed⟩
      | refuse cause _ => exact .inr ⟨cause, rfl⟩
  · have kept : ((exec c natives i).after env).store = env.store :=
      congrArg Prod.fst (keeps_store_of_ne_pop pop env)
    refine ⟨?_, ?_, fun _ => kept, fun eq => absurd eq pop⟩
    · intro e after failed
      simpa only [Action.after, failed] using kept
    · intro cause after refused
      simpa only [Action.after, refused] using kept

end ScriptMachine.Exec
