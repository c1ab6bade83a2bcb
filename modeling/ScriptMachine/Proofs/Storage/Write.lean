import ScriptMachine.Proofs.Action
import ScriptMachine.Proofs.Storage.Item
import ScriptMachine.Storage.Store

/-!
What a store to a variable can change. A cell is what one store can reach: one global or local
variable, the arguments, or one member or built-in field of one live instance. A store that
succeeds changes at most one cell, and one that fails changes nothing.
-/

namespace ScriptMachine

/-- The part of a store that one write can reach. -/
inductive Cell where
  | globalVariable (name : String)
  | localVariable (name : String)
  /-- All arguments of the running call. -/
  | arguments
  /-- A user variable of an instance. -/
  | member (id : InstanceId) (name : String)
  | field (id : InstanceId) (field : Field)

/-- The tables agree on all names but one. -/
def Variables.SameBut (name : String) (before after : Variables) : Prop :=
  ∀ other, other ≠ name → after[other]? = before[other]?

/-- The instances agree in all but one built-in field, which is none of the two ids. -/
def Field.SameBut (before after : Instance) : Field → Prop
  | .real f => ∃ x, after = { before with reals := before.reals.set f x }
  | .spriteIndex => ∃ n, after = { before with spriteIndex := n }
  | .flag f => ∃ b, after = { before with flags := before.flags.set f b }
  | .id | .objectIndex => False

/-- The stores agree in all but one cell; a cell of an instance is one of a live instance. -/
def Cell.SameBut (before after : Store) : Cell → Prop
  | .globalVariable name =>
      after = { before with globals := after.globals } ∧
        Variables.SameBut name before.globals after.globals
  | .localVariable name =>
      after = { before with bindings := { before.bindings with locals := after.bindings.locals } } ∧
        Variables.SameBut name before.bindings.locals after.bindings.locals
  | .arguments =>
      after = { before with
        bindings := { before.bindings with arguments := after.bindings.arguments } }
  | .member id name =>
      ∃ i j, before.instances.get? id = some i ∧
        after = { before with instances := before.instances.put id j } ∧
          j = { i with members := j.members } ∧ Variables.SameBut name i.members j.members
  | .field id f =>
      ∃ i j, before.instances.get? id = some i ∧
        after = { before with instances := before.instances.put id j } ∧ f.SameBut i j

/-- No cell holds a bound instance. -/
theorem Cell.SameBut.bound {cell : Cell} {before after : Store} (same : cell.SameBut before after) :
    after.bindings.self? = before.bindings.self? ∧
      after.bindings.other? = before.bindings.other? := by
  cases cell with
  | globalVariable name =>
      exact ⟨congrArg (·.bindings.self?) same.1, congrArg (·.bindings.other?) same.1⟩
  | localVariable name =>
      exact ⟨congrArg (·.bindings.self?) same.1, congrArg (·.bindings.other?) same.1⟩
  | arguments => exact ⟨congrArg (·.bindings.self?) same, congrArg (·.bindings.other?) same⟩
  | member id name =>
      obtain ⟨i, j, -, rfl, -⟩ := same
      exact ⟨rfl, rfl⟩
  | field id f =>
      obtain ⟨i, j, -, rfl, -⟩ := same
      exact ⟨rfl, rfl⟩

/-! ### Taking an instance out and putting it back -/

namespace Registry

theorem put_erase (r : Registry) (id : InstanceId) (i : Instance) :
    (r.erase id).put id i = r.put id i := by
  simp only [put, erase, Table.insert_erase]

/-- Putting back an instance that did not change changes nothing. -/
theorem put_self {r : Registry} {id : InstanceId} {i : Instance} (live : r.get? id = some i) :
    r.put id i = r := by
  simp only [put, Table.insert_self live]

end Registry

/-! ### Look-ups that succeed -/

theorem Store.present_eq_ok_iff {name : String} {held : Option Value} {v : Value} :
    present name held = .ok v ↔ held = some v := by
  cases held <;> simp [present]

@[simp] theorem Store.present_insert_self (vars : Variables) (name : String) (v : Value) :
    present name (Std.ExtTreeMap.insert vars name v)[name]? = .ok v :=
  present_eq_ok_iff.mpr Std.ExtTreeMap.getElem?_insert_self

theorem Store.live_eq_ok_iff {s : Store} {id : InstanceId} {i : Instance} :
    s.live id = .ok i ↔ s.instances.get? id = some i := by
  unfold live
  cases s.instances.get? id <;> simp

/-! ### Stores to a table of variables -/

/-- A success changes at most the variable `name`, and a failure changes nothing. -/
structure Variables.Confined (name : String) (act : Action Variables Unit) : Prop where
  ok {vars after : Variables} : act vars = .ok () after → SameBut name vars after
  error {vars after : Variables} {e : RuntimeError} : act vars = .error e after → after = vars

theorem Variables.sameBut_insert (vars : Variables) (name : String) (v : Value) :
    Variables.SameBut name vars (Std.ExtTreeMap.insert vars name v) := by
  intro other different
  simp [Std.ExtTreeMap.getElem?_insert, Ne.symm different]

theorem Variables.confined_insert (name : String) (v : Value) :
    Variables.Confined name (modify fun vars => vars.insert name v) where
  ok := by
    intro vars after stored
    cases stored
    exact vars.sameBut_insert name v
  error := by
    intro vars after e failed
    cases failed

/-- Where there is room for it, a store of an item to a table of variables changes one name. -/
theorem Variables.confined_storeCell (limit : Nat) (name : String) {index : Nat} (v : Value)
    (allocatable : isAllocatable (index + 1)) :
    Variables.Confined name (storeCell limit name index v) where
  ok := by
    intro vars after stored
    rw [storeCell_eq] at stored
    split at stored
    · cases stored
    · obtain ⟨items, -, rfl⟩ := Action.restore_eq_ok stored
      exact vars.sameBut_insert name _
  error := by
    intro vars after e failed
    rw [storeCell_eq] at failed
    split at failed
    · cases failed
      rfl
    · rename_i below
      have outcome := storeItem_outcome limit index v (itemsOf vars[name]?)
      obtain ⟨items, failed, -⟩ := Action.restore_eq_error failed
      rw [failed] at outcome
      cases outcome with
      | past past => exact absurd past below
      | full _ _ full => cases full.symm.trans allocatable

/-! ### Stores to an instance -/

/-- A success changes at most one member or one built-in field, and a failure changes nothing. -/
structure Instance.Confined (act : Action Instance Unit) : Prop where
  ok {i after : Instance} : act i = .ok () after →
    (∃ name, after = { i with members := after.members } ∧
        Variables.SameBut name i.members after.members) ∨
      ∃ f : Field, f.SameBut i after
  error {i after : Instance} {e : RuntimeError} : act i = .error e after → after = i

/-- What is confined to one name of a table is confined to one member of an instance. -/
theorem Instance.confined_onMembers {name : String} {act : Action Variables Unit}
    (confined : Variables.Confined name act) : Instance.Confined (Instance.onMembers act) where
  ok := by
    intro i after stored
    obtain ⟨members, acted, rfl⟩ := Action.restore_eq_ok stored
    exact .inl ⟨name, rfl, confined.ok acted⟩
  error := by
    intro i after e failed
    obtain ⟨members, acted, rfl⟩ := Action.restore_eq_error failed
    rw [confined.error acted]

theorem Field.sameBut_of_write {f : Field} {i after : Instance} {v : Value}
    (written : f.write i v = .ok after) : f.SameBut i after := by
  cases f with
  | real r =>
      obtain ⟨x, -, changed⟩ := exists_of_bind_eq_ok written
      cases changed
      exact ⟨x, rfl⟩
  | spriteIndex =>
      obtain ⟨n, -, changed⟩ := exists_of_bind_eq_ok written
      cases changed
      exact ⟨n, rfl⟩
  | flag r =>
      obtain ⟨b, -, changed⟩ := exists_of_bind_eq_ok written
      cases changed
      exact ⟨b, rfl⟩
  | id => cases written
  | objectIndex => cases written

/-- No built-in field that can be written holds members or one of the two ids. -/
theorem Field.SameBut.rest {f : Field} {i j : Instance} (same : f.SameBut i j) :
    j.members = i.members ∧ j.id = i.id ∧ j.assetId = i.assetId := by
  cases f with
  | real r =>
      obtain ⟨x, rfl⟩ := same
      exact ⟨rfl, rfl, rfl⟩
  | spriteIndex =>
      obtain ⟨n, rfl⟩ := same
      exact ⟨rfl, rfl, rfl⟩
  | flag r =>
      obtain ⟨b, rfl⟩ := same
      exact ⟨rfl, rfl, rfl⟩
  | id => exact same.elim
  | objectIndex => exact same.elim

theorem Field.members_of_write {f : Field} {i j : Instance} {v : Value}
    (written : f.write i v = .ok j) : j.members = i.members :=
  (sameBut_of_write written).rest.1

theorem Instance.confined_update (f : Field) (v : Value) :
    Instance.Confined (Action.update fun i => f.write i v) where
  ok := by
    intro i after stored
    unfold Action.update at stored
    cases written : f.write i v with
    | ok j =>
        simp only [written] at stored
        cases stored
        exact .inr ⟨f, Field.sameBut_of_write written⟩
    | error e =>
        simp only [written] at stored
        cases stored
  error := by
    intro i after e failed
    unfold Action.update at failed
    cases written : f.write i v with
    | ok j =>
        simp only [written] at failed
        cases failed
    | error e =>
        simp only [written] at failed
        cases failed
        rfl

/-- A store under a name of an instance is confined to the field or the member of that name. -/
theorem Instance.confined_writeMember (name : String) (v : Value) :
    Instance.Confined (Store.writeMember name v) := by
  unfold Store.writeMember
  split
  · exact confined_update _ v
  · exact confined_onMembers (Variables.confined_insert name v)

/-! ### Stores to a store -/

namespace Store

/-- A success changes at most one cell, and a failure changes nothing. -/
structure Confined (act : Action Store Unit) : Prop where
  ok {s after : Store} : act s = .ok () after → ∃ cell : Cell, cell.SameBut s after
  error {s after : Store} {e : RuntimeError} : act s = .error e after → after = s

/-- A store that is refused changes nothing. -/
theorem confined_throw (e : RuntimeError) : Confined (throw e) where
  ok := by
    intro s after stored
    cases stored
  error := by
    intro s after e failed
    cases failed
    rfl

theorem confined_onGlobals {name : String} {act : Action Variables Unit}
    (confined : Variables.Confined name act) : Confined (onGlobals act) where
  ok := by
    intro s after stored
    obtain ⟨globals, acted, rfl⟩ := Action.restore_eq_ok stored
    exact ⟨.globalVariable name, rfl, confined.ok acted⟩
  error := by
    intro s after e failed
    obtain ⟨globals, acted, rfl⟩ := Action.restore_eq_error failed
    rw [confined.error acted]

theorem confined_onLocals {name : String} {act : Action Variables Unit}
    (confined : Variables.Confined name act) : Confined (onLocals act) where
  ok := by
    intro s after stored
    obtain ⟨locals, acted, rfl⟩ := Action.restore_eq_ok stored
    exact ⟨.localVariable name, rfl, confined.ok acted⟩
  error := by
    intro s after e failed
    obtain ⟨locals, acted, rfl⟩ := Action.restore_eq_error failed
    rw [confined.error acted]

/-- A store to the list of arguments is confined to it. -/
theorem confined_onArguments (limit index : Nat) (v : Value) :
    Confined (onArguments (storeItem limit index v)) where
  ok := by
    intro s after stored
    obtain ⟨items, -, rfl⟩ := Action.restore_eq_ok stored
    exact ⟨.arguments, rfl⟩
  error := by
    intro s after e failed
    obtain ⟨items, acted, rfl⟩ := Action.restore_eq_error failed
    rw [storeItem_error acted]

/-- What is done to a live instance is done to it in its place. -/
theorem onInstance_of_live {α : Type} {s : Store} {id : InstanceId} {i : Instance}
    (live : s.instances.get? id = some i) (act : Action Instance α) :
    onInstance id act s
      = Action.restore (fun j => { s with instances := s.instances.put id j }) (act i) := by
  simp only [onInstance, live, Registry.put_erase]

/-- Nothing is done to an instance that is not live. -/
theorem onInstance_of_dead {α : Type} {s : Store} {id : InstanceId}
    (dead : s.instances.get? id = none) (act : Action Instance α) :
    onInstance id act s = .error (.unresolvedInstance id) s := by
  simp only [onInstance, dead]

/-- An instance that is put back as it was is as if it had never been taken out. -/
theorem confined_onInstance {act : Action Instance Unit} (confined : Instance.Confined act)
    (id : InstanceId) : Confined (onInstance id act) where
  ok := by
    intro s after stored
    cases live : s.instances.get? id with
    | none =>
        rw [onInstance_of_dead live] at stored
        cases stored
    | some i =>
        rw [onInstance_of_live live] at stored
        obtain ⟨j, acted, rfl⟩ := Action.restore_eq_ok stored
        rcases confined.ok acted with ⟨name, members, same⟩ | ⟨f, same⟩
        · exact ⟨.member id name, i, j, live, rfl, members, same⟩
        · exact ⟨.field id f, i, j, live, rfl, same⟩
  error := by
    intro s after e failed
    cases live : s.instances.get? id with
    | none =>
        rw [onInstance_of_dead live] at failed
        cases failed
        rfl
    | some i =>
        rw [onInstance_of_live live] at failed
        obtain ⟨j, acted, rfl⟩ := Action.restore_eq_error failed
        rw [confined.error acted, Registry.put_self live]

/-- A plain store is confined to one cell. -/
theorem confined_write (c : Config) (p : Place) (name : String) (v : Value) :
    Confined (write c p name v) := by
  cases p with
  | globals => exact confined_onGlobals (Variables.confined_insert name v)
  | locals => exact confined_onLocals (Variables.confined_insert name v)
  | arguments =>
      simp only [write]
      split
      · exact confined_throw _
      · exact confined_onArguments _ _ v
  | object id => exact confined_onInstance (Instance.confined_writeMember name v) id

/-- An indexed store that finds room is confined to one cell. -/
theorem confined_writeItem (c : Config) (p : Place) (name : String) {index : Int64} (v : Value)
    (allocatable : isAllocatable (index.toInt.toNat + 1)) :
    Confined (writeItem c p name index v) := by
  have cell := Variables.confined_storeCell c.maxArrayLength name v allocatable
  unfold writeItem
  split
  · exact confined_throw _
  · cases p with
    | globals => exact confined_onGlobals cell
    | locals => exact confined_onLocals cell
    | arguments =>
        simp only
        split
        · exact confined_onArguments _ _ v
        · exact confined_throw _
    | object id =>
        simp only
        split
        · exact confined_throw _
        · exact confined_onInstance (Instance.confined_onMembers cell) id

end Store

end ScriptMachine
