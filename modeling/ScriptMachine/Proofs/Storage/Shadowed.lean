import ScriptMachine.Proofs.Exec.Discipline
import ScriptMachine.Proofs.Instance.Field
import ScriptMachine.Proofs.Storage.Resolution

/-!
Shadowed members. A member of an instance with the name of a built-in field cannot be reached: the
name always means the field. So a store does not notice such members and leaves them as they are.
-/

namespace ScriptMachine

/-- The members that built-in fields shadow are the same. -/
def Variables.KeepsShadowed (before after : Variables) : Prop :=
  ∀ name, Field.isBuiltin name → after[name]? = before[name]?

/-- The instances agree in everything but shadowed members. -/
structure Instance.SameButShadowed (i j : Instance) : Prop where
  rest : j = { i with members := j.members }
  members : ∀ name, ¬ Field.isBuiltin name → j.members[name]? = i.members[name]?

/-- The registries agree in everything but shadowed members. -/
structure Registry.SameButShadowed (r r' : Registry) : Prop where
  nextId : r'.nextId = r.nextId
  instances : ∀ id, Option.Rel Instance.SameButShadowed (r.get? id) (r'.get? id)

/-- A member of a live instance. -/
def Registry.member? (r : Registry) (id : InstanceId) (name : String) : Option Value :=
  (r.get? id).bind fun i => i.members[name]?

/-- Every shadowed member is as it was at the start, and there are no others. -/
def Registry.KeepsShadowed (start r : Registry) : Prop :=
  ∀ id name, Field.isBuiltin name → r.member? id name = start.member? id name

/-- Two runs whose instances agree but for shadowed members, which are as at the start. -/
def Discipline.shadowing (start start' : Registry) : Discipline where
  value _ := True
  bindings _ := True
  globals _ := True
  instances r r' := r.SameButShadowed r' ∧ start.KeepsShadowed r ∧ start'.KeepsShadowed r'

/-! ### Finding a place -/

namespace Registry.SameButShadowed

variable {r r' : Registry} (same : r.SameButShadowed r')

include same

/-- An id finds nothing in both runs, or two instances that agree but for shadowed members. -/
theorem get?_cases (id : InstanceId) :
    (r.get? id = none ∧ r'.get? id = none) ∨
      ∃ i j, r.get? id = some i ∧ r'.get? id = some j ∧ i.SameButShadowed j := by
  have related := same.instances id
  generalize r.get? id = found, r'.get? id = found' at related
  cases related with
  | none => exact .inl ⟨rfl, rfl⟩
  | some related => exact .inr ⟨_, _, rfl, rfl, related⟩

/-- Shadowed members have no part in the identity of an instance. -/
theorem identity?_eq : r'.identity? = r.identity? := by
  funext id
  unfold identity?
  rcases same.get?_cases id with ⟨none, none'⟩ | ⟨i, j, found, found', related⟩
  · rw [none, none']
  · rw [found, found', Option.map_some, Option.map_some, related.rest]

end Registry.SameButShadowed

variable {start start' : Registry} {s t : Store} {c : Config}

section Places

variable (admitted : (Discipline.shadowing start start').AdmitsStores s t)

include admitted

/-- An id stands for the same instance in both runs. -/
theorem shadowing_resolve (id : Int32) : t.resolve c id = s.resolve c id :=
  Store.resolve_of_identity? admitted.bindings_eq admitted.instances.1.identity?_eq c id

theorem shadowing_placeOfScope (scope : Scope) :
    t.placeOfScope c scope = s.placeOfScope c scope := by
  cases scope <;> simp only [Store.placeOfScope, shadowing_resolve admitted]

theorem shadowing_placeOfId (id : Int32) : t.placeOfId c id = s.placeOfId c id := by
  simp only [Store.placeOfId, shadowing_resolve admitted]

/-! ### Reads -/

/-- A variable reads alike in both runs: the name of a built-in field means the field. -/
theorem shadowing_read (place : Place) (name : String) :
    t.read place name = s.read place name := by
  obtain ⟨bindings_eq, globals_eq, -, -, same, -⟩ := admitted
  cases place with
  | globals => simp only [Store.read, globals_eq]
  | locals => simp only [Store.read, bindings_eq]
  | arguments => simp only [Store.read, bindings_eq]
  | object id =>
      simp only [Store.read, Store.live]
      rcases same.get?_cases id with ⟨none, none'⟩ | ⟨i, j, found, found', related⟩
      · rw [none, none']
      · rw [found, found']
        simp only [bind, Except.bind]
        split
        · rw [related.rest, Field.read_withMembers]
        · rename_i none
          rw [related.members name (not_isBuiltin_of_ofName? none)]

theorem shadowing_readItem (place : Place) (name : String) (index : Int64) :
    t.readItem place name index = s.readItem place name index := by
  obtain ⟨bindings_eq, globals_eq, -, -, same, -⟩ := admitted
  cases place with
  | globals => simp only [Store.readItem, globals_eq]
  | locals => simp only [Store.readItem, bindings_eq]
  | arguments => simp only [Store.readItem, bindings_eq]
  | object id =>
      simp only [Store.readItem, Store.live]
      split
      · rfl
      · rename_i reached
        rcases same.get?_cases id with ⟨none, none'⟩ | ⟨i, j, found, found', related⟩
        · rw [none, none']
        · rw [found, found']
          simp only [bind, Except.bind, related.members name reached]

end Places

/-! ### Writes to members -/

/-- Members in two runs, from `x` and `x'` on. -/
structure Variables.Paired (x x' vars vars' : Variables) : Prop where
  same : ∀ name, ¬ Field.isBuiltin name → vars'[name]? = vars[name]?
  kept : x.KeepsShadowed vars
  kept' : x'.KeepsShadowed vars'

theorem Variables.KeepsShadowed.insert {x vars : Variables} (kept : x.KeepsShadowed vars)
    {name : String} (reached : ¬ Field.isBuiltin name) (v : Value) :
    x.KeepsShadowed (Std.ExtTreeMap.insert vars name v) := by
  intro other shadowed
  have different : name ≠ other := fun eq => reached (eq ▸ shadowed)
  simpa [Std.ExtTreeMap.getElem?_insert, different] using kept other shadowed

theorem Variables.Paired.insert {x x' vars vars' : Variables} (paired : Variables.Paired x x' vars vars')
    {name : String} (reached : ¬ Field.isBuiltin name) (v : Value) :
    Variables.Paired x x' (Std.ExtTreeMap.insert vars name v) (Std.ExtTreeMap.insert vars' name v) where
  same := by
    intro other plain
    rw [Std.ExtTreeMap.getElem?_insert, Std.ExtTreeMap.getElem?_insert, paired.same other plain]
  kept := paired.kept.insert reached v
  kept' := paired.kept'.insert reached v

/-- A store of an item under a name that is reached comes to the same in both runs. -/
theorem Variables.Paired.storeCell {x x' vars vars' : Variables}
    (paired : Variables.Paired x x' vars vars') {name : String} (reached : ¬ Field.isBuiltin name)
    (limit index : Nat) (v : Value) :
    Action.Alike (Variables.Paired x x') (fun _ => True) (fun _ => True)
      (storeCell limit name index v vars) (storeCell limit name index v vars') := by
  rw [storeCell_eq, storeCell_eq, paired.same name reached]
  split
  · exact .error trivial paired
  · exact Action.alike_part (storeItem limit index v) _ fun items => paired.insert reached _

/-! ### Writes to instances -/

/-- An instance in two runs, from `i` and `j` on. -/
structure Instance.Paired (i j i' j' : Instance) : Prop where
  rest : j' = { i' with members := j'.members }
  members : Variables.Paired i.members j.members i'.members j'.members

theorem Instance.SameButShadowed.paired {i j : Instance} (same : i.SameButShadowed j) :
    Instance.Paired i j i j :=
  ⟨same.rest, same.members, fun _ _ => rfl, fun _ _ => rfl⟩

/-- Paired instances still agree but for shadowed members. -/
theorem Instance.Paired.same {i j i' j' : Instance} (paired : Instance.Paired i j i' j') :
    i'.SameButShadowed j' :=
  ⟨paired.rest, paired.members.same⟩

/-- What the two runs do to an instance comes to the same, and spares shadowed members. -/
def Instance.PairedBy (act : Action Instance Unit) : Prop :=
  ∀ i j, i.SameButShadowed j →
    Action.Alike (Instance.Paired i j) (fun _ => True) (fun _ => True) (act i) (act j)

/-- What two runs do alike to all tables of members, they do alike to instances. -/
theorem Instance.pairedBy_onMembers {act : Action Variables Unit}
    (alike : ∀ x x', Variables.Paired x x' x x' →
      Action.Alike (Variables.Paired x x') (fun _ => True) (fun _ => True) (act x) (act x')) :
    Instance.PairedBy (Instance.onMembers act) := by
  intro i j same
  have members := same.paired.members
  rw [same.rest] at members ⊢
  refine (alike _ _ members).restore ?_
  intro vars vars' paired
  exact ⟨rfl, paired⟩

/-- A store to a field does the same whatever the members are, and leaves them. -/
theorem Field.write_withMembers (f : Field) (i : Instance) (members : Variables) (v : Value) :
    f.write { i with members := members } v
      = (f.write i v).map fun j => { j with members := members } := by
  cases f with
  | real r => cases extracted : v.extract Float <;> simp [write, extracted] <;> rfl
  | spriteIndex => cases extracted : v.extract Int32 <;> simp [write, extracted] <;> rfl
  | flag r => cases extracted : v.extract Bool <;> simp [write, extracted] <;> rfl
  | id => rfl
  | objectIndex => rfl

theorem Instance.pairedBy_update (f : Field) (v : Value) :
    Instance.PairedBy (Action.update fun i => f.write i v) := by
  intro i j same
  have written' := f.write_withMembers i j.members v
  rw [← same.rest] at written'
  unfold Action.update
  cases written : f.write i v with
  | error e =>
      rw [written] at written'
      simp only [written, written', Except.map]
      exact .error trivial same.paired
  | ok i' =>
      rw [written] at written'
      simp only [written, written', Except.map]
      refine .ok trivial ⟨rfl, ?_⟩
      rw [Field.members_of_write written]
      exact same.paired.members

/-- A store under any name comes to the same in both runs: it sets the field or a member that is
reached. -/
theorem Instance.pairedBy_writeMember (name : String) (v : Value) :
    Instance.PairedBy (Store.writeMember name v) := by
  unfold Store.writeMember
  split
  · exact pairedBy_update _ v
  · rename_i none
    exact pairedBy_onMembers fun x x' paired =>
      .ok trivial (paired.insert (not_isBuiltin_of_ofName? none) v)

/-! ### Writes to stores -/

/-- Putting an instance back changes members of that instance only. -/
theorem Registry.member?_put (r : Registry) (id other : InstanceId) (i : Instance) (name : String) :
    (r.put id i).member? other name = if id = other then i.members[name]? else r.member? other name := by
  unfold member?
  rw [get?_put]
  split <;> rfl

/-- An instance that is put back with its shadowed members leaves all of them as at the start. -/
theorem Registry.KeepsShadowed.put {r : Registry} (kept : start.KeepsShadowed r) {id : InstanceId}
    {i i' : Instance} (live : r.get? id = some i) (members : i.members.KeepsShadowed i'.members) :
    start.KeepsShadowed (r.put id i') := by
  intro other name shadowed
  rw [member?_put]
  split
  · rename_i eq
    subst eq
    rw [members name shadowed, ← kept id name shadowed, member?, live]
    rfl
  · exact kept other name shadowed

/-- Two instances that agree but for shadowed members may be put into both registries. -/
theorem Registry.SameButShadowed.put {r r' : Registry} (same : r.SameButShadowed r')
    (id : InstanceId) {i j : Instance} (related : i.SameButShadowed j) :
    (r.put id i).SameButShadowed (r'.put id j) where
  nextId := same.nextId
  instances := by
    intro other
    rw [get?_put, get?_put]
    split
    · exact .some related
    · exact same.instances other

/-- What two runs do alike to an instance, they do alike to a store. -/
theorem shadowing_onInstance (admitted : (Discipline.shadowing start start').AdmitsStores s t)
    {act : Action Instance Unit} (paired : Instance.PairedBy act) (id : InstanceId) :
    (Discipline.shadowing start start').AdmitsWrite (Store.onInstance id act) s t := by
  obtain ⟨bindings_eq, globals_eq, -, -, same, kept, kept'⟩ := admitted
  unfold Discipline.AdmitsWrite Store.onInstance
  rcases same.get?_cases id with ⟨none, none'⟩ | ⟨i, j, found, found', related⟩
  · simp only [none, none']
    exact .error trivial ⟨bindings_eq, globals_eq, trivial, trivial, same, kept, kept'⟩
  · simp only [found, found', Registry.put_erase]
    refine (paired i j related).restore ?_
    intro i' j' paired
    exact ⟨bindings_eq, globals_eq, trivial, trivial, same.put id paired.same,
      kept.put found paired.members.kept, kept'.put found' paired.members.kept'⟩

theorem shadowing_onGlobals (admitted : (Discipline.shadowing start start').AdmitsStores s t)
    (act : Action Variables Unit) :
    (Discipline.shadowing start start').AdmitsWrite (Store.onGlobals act) s t := by
  obtain ⟨_, _, instances⟩ := s
  obtain ⟨bindings, globals, instances'⟩ := t
  obtain ⟨rfl, rfl, -, -, related⟩ := admitted
  exact Action.alike_part act globals fun _ => ⟨rfl, rfl, trivial, trivial, related⟩

theorem shadowing_onLocals (admitted : (Discipline.shadowing start start').AdmitsStores s t)
    (act : Action Variables Unit) :
    (Discipline.shadowing start start').AdmitsWrite (Store.onLocals act) s t := by
  obtain ⟨_, _, instances⟩ := s
  obtain ⟨bindings, globals, instances'⟩ := t
  obtain ⟨rfl, rfl, -, -, related⟩ := admitted
  exact Action.alike_part act bindings.locals fun _ => ⟨rfl, rfl, trivial, trivial, related⟩

theorem shadowing_onArguments (admitted : (Discipline.shadowing start start').AdmitsStores s t)
    (act : Action (Array Value) Unit) :
    (Discipline.shadowing start start').AdmitsWrite (Store.onArguments act) s t := by
  obtain ⟨_, _, instances⟩ := s
  obtain ⟨bindings, globals, instances'⟩ := t
  obtain ⟨rfl, rfl, -, -, related⟩ := admitted
  exact Action.alike_part act bindings.arguments fun _ => ⟨rfl, rfl, trivial, trivial, related⟩

/-- A plain store comes to the same in both runs and leaves the shadowed members. -/
theorem shadowing_write (admitted : (Discipline.shadowing start start').AdmitsStores s t)
    (place : Place) (name : String) (v : Value) :
    (Discipline.shadowing start start').AdmitsWrite (Store.write c place name v) s t := by
  unfold Store.write
  cases place with
  | globals => exact shadowing_onGlobals admitted _
  | locals => exact shadowing_onLocals admitted _
  | arguments =>
      simp only
      split
      · exact .error trivial admitted
      · exact shadowing_onArguments admitted _
  | object id => exact shadowing_onInstance admitted (Instance.pairedBy_writeMember name v) id

/-- An indexed store comes to the same in both runs and leaves the shadowed members. -/
theorem shadowing_writeItem (admitted : (Discipline.shadowing start start').AdmitsStores s t)
    (place : Place) (name : String) (index : Int64) (v : Value) :
    (Discipline.shadowing start start').AdmitsWrite (Store.writeItem c place name index v) s t := by
  unfold Store.writeItem
  split
  · exact .error trivial admitted
  · cases place with
    | globals => exact shadowing_onGlobals admitted _
    | locals => exact shadowing_onLocals admitted _
    | arguments =>
        simp only
        split
        · exact shadowing_onArguments admitted _
        · exact .error trivial admitted
    | object id =>
        simp only
        split
        · exact .error trivial admitted
        · rename_i reached
          have paired : Instance.PairedBy (Instance.onMembers
              (storeCell c.maxArrayLength name index.toInt.toNat v)) :=
            Instance.pairedBy_onMembers fun _ _ paired => paired.storeCell reached _ _ v
          exact shadowing_onInstance admitted paired id

/-- All accesses to storage keep the two runs alike. -/
theorem Discipline.shadowing_sound (start start' : Registry) (c : Config) :
    (Discipline.shadowing start start').Sound c where
  scalar _ := trivial
  placeOfScope scope admitted := shadowing_placeOfScope admitted scope
  placeOfId id admitted := shadowing_placeOfId admitted id
  read place name admitted := ⟨shadowing_read admitted place name, answers_of_ok fun _ _ => trivial⟩
  readItem place name index admitted :=
    ⟨shadowing_readItem admitted place name index, answers_of_ok fun _ _ => trivial⟩
  write place name admitted _ := shadowing_write admitted place name _
  writeItem place name index admitted _ := shadowing_writeItem admitted place name index _
  start _ _ := trivial

end ScriptMachine
