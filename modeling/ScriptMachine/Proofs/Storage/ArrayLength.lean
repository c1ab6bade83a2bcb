import ScriptMachine.Proofs.Exec.Discipline
import ScriptMachine.Proofs.Instance.Field
import ScriptMachine.Proofs.Storage.Item

/-!
Lengths of arrays. An array may hold arrays, so a bound on lengths is meant for arrays at any depth.
Variables get longer arrays only by indexed stores, which observe the limit that is set, and by
taking the arguments of a call as an array.
-/

namespace ScriptMachine

namespace Value

/-- An array that a value is, or holds at some depth. -/
inductive Nests : Value → Array Value → Prop where
  | self (items : Array Value) : Nests (.array items) items
  | item {items inner : Array Value} {v : Value} (mem : v ∈ items) (nested : v.Nests inner) :
      Nests (.array items) inner

/-- No array in the value, at any depth, has more items than the bound. -/
def ArraysWithin (bound : Nat) (v : Value) : Prop :=
  ∀ items, v.Nests items → items.size ≤ bound

mutual

/-- The length of the longest array in a value, at any depth. -/
def longest : Value → Nat
  | undefined | bool _ | real _ | int32 _ | int64 _ | string _ => 0
  | array items => max items.size (longestArray items)

/-- The length of the longest array in the items of an array. -/
def longestArray : Array Value → Nat
  | ⟨items⟩ => longestItems items

/-- The length of the longest array in values. -/
def longestItems : List Value → Nat
  | [] => 0
  | v :: rest => max v.longest (longestItems rest)

end

variable {bound : Nat} {v : Value} {items : Array Value}

theorem arraysWithin_of_items?_eq_none (scalar : v.items? = none) : v.ArraysWithin bound := by
  intro items nested
  cases nested <;> cases scalar

end Value

/-- An array with a length within the bound, and all arrays in its items too. -/
structure ItemsWithin (bound : Nat) (items : Array Value) : Prop where
  size_le : items.size ≤ bound
  values : ∀ v ∈ items, v.ArraysWithin bound

namespace Value

variable {bound : Nat}

theorem arraysWithin_array_iff {items : Array Value} :
    (array items).ArraysWithin bound ↔ ItemsWithin bound items := by
  constructor
  · intro within
    exact ⟨within items (.self items), fun v mem inner nested => within inner (.item mem nested)⟩
  · intro within inner nested
    cases nested with
    | self => exact within.size_le
    | item mem nested => exact within.values _ mem inner nested

mutual

/-- The longest array in a value is within a bound exactly if all of them are. -/
theorem longest_le_iff (v : Value) : v.longest ≤ bound ↔ v.ArraysWithin bound := by
  cases v with
  | array items =>
      rw [longest, Nat.max_le, longestArray_le_iff, arraysWithin_array_iff]
      exact ⟨fun ⟨size_le, values⟩ => ⟨size_le, values⟩, fun ⟨size_le, values⟩ => ⟨size_le, values⟩⟩
  | _ => exact ⟨fun _ => arraysWithin_of_items?_eq_none rfl, fun _ => Nat.zero_le _⟩

theorem longestArray_le_iff (items : Array Value) :
    longestArray items ≤ bound ↔ ∀ v ∈ items, v.ArraysWithin bound := by
  obtain ⟨items⟩ := items
  rw [longestArray, longestItems_le_iff]
  simp only [List.mem_toArray]

theorem longestItems_le_iff (values : List Value) :
    longestItems values ≤ bound ↔ ∀ v ∈ values, v.ArraysWithin bound := by
  cases values with
  | nil => simp [longestItems]
  | cons v rest =>
      rw [longestItems, Nat.max_le, longest_le_iff, longestItems_le_iff, List.forall_mem_cons]

end

end Value

/-- No array in any of the variables, at any depth, has more items than the bound. -/
def Variables.ArraysWithin (bound : Nat) (vars : Variables) : Prop :=
  ∀ (name : String) (v : Value), vars[name]? = some v → v.ArraysWithin bound

def Registry.ArraysWithin (bound : Nat) (r : Registry) : Prop :=
  ∀ id i, r.get? id = some i → i.members.ArraysWithin bound

/-- Locals and arguments within the bound; the arguments count as an array. -/
structure Bindings.ArraysWithin (bound : Nat) (b : Bindings) : Prop where
  locals : b.locals.ArraysWithin bound
  arguments : ItemsWithin bound b.arguments

/-- The discipline under which no array exceeds a bound. -/
def Discipline.arraysWithin (bound : Nat) : Discipline where
  value := Value.ArraysWithin bound
  bindings := Bindings.ArraysWithin bound
  globals := Variables.ArraysWithin bound
  instances r r' := r' = r ∧ r.ArraysWithin bound

variable {bound : Nat}

/-! ### Reads -/

theorem ItemsWithin.itemAt {items : Array Value} (within : ItemsWithin bound items) {index : Int64}
    {v : Value} (read : itemAt items index = .ok v) : v.ArraysWithin bound := by
  unfold ScriptMachine.itemAt at read
  split at read
  · cases read
  · split at read
    · rename_i found
      cases read
      exact within.values _ (Array.mem_of_getElem? found)
    · cases read

/-- An item of a value that is within the bound is, too. -/
theorem arraysWithin_of_itemOf {name : String} {index : Int64} {held : Option Value} {v : Value}
    (within : ∀ w, held = some w → w.ArraysWithin bound)
    (read : Store.itemOf name index held = .ok v) : v.ArraysWithin bound := by
  unfold Store.itemOf at read
  split at read
  · exact (Value.arraysWithin_array_iff.mp (within _ rfl)).itemAt read
  · cases read
  · cases read

/-- An argument is within the bounds of the list of arguments, also as a whole list. -/
theorem ItemsWithin.argument? {arguments : Array Value} (within : ItemsWithin bound arguments)
    {name : String} {v : Value} (found : Store.argument? arguments name = some v) :
    v.ArraysWithin bound := by
  obtain ⟨index, -, found⟩ := Option.bind_eq_some_iff.mp found
  exact within.values v (Array.mem_of_getElem? found)

/-- A variable reads as a value within the bounds of its store. -/
theorem arraysWithin_of_read {s : Store} {place : Place} {name : String} {v : Value}
    (admitted : (Discipline.arraysWithin bound).AdmitsStores s s) (read : s.read place name = .ok v) :
    v.ArraysWithin bound := by
  obtain ⟨-, -, bindings, globals, -, instances⟩ := admitted
  cases place with
  | globals => exact globals name v (Store.present_eq_ok_iff.mp read)
  | locals => exact bindings.locals name v (Store.present_eq_ok_iff.mp read)
  | arguments =>
      simp only [Store.read, Store.readArgument] at read
      split at read
      · cases read
        exact Value.arraysWithin_of_items?_eq_none rfl
      · split at read
        · cases read
          exact Value.arraysWithin_array_iff.mpr bindings.arguments
        · exact bindings.arguments.argument? (Store.present_eq_ok_iff.mp read)
  | object id =>
      obtain ⟨i, live, read⟩ := exists_of_bind_eq_ok read
      split at read
      · cases read
        exact Value.arraysWithin_of_items?_eq_none (Field.items?_read i _)
      · exact instances id i (Store.live_eq_ok_iff.mp live) name v (Store.present_eq_ok_iff.mp read)

/-- An item of a variable is within the bounds of its store. -/
theorem arraysWithin_of_readItem {s : Store} {place : Place} {name : String} {index : Int64}
    {v : Value} (admitted : (Discipline.arraysWithin bound).AdmitsStores s s)
    (read : s.readItem place name index = .ok v) : v.ArraysWithin bound := by
  obtain ⟨-, -, bindings, globals, -, instances⟩ := admitted
  cases place with
  | globals => exact arraysWithin_of_itemOf (globals name) read
  | locals => exact arraysWithin_of_itemOf (bindings.locals name) read
  | arguments =>
      simp only [Store.readItem] at read
      split at read
      · exact bindings.arguments.itemAt read
      · exact arraysWithin_of_itemOf (fun _ => bindings.arguments.argument?) read
  | object id =>
      simp only [Store.readItem] at read
      split at read
      · cases read
      · obtain ⟨i, live, read⟩ := exists_of_bind_eq_ok read
        exact arraysWithin_of_itemOf (instances id i (Store.live_eq_ok_iff.mp live) name) read

/-! ### Writes -/

/-- A store of an item makes an array longer than it was only below the limit. -/
theorem ItemsWithin.storeItem {limit index : Nat} {v : Value} {items : Array Value}
    (within : ItemsWithin bound items) (held : v.ArraysWithin bound) (limited : limit ≤ bound) :
    ItemsWithin bound ((storeItem limit index v).after items) := by
  have outcome := storeItem_outcome limit index v items
  unfold Action.after
  generalize ScriptMachine.storeItem limit index v items = result at outcome ⊢
  cases outcome with
  | stored below _ placed =>
      constructor
      · have shorter := within.size_le
        rw [placed.size_eq]
        omega
      · intro w mem
        rcases placed.mem_cases mem with mem | rfl | rfl
        · exact within.values w mem
        · exact held
        · exact Value.arraysWithin_of_items?_eq_none rfl
  | past => exact within
  | full => exact within

theorem Variables.ArraysWithin.insert {vars : Variables} {v : Value} (within : vars.ArraysWithin bound)
    (name : String) (held : v.ArraysWithin bound) :
    Variables.ArraysWithin bound (Std.ExtTreeMap.insert vars name v) := by
  intro other w found
  rw [Std.ExtTreeMap.getElem?_insert] at found
  split at found
  · cases found
    exact held
  · exact within other w found

/-- A store of an item keeps a table of variables within its bounds. -/
theorem Variables.ArraysWithin.storeCell {vars : Variables} {limit index : Nat} {v : Value}
    (within : vars.ArraysWithin bound) (name : String) (held : v.ArraysWithin bound)
    (limited : limit ≤ bound) :
    Variables.ArraysWithin bound ((storeCell limit name index v).after vars) := by
  have items : ItemsWithin bound (itemsOf vars[name]?) := by
    unfold itemsOf
    split
    · rename_i found
      exact Value.arraysWithin_array_iff.mp (within name _ found)
    · exact ⟨Nat.zero_le _, by simp⟩
  by_cases past : limit ≤ index
  · simp only [Action.after, storeCell_eq, past, if_true]
    exact within
  · rw [Action.after_restore (fun items => Std.ExtTreeMap.insert vars name (.array items))
      (storeItem limit index v) (itemsOf vars[name]?) _ vars (by rw [storeCell_eq, if_neg past])]
    exact within.insert name (Value.arraysWithin_array_iff.mpr (items.storeItem held limited))

/-- No array of a store exceeds the bound. -/
def Store.ArraysWithin (bound : Nat) (s : Store) : Prop :=
  (Discipline.arraysWithin bound).AdmitsStores s s

section Parts

variable {s : Store} (within : s.ArraysWithin bound)

include within

theorem arraysWithin_onGlobals (act : Action Variables Unit)
    (kept : Variables.ArraysWithin bound (act.after s.globals)) :
    ((Store.onGlobals act).after s).ArraysWithin bound := by
  rw [Action.after_restore (⟨s.bindings, ·, s.instances⟩) act s.globals _ s rfl]
  exact ⟨rfl, rfl, within.bindings, kept, within.instances⟩

theorem arraysWithin_onLocals (act : Action Variables Unit)
    (kept : Variables.ArraysWithin bound (act.after s.bindings.locals)) :
    ((Store.onLocals act).after s).ArraysWithin bound := by
  rw [Action.after_restore (fun locals => { s with bindings := { s.bindings with locals := locals } })
    act s.bindings.locals _ s rfl]
  exact ⟨rfl, rfl, ⟨kept, within.bindings.arguments⟩, within.globals, within.instances⟩

theorem arraysWithin_onArguments (act : Action (Array Value) Unit)
    (kept : ItemsWithin bound (act.after s.bindings.arguments)) :
    ((Store.onArguments act).after s).ArraysWithin bound := by
  rw [Action.after_restore
    (fun arguments => { s with bindings := { s.bindings with arguments := arguments } })
    act s.bindings.arguments _ s rfl]
  exact ⟨rfl, rfl, ⟨within.bindings.locals, kept⟩, within.globals, within.instances⟩

/-- A store to an instance keeps the bounds if the members of that instance keep them. -/
theorem arraysWithin_onInstance (id : InstanceId) (act : Action Instance Unit)
    (kept : ∀ i : Instance, i.members.ArraysWithin bound → (act.after i).members.ArraysWithin bound) :
    ((Store.onInstance id act).after s).ArraysWithin bound := by
  cases live : s.instances.get? id with
  | none =>
      simp only [Action.after, Store.onInstance, live]
      exact within
  | some i =>
      rw [Action.after_restore (fun i => { s with instances := (s.instances.erase id).put id i })
        act i _ s (by simp only [Store.onInstance, live])]
      obtain ⟨-, instances⟩ := within.instances
      refine ⟨rfl, rfl, within.bindings, within.globals, rfl, fun other j found => ?_⟩
      rw [Registry.put_erase, Registry.get?_put] at found
      split at found
      · cases found
        exact kept i (instances id i live)
      · exact instances other j found

end Parts

theorem members_onMembers (act : Action Variables Unit) (i : Instance) :
    ((Instance.onMembers act).after i).members = act.after i.members := by
  rw [Action.after_restore (fun members => { i with members := members }) act i.members _ i rfl]

theorem members_update (f : Field) (v : Value) (i : Instance) :
    ((Action.update fun i => f.write i v).after i).members = i.members := by
  cases written : f.write i v with
  | ok j =>
      simp only [Action.after, Action.update, written]
      exact Field.members_of_write written
  | error e => simp only [Action.after, Action.update, written]

theorem arraysWithin_writeMember (name : String) {v : Value} (held : v.ArraysWithin bound)
    (i : Instance) (within : i.members.ArraysWithin bound) :
    ((Store.writeMember name v).after i).members.ArraysWithin bound := by
  unfold Store.writeMember
  split
  · rw [members_update]
    exact within
  · rw [members_onMembers]
    exact within.insert name held

/-- A store of a variable keeps a store within the bounds of the value and the limit. -/
theorem arraysWithin_write {c : Config} (limited : c.maxArrayLength ≤ bound) {s : Store}
    (within : s.ArraysWithin bound) (place : Place) (name : String) {v : Value}
    (held : v.ArraysWithin bound) : ((Store.write c place name v).after s).ArraysWithin bound := by
  cases place with
  | globals =>
      simp only [Store.write]
      refine arraysWithin_onGlobals within _ ?_
      exact within.globals.insert name held
  | locals =>
      simp only [Store.write]
      refine arraysWithin_onLocals within _ ?_
      exact within.bindings.locals.insert name held
  | arguments =>
      simp only [Store.write]
      split
      · exact within
      · exact arraysWithin_onArguments within _ (within.bindings.arguments.storeItem held limited)
  | object id => exact arraysWithin_onInstance within id _ (arraysWithin_writeMember name held)

/-- A store of an item keeps a store within the bounds of the value and the limit. -/
theorem arraysWithin_writeItem {c : Config} (limited : c.maxArrayLength ≤ bound) {s : Store}
    (within : s.ArraysWithin bound) (place : Place) (name : String) (index : Int64) {v : Value}
    (held : v.ArraysWithin bound) :
    ((Store.writeItem c place name index v).after s).ArraysWithin bound := by
  unfold Store.writeItem
  split
  · exact within
  · cases place with
    | globals => exact arraysWithin_onGlobals within _ (within.globals.storeCell name held limited)
    | locals =>
        exact arraysWithin_onLocals within _ (within.bindings.locals.storeCell name held limited)
    | arguments =>
        simp only
        split
        · exact arraysWithin_onArguments within _ (within.bindings.arguments.storeItem held limited)
        · exact within
    | object id =>
        simp only
        split
        · exact within
        · refine arraysWithin_onInstance within id _ fun i members => ?_
          rw [members_onMembers]
          exact members.storeCell name held limited

/-- Under limits within the bound no instruction makes an array longer than the bound. -/
theorem Discipline.arraysWithin_sound {c : Config} (limited : c.maxArrayLength ≤ bound)
    (stacked : c.maxStackDepth ≤ bound) : (Discipline.arraysWithin bound).Sound c := by
  have single : (Discipline.arraysWithin bound).SingleSound c :=
    { single := fun related => related.1
      scalar := Value.arraysWithin_of_items?_eq_none
      read := arraysWithin_of_read
      readItem := arraysWithin_of_readItem
      write := fun place name within held => arraysWithin_write limited within place name held
      writeItem := fun place name index within held =>
        arraysWithin_writeItem limited within place name index held
      start := by
        intro arguments self? passed
        refine ⟨?_, Nat.le_trans passed.size_le stacked, passed.values⟩
        intro name v found
        simp at found }
  exact single.sound

end ScriptMachine
