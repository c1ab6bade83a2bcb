import ScriptMachine.Proofs.Instance.Field
import ScriptMachine.Proofs.Storage.Item
import ScriptMachine.Proofs.Storage.Write
import ScriptMachine.Proofs.Variable.Argument

/-!
Whole variables: what is stored is read back, and nothing else reads differently. A built-in field
is read back as its view of the value. The arguments are one list under many names, so a store to
one of them can make the list longer; the arguments that were there stay as they are.
-/

namespace ScriptMachine

/-- The cell that a name stands for at a place. -/
def Place.cell (name : String) : Place → Cell
  | .globals => .globalVariable name
  | .locals => .localVariable name
  | .arguments => .arguments
  | .object id =>
      match Field.ofName? name with
      | some f => .field id f
      | none => .member id name

/-- What a name at a place reads as after a store of a value. -/
def Place.shown? (name : String) (v : Value) : Place → Option Value
  | .object _ =>
      match Field.ofName? name with
      | some f => f.shown? v
      | none => some v
  | _ => some v

/-- A value can be stored under a name at a place. -/
def Store.Storable (c : Config) (s : Store) (name : String) (v : Value) : Place → Prop
  | .globals | .locals => True
  | .arguments =>
      ∃ k, NamesArgument name k ∧ k < c.maxArrayLength ∧
        (s.bindings.arguments.size ≤ k → isAllocatable (k + 1) = true)
  | .object id =>
      s.instances.isLive id = true ∧ ((Place.object id).shown? name v).isSome = true

/-- What a name reads as in an instance. -/
def Instance.look (i : Instance) (name : String) : Except RuntimeError Value :=
  match Field.ofName? name with
  | some f => .ok (f.read i)
  | none => Store.present name i.members[name]?

theorem Store.read_object {s : Store} {id : InstanceId} {i : Instance}
    (live : s.instances.get? id = some i) (name : String) :
    s.read (.object id) name = i.look name := by
  simp only [read, live_eq_ok_iff.mpr live, Instance.look]
  rfl

theorem Store.read_object_put (s : Store) (id : InstanceId) (j : Instance) (name : String) :
    Store.read { s with instances := s.instances.put id j } (.object id) name = j.look name := by
  apply read_object
  rw [Registry.get?_put, if_pos rfl]

/-! ### Cells that do not change -/

/-- A store to one built-in field leaves what the others read as. -/
theorem Field.SameBut.read_ne {f g : Field} {i j : Instance} (same : f.SameBut i j) (other : g ≠ f) :
    g.read j = g.read i := by
  cases f with
  | real r =>
      obtain ⟨x, rfl⟩ := same
      cases g with
      | real r' =>
          have different : r ≠ r' := fun eq => other (congrArg Field.real eq.symm)
          simp only [read, RealFields.get_set, if_neg different]
      | _ => rfl
  | spriteIndex =>
      obtain ⟨n, rfl⟩ := same
      cases g with
      | spriteIndex => exact absurd rfl other
      | _ => rfl
  | flag r =>
      obtain ⟨b, rfl⟩ := same
      cases g with
      | flag r' =>
          have different : r ≠ r' := fun eq => other (congrArg Field.flag eq.symm)
          simp only [read, Flags.get_set, if_neg different]
      | _ => rfl
  | id => exact same.elim
  | objectIndex => exact same.elim

/-- Within an instance, only the name of the cell may read differently. -/
theorem Cell.SameBut.look {id : InstanceId} {name : String} {s after : Store}
    (same : ((Place.object id).cell name).SameBut s after) :
    ∃ i j, s.instances.get? id = some i ∧ after = { s with instances := s.instances.put id j } ∧
      ∀ other, other ≠ name → j.look other = i.look other := by
  unfold Place.cell at same
  cases builtin : Field.ofName? name with
  | some f =>
      simp only [builtin] at same
      obtain ⟨i, j, live, eq, changed⟩ := same
      refine ⟨i, j, live, eq, fun other different => ?_⟩
      unfold Instance.look
      cases found : Field.ofName? other with
      | some g =>
          have apart : g ≠ f := by
            rintro rfl
            exact different ((Field.name_of_ofName? found).symm.trans (Field.name_of_ofName? builtin))
          simp only [changed.read_ne apart]
      | none => simp only [changed.rest.1]
  | none =>
      simp only [builtin] at same
      obtain ⟨i, j, live, eq, members, changed⟩ := same
      refine ⟨i, j, live, eq, fun other different => ?_⟩
      unfold Instance.look
      cases found : Field.ofName? other with
      | some g => rw [members]; simp only [Field.read_withMembers]
      | none => simp only [changed other different]

section Frame

variable {p : Place} {name : String} {s after : Store} (same : (p.cell name).SameBut s after)

include same

/-- A store at one place leaves what is read at all others. -/
theorem Store.read_of_place_ne {q : Place} (different : q ≠ p) (other : String) :
    after.read q other = s.read q other := by
  cases p with
  | globals =>
      rw [same.1]
      cases q with
      | globals => exact absurd rfl different
      | _ => rfl
  | locals =>
      rw [same.1]
      cases q with
      | locals => exact absurd rfl different
      | _ => rfl
  | arguments =>
      rw [show after = _ from same]
      cases q with
      | arguments => exact absurd rfl different
      | _ => rfl
  | object id =>
      obtain ⟨i, j, -, rfl, -⟩ := same.look
      cases q with
      | object id' =>
          have apart : id ≠ id' := fun eq => different (congrArg Place.object eq.symm)
          simp only [read, live, Registry.get?_put, if_neg apart]
      | _ => rfl

/-- A store under one name leaves what is read under all others; the arguments alone share a cell. -/
theorem Store.read_of_name_ne (table : p ≠ .arguments) {other : String} (different : other ≠ name) :
    after.read p other = s.read p other := by
  cases p with
  | globals => simp only [read, same.2 other different]
  | locals => simp only [read, same.2 other different]
  | arguments => exact absurd rfl table
  | object id =>
      obtain ⟨i, j, live, rfl, looks⟩ := same.look
      rw [read_object live, read_object_put, looks other different]

end Frame

/-! ### Stores -/

theorem NamesArgument.unique {name : String} {k l : Nat} (first : NamesArgument name k)
    (second : NamesArgument name l) : l = k :=
  Option.some.inj ((argumentIndex?_eq_some_iff.mpr second).symm.trans
    (argumentIndex?_eq_some_iff.mpr first))

/-- Whatever name an argument goes by, it reads as what the list holds at its index. -/
theorem NamesArgument.read {name : String} {k : Nat} (names : NamesArgument name k) (s : Store) :
    s.read .arguments name = Store.present name s.bindings.arguments[k]? := by
  simp only [Store.read, Store.readArgument, if_neg names.ne.1, if_neg names.ne.2, Store.argument?,
    argumentIndex?_eq_some_iff.mpr names, Option.bind_some]

/-- What a store may come to: the value is shown where it was stored, and only that cell differs, or
it cannot be stored there and nothing differs. -/
inductive WriteOutcome (c : Config) (s : Store) (p : Place) (name : String) (v : Value) :
    EStateM.Result RuntimeError Store Unit → Prop where
  | stored {after : Store} (storable : s.Storable c name v p)
      (same : (p.cell name).SameBut s after)
      (shows : ∃ w, p.shown? name v = some w ∧ after.read p name = .ok w)
      (placed : p = .arguments → ∃ k, NamesArgument name k ∧
        StoredAt s.bindings.arguments k v after.bindings.arguments) :
      WriteOutcome c s p name v (.ok () after)
  | refused {e : RuntimeError} (refused : ¬ s.Storable c name v p) :
      WriteOutcome c s p name v (.error e s)

theorem writeArgument_outcome (c : Config) (s : Store) (name : String) (v : Value) :
    WriteOutcome c s .arguments name v (Store.write c .arguments name v s) := by
  simp only [Store.write]
  -- The name decides: it is that of one argument, or the store is refused.
  cases found : Store.argumentIndex? name with
  | none =>
      refine .refused ?_
      rintro ⟨k, names, -⟩
      cases found.symm.trans (argumentIndex?_eq_some_iff.mpr names)
  | some k =>
      have names := argumentIndex?_eq_some_iff.mp found
      have outcome := storeItem_outcome c.maxArrayLength k v s.bindings.arguments
      obtain ⟨⟨locals, arguments, self?, other?⟩, globals, instances⟩ := s
      simp only [Store.onArguments]
      generalize storeItem c.maxArrayLength k v arguments = result at outcome
      cases outcome with
      | stored below room placed =>
          refine .stored ⟨k, names, below, room⟩ rfl ⟨v, rfl, ?_⟩ fun _ => ⟨k, names, placed⟩
          rw [names.read, placed.stored]
          rfl
      | past past =>
          refine .refused ?_
          rintro ⟨l, names', below, -⟩
          rw [names.unique names'] at below
          omega
      | full below outside full =>
          refine .refused ?_
          rintro ⟨l, names', -, room⟩
          rw [names.unique names'] at room
          rw [room outside] at full
          cases full

/-- A store to an instance shows the value under the name and changes only its cell, or the value
cannot be stored under the name and nothing changes. -/
theorem writeMember_cases (id : InstanceId) (name : String) (v : Value) (i : Instance) :
    (∃ j w, Store.writeMember name v i = .ok () j ∧ (Place.object id).shown? name v = some w ∧
        j.look name = .ok w ∧ ∀ s : Store, s.instances.get? id = some i →
          ((Place.object id).cell name).SameBut s { s with instances := s.instances.put id j }) ∨
      (∃ e, Store.writeMember name v i = .error e i) ∧ (Place.object id).shown? name v = none := by
  unfold Store.writeMember Place.shown? Place.cell Instance.look
  cases builtin : Field.ofName? name with
  | some f =>
      simp only [Action.update]
      rcases f.write_cases i v with ⟨j, written, view⟩ | ⟨⟨e, failed⟩, blind⟩
      · simp only [written]
        exact .inl ⟨j, f.read j, rfl, view, rfl, fun s live =>
          ⟨i, j, live, rfl, Field.sameBut_of_write written⟩⟩
      · simp only [failed]
        exact .inr ⟨⟨e, rfl⟩, blind⟩
  | none =>
      refine .inl ⟨_, v, rfl, rfl, ?_, fun s live =>
        ⟨i, _, live, rfl, rfl, i.members.sameBut_insert name v⟩⟩
      exact Store.present_insert_self i.members name v

theorem writeObject_outcome (c : Config) (s : Store) (id : InstanceId) (name : String) (v : Value) :
    WriteOutcome c s (.object id) name v (Store.write c (.object id) name v s) := by
  simp only [Store.write]
  cases live : s.instances.get? id with
  | none =>
      rw [Store.onInstance_of_dead live]
      refine .refused fun storable => ?_
      rw [Store.Storable, Registry.isLive_eq, live] at storable
      cases storable.1
  | some i =>
      rw [Store.onInstance_of_live live]
      rcases writeMember_cases id name v i with
        ⟨j, w, written, shown, look, same⟩ | ⟨⟨e, failed⟩, blind⟩
      · rw [written]
        refine .stored ⟨?_, ?_⟩ (same s live) ⟨w, shown, ?_⟩ fun eq => by cases eq
        · rw [Registry.isLive_eq, live, Option.isSome_some]
        · rw [shown, Option.isSome_some]
        · rw [Store.read_object_put, look]
      · simp only [failed, Action.restore, Registry.put_self live]
        refine .refused fun storable => ?_
        rw [Store.Storable, blind] at storable
        cases storable.2

/-- A plain store puts the value in its cell, or changes nothing. -/
theorem write_outcome (c : Config) (s : Store) (p : Place) (name : String) (v : Value) :
    WriteOutcome c s p name v (Store.write c p name v s) := by
  cases p with
  | globals =>
      refine .stored trivial ⟨rfl, Variables.sameBut_insert _ name v⟩ ⟨v, rfl, ?_⟩
        fun eq => by cases eq
      exact Store.present_insert_self _ name v
  | locals =>
      refine .stored trivial ⟨rfl, Variables.sameBut_insert _ name v⟩ ⟨v, rfl, ?_⟩
        fun eq => by cases eq
      exact Store.present_insert_self _ name v
  | arguments => exact writeArgument_outcome c s name v
  | object id => exact writeObject_outcome c s id name v

/-! ### The arguments after a store -/

/-- What names in argument scope read as after a store to the argument at an index. -/
structure Store.ArgumentsAfter (s : Store) (k : Nat) (v : Value) (after : Store) : Prop where
  stored : ∀ other, NamesArgument other k → after.read .arguments other = .ok v
  kept : ∀ other j, NamesArgument other j → j < s.bindings.arguments.size → j ≠ k →
    after.read .arguments other = s.read .arguments other
  gap : ∀ other j, NamesArgument other j → s.bindings.arguments.size ≤ j → j < k →
    after.read .arguments other = .ok .undefined
  beyond : ∀ other j, NamesArgument other j → s.bindings.arguments.size ≤ j → k < j →
    after.read .arguments other = .error (.unsetVariable other)
  /-- The number of arguments is cut off at the greatest 32-bit integer. -/
  count : ∃ count : Int32, after.read .arguments "argument_count" = .ok (.int32 count) ∧
    count.toInt = min ((max s.bindings.arguments.size (k + 1) : Nat) : Int) Int32.maxValue.toInt
  /-- All of them as an array. -/
  whole : ∃ items, after.read .arguments "argument" = .ok (.array items) ∧
    StoredAt s.bindings.arguments k v items

/-- The number of arguments reads as what fits into 32 bits of it. -/
theorem Store.read_argument_count (s : Store) : ∃ count : Int32,
    s.read .arguments "argument_count" = .ok (.int32 count) ∧
      count.toInt = min (s.bindings.arguments.size : Int) Int32.maxValue.toInt := by
  refine ⟨_, rfl, ?_⟩
  have limit : Numeric.pow2 31 = 2147483648 := by decide
  have greatest : Int32.maxValue.toInt = 2147483647 := by decide
  rw [limit, greatest, Int32.toInt_ofNat_of_lt (by omega)]
  omega

theorem StoredAt.argumentsAfter {s after : Store} {k : Nat} {v : Value}
    (placed : StoredAt s.bindings.arguments k v after.bindings.arguments) :
    s.ArgumentsAfter k v after where
  stored := by
    intro other names
    rw [names.read, placed.stored]
    rfl
  kept := by
    intro other j names inside different
    rw [names.read, names.read, placed.kept j inside different]
  gap := by
    intro other j names outside before
    rw [names.read, placed.gap j outside before]
    rfl
  beyond := by
    intro other j names outside behind
    have missing : after.bindings.arguments[j]? = none := by
      rw [Array.getElem?_eq_none_iff, placed.size_eq]
      omega
    rw [names.read, missing]
    rfl
  count := by
    obtain ⟨count, read, eq⟩ := after.read_argument_count
    refine ⟨count, read, ?_⟩
    rw [eq, placed.size_eq]
  whole := ⟨_, rfl, placed⟩

/-- A store of a whole variable succeeds exactly where the value can be stored, and then the variable
reads as the value, or as a built-in field's view of it; no other place reads differently, and no
other name unless it stands for an argument; and the arguments are the old ones with the value at the
index that the name denotes. -/
theorem stored_variable_read_back (c : Config) (s : Store) (p : Place) (name : String) (v : Value) :
    ((∃ after, Store.write c p name v s = .ok () after) ↔ s.Storable c name v p) ∧
      ∀ after, Store.write c p name v s = .ok () after →
        (∃ w, p.shown? name v = some w ∧ after.read p name = .ok w) ∧
        (∀ q other, q ≠ p → after.read q other = s.read q other) ∧
        (p ≠ .arguments → ∀ other, other ≠ name → after.read p other = s.read p other) ∧
        (p = .arguments → ∃ k, NamesArgument name k ∧ s.ArgumentsAfter k v after) := by
  have outcome := write_outcome c s p name v
  generalize Store.write c p name v s = result at outcome
  cases outcome with
  | @stored after storable same shows placed =>
      refine ⟨iff_of_true ⟨after, rfl⟩ storable, ?_⟩
      rintro _ ⟨⟩
      refine ⟨shows, fun q other different => Store.read_of_place_ne same different other,
        fun table other different => Store.read_of_name_ne same table different, fun arguments => ?_⟩
      obtain ⟨k, names, placed⟩ := placed arguments
      exact ⟨k, names, placed.argumentsAfter⟩
  | refused refused => exact ⟨iff_of_false nofun refused, nofun⟩

/-- With one argument, a store to the fourth one fills the gap, and all names of the fourth one read
as what was stored. -/
theorem stored_argument_read_back_by_alias :
    let s : Store := { bindings := { arguments := #[.int32 7] }, instances := .startingAt 100000 }
    ∃ after, Store.write {} .arguments "argument+03" (.string "x") s = .ok () after ∧
      after.read .arguments "argument3" = .ok (.string "x") ∧
      after.read .arguments "argument2" = .ok .undefined ∧
      after.read .arguments "argument0" = .ok (.int32 7) := by
  intro s
  have named : NamesArgument "argument+03" 3 := argumentIndex?_eq_some_iff.mp rfl
  have storable : s.Storable {} "argument+03" (.string "x") .arguments :=
    ⟨3, named, by decide, fun _ => by decide⟩
  obtain ⟨after, stored⟩ := (stored_variable_read_back {} s .arguments _ _).1.mpr storable
  obtain ⟨-, -, -, arguments⟩ := (stored_variable_read_back {} s .arguments _ _).2 after stored
  obtain ⟨k, denoted, reads⟩ := arguments rfl
  obtain rfl : k = 3 := named.unique denoted
  have named0 : NamesArgument "argument0" 0 := argumentIndex?_eq_some_iff.mp rfl
  have named2 : NamesArgument "argument2" 2 := argumentIndex?_eq_some_iff.mp rfl
  have named3 : NamesArgument "argument3" 3 := argumentIndex?_eq_some_iff.mp rfl
  refine ⟨after, stored, reads.stored _ named3, reads.gap _ _ named2 (by decide) (by decide), ?_⟩
  rw [reads.kept _ _ named0 (by decide) (by decide)]
  rfl

end ScriptMachine
