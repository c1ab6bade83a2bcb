import ScriptMachine.Proofs.Storage.Plain

/-!
Array items of variables. An indexed load is the plain load followed by indexing, but for the number
of arguments, which an indexed load takes for an argument that was never stored. An indexed store puts
the item into the array that the variable holds, or into a new one, and changes nothing else.
-/

namespace ScriptMachine

/-- The instance of a place, if it is one of an instance, is live. -/
def Store.IsLive (s : Store) : Place → Prop
  | .object id => s.instances.isLive id = true
  | _ => True

/-- Items can be stored one by one under a name at a place. -/
def Store.Indexable (s : Store) (name : String) : Place → Prop
  | .globals | .locals => True
  | .arguments => name = "argument"
  | .object id => s.instances.isLive id = true ∧ Field.isBuiltin name = false

/-- The items that an indexed store starts from: those of the array that the variable reads as, and
none if it reads as no array. -/
def Store.heldItems (s : Store) (p : Place) (name : String) : Array Value :=
  itemsOf (s.read p name).toOption

/-! ### Indexed loads -/

theorem itemRead_itemOf (name : String) (index : Int64) (held : Option Value) :
    ItemRead name index (Store.present name held) (Store.itemOf name index held) := by
  cases held with
  | none => exact .unset
  | some v =>
      cases v with
      | array items => exact itemRead_itemAt name index items
      | _ => exact .scalar rfl

theorem itemRead_argument (s : Store) {name : String} (index : Int64) (other : name ≠ "argument_count") :
    ItemRead name index (s.read .arguments name) (s.readItem .arguments name index) := by
  simp only [Store.read, Store.readArgument, if_neg other, Store.readItem]
  split
  · exact itemRead_itemAt name index _
  · exact itemRead_itemOf name index _

/-- An indexed load from a live instance is a plain load and indexing. No built-in field is an
array. -/
theorem itemRead_object {s : Store} {id : InstanceId} (alive : s.instances.isLive id = true)
    (name : String) (index : Int64) :
    ItemRead name index (s.read (.object id) name) (s.readItem (.object id) name index) := by
  rw [Registry.isLive_eq] at alive
  obtain ⟨i, live⟩ := Option.isSome_iff_exists.mp alive
  rw [Store.read_object live]
  simp only [Store.readItem, Field.isBuiltin, Instance.look, Store.live_eq_ok_iff.mpr live]
  cases Field.ofName? name with
  | some f => exact .scalar (Field.items?_read i f)
  | none => exact itemRead_itemOf name index _

/-- The number of arguments is no array either, but an indexed load says that it was never stored. -/
theorem readItem_argument_count (s : Store) (index : Int64) :
    s.readItem .arguments "argument_count" index = .error (.unsetVariable "argument_count") := by
  rfl

/-- At a live place, an indexed load of any other name is a plain load and indexing. -/
theorem itemRead_of_isLive {s : Store} {p : Place} (live : s.IsLive p) {name : String}
    (other : ¬ (p = .arguments ∧ name = "argument_count")) (index : Int64) :
    ItemRead name index (s.read p name) (s.readItem p name index) := by
  cases p with
  | globals => exact itemRead_itemOf name index _
  | locals => exact itemRead_itemOf name index _
  | arguments => exact itemRead_argument s index fun count => other ⟨rfl, count⟩
  | object id => exact itemRead_object live name index

/-- At a live place an indexed load is the plain load followed by indexing, exactly if the name does
not stand for the number of arguments. -/
theorem item_follows_variable_iff (s : Store) (p : Place) (name : String) (index : Int64)
    (live : s.IsLive p) :
    ItemRead name index (s.read p name) (s.readItem p name index) ↔
      ¬ (p = .arguments ∧ name = "argument_count") := by
  constructor
  · rintro follows ⟨rfl, rfl⟩
    obtain ⟨count, counted, -⟩ := s.read_argument_count
    rw [counted, readItem_argument_count] at follows
    cases follows
  · intro other
    exact itemRead_of_isLive live other index

/-- An item of a member of a live instance. -/
theorem item_follows_variable_in_instance :
    let i : Instance :=
      { assetId := 3, id := 100001, members := (∅ : Variables).insert "xs" (.array #[.int32 5]) }
    let s : Store := { bindings := {}, instances := (Registry.startingAt 100000).insert i }
    s.IsLive (.object 100001) ∧ s.read (.object 100001) "xs" = .ok (.array #[.int32 5]) ∧
      s.readItem (.object 100001) "xs" 0 = .ok (.int32 5) ∧
      s.readItem (.object 100001) "xs" (-1) = .error (.indexOutOfBounds (-1) 1) := by
  intro i s
  have live : s.instances.get? 100001 = some i := by
    rw [Registry.get?_insert, if_pos rfl]
  have alive : s.IsLive (.object 100001) := by
    rw [Store.IsLive, Registry.isLive_eq, live, Option.isSome_some]
  have plain : s.read (.object 100001) "xs" = .ok (.array #[.int32 5]) := by
    rw [Store.read_object live]
    exact Store.present_insert_self ∅ "xs" _
  have follows (index : Int64) :=
    (item_follows_variable_iff s (.object 100001) "xs" index alive).mpr nofun
  simp only [plain] at follows
  refine ⟨alive, plain, ?_, ?_⟩
  · generalize read : s.readItem (.object 100001) "xs" 0 = result
    cases read ▸ follows 0 with
    | inside reached found => exact congrArg Except.ok (Option.some.inj found).symm
    | outside missed => exact absurd missed (by decide)
    | scalar scalar => cases scalar
  · generalize read : s.readItem (.object 100001) "xs" (-1) = result
    cases read ▸ follows (-1) with
    | inside reached found => exact absurd reached (by decide)
    | outside missed => rfl
    | scalar scalar => cases scalar

/-- The number of arguments reads as a number, but an indexed load says that it was never stored. -/
theorem argument_count_unset_by_index :
    let s : Store := { bindings := {}, instances := .startingAt 100000 }
    s.IsLive .arguments ∧ s.read .arguments "argument_count" = .ok (.int32 0) ∧
      s.readItem .arguments "argument_count" 0 = .error (.unsetVariable "argument_count") ∧
      s.readItem .arguments "argument_count" 0 ≠ .error (.notAnArray "argument_count") := by
  exact ⟨trivial, rfl, rfl, nofun⟩

/-- An indexed load finds exactly the items of the arrays that plain loads find. -/
theorem Store.readItem_eq_ok_iff {s : Store} {p : Place} {name : String} {index : Int64} {v : Value} :
    s.readItem p name index = .ok v ↔ ∃ items, s.read p name = .ok (.array items) ∧ 0 ≤ index.toInt ∧
      items[index.toInt.toNat]? = some v := by
  by_cases live : s.IsLive p
  · by_cases counts : p = .arguments ∧ name = "argument_count"
    · obtain ⟨rfl, rfl⟩ := counts
      obtain ⟨count, counted, -⟩ := s.read_argument_count
      rw [readItem_argument_count, counted]
      constructor
      · rintro ⟨⟩
      · rintro ⟨_, ⟨⟩, -⟩
    · exact (itemRead_of_isLive live counts index).eq_ok_iff
  · cases p with
    | object id =>
        have dead : s.live id = .error (.unresolvedInstance id) := by
          rw [Store.live, Registry.get?_of_not_isLive live]
        have unread : s.read (.object id) name = .error (.unresolvedInstance id) := by
          rw [read, dead]
          rfl
        have missed : s.readItem (.object id) name index ≠ .ok v := by
          rw [readItem, dead]
          split <;> rintro ⟨⟩
        rw [unread]
        constructor
        · intro found
          exact absurd found missed
        · rintro ⟨_, ⟨⟩, -⟩
    | _ => exact absurd trivial live

/-! ### Indexed stores -/

namespace Store

/-- The store with an array of other items in a variable. -/
def withItems (s : Store) (p : Place) (name : String) (items : Array Value) : Store :=
  match p with
  | .globals => { s with globals := s.globals.insert name (.array items) }
  | .locals =>
      { s with bindings := { s.bindings with
          locals := s.bindings.locals.insert name (.array items) } }
  | .arguments => { s with bindings := { s.bindings with arguments := items } }
  | .object id =>
      match s.instances.get? id with
      | some i =>
          { s with instances :=
              s.instances.put id { i with members := i.members.insert name (.array items) } }
      | none => s

/-- The name is no built-in one, and the instance is live. -/
theorem Indexable.object {s : Store} {name : String} {id : InstanceId}
    (indexable : s.Indexable name (.object id)) :
    Field.ofName? name = none ∧ ∃ i, s.instances.get? id = some i := by
  obtain ⟨alive, free⟩ := indexable
  rw [Registry.isLive_eq] at alive
  exact ⟨Option.not_isSome_iff_eq_none.mp (Bool.eq_false_iff.mp free),
    Option.isSome_iff_exists.mp alive⟩

section WithItems

variable {s : Store} {p : Place} {name : String} (indexable : s.Indexable name p)

include indexable

/-- A variable reads as the items that were put into it. -/
theorem read_withItems (items : Array Value) :
    (s.withItems p name items).read p name = .ok (.array items) := by
  cases p with
  | globals => exact present_insert_self s.globals name _
  | locals => exact present_insert_self s.bindings.locals name _
  | arguments =>
      obtain rfl : name = "argument" := indexable
      rfl
  | object id =>
      obtain ⟨free, i, live⟩ := indexable.object
      simp only [withItems, live, read_object_put, Instance.look, free, present_insert_self]

theorem sameBut_withItems (items : Array Value) :
    (p.cell name).SameBut s (s.withItems p name items) := by
  cases p with
  | globals => exact ⟨rfl, Variables.sameBut_insert _ name _⟩
  | locals => exact ⟨rfl, Variables.sameBut_insert _ name _⟩
  | arguments => rfl
  | object id =>
      obtain ⟨free, i, live⟩ := indexable.object
      simp only [Place.cell, free, withItems, live]
      exact ⟨i, _, live, rfl, rfl, i.members.sameBut_insert name _⟩

theorem readItem_withItems {items : Array Value} {index : Int64} {v : Value}
    (reached : 0 ≤ index.toInt) (found : items[index.toInt.toNat]? = some v) :
    (s.withItems p name items).readItem p name index = .ok v := by
  exact readItem_eq_ok_iff.mpr ⟨items, read_withItems indexable items, reached, found⟩

end WithItems

/-! ### What an indexed store comes to -/

/-- An indexed store finds an index below the limit and a variable whose items can be stored. -/
def ItemStorable (c : Config) (s : Store) (p : Place) (name : String) (index : Int64) : Prop :=
  0 ≤ index.toInt ∧ index.toInt < c.maxArrayLength ∧ s.Indexable name p

/-- What an indexed store may come to. If there is no room for the longer array, the variable holds
the items that it held before, as an array. -/
inductive ItemWriteOutcome (c : Config) (s : Store) (p : Place) (name : String) (index : Int64)
    (v : Value) : EStateM.Result RuntimeError Store Unit → Prop where
  | stored {items : Array Value} (storable : s.ItemStorable c p name index)
      (room : (s.heldItems p name).size ≤ index.toInt.toNat →
        isAllocatable (index.toInt.toNat + 1) = true)
      (placed : StoredAt (s.heldItems p name) index.toInt.toNat v items) :
      ItemWriteOutcome c s p name index v (.ok () (s.withItems p name items))
  | refused {e : RuntimeError} (refused : ¬ s.ItemStorable c p name index) :
      ItemWriteOutcome c s p name index v (.error e s)
  | full (storable : s.ItemStorable c p name index)
      (outside : (s.heldItems p name).size ≤ index.toInt.toNat)
      (full : isAllocatable (index.toInt.toNat + 1) = false) :
      ItemWriteOutcome c s p name index v
        (.error (.outOfMemory (index.toInt.toNat + 1)) (s.withItems p name (s.heldItems p name)))

theorem toOption_present (name : String) (held : Option Value) :
    (present name held).toOption = held := by
  cases held <;> rfl

/-- Below the limit all places are treated alike: the items are taken, changed and put back. -/
theorem writeItem_of_indexable {c : Config} {s : Store} {p : Place} {name : String} {index : Int64}
    {v : Value} (indexable : s.Indexable name p) (reached : ¬ index < 0)
    (below : ¬ c.maxArrayLength ≤ index.toInt.toNat) :
    writeItem c p name index v s = Action.restore (s.withItems p name)
      (storeItem c.maxArrayLength index.toInt.toNat v (s.heldItems p name)) := by
  unfold writeItem heldItems
  rw [if_neg reached]
  cases p with
  | globals =>
      simp only [read, toOption_present, onGlobals, storeCell_eq, if_neg below, Action.restore_restore]
      rfl
  | locals =>
      simp only [read, toOption_present, onLocals, storeCell_eq, if_neg below, Action.restore_restore]
      rfl
  | arguments =>
      obtain rfl : name = "argument" := indexable
      rfl
  | object id =>
      obtain ⟨free, i, live⟩ := indexable.object
      have whole : s.withItems (.object id) name = fun items =>
          let changed := { i with members := i.members.insert name (.array items) }
          { s with instances := s.instances.put id changed } := by
        funext items
        simp only [withItems, live]
      simp only [indexable.2, Bool.false_eq_true, if_false, onInstance_of_live live, Instance.onMembers,
        storeCell_eq, if_neg below, Action.restore_restore, read_object live, Instance.look, free,
        toOption_present, whole]

/-- An index past the limit is found before the variable is touched. -/
theorem writeItem_of_past {c : Config} {s : Store} {p : Place} {name : String} {index : Int64}
    {v : Value} (indexable : s.Indexable name p) (reached : ¬ index < 0)
    (past : c.maxArrayLength ≤ index.toInt.toNat) :
    writeItem c p name index v s = .error (tooLarge index.toInt.toNat c.maxArrayLength) s := by
  unfold writeItem
  rw [if_neg reached]
  cases p with
  | globals =>
      simp only [onGlobals, storeCell_eq, if_pos past]
      rfl
  | locals =>
      simp only [onLocals, storeCell_eq, if_pos past]
      rfl
  | arguments =>
      obtain rfl : name = "argument" := indexable
      simp only [if_true, onArguments, storeItem, if_pos past]
      rfl
  | object id =>
      obtain ⟨free, i, live⟩ := indexable.object
      simp only [indexable.2, Bool.false_eq_true, if_false, onInstance_of_live live, Instance.onMembers,
        storeCell_eq, if_pos past, Action.restore, Registry.put_self live]

/-- A store of an item fails, and changes nothing, where no items can be stored. -/
theorem writeItem_of_not_indexable {c : Config} {s : Store} {p : Place} {name : String}
    {index : Int64} {v : Value} (not_indexable : ¬ s.Indexable name p) (reached : ¬ index < 0) :
    ∃ e, writeItem c p name index v s = .error e s := by
  unfold writeItem
  rw [if_neg reached]
  cases p with
  | globals => exact absurd trivial not_indexable
  | locals => exact absurd trivial not_indexable
  | arguments =>
      simp only [if_neg (show ¬ name = "argument" from not_indexable)]
      exact ⟨_, rfl⟩
  | object id =>
      cases builtin : Field.isBuiltin name with
      | true => exact ⟨_, rfl⟩
      | false =>
          have dead : s.instances.get? id = none :=
            Registry.get?_of_not_isLive fun alive => not_indexable ⟨alive, builtin⟩
          simp only [Bool.false_eq_true, if_false, onInstance_of_dead dead]
          exact ⟨_, rfl⟩

/-- An indexed store puts the item in its place, is refused, or finds no room. -/
theorem writeItem_outcome (c : Config) (s : Store) (p : Place) (name : String) (index : Int64)
    (v : Value) : ItemWriteOutcome c s p name index v (writeItem c p name index v s) := by
  by_cases negative : index < 0
  · rw [writeItem, if_pos negative]
    refine .refused fun storable => ?_
    have reached := storable.1
    rw [index_lt_zero_iff] at negative
    omega
  · have reached := Int.not_lt.mp (mt index_lt_zero_iff.mpr negative)
    by_cases indexable : s.Indexable name p
    · by_cases past : c.maxArrayLength ≤ index.toInt.toNat
      · rw [writeItem_of_past indexable negative past]
        refine .refused fun storable => ?_
        have below := storable.2.1
        omega
      · have storable : s.ItemStorable c p name index := ⟨reached, by omega, indexable⟩
        rw [writeItem_of_indexable indexable negative past]
        have outcome := storeItem_outcome c.maxArrayLength index.toInt.toNat v (s.heldItems p name)
        generalize storeItem c.maxArrayLength index.toInt.toNat v (s.heldItems p name) = result
          at outcome
        cases outcome with
        | stored _ room placed => exact .stored storable room placed
        | past beyond => exact absurd beyond past
        | full _ outside full => exact .full storable outside full
    · obtain ⟨e, failed⟩ := writeItem_of_not_indexable (c := c) (v := v) indexable negative
      rw [failed]
      exact .refused fun storable => indexable storable.2.2

theorem heldItems_of_array {s : Store} {p : Place} {name : String} {items : Array Value}
    (array : s.read p name = .ok (.array items)) : s.heldItems p name = items := by
  simp only [heldItems, array]
  rfl

/-- An item of an array is stored in its place. -/
theorem writeItem_eq_ok_iff {c : Config} {s : Store} {p : Place} {name : String} {index : Int64}
    {v : Value} {items : Array Value} (array : s.read p name = .ok (.array items))
    (inside : index.toInt.toNat < items.size) {after : Store} :
    writeItem c p name index v s = .ok () after ↔ s.ItemStorable c p name index ∧
      after = s.withItems p name (items.setIfInBounds index.toInt.toNat v) := by
  have written (storable : s.ItemStorable c p name index) : writeItem c p name index v s
      = .ok () (s.withItems p name (items.setIfInBounds index.toInt.toNat v)) := by
    obtain ⟨reached, limited, indexable⟩ := storable
    have negative : ¬ index < 0 := by
      rw [index_lt_zero_iff]
      omega
    have below : ¬ c.maxArrayLength ≤ index.toInt.toNat := by omega
    rw [writeItem_of_indexable indexable negative below, heldItems_of_array array, storeItem,
      if_neg below, if_pos inside]
    rfl
  constructor
  · intro stored
    have storable : s.ItemStorable c p name index := by
      have outcome := s.writeItem_outcome c p name index v
      rw [stored] at outcome
      cases outcome with
      | stored storable => exact storable
    rw [written storable] at stored
    cases stored
    exact ⟨storable, rfl⟩
  · rintro ⟨storable, rfl⟩
    exact written storable

end Store

/-- If there is room for the array, an indexed store succeeds exactly for an index below the limit and
a variable whose items can be stored. Then the variable reads as the array that it held, or as a new
one, with the item at the index and undefined values in a gap before it; the item reads as stored; and
no other cell differs. -/
theorem stored_item_read_back (c : Config) (s : Store) (p : Place) (name : String) (index : Int64)
    (v : Value) (room : (s.heldItems p name).size ≤ index.toInt.toNat →
      isAllocatable (index.toInt.toNat + 1) = true) :
    ((∃ after, Store.writeItem c p name index v s = .ok () after) ↔
        0 ≤ index.toInt ∧ index.toInt < c.maxArrayLength ∧ s.Indexable name p) ∧
      ∀ after, Store.writeItem c p name index v s = .ok () after →
        (∃ items, after.read p name = .ok (.array items) ∧
          StoredAt (s.heldItems p name) index.toInt.toNat v items) ∧
        after.readItem p name index = .ok v ∧ (p.cell name).SameBut s after := by
  have outcome := s.writeItem_outcome c p name index v
  generalize Store.writeItem c p name index v s = result at outcome
  cases outcome with
  | @stored items storable _ placed =>
      refine ⟨iff_of_true ⟨_, rfl⟩ storable, ?_⟩
      rintro _ ⟨⟩
      obtain ⟨reached, -, indexable⟩ := storable
      exact ⟨⟨items, Store.read_withItems indexable items, placed⟩,
        Store.readItem_withItems indexable reached placed.stored,
        Store.sameBut_withItems indexable items⟩
  | refused refused => exact ⟨iff_of_false nofun refused, nofun⟩
  | full storable outside full =>
      rw [room outside] at full
      cases full

/-- The last index below the limit is behind a gap of one item. -/
theorem stored_item_read_back_behind_gap :
    let xs : Value := .array #[.int32 1]
    let s : Store :=
      { bindings := {}, globals := (∅ : Variables).insert "xs" xs, instances := .startingAt 100000 }
    ((s.heldItems .globals "xs").size ≤ 2 → isAllocatable 3 = true) ∧
      ∃ after items,
        Store.writeItem { maxArrayLength := 3 } .globals "xs" 2 (.int32 9) s = .ok () after ∧
        after.read .globals "xs" = .ok (.array items) ∧ items.size = 3 ∧
        items[0]? = some (.int32 1) ∧ items[1]? = some .undefined ∧
        after.readItem .globals "xs" 2 = .ok (.int32 9) := by
  intro xs s
  have held : s.heldItems .globals "xs" = #[.int32 1] := by
    have array : s.read .globals "xs" = .ok xs := Store.present_insert_self ∅ "xs" xs
    rw [Store.heldItems, array]
    rfl
  have room : (s.heldItems .globals "xs").size ≤ 2 → isAllocatable 3 = true := fun _ => by decide
  obtain ⟨succeeds, spec⟩ :=
    stored_item_read_back { maxArrayLength := 3 } s .globals "xs" 2 (.int32 9) room
  obtain ⟨after, stored⟩ := succeeds.mpr ⟨by decide, by decide, trivial⟩
  obtain ⟨⟨items, read, placed⟩, item, -⟩ := spec after stored
  rw [held] at placed
  exact ⟨room, after, items, stored, read, placed.size_eq, placed.kept 0 (by decide) (by decide),
    placed.gap 1 (by decide) (by decide), item⟩

end ScriptMachine
