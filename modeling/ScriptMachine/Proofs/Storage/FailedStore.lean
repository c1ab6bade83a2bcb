import ScriptMachine.Proofs.Storage.Indexed

/-!
Stores that fail. A failed store changes nothing, with one exception. An indexed store makes the
variable an array before it looks for room for the item; if there is none, a variable that held no
array holds an empty one afterwards. `LeavesEmptyArray` says exactly when that happens.
-/

namespace ScriptMachine

/-- The variable holds no array, its items could be stored at the index, and there is no room for an
array that reaches so far. -/
structure Store.LeavesEmptyArray (c : Config) (s : Store) (p : Place) (name : String)
    (index : Int64) : Prop where
  storable : s.ItemStorable c p name index
  scalar : ∀ items, s.read p name ≠ .ok (.array items)
  full : isAllocatable (index.toInt.toNat + 1) = false

namespace Store

variable {c : Config} {s : Store} {p : Place} {name : String} {index : Int64}

theorem heldItems_of_scalar (scalar : ∀ items, s.read p name ≠ .ok (.array items)) :
    s.heldItems p name = #[] := by
  unfold heldItems
  cases read : s.read p name with
  | error e => rfl
  | ok v =>
      cases v with
      | array items => exact absurd read (scalar items)
      | _ => rfl

/-- An array that is put back as it was leaves no trace. -/
theorem withItems_of_array (indexable : s.Indexable name p) {items : Array Value}
    (array : s.read p name = .ok (.array items)) : s.withItems p name items = s := by
  cases p with
  | globals => simp only [withItems, Table.insert_self (present_eq_ok_iff.mp array)]
  | locals => simp only [withItems, Table.insert_self (present_eq_ok_iff.mp array)]
  | arguments =>
      obtain rfl : name = "argument" := indexable
      cases array
      rfl
  | object id =>
      obtain ⟨free, i, live⟩ := indexable.object
      rw [read_object live] at array
      simp only [Instance.look, free] at array
      simp only [withItems, live, Table.insert_self (present_eq_ok_iff.mp array), Registry.put_self live]

/-- With room for the item, or with an array in the variable, a failure changes nothing. -/
theorem eq_of_writeItem_error {v : Value} {e : RuntimeError} {after : Store}
    (failed : writeItem c p name index v s = .error e after)
    (kept : ¬ s.LeavesEmptyArray c p name index) : after = s := by
  have outcome := s.writeItem_outcome c p name index v
  rw [failed] at outcome
  cases outcome with
  | refused => rfl
  | full storable outside full =>
      by_cases scalar : ∀ items, s.read p name ≠ .ok (.array items)
      · exact absurd ⟨storable, scalar, full⟩ kept
      · obtain ⟨items, array⟩ := not_forall_not.mp scalar
        rw [heldItems_of_array array, withItems_of_array storable.2.2 array]

/-- Otherwise the variable is emptied. -/
theorem LeavesEmptyArray.writeItem_eq (emptied : s.LeavesEmptyArray c p name index) (v : Value) :
    writeItem c p name index v s
      = .error (.outOfMemory (index.toInt.toNat + 1)) (s.withItems p name #[]) := by
  obtain ⟨storable, scalar, full⟩ := emptied
  have held := heldItems_of_scalar scalar
  have outcome := s.writeItem_outcome c p name index v
  generalize writeItem c p name index v s = result at outcome
  cases outcome with
  | stored _ room =>
      rw [held] at room
      rw [room (Nat.zero_le _)] at full
      cases full
  | refused refused => exact absurd storable refused
  | full => rw [held]

/-- What the variable holds then is new. -/
theorem LeavesEmptyArray.withItems_ne (emptied : s.LeavesEmptyArray c p name index) :
    s.withItems p name #[] ≠ s := by
  intro same
  have array := read_withItems emptied.storable.2.2 #[]
  rw [same] at array
  exact emptied.scalar #[] array

end Store

/-- A plain store that fails changes nothing. An indexed store that fails changes nothing, unless the
variable holds no array and there is no room for one that reaches the index; then it fails for want of
memory, the variable reads as an empty array, and no other cell differs. -/
theorem failed_store_unchanged_iff (c : Config) (s : Store) (p : Place) (name : String) (v : Value) :
    (∀ e after, Store.write c p name v s = .error e after → after = s) ∧
      ∀ index,
        (∀ e after, Store.writeItem c p name index v s = .error e after →
          (after = s ↔ ¬ s.LeavesEmptyArray c p name index)) ∧
        (s.LeavesEmptyArray c p name index → ∃ after,
          Store.writeItem c p name index v s
              = .error (.outOfMemory (index.toInt.toNat + 1)) after ∧
            after.read p name = .ok (.array #[]) ∧ (p.cell name).SameBut s after) := by
  refine ⟨fun e after failed => (Store.confined_write c p name v).error failed, fun index => ?_⟩
  constructor
  · intro e after failed
    constructor
    · rintro same emptied
      rw [emptied.writeItem_eq v] at failed
      cases failed
      exact emptied.withItems_ne same
    · intro kept
      exact Store.eq_of_writeItem_error failed kept
  · intro emptied
    have indexable := emptied.storable.2.2
    exact ⟨_, emptied.writeItem_eq v, Store.read_withItems indexable #[],
      Store.sameBut_withItems indexable #[]⟩

/-- Without room for the item an array keeps its items, and an unset variable becomes an empty array;
a name that stands for no argument stores nothing. -/
theorem failed_store_keeps_array :
    let c : Config := { maxArrayLength := UInt64.size - 1 }
    let xs : Value := .array #[.int32 1]
    let s : Store :=
      { bindings := {}, globals := (∅ : Variables).insert "xs" xs, instances := .startingAt 100000 }
    (∃ e after, Store.write c .arguments "argument" xs s = .error e after ∧ after = s) ∧
      (∃ e after, Store.writeItem c .globals "xs" 4611686018427387904 xs s = .error e after ∧
        after = s) ∧
      s.LeavesEmptyArray c .locals "ys" 4611686018427387904 ∧
      ∃ after, Store.writeItem c .locals "ys" 4611686018427387904 xs s
          = .error (.outOfMemory 4611686018427387905) after ∧
        after.read .locals "ys" = .ok (.array #[]) := by
  intro c xs s
  have full : isAllocatable 4611686018427387905 = false := by decide
  have array : s.read .globals "xs" = .ok xs := Store.present_insert_self ∅ "xs" xs
  have emptied : s.LeavesEmptyArray c .locals "ys" 4611686018427387904 := by
    refine ⟨⟨by decide, by decide, trivial⟩, ?_, full⟩
    have unset : s.read .locals "ys" = .error (.unsetVariable "ys") := rfl
    rw [unset]
    nofun
  refine ⟨⟨_, _, rfl, ?_⟩, ?_, emptied, ?_⟩
  · exact (failed_store_unchanged_iff c s .arguments "argument" xs).1 _ _ rfl
  · have outcome := s.writeItem_outcome c .globals "xs" 4611686018427387904 xs
    generalize failed : Store.writeItem c .globals "xs" 4611686018427387904 xs s = result at outcome
    have unchanged e after := ((failed_store_unchanged_iff c s .globals "xs" xs).2
      4611686018427387904).1 e after
    rw [failed] at unchanged
    have kept : ¬ s.LeavesEmptyArray c .globals "xs" 4611686018427387904 :=
      fun emptied => emptied.scalar _ array
    cases outcome with
    | stored _ room =>
        rw [Store.heldItems_of_array array] at room
        cases full.symm.trans (room (by decide))
    | refused refused => exact absurd ⟨by decide, by decide, trivial⟩ refused
    | full => exact ⟨_, _, rfl, (unchanged _ _ rfl).mpr kept⟩
  · obtain ⟨after, failed, empty, -⟩ := ((failed_store_unchanged_iff c s .locals "ys" xs).2
      4611686018427387904).2 emptied
    exact ⟨after, failed, empty⟩

/-- The variable held a number and holds an empty array after the failure. -/
theorem failed_store_empties_number :
    let c : Config := { maxArrayLength := UInt64.size - 1 }
    let vars : Variables := (∅ : Variables).insert "n" (.real 3)
    let s : Store := { bindings := { locals := vars }, instances := .startingAt 100000 }
    s.read .locals "n" = .ok (.real 3) ∧ ∃ after,
      Store.writeItem c .locals "n" 4611686018427387904 (.int32 1) s
          = .error (.outOfMemory 4611686018427387905) after ∧
        after.read .locals "n" = .ok (.array #[]) ∧ after ≠ s := by
  intro c vars s
  have number : s.read .locals "n" = .ok (.real 3) := Store.present_insert_self ∅ "n" _
  have emptied : s.LeavesEmptyArray c .locals "n" 4611686018427387904 := by
    refine ⟨⟨by decide, by decide, trivial⟩, ?_, by decide⟩
    rw [number]
    nofun
  exact ⟨number, _, emptied.writeItem_eq _, Store.read_withItems emptied.storable.2.2 #[],
    emptied.withItems_ne⟩

end ScriptMachine
