import ScriptMachine.Proofs.Table
import ScriptMachine.Storage.Element

/-!
Items of arrays, one at a time. A store of an item has three outcomes: the item is in its place,
the index is past the limit, or there is no room for the longer array. What the array holds
afterwards is said index by index.
-/

namespace ScriptMachine

/-- The new items are the old ones with a value stored at an index, and with undefined values
between the last of the old ones and the index. -/
structure StoredAt (old : Array Value) (index : Nat) (v : Value) (new : Array Value) : Prop where
  size_eq : new.size = max old.size (index + 1)
  stored : new[index]? = some v
  kept : ∀ j, j < old.size → j ≠ index → new[j]? = old[j]?
  gap : ∀ j, old.size ≤ j → j < index → new[j]? = some .undefined

/-- What a store of an item may come to; a failure leaves the items as they were. -/
inductive ItemOutcome (limit index : Nat) (v : Value) (items : Array Value) :
    EStateM.Result RuntimeError (Array Value) Unit → Prop where
  | stored {after : Array Value} (below : index < limit)
      (room : items.size ≤ index → isAllocatable (index + 1) = true)
      (placed : StoredAt items index v after) : ItemOutcome limit index v items (.ok () after)
  | past (past : limit ≤ index) :
      ItemOutcome limit index v items (.error (tooLarge index limit) items)
  | full (below : index < limit) (outside : items.size ≤ index)
      (full : isAllocatable (index + 1) = false) :
      ItemOutcome limit index v items (.error (.outOfMemory (index + 1)) items)

/-- An index within the array overwrites the item there. -/
theorem storedAt_setIfInBounds {items : Array Value} {index : Nat} (v : Value)
    (inside : index < items.size) : StoredAt items index v (items.setIfInBounds index v) where
  size_eq := by
    rw [Array.size_setIfInBounds]
    omega
  stored := by
    rw [Array.getElem?_setIfInBounds_self, if_pos inside]
  kept := by
    intro j _ other
    exact Array.getElem?_setIfInBounds_ne (Ne.symm other)
  gap := by
    intro j outside before
    omega

/-- An index past the last item fills the gap before it with undefined values. -/
theorem storedAt_push {items : Array Value} {index : Nat} (v : Value)
    (outside : items.size ≤ index) :
    StoredAt items index v
      ((items ++ Array.replicate (index - items.size) Value.undefined).push v) := by
  have filled : (items ++ Array.replicate (index - items.size) Value.undefined).size = index := by
    rw [Array.size_append, Array.size_replicate]
    omega
  refine ⟨?_, ?_, ?_, ?_⟩
  · rw [Array.size_push, filled]
    omega
  · rw [Array.getElem?_push, filled, if_pos rfl]
  · intro j inside other
    rw [Array.getElem?_push, filled, if_neg other, Array.getElem?_append_left inside]
  · intro j behind before
    rw [Array.getElem?_push, filled, if_neg (Nat.ne_of_lt before),
      Array.getElem?_append_right behind, Array.getElem?_replicate, if_pos (by omega)]

/-- The new items are old ones, the stored value and undefined values. -/
theorem StoredAt.mem_cases {old new : Array Value} {index : Nat} {v w : Value}
    (placed : StoredAt old index v new) (mem : w ∈ new) : w ∈ old ∨ w = v ∨ w = .undefined := by
  obtain ⟨j, found⟩ := Array.mem_iff_getElem?.mp mem
  by_cases here : j = index
  · subst here
    exact .inr (.inl (Option.some.inj (found.symm.trans placed.stored)))
  · by_cases inside : j < old.size
    · rw [placed.kept j inside here] at found
      exact .inl (Array.mem_of_getElem? found)
    · have bound := (Array.getElem?_eq_some_iff.mp found).1
      rw [placed.size_eq] at bound
      have filler := placed.gap j (by omega) (by omega)
      exact .inr (.inr (Option.some.inj (found.symm.trans filler)))

/-- A store of an item puts it in its place, finds the index past the limit, or finds no room. -/
theorem storeItem_outcome (limit index : Nat) (v : Value) (items : Array Value) :
    ItemOutcome limit index v items (storeItem limit index v items) := by
  unfold storeItem
  split
  · rename_i past
    exact .past past
  · rename_i below
    rw [Nat.not_le] at below
    split
    · rename_i inside
      exact .stored below (fun outside => absurd inside (Nat.not_lt.mpr outside))
        (storedAt_setIfInBounds v inside)
    · rename_i outside
      rw [Nat.not_lt] at outside
      split
      · rename_i room
        exact .stored below (fun _ => room) (storedAt_push v outside)
      · rename_i full
        exact .full below outside (Bool.eq_false_iff.mpr full)

theorem storeItem_error {limit index : Nat} {v : Value} {items after : Array Value}
    {e : RuntimeError} (failed : storeItem limit index v items = .error e after) :
    after = items := by
  have outcome := storeItem_outcome limit index v items
  rw [failed] at outcome
  cases outcome <;> rfl

/-- The array is put back where it was taken out, so the variable might as well have stayed. -/
theorem storeCell_eq (limit : Nat) (name : String) (index : Nat) (v : Value) (vars : Variables) :
    storeCell limit name index v vars =
      if limit ≤ index then .error (tooLarge index limit) vars
      else Action.restore (fun items => Std.ExtTreeMap.insert vars name (.array items))
        (storeItem limit index v (itemsOf vars[name]?)) := by
  simp only [storeCell, Table.insert_erase]

/-! ### Reading an item -/

/-- What the item at an index reads as, given what its variable reads as. -/
inductive ItemRead (name : String) (index : Int64) :
    Except RuntimeError Value → Except RuntimeError Value → Prop where
  | inside {items : Array Value} {v : Value} (reached : 0 ≤ index.toInt)
      (found : items[index.toInt.toNat]? = some v) : ItemRead name index (.ok (.array items)) (.ok v)
  | outside {items : Array Value} (missed : index.toInt < 0 ∨ items.size ≤ index.toInt) :
      ItemRead name index (.ok (.array items)) (.error (.indexOutOfBounds index items.size))
  | scalar {v : Value} (scalar : v.items? = none) :
      ItemRead name index (.ok v) (.error (.notAnArray name))
  | unset : ItemRead name index (.error (.unsetVariable name)) (.error (.unsetVariable name))

/-- An item is found exactly in an array that has one at the index. -/
theorem ItemRead.eq_ok_iff {name : String} {index : Int64} {held result : Except RuntimeError Value}
    (follows : ItemRead name index held result) {v : Value} : result = .ok v ↔
      ∃ items, held = .ok (.array items) ∧ 0 ≤ index.toInt ∧ items[index.toInt.toNat]? = some v := by
  cases follows with
  | @inside items w reached found =>
      constructor
      · rintro ⟨⟩
        exact ⟨items, rfl, reached, found⟩
      · rintro ⟨_, ⟨⟩, -, found'⟩
        rw [Option.some.inj (found.symm.trans found')]
  | outside missed =>
      constructor
      · rintro ⟨⟩
      · rintro ⟨_, ⟨⟩, reached, found⟩
        have bound := (Array.getElem?_eq_some_iff.mp found).1
        omega
  | scalar scalar =>
      constructor
      · rintro ⟨⟩
      · rintro ⟨_, ⟨⟩, -⟩
        cases scalar
  | unset =>
      constructor
      · rintro ⟨⟩
      · rintro ⟨_, ⟨⟩, -⟩

theorem index_lt_zero_iff {index : Int64} : index < 0 ↔ index.toInt < 0 :=
  Int64.lt_iff_toInt_lt

theorem itemRead_itemAt (name : String) (index : Int64) (items : Array Value) :
    ItemRead name index (.ok (.array items)) (itemAt items index) := by
  unfold itemAt
  split
  · rename_i negative
    exact .outside (.inl (index_lt_zero_iff.mp negative))
  · rename_i reached
    rw [index_lt_zero_iff, Int.not_lt] at reached
    split
    · rename_i found
      exact .inside reached found
    · rename_i missed
      rw [Array.getElem?_eq_none_iff] at missed
      exact .outside (.inr (by omega))

end ScriptMachine
