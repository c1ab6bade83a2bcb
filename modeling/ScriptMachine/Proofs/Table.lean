import Std.Data.ExtTreeMap

/-!
Tables: their values in the order of the keys, and entries that are taken out and put back.
-/

namespace ScriptMachine.Table

variable {α β γ : Type} {cmp : α → α → Ordering} [Std.TransCmp cmp]

theorem values_eq_map_toList (t : Std.ExtTreeMap α β cmp) : t.values = t.toList.map Prod.snd := by
  obtain ⟨⟨q⟩⟩ := t
  induction q using Quotient.inductionOn with
  | h m =>
      change m.inner.values = (Std.DTreeMap.Const.toList m).map Prod.snd
      rw [Std.DTreeMap.Internal.Impl.values_eq_map_snd]
      change _ = (Std.DTreeMap.Internal.Impl.Const.toList m.inner).map Prod.snd
      rw [Std.DTreeMap.Internal.Impl.Const.toList_eq_toListModel_map]
      simp

theorem mem_values_iff [Std.LawfulEqCmp cmp] {t : Std.ExtTreeMap α β cmp} {v : β} :
    v ∈ t.values ↔ ∃ k : α, t[k]? = some v := by
  simp only [values_eq_map_toList, List.mem_map, Prod.exists, exists_eq_right,
    Std.ExtTreeMap.mem_toList_iff_getElem?_eq_some]

theorem mem_values_of_getElem? [Std.LawfulEqCmp cmp] {t : Std.ExtTreeMap α β cmp} {k : α} {v : β}
    (found : t[k]? = some v) : v ∈ t.values :=
  mem_values_iff.mpr ⟨k, found⟩

theorem values_map (t : Std.ExtTreeMap α β cmp) (f : β → γ) :
    (t.map fun _ v => f v).values = t.values.map f := by
  rw [values_eq_map_toList, values_eq_map_toList, Std.ExtTreeMap.toList_map, List.map_map,
    List.map_map]
  rfl

/-- Tables that show the same under a view have lists of values that do. -/
theorem map_values_eq [Std.LawfulEqCmp cmp] {t t' : Std.ExtTreeMap α β cmp} {f : β → γ}
    (same : ∀ k : α, t'[k]?.map f = t[k]?.map f) : t'.values.map f = t.values.map f := by
  have mapped : (t'.map fun _ v => f v) = t.map fun _ v => f v := by
    apply Std.ExtTreeMap.ext_getElem?
    intro k
    rw [Std.ExtTreeMap.getElem?_map, Std.ExtTreeMap.getElem?_map]
    exact same k
  rw [← values_map, ← values_map, mapped]

/-- What is put in does not depend on what was taken out before. -/
theorem insert_erase [Std.LawfulEqCmp cmp] (t : Std.ExtTreeMap α β cmp) (k : α) (v : β) :
    (t.erase k).insert k v = t.insert k v := by
  apply Std.ExtTreeMap.ext_getElem?
  intro other
  simp only [Std.ExtTreeMap.getElem?_insert, Std.ExtTreeMap.getElem?_erase]
  split <;> rfl

/-- An entry that is put in as it was changes nothing. -/
theorem insert_self [Std.LawfulEqCmp cmp] {t : Std.ExtTreeMap α β cmp} {k : α} {v : β}
    (found : t[k]? = some v) : t.insert k v = t := by
  apply Std.ExtTreeMap.ext_getElem?
  intro other
  rw [Std.ExtTreeMap.getElem?_insert]
  split
  · rename_i eq
    rw [← Std.LawfulEqCmp.eq_of_compare eq]
    exact found.symm
  · rfl

/-- A table is what its entries build. -/
theorem foldl_insert_toList [BEq α] [LawfulBEq α] [Std.LawfulEqCmp cmp]
    (t : Std.ExtTreeMap α β cmp) : t.toList.foldl (fun m (k, v) => m.insert k v) ∅ = t := by
  have built : t.toList.foldl (fun m (k, v) => m.insert k v) ∅
      = (∅ : Std.ExtTreeMap α β cmp).insertMany t.toList :=
    Std.ExtTreeMap.insertMany_list_eq_foldl.symm
  rw [built]
  apply Std.ExtTreeMap.ext_getElem?
  intro k
  cases found : t[k]? with
  | some v =>
      exact Std.ExtTreeMap.getElem?_insertMany_list_of_mem Std.ReflCmp.compare_self
        Std.ExtTreeMap.distinct_keys_toList
        (Std.ExtTreeMap.mem_toList_iff_getElem?_eq_some.mpr found)
  | none =>
      rw [Std.ExtTreeMap.getElem?_insertMany_list_of_contains_eq_false]
      · exact Std.ExtTreeMap.getElem?_empty
      · rw [List.contains_eq_mem, decide_eq_false_iff_not, List.mem_map]
        rintro ⟨⟨other, v⟩, mem, rfl⟩
        rw [Std.ExtTreeMap.mem_toList_iff_getElem?_eq_some] at mem
        cases found.symm.trans mem

end ScriptMachine.Table
