import ScriptMachine.Proofs.Variable.Operand
import ScriptMachine.Storage.Store

/-!
Integers that select storage. An integer can be written in an operand, where it stands for a scope,
or be taken off the operand stack as an id. Both ways select the same place or fail with the same
error, except for the integer reserved for statics: the scope is refused, but the id is looked up
among the instances.
-/

namespace ScriptMachine

/-- An integer in an operand is read as the scope that it stands for, however it is written. -/
theorem VariableRef.parse_numeral {context name : String} {id : Int32}
    (written : Text.Numeral context.toList id.toInt) (named : name ≠ "") :
    parse (context ++ "." ++ name) = .ok ⟨name, Scope.ofId id, .plain⟩ := by
  have denotes : Scope.Denotes context.toList (Scope.ofId id) :=
    .numeral written (Scope.ofId_eq_iff.mp rfl)
  have pointless : '.' ∉ context.toList := fun mem => (denotes.char '.' mem).1 rfl
  have splits : Splits (context ++ "." ++ name) .plain context name :=
    ⟨by rw [Access.marker, String.empty_append], pointless, ⟨_, denotes⟩, named⟩
  exact splits.parse denotes

theorem Scope.ofId_ne_statics {id : Int32} (modelled : id ≠ Reserved.statics) :
    ofId id ≠ statics := by
  intro eq
  cases ofId_eq_iff.mp eq with
  | reserved listed => exact modelled (by simpa [reserved] using listed)

namespace Store

/-- All reserved integers but one mean the same scope in both tables, and every other integer is
resolved. -/
theorem placeOfId_eq_placeOfScope (c : Config) (s : Store) {id : Int32}
    (modelled : id ≠ Reserved.statics) :
    s.placeOfId c id = s.placeOfScope c (Scope.ofId id) := by
  have selected : Scope.OfInteger id (Scope.ofId id) := Scope.ofId_eq_iff.mp rfl
  generalize Scope.ofId id = scope at selected
  cases selected with
  | reserved listed =>
      simp only [Scope.reserved, List.mem_cons, Prod.mk.injEq, List.not_mem_nil, or_false] at listed
      rcases listed with ⟨rfl, rfl⟩ | ⟨rfl, rfl⟩ | ⟨rfl, rfl⟩ | ⟨rfl, rfl⟩ | ⟨rfl, rfl⟩ |
        ⟨rfl, rfl⟩ | ⟨statics, -⟩
      iterate 6
        · rfl
      · exact absurd statics modelled
  | free unlisted =>
      simp only [Scope.IsReserved, Scope.reserved, List.map_cons, List.map_nil, List.mem_cons,
        List.not_mem_nil, or_false, not_or] at unlisted
      simp only [placeOfId, unlisted, if_false, placeOfScope]

/-- No look-up of an instance is refused, so the id reserved for statics is not treated like the
scope. -/
theorem placeOfId_statics_ne (c : Config) (s : Store) :
    s.placeOfId c Reserved.statics ≠ s.placeOfScope c .statics := by
  have resolved : s.placeOfId c Reserved.statics
      = (s.resolve c Reserved.statics).map Place.object := rfl
  rw [resolved, resolve, placeOfScope]
  cases s.instance? c Reserved.statics <;> nofun

end Store

/-- An integer that is written in an operand stands for a scope. As an id off the operand stack it
selects the same place as that scope, or fails with the same error, exactly if it is not the integer
reserved for statics. That one stands for a scope that is refused, and as an id it is resolved to an
instance. -/
theorem id_selects_place_of_scope_iff (c : Config) (s : Store) {context name : String} {id : Int32}
    (written : Text.Numeral context.toList id.toInt) (named : name ≠ "") :
    ∃ scope, VariableRef.parse (context ++ "." ++ name) = .ok ⟨name, scope, .plain⟩ ∧
      (s.placeOfId c id = s.placeOfScope c scope ↔ id ≠ Reserved.statics) ∧
      (id = Reserved.statics →
        s.placeOfScope c scope = .error (.unsupportedAddressing "static" "plain") ∧
          s.placeOfId c id = (s.resolve c id).map Place.object) := by
  refine ⟨Scope.ofId id, VariableRef.parse_numeral written named, ⟨?_, ?_⟩, ?_⟩
  · rintro same rfl
    exact s.placeOfId_statics_ne c same
  · intro modelled
    exact s.placeOfId_eq_placeOfScope c modelled
  · rintro rfl
    exact ⟨rfl, rfl⟩

/-- The integer reserved for built-in fields means the running instance in both ways. -/
theorem builtin_id_selects_running_instance :
    let s : Store :=
      { bindings := { self? := some 100001 },
        instances := (Registry.startingAt 100000).insert { assetId := 3, id := 100001 } }
    Text.Numeral "-06".toList Reserved.builtin.toInt ∧
      VariableRef.parse "-06.hp" = .ok ⟨"hp", .builtin, .plain⟩ ∧
      s.placeOfScope {} .builtin = .ok (.object 100001) ∧
      s.placeOfId {} Reserved.builtin = .ok (.object 100001) := by
  intro s
  have written : Text.Numeral "-06".toList Reserved.builtin.toInt :=
    .minus ⟨by decide, List.all_eq_true.mp (by decide)⟩
  have live : s.instances.isLive 100001 = true := by
    rw [Registry.isLive_eq, Registry.get?_insert, if_pos rfl, Option.isSome_some]
  have running : s.placeOfScope {} .builtin = .ok (.object 100001) := by
    have bound : s.instance? {} Reserved.self = some 100001 := Option.filter_some_pos live
    rw [Store.placeOfScope, Store.resolve, bound]
    rfl
  have named : "hp" ≠ "" := by decide
  obtain ⟨scope, parsed, same, -⟩ := id_selects_place_of_scope_iff {} s written named
  have read : VariableRef.parse "-06.hp" = .ok ⟨"hp", .builtin, .plain⟩ := rfl
  cases parsed.symm.trans read
  exact ⟨written, read, running, (same.mpr (by decide)).trans running⟩

/-- The scope of statics is refused, but the id reserved for it is taken for an id that no instance
has, or even for a live instance if ids of instances start below it. -/
theorem statics_id_taken_for_instance :
    let s : Store := { bindings := {}, instances := .startingAt 100000 }
    let t : Store := { s with instances := s.instances.insert { assetId := 3, id := -16 } }
    VariableRef.parse "-16.x" = .ok ⟨"x", .statics, .plain⟩ ∧
      s.placeOfScope {} .statics = .error (.unsupportedAddressing "static" "plain") ∧
      s.placeOfId {} (-16) = .error (.unresolvedInstance (-16)) ∧
      t.placeOfScope { firstInstanceId := -20 } .statics
        = .error (.unsupportedAddressing "static" "plain") ∧
      t.placeOfId { firstInstanceId := -20 } (-16) = .ok (.object (-16)) := by
  intro s t
  refine ⟨rfl, rfl, rfl, rfl, ?_⟩
  have found : t.instance? { firstInstanceId := -20 } (-16) = some (-16) := by
    have live : t.instances.get? (-16) = some { assetId := 3, id := -16 } := by
      rw [Registry.get?_insert, if_pos rfl]
    have looked_up : t.instance? { firstInstanceId := -20 } (-16)
        = (t.instances.get? (-16)).map Instance.id := rfl
    rw [looked_up, live, Option.map_some]
  have resolved : t.placeOfId { firstInstanceId := -20 } (-16)
      = (t.resolve { firstInstanceId := -20 } (-16)).map Place.object := rfl
  rw [resolved, Store.resolve, found]
  rfl

end ScriptMachine
