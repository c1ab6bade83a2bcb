import ScriptMachine.Proofs.Machine.History

/-!
Functions that reloading hides. The index keeps one owner for a function name. If a second script
declares the name and is then replaced by one that does not, the index forgets the name, although
the first script is still loaded and still declares it. `Displaced` says exactly when that happens.
-/

namespace ScriptMachine

/-- No script has the name of the function, and among the loads is one of another script than `s`
that declared it, that was replaced later, and after which nothing has declared it. -/
def Displaced (loads : List Script) (s : Script) (f : String) : Prop :=
  (∀ t ∈ loads, t.name ≠ f) ∧
    ∃ before t after, loads = before ++ t :: after ∧ t.Declares f ∧ t.name ≠ s.name ∧
      (∀ u ∈ after, ¬ u.Declares f) ∧ ∃ u ∈ after, u.name = t.name

/-! ### The last item behind another -/

section LastWith

variable {α : Type} {P : α → Prop} {l before after : List α} {x y : α}

theorem LastWith.mem (last : LastWith P l y) : y ∈ l := by
  obtain ⟨front, back, rfl, -, -⟩ := last
  simp

/-- The last item with a property does not stand before another one with it. -/
theorem LastWith.behind (last : LastWith P (before ++ x :: after) y) (holds : P x) :
    LastWith P after y ∨ ((∀ z ∈ after, ¬ P z) ∧ y = x) := by
  induction before with
  | nil =>
      obtain ⟨front, back, eq, found, none⟩ := last
      cases front with
      | nil =>
          obtain ⟨rfl, rfl⟩ := List.cons.inj eq
          exact .inr ⟨none, rfl⟩
      | cons b front =>
          obtain ⟨rfl, rfl⟩ := List.cons.inj eq
          exact .inl ⟨front, back, rfl, found, none⟩
  | cons b before ih =>
      obtain ⟨front, back, eq, found, none⟩ := last
      cases front with
      | nil =>
          obtain ⟨rfl, rfl⟩ := List.cons.inj eq
          exact absurd holds (none x (by simp))
      | cons c front =>
          obtain ⟨rfl, rest⟩ := List.cons.inj eq
          exact ih ⟨front, back, rest, found, none⟩

theorem LastWith.unique (first : LastWith P l x) (second : LastWith P l y) : y = x := by
  obtain ⟨before, after, rfl, holds, none⟩ := first
  rcases second.behind holds with later | ⟨-, eq⟩
  · exact absurd later.holds (none y later.mem)
  · exact eq

end LastWith

/-! ### What a program has forgotten -/

theorem Script.declares_withFunction (s : Script) (label : Int64) (index : UInt64) (f : String) :
    (s.withFunction label index f).Declares f :=
  ⟨label, ⟨index, some f⟩, Std.ExtTreeMap.getElem?_insert_self, rfl⟩

theorem Script.not_declares_of_labels_empty {s : Script} (empty : s.labels = ∅) (f : String) :
    ¬ s.Declares f := by
  rintro ⟨label, l, found, -⟩
  simp [empty] at found

namespace Program

variable {p : Program} {loads : List Script} {s : Script} {f : String}

/-- No script is held under a name exactly if none of that name was loaded. -/
theorem Indexes.scripts_eq_none_iff (indexed : p.Indexes loads) (name : String) :
    p.scripts[name]? = none ↔ ∀ t ∈ loads, t.name ≠ name := by
  constructor
  · intro missing t mem same
    obtain ⟨u, last⟩ := exists_lastWith (P := (·.name = name)) ⟨t, mem, same⟩
    rw [(indexed.scripts name u).mpr last] at missing
    cases missing
  · intro other
    cases found : p.scripts[name]? with
    | none => rfl
    | some u =>
        have last := (indexed.scripts name u).mp found
        exact absurd last.holds (other u last.mem)

/-- The last script that declared a function keeps it in the index until it is replaced. -/
theorem Indexes.functions_eq_none_iff (indexed : p.Indexes loads) {before after : List Script}
    {t : Script} (eq : loads = before ++ t :: after) (declares : t.Declares f)
    (none_later : ∀ u ∈ after, ¬ u.Declares f) :
    p.functions[f]? = none ↔ ∃ u ∈ after, u.name = t.name := by
  subst eq
  constructor
  · intro missing
    -- Unreplaced, `t` would still be in place and own the function.
    refine Classical.byContradiction fun unreplaced => ?_
    have current : p.scripts[t.name]? = some t :=
      (indexed.scripts t.name t).mpr
        ⟨before, after, rfl, rfl, fun u mem same => unreplaced ⟨u, mem, same⟩⟩
    have last : LastWith (·.Declares f) (before ++ t :: after) t :=
      ⟨before, after, rfl, declares, none_later⟩
    obtain ⟨index, starts⟩ := declares.exists_startsAt
    rw [(indexed.functions f ⟨t, index⟩).mpr ⟨last, current, starts⟩] at missing
    cases missing
  · rintro ⟨u, mem, same⟩
    cases found : p.functions[f]? with
    | none => rfl
    | some e =>
        obtain ⟨last, current, -⟩ := (indexed.functions f e).mp found
        -- An owner could only be `t`, the last to declare the function.
        have owner : e.script = t :=
          LastWith.unique ⟨before, after, rfl, declares, none_later⟩ last
        rw [owner, indexed.scripts] at current
        rcases current.behind rfl with later | ⟨unreplaced, -⟩
        · exact absurd declares (none_later t later.mem)
        · exact absurd same (unreplaced u mem)

theorem lookup?_eq_none_iff : p.lookup? f = none ↔ p.scripts[f]? = none ∧ p.functions[f]? = none := by
  unfold lookup?
  cases p.scripts[f]? <;> simp

/-- A function that a loaded script declares is not found exactly if it is displaced. -/
theorem Indexes.lookup?_eq_none_iff_displaced (indexed : p.Indexes loads)
    (loaded : LastWith (·.name = s.name) loads s) (declared : s.Declares f) :
    p.lookup? f = none ↔ Displaced loads s f := by
  rw [lookup?_eq_none_iff, indexed.scripts_eq_none_iff]
  refine and_congr_right fun _ => ?_
  obtain ⟨t, before, after, eq, declares, none_later⟩ :=
    exists_lastWith (P := (·.Declares f)) ⟨s, loaded.mem, declared⟩
  constructor
  · intro missing
    obtain ⟨u, mem, same⟩ := (indexed.functions_eq_none_iff eq declares none_later).mp missing
    refine ⟨before, t, after, eq, declares, ?_, none_later, u, mem, same⟩
    -- Otherwise the script in place of `t` would be `s`, which does declare the function.
    intro own
    rw [eq] at loaded
    rcases loaded.behind own with later | ⟨unreplaced, -⟩
    · exact none_later s later.mem declared
    · exact unreplaced u mem (same.trans own)
  · rintro ⟨before, t, after, eq, declares, -, none_later, replaced⟩
    exact (indexed.functions_eq_none_iff eq declares none_later).mpr replaced

end Program

/-! ### What callers are told -/

/-- The host is told that a function is unknown exactly if it is not found. -/
theorem Machine.call_unknown_iff {m : Machine} {f : String} (fuel : Nat) (instances : Registry)
    (self? : Option InstanceId) (arguments : Array Value) :
    (m.call fuel instances f self? arguments).outcome = .failed (.unknownScript f) ↔
      m.program.lookup? f = none := by
  unfold call
  cases m.program.lookup? f with
  | none => simp [unknown]
  | some e =>
      simp only [enter_eq_report]
      cases run m.program m.calls.depth fuel (m.entered instances e self? arguments) <;>
        simp [Progress.report]

/-- Running code is told that a function is unknown exactly if it is not found and one more call
would be allowed. -/
theorem enterCall_unknown_iff {p : Program} {base : Nat} {site : Site} {f : String}
    {arguments : Array Value} {s : State} :
    (∃ left, enterCall p base site f arguments s
        = .aborted ⟨.fatal, site, .unknownFunction f⟩ left) ↔
      s.depth base < p.config.maxCallDepth ∧ p.lookup? f = none := by
  unfold enterCall
  by_cases deep : p.config.maxCallDepth ≤ s.depth base
  · simp [deep, State.abort, Nat.not_lt.mpr deep]
  · cases p.lookup? f <;> simp [deep, State.abort, Nat.lt_of_not_le deep]

/-- While a script that declares a function is loaded, calls of the function are told that it is
unknown exactly if it is displaced: another script took its name over and was then replaced. -/
theorem loaded_function_unknown_iff_displaced (config : Config) (natives : Natives)
    (loads : List Script) (f : String) (s : Script) (loaded : LastWith (·.name = s.name) loads s)
    (declared : s.Declares f) :
    let m := ((Machine.new config natives).loadAll loads).1
    (m.program.lookup? f = none ↔ Displaced loads s f) ∧
      (∀ fuel instances self? arguments,
        (m.call fuel instances f self? arguments).outcome = .failed (.unknownScript f) ↔
          Displaced loads s f) ∧
      ∀ base site arguments (state : State),
        (∃ left, enterCall m.program base site f arguments state
            = .aborted ⟨.fatal, site, .unknownFunction f⟩ left) ↔
          state.depth base < m.program.config.maxCallDepth ∧ Displaced loads s f := by
  intro m
  have indexed : m.program.Indexes loads :=
    (Machine.new config natives).indexes_loadAll (Program.Indexes.empty config natives) loads
  have found := indexed.lookup?_eq_none_iff_displaced loaded declared
  refine ⟨found, ?_, ?_⟩
  · intro fuel instances self? arguments
    exact (Machine.call_unknown_iff fuel instances self? arguments).trans found
  · intro base site arguments state
    exact enterCall_unknown_iff.trans (and_congr_right fun _ => found)

/-- If `a` takes a function over from `b`, replacing `b` does not hide it. -/
theorem loaded_function_found_after_takeover :
    let a := Script.withFunction { assetId := 0, name := "a", instructions := #[.exit] } 0 0 "f"
    let b := Script.withFunction { assetId := 1, name := "b", instructions := #[.exit] } 0 0 "f"
    let bare : Script := { assetId := 1, name := "b", instructions := #[.exit] }
    let m := ((Machine.new {} Native.standard).loadAll [b, a, bare]).1
    LastWith (·.name = a.name) [b, a, bare] a ∧ a.Declares "f" ∧ m.program.lookup? "f" ≠ none := by
  intro a b bare m
  have loaded : LastWith (·.name = a.name) [b, a, bare] a := ⟨[b], [bare], rfl, rfl, by decide⟩
  have declared : a.Declares "f" := Script.declares_withFunction _ 0 0 "f"
  have bare_without : ¬ bare.Declares "f" := Script.not_declares_of_labels_empty rfl "f"
  refine ⟨loaded, declared, ?_⟩
  rw [ne_eq, (loaded_function_unknown_iff_displaced {} Native.standard [b, a, bare] "f" a loaded
    declared).1]
  rintro ⟨-, before, t, after, eq, declares, other, none_later, -⟩
  have last : LastWith (·.Declares "f") [b, a, bare] a :=
    ⟨[b], [bare], rfl, declared, by simpa using bare_without⟩
  have owner : t = a := last.unique ⟨before, after, eq, declares, none_later⟩
  exact other (congrArg Script.name owner)

/-- In the other order it does: `a` stays loaded with its function, and calls are told that the
function is unknown. -/
theorem reload_hides_loaded_function :
    let a := Script.withFunction { assetId := 0, name := "a", instructions := #[.exit] } 0 0 "f"
    let b := Script.withFunction { assetId := 1, name := "b", instructions := #[.exit] } 0 0 "f"
    let bare : Script := { assetId := 1, name := "b", instructions := #[.exit] }
    let m := ((Machine.new {} Native.standard).loadAll [a, b, bare]).1
    m.program.scripts["a"]? = some a ∧ a.Declares "f" ∧ m.program.lookup? "f" = none ∧
      (m.call 1 (.startingAt 100000) "f" none #[]).outcome = .failed (.unknownScript "f") := by
  intro a b bare m
  have loaded : LastWith (·.name = a.name) [a, b, bare] a := ⟨[], [b, bare], rfl, rfl, by decide⟩
  have declared : a.Declares "f" := Script.declares_withFunction _ 0 0 "f"
  have indexed : m.program.Indexes [a, b, bare] :=
    (Machine.new {} Native.standard).indexes_loadAll (Program.Indexes.empty _ _) [a, b, bare]
  have displaced : Displaced [a, b, bare] a "f" := by
    refine ⟨by decide, [a], b, [bare], rfl, Script.declares_withFunction _ 0 0 "f", by decide, ?_,
      bare, List.mem_singleton_self _, rfl⟩
    intro u mem
    rw [List.mem_singleton.mp mem]
    exact Script.not_declares_of_labels_empty rfl "f"
  have missing := (indexed.lookup?_eq_none_iff_displaced loaded declared).mpr displaced
  exact ⟨(indexed.scripts "a" a).mpr loaded, declared, missing,
    (Machine.call_unknown_iff 1 _ none #[]).mpr missing⟩

end ScriptMachine
