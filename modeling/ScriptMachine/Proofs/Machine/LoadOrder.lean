import ScriptMachine.Proofs.Machine.Initializers
import ScriptMachine.Proofs.Machine.Reload

/-!
The order of loads. If scripts have distinct names and no two of them declare one function, nothing is
ever replaced or taken over. Then what a program holds depends on which scripts were loaded and not on
the order, and so does whatever the machine runs later.
-/

namespace ScriptMachine

/-- No function is declared by two different scripts. -/
def SingleOwners (scripts : List Script) : Prop :=
  ∀ s ∈ scripts, ∀ t ∈ scripts, ∀ f, s.Declares f → t.Declares f → s = t

/-- If at most one item has a property, it is the last one that has it. -/
theorem lastWith_iff_mem {α : Type} {P : α → Prop} {l : List α} {x : α}
    (unique : ∀ y ∈ l, P y → P x → y = x) : LastWith P l x ↔ x ∈ l ∧ P x := by
  constructor
  · intro last
    exact ⟨last.mem, last.holds⟩
  · rintro ⟨mem, holds⟩
    obtain ⟨y, last⟩ := exists_lastWith ⟨x, mem, holds⟩
    rwa [unique y last.mem last.holds holds] at last

namespace Program

variable {p p' : Program} {loads loads' : List Script}

/-! ### What the scripts alone determine -/

/-- With distinct names, the scripts of a program are those that were loaded. -/
theorem Indexes.scripts_iff (indexed : p.Indexes loads) (names : (loads.map Script.name).Nodup)
    (name : String) (s : Script) : p.scripts[name]? = some s ↔ s ∈ loads ∧ s.name = name := by
  rw [indexed.scripts]
  constructor
  · intro last
    exact ⟨last.mem, last.holds⟩
  · rintro ⟨mem, rfl⟩
    refine (lastWith_iff_mem ?_).mpr ⟨mem, rfl⟩
    intro t t_mem same _
    exact List.inj_on_of_nodup_map names t_mem mem same

/-- With distinct names and single owners, every function of a loaded script is indexed, at its start
in that script. -/
theorem Indexes.functions_iff (indexed : p.Indexes loads) (names : (loads.map Script.name).Nodup)
    (owners : SingleOwners loads) (f : String) (e : Entry) :
    p.functions[f]? = some e ↔ e.script ∈ loads ∧ e.script.StartsAt f e.index := by
  rw [indexed.functions, indexed.scripts_iff names]
  constructor
  · rintro ⟨-, ⟨mem, -⟩, starts⟩
    exact ⟨mem, starts⟩
  · rintro ⟨mem, starts⟩
    refine ⟨(lastWith_iff_mem ?_).mpr ⟨mem, starts.declares⟩, ⟨mem, rfl⟩, starts⟩
    intro t t_mem declares declares'
    exact owners t t_mem e.script mem f declares declares'

/-- Two programs into which the same scripts were loaded hold the same. -/
theorem Indexes.eq_of_perm (indexed : p.Indexes loads) (indexed' : p'.Indexes loads')
    (perm : loads'.Perm loads) (names : (loads.map Script.name).Nodup) (owners : SingleOwners loads) :
    p'.scripts = p.scripts ∧ p'.functions = p.functions := by
  have names' : (loads'.map Script.name).Nodup := (perm.map Script.name).nodup_iff.mpr names
  have owners' : SingleOwners loads' := by
    intro s s_mem t t_mem f
    exact owners s (perm.subset s_mem) t (perm.subset t_mem) f
  constructor
  · apply Std.ExtTreeMap.ext_getElem?
    intro name
    apply Option.ext
    intro s
    rw [indexed.scripts_iff names, indexed'.scripts_iff names', perm.mem_iff]
  · apply Std.ExtTreeMap.ext_getElem?
    intro f
    apply Option.ext
    intro e
    rw [indexed.functions_iff names owners, indexed'.functions_iff names' owners', perm.mem_iff]

theorem eq_of_parts (config : p'.config = p.config) (natives : p'.natives = p.natives)
    (scripts : p'.scripts = p.scripts) (functions : p'.functions = p.functions) : p' = p := by
  cases p
  cases p'
  cases config
  cases natives
  cases scripts
  cases functions
  rfl

/-- The table lists every script once. -/
theorem Indexes.perm_values (indexed : p.Indexes loads) (names : (loads.map Script.name).Nodup) :
    p.scripts.values.Perm loads := by
  have member (s : Script) : s ∈ p.scripts.values ↔ s ∈ loads := by
    rw [Table.mem_values_iff]
    simp only [indexed.scripts_iff names]
    constructor
    · rintro ⟨-, mem, -⟩
      exact mem
    · intro mem
      exact ⟨s.name, mem, rfl⟩
  -- Scripts stand under their own names, so distinct keys hold distinct scripts.
  have own_name : ∀ entry ∈ p.scripts.toList, entry.2.name = entry.1 := by
    rintro ⟨name, s⟩ listed
    have found := Std.ExtTreeMap.mem_toList_iff_getElem?_eq_some.mp listed
    exact ((indexed.scripts_iff names name s).mp found).2
  have nodup : p.scripts.values.Nodup := by
    rw [Table.values_eq_map_toList]
    refine List.pairwise_map.mpr ?_
    refine Std.ExtTreeMap.distinct_keys_toList.imp_of_mem ?_
    intro a b a_mem b_mem apart same
    apply apart
    rw [← own_name a a_mem, ← own_name b b_mem, same]
    exact Std.ReflCmp.compare_self
  exact (List.perm_ext_iff_of_nodup nodup (.of_map _ names)).mpr member

end Program

/-! ### Machines -/

/-- A machine into which scripts are loaded is the same in every order of them. -/
theorem Machine.loadAll_perm (config : Config) (natives : Natives) {loads loads' : List Script}
    (perm : loads'.Perm loads) (names : (loads.map Script.name).Nodup) (owners : SingleOwners loads) :
    ((Machine.new config natives).loadAll loads').1 = ((Machine.new config natives).loadAll loads).1 := by
  have empty := Program.Indexes.empty config natives
  have indexed := (Machine.new config natives).indexes_loadAll empty loads
  have indexed' := (Machine.new config natives).indexes_loadAll empty loads'
  rw [loadAll_eq] at indexed indexed' ⊢
  rw [loadAll_eq]
  obtain ⟨scripts_eq, functions_eq⟩ := indexed.eq_of_perm indexed' perm names owners
  obtain ⟨config_eq, natives_eq⟩ := (Machine.new config natives).program.foldl_load loads
  obtain ⟨config_eq', natives_eq'⟩ := (Machine.new config natives).program.foldl_load loads'
  congr 1
  exact Program.eq_of_parts (config_eq'.trans config_eq.symm) (natives_eq'.trans natives_eq.symm)
    scripts_eq functions_eq

/-- Scripts with distinct names, no two of which declare one function, may be loaded in any order: the
same scripts and functions are found, and whatever is done and run later comes to the same, as long as
it runs no global initializers. If the asset ids of these differ too, a run of them comes to the same
as well: they run in strictly ascending order of their asset ids, each once and up to the first that
gives no value, however the table lists the scripts. -/
theorem load_order_irrelevant (config : Config) (natives : Natives) (loads loads' : List Script)
    (perm : loads'.Perm loads) (names : (loads.map Script.name).Nodup) (owners : SingleOwners loads) :
    let m := ((Machine.new config natives).loadAll loads).1
    let m' := ((Machine.new config natives).loadAll loads').1
    (∀ name : String, m'.program.scripts[name]? = m.program.scripts[name]? ∧
        m'.program.lookup? name = m.program.lookup? name) ∧
      (∀ later : List HostAction,
        (∀ fuel instances, HostAction.request fuel instances .initializers ∉ later) →
          ∀ r : Request, r ≠ .initializers → ∀ (fuel : Nat) (instances : Registry),
            r.perform fuel (m'.performAll later) instances
              = r.perform fuel (m.performAll later) instances) ∧
      (((loads.filter Script.isGlobalInit).map Script.assetId).Nodup →
        (∀ order : List Script, order.Perm m.program.scripts.values →
          initializersOf order = m.program.initializers) ∧
        m.program.initializers.Pairwise (·.assetId < ·.assetId) ∧
        (∀ s, s ∈ m.program.initializers ↔ s ∈ loads ∧ s.isGlobalInit) ∧
        ∀ (globals : Variables) (fuel : Nat) (instances : Registry),
          let started := { m with globals := globals }
          let report := started.runInitializers fuel instances
          { m' with globals := globals }.runInitializers fuel instances = report ∧
            ∃ ran, Machine.InitializesInOrder fuel started instances m.program.initializers ran report ∧
              report.events = .initializers m.program.initializers.length ::
                ran.flatMap fun i => .globalInit i.script.name :: i.report.events) := by
  intro m m'
  have same : m' = m := Machine.loadAll_perm config natives perm names owners
  have indexed : m.program.Indexes loads :=
    (Machine.new config natives).indexes_loadAll (Program.Indexes.empty config natives) loads
  refine ⟨?_, ?_, fun distinct => ?_⟩
  · intro name
    rw [same]
    exact ⟨rfl, rfl⟩
  · intro later _ r _ fuel instances
    rw [same]
  · have listed := indexed.perm_values names
    have apart : ((m.program.scripts.values.filter Script.isGlobalInit).map Script.assetId).Nodup :=
      ((listed.filter _).map _).nodup_iff.mpr distinct
    refine ⟨?_, pairwise_lt_initializersOf apart, ?_, ?_⟩
    · intro order any
      exact initializersOf_perm any apart
    · intro s
      have sorted := perm_initializersOf m.program.scripts.values
      rw [← listed.mem_iff, ← List.mem_filter]
      exact sorted.mem_iff
    · intro globals fuel instances started report
      refine ⟨?_, started.runInitializers_inOrder fuel instances⟩
      rw [same]

/-- Two initializers, one of which declares a function, run in the order of their asset ids, whichever
of them is loaded first, and a call of the function comes to the same. -/
theorem load_order_irrelevant_for_two :
    let a := Script.withFunction
      { assetId := 2, name := "a", isGlobalInit := true, instructions := #[.exit] } 0 0 "f"
    let b : Script := { assetId := 1, name := "b", isGlobalInit := true, instructions := #[.exit] }
    let m := ((Machine.new {} Native.standard).loadAll [a, b]).1
    let m' := ((Machine.new {} Native.standard).loadAll [b, a]).1
    List.Perm [b, a] [a, b] ∧ ([a, b].map Script.name).Nodup ∧ SingleOwners [a, b] ∧
      (([a, b].filter Script.isGlobalInit).map Script.assetId).Nodup ∧
        m'.program.lookup? "f" = m.program.lookup? "f" ∧
          (Request.call "f" none #[]).perform 2 m' (.startingAt 100000)
            = (Request.call "f" none #[]).perform 2 m (.startingAt 100000) ∧
            m.program.initializers = [b, a] := by
  intro a b m m'
  have perm : List.Perm [b, a] [a, b] := .swap a b []
  have names : ([a, b].map Script.name).Nodup := by decide
  have distinct : (([a, b].filter Script.isGlobalInit).map Script.assetId).Nodup := by decide
  have owner : ∀ s ∈ [a, b], ∀ f, s.Declares f → s = a := by
    intro s mem f declares
    rcases List.mem_cons.mp mem with rfl | mem
    · rfl
    · rw [List.mem_singleton.mp mem] at declares
      exact absurd declares (Script.not_declares_of_labels_empty rfl f)
  have owners : SingleOwners [a, b] := by
    intro s s_mem t t_mem f declares declares'
    rw [owner s s_mem f declares, owner t t_mem f declares']
  obtain ⟨found, comes, initialized⟩ :=
    load_order_irrelevant {} Native.standard [a, b] [b, a] perm names owners
  have indexed : m.program.Indexes [a, b] :=
    (Machine.new {} Native.standard).indexes_loadAll (Program.Indexes.empty _ _) [a, b]
  have listed : List.Perm [b, a] m.program.scripts.values :=
    perm.trans (indexed.perm_values names).symm
  have sorted : initializersOf [b, a] = [b, a] := List.mergeSort_of_pairwise (by decide)
  have called := comes [] (fun _ _ => List.not_mem_nil) (.call "f" none #[]) nofun 2 (.startingAt 100000)
  refine ⟨perm, names, owners, distinct, (found "f").2, called, ?_⟩
  rw [← (initialized distinct).1 [b, a] listed, sorted]

end ScriptMachine
