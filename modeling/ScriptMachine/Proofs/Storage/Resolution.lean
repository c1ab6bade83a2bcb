import ScriptMachine.Proofs.Instance.Registry
import ScriptMachine.Proofs.Storage.Write

/-!
Resolution: which instance an id stands for. That depends on the bound instances and on the ids and
assets of the live ones, and no write changes any of these. How the live ones came to be there does not
matter.
-/

namespace ScriptMachine

section Resolution

variable {s t : Store} (bindings_eq : t.bindings = s.bindings)
  (same : t.instances.identity? = s.instances.identity?)

include bindings_eq same

/-- Stores with the same identities resolve an id to the same instance. -/
theorem Store.instance?_of_identity? (c : Config) (id : Int32) :
    t.instance? c id = s.instance? c id := by
  have found : (t.instances.get? id).map Instance.id = (s.instances.get? id).map Instance.id :=
    Registry.map_get?_of_identity? same Prod.fst id
  simp only [instance?, bound?, bindings_eq, Registry.isLive_of_identity? same,
    Registry.ids_ofAsset_of_identity? same, found]

theorem Store.resolve_of_identity? (c : Config) (id : Int32) : t.resolve c id = s.resolve c id := by
  simp only [resolve, instance?_of_identity? bindings_eq same]

end Resolution

/-! ### Writes -/

/-- No cell holds an instance as a whole. -/
theorem Cell.SameBut.population {cell : Cell} {before after : Store}
    (same : cell.SameBut before after) :
    after.instances.population = before.instances.population := by
  cases cell with
  | globalVariable name => exact congrArg (·.instances.population) same.1
  | localVariable name => exact congrArg (·.instances.population) same.1
  | arguments => exact congrArg (·.instances.population) same
  | member id name =>
      obtain ⟨i, j, live, rfl, members, -⟩ := same
      exact Registry.population_put live (by rw [members]) (by rw [members])
  | field id f =>
      obtain ⟨i, j, live, rfl, changed⟩ := same
      obtain ⟨-, own, asset⟩ := changed.rest
      exact Registry.population_put live own asset

/-! ### What ids stand for -/

/-- A live instance of an asset. -/
def Registry.Hosts (r : Registry) (asset : AssetId) (id : InstanceId) : Prop :=
  ∃ i, r.get? id = some i ∧ i.assetId = asset

/-- The live instance with the least id among those of an asset. -/
structure Registry.IsFirst (r : Registry) (asset : AssetId) (id : InstanceId) : Prop where
  hosts : r.Hosts asset id
  least : ∀ other, r.Hosts asset other → id ≤ other

/-- Which live instance an id stands for. -/
inductive Store.StandsFor (c : Config) (s : Store) : Int32 → InstanceId → Prop where
  | self {i : InstanceId} (bound : s.bindings.self? = some i) (live : s.instances.isLive i) :
      StandsFor c s Reserved.self i
  | other {i : InstanceId} (bound : s.bindings.other? = some i) (live : s.instances.isLive i) :
      StandsFor c s Reserved.other i
  | asset {id : Int32} {i : InstanceId} (natural : 0 ≤ id) (below : id < c.firstInstanceId)
      (first : s.instances.IsFirst id i) : StandsFor c s id i
  | object {id : Int32} (notSelf : id ≠ Reserved.self) (notOther : id ≠ Reserved.other)
      (above : c.firstInstanceId ≤ id) (live : s.instances.isLive id) : StandsFor c s id id

namespace Registry

variable {r : Registry} {asset : AssetId} {id : InstanceId}

theorem Hosts.isLive (hosts : r.Hosts asset id) : r.isLive id := by
  obtain ⟨i, found, -⟩ := hosts
  rw [isLive_eq, found, Option.isSome_some]

/-- With ids as keys, the ids of an asset are those under which its instances are live. -/
theorem Keyed.mem_ids_ofAsset_iff (keyed : r.Keyed) :
    id ∈ (r.ofAsset asset).map Instance.id ↔ r.Hosts asset id := by
  simp only [ofAsset, toList, List.mem_map, List.mem_filter, Table.mem_values_iff, beq_iff_eq]
  constructor
  · rintro ⟨i, ⟨⟨key, found⟩, own⟩, rfl⟩
    obtain rfl := keyed key i found
    exact ⟨i, found, own⟩
  · rintro ⟨i, found, own⟩
    exact ⟨i, ⟨⟨id, found⟩, own⟩, keyed id i found⟩

/-- With ids as keys, the least id of an asset is that of its first instance. -/
theorem Keyed.min?_ofAsset_eq_some_iff (keyed : r.Keyed) :
    ((r.ofAsset asset).map Instance.id).min? = some id ↔ r.IsFirst asset id := by
  rw [List.min?_eq_some_iff]
  simp only [keyed.mem_ids_ofAsset_iff]
  exact ⟨fun ⟨hosts, least⟩ => ⟨hosts, least⟩, fun ⟨hosts, least⟩ => ⟨hosts, least⟩⟩

end Registry

namespace Store

variable {c : Config} {s : Store} {id : Int32} {i : InstanceId}

/-- A bound instance counts only while it is live. -/
theorem bound?_eq_some_iff {binding : Option InstanceId} :
    s.bound? binding = some i ↔ binding = some i ∧ s.instances.isLive i := by
  rw [bound?, Option.filter_eq_some_iff]

theorem map_id_get?_eq_some_iff (keyed : s.instances.Keyed) :
    (s.instances.get? id).map Instance.id = some i ↔ i = id ∧ s.instances.isLive id := by
  rw [Registry.isLive_eq, Option.map_eq_some_iff]
  constructor
  · rintro ⟨o, found, rfl⟩
    exact ⟨keyed id o found, by rw [found, Option.isSome_some]⟩
  · rintro ⟨rfl, live⟩
    obtain ⟨o, found⟩ := Option.isSome_iff_exists.mp live
    exact ⟨o, found, keyed i o found⟩

/-- With ids as keys, resolution finds exactly the instance that an id stands for. -/
theorem instance?_eq_some_iff (keyed : s.instances.Keyed) :
    s.instance? c id = some i ↔ s.StandsFor c id i := by
  constructor
  · intro found
    unfold instance? at found
    split at found
    · rename_i reserved
      subst reserved
      obtain ⟨bound, live⟩ := bound?_eq_some_iff.mp found
      exact .self bound live
    · rename_i notSelf
      split at found
      · rename_i reserved
        subst reserved
        obtain ⟨bound, live⟩ := bound?_eq_some_iff.mp found
        exact .other bound live
      · rename_i notOther
        split at found
        · rename_i range
          exact .asset range.1 range.2 (keyed.min?_ofAsset_eq_some_iff.mp found)
        · split at found
          · rename_i above
            obtain ⟨rfl, live⟩ := (map_id_get?_eq_some_iff keyed).mp found
            exact .object notSelf notOther above live
          · cases found
  · intro stands
    cases stands with
    | self bound live => exact bound?_eq_some_iff.mpr ⟨bound, live⟩
    | other bound live => exact bound?_eq_some_iff.mpr ⟨bound, live⟩
    | asset natural below first =>
        -- Both reserved ids are negative, so neither is the id of an asset.
        have notSelf : id ≠ Reserved.self := by
          rintro rfl
          exact absurd natural (by decide)
        have notOther : id ≠ Reserved.other := by
          rintro rfl
          exact absurd natural (by decide)
        rw [instance?, if_neg notSelf, if_neg notOther, if_pos ⟨natural, below⟩]
        exact keyed.min?_ofAsset_eq_some_iff.mpr first
    | object notSelf notOther above live =>
        have notBelow : ¬ (0 ≤ id ∧ id < c.firstInstanceId) := fun range =>
          absurd range.2 (Std.not_lt.mpr above)
        rw [instance?, if_neg notSelf, if_neg notOther, if_neg notBelow, if_pos above]
        exact (map_id_get?_eq_some_iff keyed).mpr ⟨rfl, live⟩

theorem StandsFor.isLive (stands : s.StandsFor c id i) : s.instances.isLive i := by
  cases stands with
  | self bound live => exact live
  | other bound live => exact live
  | asset natural below first => exact first.hosts.isLive
  | object notSelf notOther above live => exact live

theorem resolve_eq_ok_iff (keyed : s.instances.Keyed) :
    s.resolve c id = .ok i ↔ s.StandsFor c id i := by
  rw [← instance?_eq_some_iff keyed, resolve]
  cases s.instance? c id with
  | some j => exact ⟨fun ok => congrArg some (Except.ok.inj ok), fun eq => by rw [Option.some.inj eq]⟩
  | none => exact ⟨nofun, nofun⟩

/-- An id that stands for nothing is unresolved, under its own number. -/
theorem resolve_eq_error (unmet : s.instance? c id = none) :
    s.resolve c id = .error (.unresolvedInstance id) := by
  rw [resolve, unmet]

end Store

/-- Whatever a host created, inserted and took away, an id is resolved to exactly the live instance that
it stands for, and where it stands for none the error names it. So histories that leave the same ids
with the same assets resolve every id alike. -/
theorem id_resolved_iff_stands_for (c : Config) (first : InstanceId) (changes : List Registry.Change)
    (bindings : Bindings) (globals : Variables) (id : Int32) :
    let s : Store := ⟨bindings, globals, (Registry.startingAt first).changeAll changes⟩
    (∀ i, s.resolve c id = .ok i ↔ s.StandsFor c id i) ∧
      (∀ i, s.resolve c id = .ok i → s.instances.isLive i) ∧
      ((∀ i, ¬ s.StandsFor c id i) → s.resolve c id = .error (.unresolvedInstance id)) ∧
      ∀ first' changes' globals',
        let t : Store := ⟨bindings, globals', (Registry.startingAt first').changeAll changes'⟩
        t.instances.identity? = s.instances.identity? → t.resolve c id = s.resolve c id := by
  intro s
  have keyed : s.instances.Keyed := (Registry.keyed_startingAt first).changeAll changes
  refine ⟨fun i => Store.resolve_eq_ok_iff keyed, ?_, ?_, ?_⟩
  · intro i resolved
    exact ((Store.resolve_eq_ok_iff keyed).mp resolved).isLive
  · intro unmet
    apply Store.resolve_eq_error
    rw [Option.eq_none_iff_forall_ne_some]
    intro i found
    exact unmet i ((Store.instance?_eq_some_iff keyed).mp found)
  · intro first' changes' globals' t same
    exact Store.resolve_of_identity? (s := s) (t := t) rfl same c id

/-- An asset whose first instance was replaced by one of another asset stands for its next instance, and
it does so too in a registry where that one was created last. -/
theorem asset_resolved_after_replacement :
    let bindings : Bindings := {}
    let replaced : List Registry.Change := [.insert { assetId := 3, id := 100002 },
      .insert { assetId := 3, id := 100001 }, .insert { assetId := 4, id := 100001 }]
    let created : List Registry.Change := [.insert { assetId := 4, id := 100001 }, .create 3]
    let s : Store := ⟨bindings, ∅, (Registry.startingAt 0).changeAll replaced⟩
    let t : Store := ⟨bindings, ∅, (Registry.startingAt 100001).changeAll created⟩
    t.instances.identity? = s.instances.identity? ∧ s.StandsFor {} 3 100002 ∧
      (∀ i, ¬ s.StandsFor {} Reserved.self i) ∧
        s.resolve {} 3 = .ok 100002 ∧ t.resolve {} 3 = .ok 100002 ∧
          s.resolve {} Reserved.self = .error (.unresolvedInstance Reserved.self) := by
  intro bindings replaced created s t
  have keyed : s.instances.Keyed := (Registry.keyed_startingAt 0).changeAll replaced
  have fresh : ((Registry.startingAt 100001).insert { assetId := 4, id := 100001 }).freeId = 100002 := by
    decide
  have inS (id : InstanceId) : s.instances.get? id =
      if 100001 = id then some { assetId := 4, id := 100001 }
      else if 100002 = id then some { assetId := 3, id := 100002 } else none := by
    simp only [s, replaced, Registry.changeAll, List.foldl_cons, List.foldl_nil, Registry.change,
      Registry.get?_insert, Registry.get?_startingAt]
    split <;> rfl
  have inT (id : InstanceId) : t.instances.get? id =
      if 100002 = id then some { assetId := 3, id := 100002 }
      else if 100001 = id then some { assetId := 4, id := 100001 } else none := by
    simp only [t, created, Registry.changeAll, List.foldl_cons, List.foldl_nil, Registry.change,
      Registry.get?_create, fresh, Registry.get?_insert, Registry.get?_startingAt]
  have same : t.instances.identity? = s.instances.identity? := by
    funext id
    rw [Registry.identity?, Registry.identity?, inS, inT]
    by_cases second : 100002 = id
    · subst second
      rfl
    · rw [if_neg second, if_neg second]
  have stands : s.StandsFor {} 3 100002 := by
    refine .asset (by decide) (by decide) ⟨⟨_, inS 100002, rfl⟩, ?_⟩
    rintro other ⟨i, found, asset⟩
    rw [inS] at found
    split at found
    · cases found
      exact absurd asset (by decide)
    · split at found
      · rename_i eq
        rw [eq]
        exact Std.le_refl other
      · cases found
  have unbound (i : InstanceId) : ¬ s.StandsFor {} Reserved.self i := by
    intro stands
    have found := (Store.resolve_eq_ok_iff keyed).mpr stands
    cases found
  obtain ⟨exactly, -, -, alike⟩ := id_resolved_iff_stands_for {} 0 replaced bindings ∅ 3
  obtain ⟨-, -, unmet, -⟩ := id_resolved_iff_stands_for {} 0 replaced bindings ∅ Reserved.self
  have resolved := (exactly 100002).mpr stands
  exact ⟨same, stands, unbound, resolved, (alike 100001 created ∅ same).trans resolved, unmet unbound⟩

end ScriptMachine
