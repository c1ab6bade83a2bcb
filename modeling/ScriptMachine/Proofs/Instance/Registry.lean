import ScriptMachine.Instance.Registry
import ScriptMachine.Proofs.Table

/-!
Registries that a host makes from an empty one by creating, inserting and taking away instances. In
each of them every instance is under its own id. What tells instances from one another are their ids
and assets; which instances are live, and which of them belong to an asset, depends on nothing else.
-/

namespace ScriptMachine.Registry

/-- A change that a host makes. -/
inductive Change where
  | create (asset : AssetId)
  | insert (i : Instance)
  | erase (id : InstanceId)

/-- The registry after a change. -/
def change (r : Registry) : Change → Registry
  | .create asset => (r.create asset).2
  | .insert i => r.insert i
  | .erase id => r.erase id

/-- The registry after changes, one after another. -/
def changeAll (r : Registry) (changes : List Change) : Registry :=
  changes.foldl change r

/-! ### Ids as keys -/

/-- Every instance is under its own id. -/
def Keyed (r : Registry) : Prop :=
  ∀ id i, r.get? id = some i → i.id = id

theorem keyed_startingAt (first : InstanceId) : (startingAt first).Keyed := by
  intro id i live
  rw [get?_startingAt] at live
  cases live

theorem Keyed.insert {r : Registry} (keyed : r.Keyed) (i : Instance) : (r.insert i).Keyed := by
  intro id j live
  rw [get?_insert] at live
  split at live
  · rename_i own
    cases live
    exact own
  · exact keyed id j live

theorem Keyed.change {r : Registry} (keyed : r.Keyed) (c : Change) : (r.change c).Keyed := by
  cases c with
  | create asset => exact keyed.insert { assetId := asset, id := r.freeId }
  | insert i => exact keyed.insert i
  | erase gone =>
      intro id i live
      rw [Registry.change, get?_erase] at live
      split at live
      · cases live
      · exact keyed id i live

/-- By induction on the changes, every instance stays under its own id. -/
theorem Keyed.changeAll {r : Registry} (keyed : r.Keyed) (changes : List Change) :
    (r.changeAll changes).Keyed := by
  induction changes generalizing r with
  | nil => exact keyed
  | cons c changes ih => exact ih (keyed.change c)

/-! ### Identities -/

/-- The id and the asset of the instance under an id. -/
def identity? (r : Registry) (id : InstanceId) : Option (InstanceId × AssetId) :=
  (r.get? id).map fun i => (i.id, i.assetId)

/-- Whether every instance is under its own id depends on nothing but the identities. -/
theorem keyed_iff_identity? {r : Registry} :
    r.Keyed ↔ ∀ id own asset, r.identity? id = some (own, asset) → own = id := by
  constructor
  · intro keyed id own asset found
    obtain ⟨i, live, identity⟩ := Option.map_eq_some_iff.mp found
    cases identity
    exact keyed id i live
  · intro keyed id i live
    apply keyed id i.id i.assetId
    simp only [identity?, live, Option.map_some]

/-- Which instances there are: where the search for the id of a new one starts, and the identity
under every id. -/
def population (r : Registry) : InstanceId × (InstanceId → Option (InstanceId × AssetId)) :=
  (r.nextId, r.identity?)

/-- An instance may be changed in everything but its id and its asset. -/
theorem population_put {r : Registry} {id : InstanceId} {i j : Instance} (live : r.get? id = some i)
    (own : j.id = i.id) (asset : j.assetId = i.assetId) : (r.put id j).population = r.population := by
  have identities : (r.put id j).identity? = r.identity? := by
    funext other
    unfold identity?
    rw [get?_put]
    split
    · rename_i eq
      rw [← eq, live, Option.map_some, Option.map_some, own, asset]
    · rfl
  rw [population, population, identities]
  rfl

section SameIdentities

variable {r r' : Registry} (same : r'.identity? = r.identity?)

include same

theorem keyed_of_identity? (keyed : r.Keyed) : r'.Keyed := by
  rw [keyed_iff_identity?] at keyed ⊢
  rwa [same]

theorem map_get?_of_identity? {α : Type} (f : InstanceId × AssetId → α) (id : InstanceId) :
    (r'.get? id).map (fun i => f (i.id, i.assetId)) = (r.get? id).map fun i => f (i.id, i.assetId) := by
  have mapped := congrArg (Option.map f) (congrFun same id)
  simpa only [identity?, Option.map_map, Function.comp_def] using mapped

theorem isLive_of_identity? : r'.isLive = r.isLive := by
  funext id
  have found := congrArg Option.isSome (congrFun same id)
  simpa only [identity?, Option.isSome_map, ← isLive_eq] using found

/-- The instances of an asset have the same ids in two registries of the same identities. -/
theorem ids_ofAsset_of_identity? (asset : AssetId) :
    (r'.ofAsset asset).map Instance.id = (r.ofAsset asset).map Instance.id := by
  have pairs : r'.toList.map (fun i => (i.id, i.assetId)) = r.toList.map fun i => (i.id, i.assetId) :=
    Table.map_values_eq (congrFun same)
  have ids (list : List Instance) : (list.filter fun i => i.assetId == asset).map Instance.id
      = ((list.map fun i => (i.id, i.assetId)).filter fun p => p.2 == asset).map Prod.fst := by
    rw [List.filter_map, List.map_map]
    rfl
  rw [ofAsset, ofAsset, ids, ids, pairs]

end SameIdentities

end ScriptMachine.Registry
