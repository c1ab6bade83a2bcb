import ScriptMachine.Proofs.Instance.Registry
import Mathlib.Data.List.Perm.Subperm

/-!
The ids of new instances. The search for one goes up from the counter and passes live ids only, so it
ends at the first id that is not in use, unless all ids up to the greatest are. The counter then stands
above that id. It never goes down, so no id is handed out twice.
-/

namespace ScriptMachine.Registry

/-- The search for an id from `id` on ends at `found`. It does not go past the greatest id. -/
inductive Seeks (r : Registry) : InstanceId → InstanceId → Prop where
  | here {id : InstanceId} (free : ¬ r.isLive id) : Seeks r id id
  | next {id found : InstanceId} (taken : r.isLive id) (below : id < Int32.maxValue)
      (onwards : Seeks r (id + 1) found) : Seeks r id found

/-- The least id from `id` on that is not live. -/
structure IsFirstFree (r : Registry) (id found : InstanceId) : Prop where
  reached : id ≤ found
  free : ¬ r.isLive found
  least : ∀ other, id ≤ other → ¬ r.isLive other → found ≤ other

/-- An id from the counter on is not live, and the counter can go one past it. So it is as long as the
counter stays below the greatest id. -/
def HasFreeId (r : Registry) : Prop :=
  ∃ id, r.nextId ≤ id ∧ id < Int32.maxValue ∧ ¬ r.isLive id

variable {r : Registry} {id found : InstanceId}

/-- Below the greatest id, the next one is greater by one: it does not wrap around. -/
theorem toInt_succ (below : id < Int32.maxValue) : (id + 1).toInt = id.toInt + 1 := by
  have one : (1 : Int32).toInt = 1 := rfl
  have least : -2147483648 ≤ id.toInt := id.minValue_le_toInt
  have greatest : id.toInt < 2147483647 := Int32.lt_iff_toInt_lt.mp below
  rw [Int32.toInt_add, one]
  exact Int.bmod_eq_of_le (by omega) (by omega)

/-! ### The search -/

/-- An id that is not in use ends the search, there or before. -/
theorem exists_seeks {distance : Nat} (apart : found.toInt = id.toInt + distance)
    (free : ¬ r.isLive found) : ∃ first, r.Seeks id first ∧ first ≤ found := by
  induction distance generalizing id with
  | zero =>
      have same : found = id := Int32.toInt_inj.mp (by omega)
      exact ⟨id, .here (same ▸ free), same ▸ Int32.le_refl found⟩
  | succ distance ih =>
      by_cases taken : r.isLive id
      · have below : id < Int32.maxValue := by
          rw [Int32.lt_iff_toInt_lt]
          have := found.toInt_le
          omega
        have closer : found.toInt = (id + 1).toInt + distance := by
          rw [toInt_succ below]
          omega
        obtain ⟨first, onwards, early⟩ := ih closer
        exact ⟨first, .next taken below onwards, early⟩
      · exact ⟨id, .here taken, Int32.le_iff_toInt_le.mpr (by omega)⟩

/-- The search stops at the least id that is not in use. -/
theorem Seeks.isFirstFree (seeks : r.Seeks id found) : r.IsFirstFree id found := by
  induction seeks with
  | here free => exact ⟨Int32.le_refl _, free, fun _ above _ => above⟩
  | @next id found taken below _ ih =>
      have step := toInt_succ below
      have reached := Int32.le_iff_toInt_le.mp ih.reached
      refine ⟨Int32.le_iff_toInt_le.mpr (by omega), ih.free, ?_⟩
      intro other above free
      have apart : other ≠ id := by
        rintro rfl
        exact free taken
      have apart := mt Int32.toInt_inj.mp apart
      have above := Int32.le_iff_toInt_le.mp above
      exact ih.least other (Int32.le_iff_toInt_le.mpr (by omega)) free

/-- The ids that the search passes are live. -/
theorem Seeks.passed (seeks : r.Seeks id found) :
    ∃ ids : List InstanceId, found.toInt = id.toInt + ids.length ∧ ids.Nodup ∧
      ∀ other ∈ ids, id ≤ other ∧ r.isLive other := by
  induction seeks with
  | @here id free => exact ⟨[], by simp, List.nodup_nil, nofun⟩
  | @next id found taken below _ ih =>
      obtain ⟨ids, apart, distinct, live⟩ := ih
      have step := toInt_succ below
      -- The ids passed later are greater, so `id` is none of them.
      have above (other) (mem : other ∈ ids) : id.toInt < other.toInt := by
        have := Int32.le_iff_toInt_le.mp (live other mem).1
        omega
      refine ⟨id :: ids, ?_, ?_, ?_⟩
      · rw [List.length_cons]
        omega
      · exact List.nodup_cons.mpr ⟨fun mem => absurd (above id mem) (by omega), distinct⟩
      · intro other mem
        rcases List.mem_cons.mp mem with rfl | mem
        · exact ⟨Int32.le_refl _, taken⟩
        · have := above other mem
          exact ⟨Int32.le_iff_toInt_le.mpr (by omega), (live other mem).2⟩

/-- Distinct live ids are no more than there are live instances. -/
theorem length_le_size {ids : List InstanceId} (distinct : ids.Nodup)
    (live : ∀ other ∈ ids, r.isLive other) : ids.length ≤ r.size := by
  have keys : ids ⊆ r.table.keys := fun other mem =>
    Std.ExtTreeMap.mem_keys.mpr (Std.ExtTreeMap.contains_iff_mem.mp (live other mem))
  have fits := (List.subperm_of_subset distinct keys).length_le
  rwa [Std.ExtTreeMap.length_keys] at fits

/-- The search passes at most as many ids as there are live instances. -/
theorem Seeks.distance (seeks : r.Seeks id found) : found.toInt ≤ id.toInt + r.size := by
  obtain ⟨ids, apart, distinct, live⟩ := seeks.passed
  have := length_le_size distinct fun other mem => (live other mem).2
  omega

/-- The bounded search agrees with the unbounded one when it is given enough steps. -/
theorem Seeks.seekFree (seeks : r.Seeks id found) {fuel : Nat}
    (enough : found.toInt < id.toInt + fuel) : r.seekFree fuel id = found := by
  induction seeks generalizing fuel with
  | here free =>
      cases fuel with
      | zero => rfl
      | succ fuel => exact if_neg free
  | @next id found taken below onwards ih =>
      have reached := Int32.le_iff_toInt_le.mp onwards.isFirstFree.reached
      have step := toInt_succ below
      cases fuel with
      | zero => omega
      | succ fuel =>
          rw [Registry.seekFree, if_pos taken]
          exact ih (by omega)

theorem Seeks.freeId (seeks : r.Seeks r.nextId found) : r.freeId = found := by
  have := seeks.distance
  exact seeks.seekFree (by omega)

/-- There is a free id if and only if the search ends at one before the greatest. -/
theorem hasFreeId_iff_seeks :
    r.HasFreeId ↔ r.Seeks r.nextId r.freeId ∧ r.freeId < Int32.maxValue := by
  constructor
  · rintro ⟨id, above, below, free⟩
    have above := Int32.le_iff_toInt_le.mp above
    have apart : id.toInt = r.nextId.toInt + ((id.toInt - r.nextId.toInt).toNat : Nat) := by omega
    obtain ⟨first, seeks, early⟩ := exists_seeks apart free
    rw [seeks.freeId]
    exact ⟨seeks, Std.lt_of_le_of_lt early below⟩
  · rintro ⟨seeks, below⟩
    exact ⟨r.freeId, seeks.isFirstFree.reached, below, seeks.isFirstFree.free⟩

/-! ### Creating -/

/-- What creating an instance comes to. -/
structure Creates (r : Registry) (asset : AssetId) (id : InstanceId) (after : Registry) : Prop where
  found : r.Seeks r.nextId id
  first : r.IsFirstFree r.nextId id
  added : after.get? id = some { assetId := asset, id := id }
  others : ∀ other, other ≠ id → after.get? other = r.get? other
  counted : after.nextId.toInt = id.toInt + 1

/-- A new instance gets the least id that is not in use, and the counter goes one past it. -/
theorem HasFreeId.creates (free : r.HasFreeId) (asset : AssetId) :
    r.Creates asset (r.create asset).1 (r.create asset).2 := by
  obtain ⟨seeks, below⟩ := hasFreeId_iff_seeks.mp free
  refine ⟨seeks, seeks.isFirstFree, ?_, ?_, toInt_succ below⟩
  · exact (get?_create r asset _).trans (if_pos rfl)
  · intro other apart
    exact (get?_create r asset other).trans (if_neg apart.symm)

/-- The ids that the changes hand out, in their order. -/
def createdIds (r : Registry) : List Change → List InstanceId
  | [] => []
  | .create asset :: changes => (r.create asset).1 :: (r.change (.create asset)).createdIds changes
  | c :: changes => (r.change c).createdIds changes

/-- Every creation among the changes finds a free id, so that the counter does not pass the greatest. -/
def FindsFreeIds (r : Registry) (changes : List Change) : Prop :=
  ∀ before asset after, changes = before ++ .create asset :: after → (r.changeAll before).HasFreeId

theorem findsFreeIds_nil : r.FindsFreeIds [] := by
  intro before asset after split
  cases before <;> cases split

theorem findsFreeIds_cons {c : Change} {changes : List Change} :
    r.FindsFreeIds (c :: changes) ↔
      (∀ asset, c = .create asset → r.HasFreeId) ∧ (r.change c).FindsFreeIds changes := by
  constructor
  · intro finds
    constructor
    · rintro asset rfl
      exact finds [] asset changes rfl
    · rintro before asset after rfl
      exact finds (c :: before) asset after rfl
  · rintro ⟨now, later⟩ before asset after split
    cases before with
    | nil =>
        cases split
        exact now asset rfl
    | cons earlier before =>
        cases split
        exact later before asset after rfl

theorem FindsFreeIds.tail {c : Change} {changes : List Change} (finds : r.FindsFreeIds (c :: changes)) :
    (r.change c).FindsFreeIds changes :=
  (findsFreeIds_cons.mp finds).2

theorem FindsFreeIds.creates {asset : AssetId} {changes : List Change}
    (finds : r.FindsFreeIds (.create asset :: changes)) :
    r.Creates asset (r.create asset).1 (r.change (.create asset)) :=
  ((findsFreeIds_cons.mp finds).1 asset rfl).creates asset

/-- New instances get ids from the counter on, so none that was handed out before. -/
theorem FindsFreeIds.nextId_le {changes : List Change} (finds : r.FindsFreeIds changes) :
    ∀ id ∈ r.createdIds changes, r.nextId ≤ id := by
  induction changes generalizing r with
  | nil => nofun
  | cons c changes ih =>
      intro id mem
      have later := ih finds.tail id
      cases c with
      | create asset =>
          have created := finds.creates
          rcases List.mem_cons.mp mem with rfl | mem
          · exact created.first.reached
          · have above := Int32.le_iff_toInt_le.mp (later mem)
            have reached := Int32.le_iff_toInt_le.mp created.first.reached
            rw [created.counted] at above
            exact Int32.le_iff_toInt_le.mpr (by omega)
      | insert i => exact later mem
      | erase gone => exact later mem

/-- New instances get greater and greater ids. -/
theorem FindsFreeIds.increasing {changes : List Change} (finds : r.FindsFreeIds changes) :
    (r.createdIds changes).Pairwise (· < ·) := by
  induction changes generalizing r with
  | nil => exact .nil
  | cons c changes ih =>
      cases c with
      | create asset =>
          refine .cons ?_ (ih finds.tail)
          intro id mem
          have above := Int32.le_iff_toInt_le.mp (finds.tail.nextId_le id mem)
          rw [finds.creates.counted] at above
          exact Int32.lt_iff_toInt_lt.mpr (by omega)
      | insert i => exact ih finds.tail
      | erase gone => exact ih finds.tail

/-- As long as there are free ids before the greatest one, whatever a host creates, inserts and takes
away: each creation ends, with the least id from the counter on that is not in use, under which there is
a new instance then, and no other instance changes. The ids handed out increase, so none is handed out
twice. -/
theorem created_ids_fresh (first : InstanceId) (changes : List Change)
    (finds : (startingAt first).FindsFreeIds changes) :
    (∀ before asset after, changes = before ++ .create asset :: after →
      let r := (startingAt first).changeAll before
      r.Creates asset (r.create asset).1 (r.create asset).2) ∧
      ((startingAt first).createdIds changes).Pairwise (· < ·) ∧
        ((startingAt first).createdIds changes).Nodup := by
  refine ⟨fun before asset after split => (finds before asset after split).creates asset,
    finds.increasing, finds.increasing.imp ?_⟩
  intro earlier later lower same
  rw [same] at lower
  exact Int32.lt_irrefl lower

/-- Ids at the counter and above it are in use, and an id that was handed out is taken away. -/
theorem created_ids_fresh_around_inserted :
    let changes : List Change := [.insert { assetId := 1, id := 7 }, .insert { assetId := 1, id := 9 },
      .create 3, .erase 8, .create 3]
    (startingAt 7).FindsFreeIds changes ∧ (startingAt 7).createdIds changes = [8, 10] ∧
      ((startingAt 7).createdIds changes).Nodup := by
  intro changes
  have finds : (startingAt 7).FindsFreeIds changes := by
    simp only [changes, findsFreeIds_cons, reduceCtorEq, false_implies, implies_true, true_and,
      Change.create.injEq, forall_eq']
    refine ⟨⟨8, ?_⟩, ⟨10, ?_⟩, findsFreeIds_nil⟩ <;> decide
  exact ⟨finds, by decide, (created_ids_fresh 7 changes finds).2.2⟩

end ScriptMachine.Registry
