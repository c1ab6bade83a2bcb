import ScriptMachine.Instance.Basic

/-!
The registry of live instances, in ascending order of their ids. New instances get ids that are not
in use and that were never handed out before.
-/

namespace ScriptMachine

/-- The live instances by id, and the id from which the search for the next new one starts. -/
structure Registry where
  table : Std.ExtTreeMap InstanceId Instance compare := ∅
  nextId : InstanceId

namespace Registry

/-- A registry without instances that hands out ids from `first` on. -/
def startingAt (first : InstanceId) : Registry :=
  { nextId := first }

/-- The live instance with an id. -/
def get? (r : Registry) (id : InstanceId) : Option Instance :=
  r.table[id]?

/-- An instance with this id is live. -/
def isLive (r : Registry) (id : InstanceId) : Bool :=
  r.table.contains id

/-- The live instances, in ascending order of their ids. -/
def toList (r : Registry) : List Instance :=
  r.table.values

/-- How many instances are live. -/
def size (r : Registry) : Nat :=
  r.table.size

/-- The live instances of an asset, in ascending order of their ids. -/
def ofAsset (r : Registry) (asset : AssetId) : List Instance :=
  r.toList.filter fun i => i.assetId == asset

/-- Puts an instance under an id, in place of any that is there. -/
def put (r : Registry) (id : InstanceId) (i : Instance) : Registry :=
  { r with table := r.table.insert id i }

/-- Puts an instance under its id, in place of any that is there. -/
def insert (r : Registry) (i : Instance) : Registry :=
  r.put i.id i

/-- Takes away the instance with an id. -/
def erase (r : Registry) (id : InstanceId) : Registry :=
  { r with table := r.table.erase id }

/-- The first id from `id` on that is not live, if it is among the next `fuel`. -/
def seekFree (r : Registry) : Nat → InstanceId → InstanceId
  | 0, id => id
  | fuel + 1, id => if r.isLive id then r.seekFree fuel (id + 1) else id

/-- The id that the next new instance gets. As many ids as there are live instances, and one more,
cannot all be in use. -/
def freeId (r : Registry) : InstanceId :=
  r.seekFree (r.size + 1) r.nextId

/-- A new instance of an asset, with default fields. -/
def create (r : Registry) (asset : AssetId) : InstanceId × Registry :=
  let id := r.freeId
  (id, { r.insert { assetId := asset, id := id } with nextId := id + 1 })

/-! ### Look-ups after each change -/

/-- An instance is live exactly if it is found. -/
theorem isLive_eq (r : Registry) (id : InstanceId) : r.isLive id = (r.get? id).isSome := by
  simp [isLive, get?]

theorem get?_of_not_isLive {r : Registry} {id : InstanceId} (dead : ¬ r.isLive id = true) :
    r.get? id = none := by
  rw [isLive_eq] at dead
  exact Option.not_isSome_iff_eq_none.mp dead

@[simp] theorem get?_startingAt (first id : InstanceId) : (startingAt first).get? id = none := by
  simp [startingAt, get?]

/-- A look-up after an entry is set finds the new entry under its id, and any other as before. -/
@[simp] theorem get?_put (r : Registry) (id other : InstanceId) (i : Instance) :
    (r.put id i).get? other = if id = other then some i else r.get? other := by
  simp [put, get?, Std.ExtTreeMap.getElem?_insert]

/-- An inserted instance is found under its own id. -/
@[simp] theorem get?_insert (r : Registry) (i : Instance) (id : InstanceId) :
    (r.insert i).get? id = if i.id = id then some i else r.get? id :=
  get?_put r i.id id i

@[simp] theorem get?_erase (r : Registry) (id other : InstanceId) :
    (r.erase id).get? other = if id = other then none else r.get? other := by
  simp [erase, get?, Std.ExtTreeMap.getElem?_erase]

/-- A created instance is found under the id that was free, and no other look-up notices it. -/
@[simp] theorem get?_create (r : Registry) (asset : AssetId) (id : InstanceId) :
    (r.create asset).2.get? id
      = if r.freeId = id then some { assetId := asset, id := r.freeId } else r.get? id :=
  get?_insert r { assetId := asset, id := r.freeId } id

end Registry

end ScriptMachine
