import ScriptMachine.Action
import ScriptMachine.Instance.Basic

/-!
Items of arrays. An indexed store makes the array longer where needed, up to a limit, and fills the
gap with undefined values. A variable that holds no array becomes one by an indexed store.
-/

namespace ScriptMachine

/-- Whether an array of so many items can be allocated: it takes less than `2 ^ 63` bytes, at 32 for
an item. -/
def isAllocatable (length : Nat) : Bool :=
  length * 32 < Numeric.pow2 63

/-- The error for an index at or past the length limit. -/
def tooLarge (index limit : Nat) : RuntimeError :=
  .arrayTooLarge (Int64.ofNat (min index (Numeric.pow2 63 - 1))) limit

/-- An action on the user variables of an instance. -/
@[inline]
def Instance.onMembers {α : Type} (act : Action Variables α) : Action Instance α
  | ⟨assetId, id, members, reals, spriteIndex, flags⟩ =>
      Action.restore (⟨assetId, id, ·, reals, spriteIndex, flags⟩) (act members)

/-- The item at an index. -/
def itemAt (items : Array Value) (index : Int64) : Except RuntimeError Value :=
  if index < 0 then .error (.indexOutOfBounds index items.size)
  else
    match items[index.toInt.toNat]? with
    | some v => .ok v
    | none => .error (.indexOutOfBounds index items.size)

/-- Stores an item, after as many undefined values as it takes to reach the index. -/
def storeItem (limit index : Nat) (v : Value) : Action (Array Value) Unit := fun items =>
  if limit ≤ index then .error (tooLarge index limit) items
  else if index < items.size then .ok () (items.setIfInBounds index v)
  else if isAllocatable (index + 1) then
    .ok () ((items ++ Array.replicate (index - items.size) Value.undefined).push v)
  else .error (.outOfMemory (index + 1)) items

/-- The items that an indexed store to a variable starts from. -/
def itemsOf : Option Value → Array Value
  | some (.array items) => items
  | _ => #[]

/-- Stores an item of an array variable: the array is taken out of the variable, changed and put
back. The variable holds an array afterwards even if the store then finds no room for the item. -/
def storeCell (limit : Nat) (name : String) (index : Nat) (v : Value) : Action Variables Unit :=
  fun vars =>
    if limit ≤ index then .error (tooLarge index limit) vars
    else
      let held := vars[name]?
      let others := vars.erase name
      Action.restore (fun items => others.insert name (.array items))
        (storeItem limit index v (itemsOf held))

end ScriptMachine
