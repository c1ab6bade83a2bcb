import ScriptMachine.Action
import ScriptMachine.Value.Extract

/-!
Operand stacks. Values are taken off in the type that the instruction declares; a value that does
not convert is gone all the same. A stack knows how many more values fit on it, so the number of its
values never exceeds its limit.
-/

namespace ScriptMachine

/-- A stack of values, the top one first. -/
@[ext]
structure OperandStack where
  values : List Value
  /-- How many more values fit. -/
  room : Nat

namespace OperandStack

/-- A stack without values. -/
def empty (limit : Nat) : OperandStack :=
  ⟨[], limit⟩

/-- How many values a stack holds. -/
def length (s : OperandStack) : Nat :=
  s.values.length

/-- How many values a stack can hold. -/
def limit (s : OperandStack) : Nat :=
  s.length + s.room

/-- The top value. -/
def top? (s : OperandStack) : Option Value :=
  s.values.head?

/-- The stack without its values. -/
def clear (s : OperandStack) : OperandStack :=
  empty s.limit

/-- Puts a value on top. -/
def push (v : Value) : Action OperandStack Unit
  | ⟨values, 0⟩ => .error (.stackOverflow values.length) ⟨values, 0⟩
  | ⟨values, room + 1⟩ => .ok () ⟨v :: values, room⟩

/-- Takes the top value off as it is. -/
def take : Action OperandStack Value
  | ⟨[], room⟩ => .error .stackUnderflow ⟨[], room⟩
  | ⟨v :: rest, room⟩ => .ok v ⟨rest, room + 1⟩

/-- Takes the top value off in a declared type. -/
def pop (t : DataType) : Action OperandStack Value := do
  Action.ofExcept (((← take).convert t).mapError .conversion)

/-- Takes the top value off as a host type. -/
def popAs (α : Type) [Extract α] : Action OperandStack α := do
  Action.ofExcept (((← take).extract α).mapError .conversion)

/-- Takes so many values off as they are, the top one first; all of them or none. -/
def takeMany (count : Nat) : Action OperandStack (Array Value) := fun s =>
  let taken := s.values.take count
  if taken.length < count then .error .stackUnderflow s
  else .ok taken.toArray ⟨s.values.drop count, s.room + count⟩

/-- Puts the top `count` values on top once more, in the same order. -/
def dup (count : Nat) : Action OperandStack Unit := fun s =>
  let copied := s.values.take count
  if copied.length < count then .error .stackUnderflow s
  else if count ≤ s.room then .ok () ⟨copied ++ s.values, s.room - count⟩
  else .error (.stackOverflow s.limit) s

/-! ### What the operations do to the values and to the limit -/

/-- A stack never holds more values than its limit allows. -/
theorem length_le_limit (s : OperandStack) : s.length ≤ s.limit :=
  Nat.le_add_right _ _

@[simp] theorem limit_empty (limit : Nat) : (empty limit).limit = limit := by
  simp [empty, OperandStack.limit, length]

/-- A full stack takes no further value and stays as it is. -/
theorem push_of_full {s : OperandStack} (v : Value) (h : s.length = s.limit) :
    push v s = .error (.stackOverflow s.limit) s := by
  obtain ⟨values, room⟩ := s
  have none : room = 0 := by simpa [limit, length] using h
  subst none
  rfl

/-- The value put on top last is taken off first. -/
theorem take_of_push {s t : OperandStack} {v : Value} (h : push v s = .ok () t) :
    take t = .ok v s := by
  obtain ⟨values, room⟩ := s
  cases room with
  | zero => cases h
  | succ room => cases h; rfl

/-- The limit stays the same when a value is put on top. -/
theorem limit_push {s t : OperandStack} {v : Value} (h : push v s = .ok () t) :
    t.limit = s.limit := by
  obtain ⟨values, room⟩ := s
  cases room with
  | zero => cases h
  | succ room =>
    cases h
    simp only [limit, length, List.length_cons]
    omega

end OperandStack

end ScriptMachine
