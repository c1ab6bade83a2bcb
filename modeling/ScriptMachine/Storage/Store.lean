import ScriptMachine.Config
import ScriptMachine.Instance.Field
import ScriptMachine.Instance.Registry
import ScriptMachine.Storage.Element
import ScriptMachine.Text.Numeral
import ScriptMachine.Variable.Reference

/-!
The store of variables that running code sees: the globals, the locals and arguments of the running
call, and the live instances. A scope, or an id from the operand stack, is first turned into a
place; reads and writes then go by place and name. Built-in names of an instance always mean its
built-in fields.
-/

namespace ScriptMachine

/-- What a running call has of its own besides its operand stack. -/
structure Bindings where
  locals : Variables := ∅
  arguments : Array Value := #[]
  /-- The instance that runs the code. -/
  self? : Option InstanceId := none
  /-- The instance that made it run. -/
  other? : Option InstanceId := none

/-- Every variable that a running call can reach. -/
structure Store where
  bindings : Bindings
  globals : Variables := ∅
  instances : Registry

/-- Where a variable name is looked up. -/
inductive Place where
  | globals
  | locals
  | arguments
  | object (id : InstanceId)
deriving DecidableEq, Repr

namespace Store

/-! ### Finding a place -/

/-- A bound instance, if it is still live. -/
def bound? (s : Store) (binding : Option InstanceId) : Option InstanceId :=
  binding.filter s.instances.isLive

/-- The live instance that an id stands for: the running instance or the one that made it run for
the reserved ids, the one with the least id for an asset, and else the instance itself. -/
def instance? (c : Config) (s : Store) (id : Int32) : Option InstanceId :=
  if id = Reserved.self then s.bound? s.bindings.self?
  else if id = Reserved.other then s.bound? s.bindings.other?
  else if 0 ≤ id ∧ id < c.firstInstanceId then
    ((s.instances.ofAsset id).map Instance.id).min?
  else if c.firstInstanceId ≤ id then (s.instances.get? id).map Instance.id
  else none

/-- The live instance that an id stands for, or the error that there is none. -/
def resolve (c : Config) (s : Store) (id : Int32) : Except RuntimeError InstanceId :=
  match s.instance? c id with
  | some i => .ok i
  | none => .error (.unresolvedInstance id)

/-- The place of a scope. -/
def placeOfScope (c : Config) (s : Store) : Scope → Except RuntimeError Place
  | .globals => .ok .globals
  | .locals => .ok .locals
  | .arguments => .ok .arguments
  | .self | .builtin => do return .object (← s.resolve c Reserved.self)
  | .other => do return .object (← s.resolve c Reserved.other)
  | .indexed id => do return .object (← s.resolve c id)
  | .statics => .error (.unsupportedAddressing Scope.statics.toText Access.plain.toText)

/-- The place of an id that comes from the operand stack. -/
def placeOfId (c : Config) (s : Store) (id : Int32) : Except RuntimeError Place :=
  if id = Reserved.globals then .ok .globals
  else if id = Reserved.locals then .ok .locals
  else if id = Reserved.arguments then .ok .arguments
  else if id = Reserved.builtin then do return .object (← s.resolve c Reserved.self)
  else do return .object (← s.resolve c id)

/-- A live instance. -/
def live (s : Store) (id : InstanceId) : Except RuntimeError Instance :=
  match s.instances.get? id with
  | some i => .ok i
  | none => .error (.unresolvedInstance id)

/-! ### Arguments by name -/

/-- The index in a name such as `argument3`; it fits 64 bits. -/
def argumentIndex? (name : String) : Option Nat := do
  let n ← Text.readNatural? (← "argument".toList.isPrefixOf? name.toList)
  guard (n < UInt64.size)
  return n

/-- The argument that a name such as `argument3` stands for. -/
def argument? (arguments : Array Value) (name : String) : Option Value :=
  (argumentIndex? name).bind fun n => arguments[n]?

/-- A variable, or the error that nothing was stored in it. -/
def present (name : String) : Option Value → Except RuntimeError Value
  | some v => .ok v
  | none => .error (.unsetVariable name)

/-- What a name in argument scope reads as: the number of arguments, all of them, or one. -/
def readArgument (arguments : Array Value) (name : String) : Except RuntimeError Value :=
  if name = "argument_count" then
    .ok (.int32 (Int32.ofNat (min arguments.size (Numeric.pow2 31 - 1))))
  else if name = "argument" then .ok (.array arguments)
  else present name (argument? arguments name)

/-! ### Parts of the store -/

variable {α : Type}

/-- An action on the globals. -/
@[inline]
def onGlobals (act : Action Variables α) : Action Store α
  | ⟨bindings, globals, instances⟩ =>
      Action.restore (⟨bindings, ·, instances⟩) (act globals)

/-- An action on the locals. -/
@[inline]
def onLocals (act : Action Variables α) : Action Store α
  | ⟨⟨locals, arguments, self?, other?⟩, globals, instances⟩ =>
      Action.restore (⟨⟨·, arguments, self?, other?⟩, globals, instances⟩) (act locals)

/-- An action on the arguments. -/
@[inline]
def onArguments (act : Action (Array Value) α) : Action Store α
  | ⟨⟨locals, arguments, self?, other?⟩, globals, instances⟩ =>
      Action.restore (⟨⟨locals, ·, self?, other?⟩, globals, instances⟩) (act arguments)

/-- An action on a live instance, which is taken out of the registry, changed and put back. -/
@[inline]
def onInstance (id : InstanceId) (act : Action Instance α) : Action Store α
  | ⟨bindings, globals, instances⟩ =>
      match instances.get? id with
      | none => .error (.unresolvedInstance id) ⟨bindings, globals, instances⟩
      | some i =>
          let others := instances.erase id
          Action.restore (fun i => ⟨bindings, globals, others.put id i⟩) (act i)

/-! ### Reading and writing whole variables -/

/-- The value of a variable. -/
def read (s : Store) (p : Place) (name : String) : Except RuntimeError Value :=
  match p with
  | .globals => present name s.globals[name]?
  | .locals => present name s.bindings.locals[name]?
  | .arguments => readArgument s.bindings.arguments name
  | .object id => do
      let i ← s.live id
      match Field.ofName? name with
      | some f => return f.read i
      | none => present name i.members[name]?

/-- Stores a variable or a built-in field of an instance. -/
def writeMember (name : String) (v : Value) : Action Instance Unit :=
  match Field.ofName? name with
  | some f => Action.update fun i => f.write i v
  | none => Instance.onMembers (modify fun vars => vars.insert name v)

/-- Stores a whole variable. A name in argument scope has to stand for one argument. -/
def write (c : Config) (p : Place) (name : String) (v : Value) : Action Store Unit :=
  match p with
  | .globals => onGlobals (modify fun vars => vars.insert name v)
  | .locals => onLocals (modify fun vars => vars.insert name v)
  | .arguments =>
      match argumentIndex? name with
      | none => throw (.unsupportedAddressing Scope.arguments.toText name)
      | some n => onArguments (storeItem c.maxArrayLength n v)
  | .object id => onInstance id (writeMember name v)

/-! ### Reading and writing array items -/

/-- An item of a value that has to be an array. -/
def itemOf (name : String) (index : Int64) : Option Value → Except RuntimeError Value
  | some (.array items) => itemAt items index
  | some _ => .error (.notAnArray name)
  | none => .error (.unsetVariable name)

/-- The value of an array item. Built-in fields are no arrays. -/
def readItem (s : Store) (p : Place) (name : String) (index : Int64) : Except RuntimeError Value :=
  match p with
  | .globals => itemOf name index s.globals[name]?
  | .locals => itemOf name index s.bindings.locals[name]?
  | .arguments =>
      if name = "argument" then itemAt s.bindings.arguments index
      else itemOf name index (argument? s.bindings.arguments name)
  | .object id =>
      if Field.isBuiltin name then .error (.notAnArray name)
      else do
        let i ← s.live id
        itemOf name index i.members[name]?

/-- Stores an array item. -/
def writeItem (c : Config) (p : Place) (name : String) (index : Int64) (v : Value) :
    Action Store Unit :=
  if index < 0 then throw (.indexOutOfBounds index 0)
  else
    let n := index.toInt.toNat
    match p with
    | .globals => onGlobals (storeCell c.maxArrayLength name n v)
    | .locals => onLocals (storeCell c.maxArrayLength name n v)
    | .arguments =>
        if name = "argument" then onArguments (storeItem c.maxArrayLength n v)
        else throw (.unsupportedAddressing Scope.arguments.toText Access.array.toText)
    | .object id =>
        if Field.isBuiltin name then
          throw (.unsupportedAddressing Scope.builtin.toText Access.array.toText)
        else onInstance id (Instance.onMembers (storeCell c.maxArrayLength name n v))

/-! ### By scope -/

/-- The value of a variable in a scope. -/
def load (c : Config) (s : Store) (scope : Scope) (name : String) : Except RuntimeError Value := do
  s.read (← s.placeOfScope c scope) name

/-- Stores a whole variable in a scope. -/
def store (c : Config) (scope : Scope) (name : String) (v : Value) : Action Store Unit := do
  let p ← Action.inspect fun s => s.placeOfScope c scope
  write c p name v

end Store

end ScriptMachine
