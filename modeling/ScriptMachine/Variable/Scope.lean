/-!
Scopes: the places where a variable operand can look. Compiled code also writes scopes as reserved
negative integers; every other integer names an asset or one live instance.
-/

namespace ScriptMachine

/-- Identifies one live instance. -/
abbrev InstanceId := Int32

/-! Integers that select a scope, or a way to find an id, where an instance id is expected. -/

namespace Reserved

/-- The instance that runs the code. -/
def self : Int32 := -1

/-- The instance that made it run. -/
def other : Int32 := -2

/-- The global variables. -/
def globals : Int32 := -5

/-- The built-in fields of the running instance. -/
def builtin : Int32 := -6

/-- The local variables of the running call. -/
def locals : Int32 := -7

/-- The id meant is the next value down the operand stack. -/
def stacktop : Int32 := -9

/-- The arguments of the running call. -/
def arguments : Int32 := -15

/-- Variables that outlive a call; they are not supported. -/
def statics : Int32 := -16

end Reserved

/-- Where a variable operand looks. -/
inductive Scope where
  | globals
  | locals
  /-- The instance that runs the code. -/
  | self
  /-- The instance that made it run. -/
  | other
  /-- Found like `self`. -/
  | builtin
  | arguments
  | statics
  /-- An asset or one live instance. -/
  | indexed (id : Int32)
deriving DecidableEq, Repr

namespace Scope

/-- The scopes that have names, with their names. -/
def named : List (String × Scope) :=
  [("global", globals), ("local", locals), ("self", self), ("other", other), ("builtin", builtin),
    ("arg", arguments), ("static", statics)]

/-- The text form of a scope. -/
def toText : Scope → String
  | globals => "global"
  | locals => "local"
  | self => "self"
  | other => "other"
  | builtin => "builtin"
  | arguments => "arg"
  | statics => "static"
  | indexed id => toString id

/-- The scope that an integer selects. -/
def ofId (id : Int32) : Scope :=
  if id = Reserved.self then self
  else if id = Reserved.other then other
  else if id = Reserved.globals then globals
  else if id = Reserved.builtin then builtin
  else if id = Reserved.locals then locals
  else if id = Reserved.arguments then arguments
  else if id = Reserved.statics then statics
  else indexed id

/-- An explicit id, as opposed to a named scope. -/
def isIndexed : Scope → Bool
  | indexed _ => true
  | _ => false

end Scope

end ScriptMachine
