import ScriptMachine.Exec.Literal

/-!
Loads and stores of variables. An array access takes an instance id and an index off the operand
stack; a stacktop access takes an instance id. A store of an array item finds its three operands in
one of two orders: with the type `i` in front the value is on top, as a compound assignment leaves
it, and otherwise the index is.
-/

namespace ScriptMachine.Exec

variable (c : Config) (i : Instruction)

/-- The variable operand of an instruction. -/
def variableOperand : Exec VariableRef := do
  let text ← required i .missingVariable i.text?
  Action.ofExcept (VariableRef.parse text)

/-- The refusal of an access that has no meaning in a scope. -/
def refusal (scope : Scope) (access : Access) : Flow :=
  .refuse (.unsupportedAddressing scope.toText access.toText)

/-- An access without meaning that only the store could detect is a refusal too. -/
def soften (act : Exec Flow) : Exec Flow := fun env =>
  match act env with
  | .error (.unsupportedAddressing scope access) env =>
      .ok (.refuse (.unsupportedAddressing scope access)) env
  | r => r

/-- Takes off the value, the index and the instance of an item store. -/
def popItemOperands : Exec (Value × Int32 × Int32) :=
  if i.typeOne = .int32 then do
    let value ← pop i.typeTwo
    let index ← popId
    let object ← popId
    return (value, index, object)
  else do
    let index ← popId
    let object ← popId
    let value ← pop i.typeTwo
    return (value, index, object)

/-- Takes off an instance id; the reserved stacktop id says that the id is the next value. -/
def popStacktopId : Exec Int32 := do
  let id ← popId
  if id = Reserved.stacktop then popId else return id

/-- Stores a value in the variable that an instruction names. -/
def storeVariable : Exec Flow := do
  let r ← variableOperand i
  match r.access, r.scope with
  | .plain, .statics => return refusal r.scope r.access
  | .plain, scope =>
      let value ← pop i.typeTwo
      let place ← fromStore fun s => s.placeOfScope c scope
      onStore (Store.write c place r.name value)
      return .next
  | .array, _ =>
      let (value, index, object) ← popItemOperands i
      let place ← fromStore fun s => s.placeOfId c object
      onStore (Store.writeItem c place r.name index.toInt64 value)
      return .next
  | .stacktop, .self =>
      let id ← popStacktopId
      let value ← pop i.typeTwo
      let place ← fromStore fun s => s.placeOfId c id
      onStore (Store.write c place r.name value)
      return .next
  | access, scope => return refusal scope access

/-- Pushes the value of the variable that an instruction names. -/
def loadVariable : Exec Flow := do
  let r ← variableOperand i
  match r.access, r.scope with
  | .plain, .statics => return refusal r.scope r.access
  | .plain, scope =>
      let place ← fromStore fun s => s.placeOfScope c scope
      pushNext (← fromStore fun s => s.read place r.name)
  | .array, _ =>
      let index ← popId
      let object ← popId
      let place ← fromStore fun s => s.placeOfId c object
      pushNext (← fromStore fun s => s.readItem place r.name index.toInt64)
  | .stacktop, .self =>
      let id ← popStacktopId
      let place ← fromStore fun s => s.placeOfId c id
      pushNext (← fromStore fun s => s.read place r.name)
  | access, scope => return refusal scope access

/-- `pop`: stores the top value. The type `e` in front belongs to an encoding without meaning. -/
def popVariable : Exec Flow :=
  if i.typeOne = .int16 then throw (.unsupportedOpcode i.raw)
  else soften (storeVariable c i)

/-- `push` and its relatives: a literal if a type is declared, and otherwise a variable. -/
def push : Exec Flow :=
  if i.typeOne = .untyped then soften (loadVariable c i) else pushLiteral i

end ScriptMachine.Exec
