import ScriptMachine.Json.Lexeme
import ScriptMachine.Numeric.Decimal

/-!
Writing JSON text, without blanks. A double is written with the fewest digits that read back as the
same double.
-/

namespace ScriptMachine.Json

/-- The text of a number; one that has no digits is written as `null`. -/
def Number.render : Number → String
  | natural n => toString n
  | negative n => toString n
  | real x => (Numeric.dataText? x).getD "null"
  | tooLarge => "null"

/-- A string in quotes. -/
def Lexeme.render (t : Lexeme) : String :=
  "\"" ++ t.written ++ "\""

mutual

/-- The text of a value. -/
def render : Json → String
  | null => "null"
  | bool b => if b then "true" else "false"
  | number n => n.render
  | string t => t.render
  | array items => "[" ++ String.intercalate "," (renderItems items) ++ "]"
  | object fields => "\x7b" ++ String.intercalate "," (renderFields fields) ++ "\x7d"

/-- The texts of items. -/
def renderItems : List Json → List String
  | [] => []
  | v :: rest => v.render :: renderItems rest

/-- The texts of fields. -/
def renderFields : List (Lexeme × Json) → List String
  | [] => []
  | (key, v) :: rest => (key.render ++ ":" ++ v.render) :: renderFields rest

end

end ScriptMachine.Json
