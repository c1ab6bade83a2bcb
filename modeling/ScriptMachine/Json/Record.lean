import ScriptMachine.Json.Basic

/-!
Records in JSON form. A record is an object with known field names, or an array of the field values
in the order of the names, where fields at the end may be left out. In an object, unknown fields are
passed over whatever they hold, and a known field must not occur twice.
-/

namespace ScriptMachine.Json

/-- The text of a string that has one. -/
def text? : Json → Option String
  | string t => t.value?
  | _ => none

/-- A truth value. -/
def bool? : Json → Option Bool
  | bool b => some b
  | _ => none

/-- An integer within closed bounds, written as an integer. -/
def integer? (least greatest : Int) : Json → Option Int
  | number n => n.integer?.filter fun k => least ≤ k ∧ k ≤ greatest
  | _ => none

/-- A number of any kind. -/
def real? : Json → Option Float
  | number n => n.real?
  | _ => none

/-- Something or nothing, where `null` is nothing. -/
def optional? {α : Type} (read : Json → Option α) : Json → Option (Option α)
  | null => some none
  | v => (read v).map some

/-- A word of a closed vocabulary: as a string, or as the only field name of an object that holds
`null`. -/
def word? {α : Type} (ofWord? : String → Option α) : Json → Option α
  | string t => t.value?.bind ofWord?
  | object [(key, null)] => key.value?.bind ofWord?
  | _ => none

/-- All items of an array. -/
def items? {α : Type} (read : Json → Option α) : Json → Option (List α)
  | array items => items.mapM read
  | _ => none

/-- The known fields of a record. -/
abbrev Record := List (String × Json)

/-- The known fields among those of an object; their names must have a meaning, also of the unknown
ones. -/
def knownFields? (names : List String) : List (Lexeme × Json) → Option Record
  | [] => some []
  | (key, v) :: rest => do
      let name ← key.value?
      let others ← knownFields? names rest
      if name ∈ names then
        if others.any fun (other, _) => other == name then none else return (name, v) :: others
      else return others

/-- The fields of a record with the given names. -/
def record? (names : List String) : Json → Option Record
  | object fields => knownFields? names fields
  | array items => if items.length ≤ names.length then some (names.zip items) else none
  | _ => none

/-- A field that has to be there. -/
def Record.required? {α : Type} (r : Record) (name : String) (read : Json → Option α) : Option α :=
  (r.lookup name).bind read

/-- A field with a default. -/
def Record.defaulted? {α : Type} (r : Record) (name : String) (default : α)
    (read : Json → Option α) : Option α :=
  match r.lookup name with
  | some v => read v
  | none => some default

end ScriptMachine.Json
