import ScriptMachine.Json.Lexeme
import ScriptMachine.Json.Number

/-!
Reading JSON text, strictly: the text is first cut into tokens and the tokens are then read as one
value. Blanks are space, tab, carriage return and line feed only; commas stand between items and
nowhere else; nothing but blanks may follow the value.
-/

namespace ScriptMachine.Json

/-- A lexical unit of JSON text. -/
inductive Token where
  | openArray
  | closeArray
  | openObject
  | closeObject
  | comma
  | colon
  | null
  | bool (b : Bool)
  | number (n : Number)
  | string (t : Lexeme)

/-- A blank between tokens. -/
def isBlank (c : Char) : Bool :=
  c == ' ' || c == '\t' || c == '\n' || c == '\r'

/-- Reads one token that starts here. -/
def readToken? : List Char → Option (Token × List Char)
  | '[' :: rest => some (.openArray, rest)
  | ']' :: rest => some (.closeArray, rest)
  | '\x7b' :: rest => some (.openObject, rest)
  | '\x7d' :: rest => some (.closeObject, rest)
  | ',' :: rest => some (.comma, rest)
  | ':' :: rest => some (.colon, rest)
  | 'n' :: 'u' :: 'l' :: 'l' :: rest => some (.null, rest)
  | 't' :: 'r' :: 'u' :: 'e' :: rest => some (.bool true, rest)
  | 'f' :: 'a' :: 'l' :: 's' :: 'e' :: rest => some (.bool false, rest)
  | '"' :: rest => (readLexeme? rest).map fun (t, rest) => (.string t, rest)
  | cs => (readNumeral? cs).map fun (n, rest) => (.number n.value, rest)

/-- The tokens of a text, last first; every token takes at least one character, so `fuel` is never
short. -/
def readTokens : Nat → List Token → List Char → Option (List Token)
  | 0, _, _ => none
  | fuel + 1, tokens, cs =>
      match cs.dropWhile isBlank with
      | [] => some tokens
      | cs => do
          let (t, rest) ← readToken? cs
          readTokens fuel (t :: tokens) rest

mutual

/-- Reads one value that starts here. -/
def readValue : Nat → List Token → Option (Json × List Token)
  | 0, _ => none
  | fuel + 1, tokens =>
      match tokens with
      | .null :: rest => some (.null, rest)
      | .bool b :: rest => some (.bool b, rest)
      | .number n :: rest => some (.number n, rest)
      | .string t :: rest => some (.string t, rest)
      | .openArray :: .closeArray :: rest => some (.array [], rest)
      | .openArray :: rest => readItems fuel [] rest
      | .openObject :: .closeObject :: rest => some (.object [], rest)
      | .openObject :: rest => readFields fuel [] rest
      | _ => none

/-- Reads the items of an array up to its end; the ones before are given last first. -/
def readItems : Nat → List Json → List Token → Option (Json × List Token)
  | 0, _, _ => none
  | fuel + 1, items, tokens => do
      let (item, rest) ← readValue fuel tokens
      match rest with
      | .comma :: rest => readItems fuel (item :: items) rest
      | .closeArray :: rest => some (.array (item :: items).reverse, rest)
      | _ => none

/-- Reads the fields of an object up to its end; the ones before are given last first. -/
def readFields : Nat → List (Lexeme × Json) → List Token → Option (Json × List Token)
  | 0, _, _ => none
  | fuel + 1, fields, .string key :: .colon :: tokens => do
      let (item, rest) ← readValue fuel tokens
      match rest with
      | .comma :: rest => readFields fuel ((key, item) :: fields) rest
      | .closeObject :: rest => some (.object ((key, item) :: fields).reverse, rest)
      | _ => none
  | _, _, _ => none

end

/-- Reads a whole text as one value. Each value and each item takes a token, so twice their number
bounds the nesting of calls. -/
def parse? (text : String) : Option Json := do
  let cs := text.toList
  let tokens := (← readTokens (cs.length + 1) [] cs).reverse
  match ← readValue (2 * tokens.length + 1) tokens with
  | (value, []) => return value
  | _ => none

end ScriptMachine.Json
