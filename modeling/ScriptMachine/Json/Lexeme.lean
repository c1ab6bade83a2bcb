import ScriptMachine.Json.Basic

/-!
Strings of JSON text. Reading undoes escapes and joins surrogate pairs; writing escapes quotes,
backslashes and control characters and nothing else.
-/

namespace ScriptMachine.Json

/-- A character of a string, or a 16-bit unit that an escape gives. -/
inductive Piece where
  | char (c : Char)
  | unit (n : Nat)
deriving DecidableEq, Repr

/-- The value of a hexadecimal digit. -/
def hexDigit? (c : Char) : Option Nat :=
  if '0' ≤ c ∧ c ≤ '9' then some (c.toNat - '0'.toNat)
  else if 'a' ≤ c ∧ c ≤ 'f' then some (c.toNat - 'a'.toNat + 10)
  else if 'A' ≤ c ∧ c ≤ 'F' then some (c.toNat - 'A'.toNat + 10)
  else none

/-- The character that a short escape stands for. -/
def shortEscape? : Char → Option Char
  | '"' => some '"'
  | '\\' => some '\\'
  | '/' => some '/'
  | 'b' => some '\x08'
  | 'f' => some '\x0c'
  | 'n' => some '\n'
  | 'r' => some '\r'
  | 't' => some '\t'
  | _ => none

/-- Reads the rest of a string up to its closing quote: the pieces and the characters as written,
both last first, and what follows. -/
def scanString : List Piece → List Char → List Char → Option (List Piece × List Char × List Char)
  | pieces, written, '"' :: rest => some (pieces, written, rest)
  | pieces, written, '\\' :: 'u' :: a :: b :: c :: d :: rest => do
      let n := (((← hexDigit? a) * 16 + (← hexDigit? b)) * 16 + (← hexDigit? c)) * 16
        + (← hexDigit? d)
      scanString (.unit n :: pieces) (d :: c :: b :: a :: 'u' :: '\\' :: written) rest
  | pieces, written, '\\' :: e :: rest => do
      scanString (.char (← shortEscape? e) :: pieces) (e :: '\\' :: written) rest
  | pieces, written, c :: rest =>
      if c.toNat < 0x20 then none else scanString (.char c :: pieces) (c :: written) rest
  | _, _, [] => none

/-- The first half of a surrogate pair. -/
def isHighSurrogate (n : Nat) : Bool :=
  0xD800 ≤ n && n < 0xDC00

/-- The second half of a surrogate pair. -/
def isLowSurrogate (n : Nat) : Bool :=
  0xDC00 ≤ n && n < 0xE000

/-- The characters that pieces stand for; a surrogate has to be part of a pair. -/
def join : List Piece → Option (List Char)
  | [] => some []
  | .char c :: rest => (join rest).map (c :: ·)
  | .unit h :: .unit l :: rest =>
      if isHighSurrogate h then
        if isLowSurrogate l then
          (join rest).map (Char.ofNat (0x10000 + (h - 0xD800) * 0x400 + (l - 0xDC00)) :: ·)
        else none
      else if isLowSurrogate h then none
      else (join (.unit l :: rest)).map (Char.ofNat h :: ·)
  | .unit n :: rest =>
      if isHighSurrogate n || isLowSurrogate n then none
      else (join rest).map (Char.ofNat n :: ·)

/-- Reads the rest of a string up to its closing quote. -/
def readLexeme? (cs : List Char) : Option (Lexeme × List Char) := do
  let (pieces, written, rest) ← scanString [] [] cs
  return (⟨String.ofList written.reverse, (join pieces.reverse).map String.ofList⟩, rest)

/-- The last two hexadecimal digits of a number. -/
def hexPair (n : Nat) : List Char :=
  [Nat.digitChar (n / 16 % 16), Nat.digitChar (n % 16)]

/-- How a character is written in a string. -/
def escapeChar (c : Char) : List Char :=
  match c with
  | '"' => ['\\', '"']
  | '\\' => ['\\', '\\']
  | '\x08' => ['\\', 'b']
  | '\x0c' => ['\\', 'f']
  | '\n' => ['\\', 'n']
  | '\r' => ['\\', 'r']
  | '\t' => ['\\', 't']
  | c => if c.toNat < 0x20 then ['\\', 'u', '0', '0'] ++ hexPair c.toNat else [c]

/-- The string that means the given characters. -/
def Lexeme.ofString (s : String) : Lexeme :=
  ⟨String.ofList (s.toList.flatMap escapeChar), some s⟩

end ScriptMachine.Json
