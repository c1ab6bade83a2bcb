import ScriptMachine.Json.Lexeme

/-!
Strings of JSON text read back: what stands between the quotes means the characters that were
escaped, whatever they are.
-/

namespace ScriptMachine.Json

/-- In front of other pieces, a piece stands for one character. -/
def Piece.Means (piece : Piece) (c : Char) : Prop :=
  ∀ rest, join (piece :: rest) = (join rest).map (c :: ·)

theorem Piece.means_char (c : Char) : (Piece.char c).Means c :=
  fun _ => rfl

/-- A unit below the surrogates does not join with what follows it. -/
theorem Piece.means_unit {c : Char} (control : c.toNat < 0x20) : (Piece.unit c.toNat).Means c := by
  have high : isHighSurrogate c.toNat = false := by
    simp [isHighSurrogate]
    omega
  have low : isLowSurrogate c.toNat = false := by
    simp [isLowSurrogate]
    omega
  intro rest
  cases rest with
  | nil => simp [join, high, low]
  | cons next rest => cases next <;> simp [join, high, low]

/-- An escaped character is read as one piece. -/
def Escapes (c : Char) (escaped : List Char) : Prop :=
  ∃ piece : Piece, piece.Means c ∧ ∀ pieces written rest,
    scanString pieces written (escaped ++ rest)
      = scanString (piece :: pieces) (escaped.reverse ++ written) rest

theorem hexDigit?_digitChar {d : Nat} (digit : d < 16) : hexDigit? (Nat.digitChar d) = some d := by
  have all : ∀ d < 16, hexDigit? (Nat.digitChar d) = some d := by decide
  exact all d digit

/-- A control character, written as four hexadecimal digits, is read as one unit. -/
theorem escapes_control {c : Char} (control : c.toNat < 0x20) :
    Escapes c (['\\', 'u', '0', '0'] ++ hexPair c.toNat) := by
  refine ⟨_, Piece.means_unit control, ?_⟩
  intro pieces written rest
  have first := hexDigit?_digitChar (d := c.toNat / 16 % 16) (by omega)
  have second := hexDigit?_digitChar (d := c.toNat % 16) (by omega)
  have zero : hexDigit? '0' = some 0 := by decide
  have value : ((0 * 16 + 0) * 16 + c.toNat / 16 % 16) * 16 + c.toNat % 16 = c.toNat := by omega
  simp only [hexPair, List.cons_append, List.nil_append, scanString, zero, first, second,
    Option.bind_eq_bind, Option.bind_some, value, List.reverse_cons, List.reverse_nil]

theorem escapes_self {c : Char} (quote : c ≠ '"') (backslash : c ≠ '\\')
    (visible : ¬ c.toNat < 0x20) : Escapes c [c] := by
  refine ⟨_, Piece.means_char c, ?_⟩
  intro pieces written rest
  rw [List.singleton_append, scanString]
  · rw [if_neg visible]
    rfl
  · exact quote
  · rintro a b c' d more rfl
    exact absurd rfl backslash
  · rintro e more rfl
    exact absurd rfl backslash

/-- However a character is written, it is read as one piece that means it. -/
theorem escapes_escapeChar (c : Char) : Escapes c (escapeChar c) := by
  unfold escapeChar
  split
  iterate 7
    · exact ⟨_, Piece.means_char _, fun _ _ _ => rfl⟩
  · split
    · rename_i control
      exact escapes_control control
    · rename_i visible
      exact escapes_self ‹_› ‹_› visible

/-- The scanner goes through escaped characters piece by piece, and the pieces mean the characters. -/
theorem exists_scanString_flatMap (cs : List Char) :
    ∃ found, join found = some cs ∧ ∀ pieces written rest,
      scanString pieces written (cs.flatMap escapeChar ++ rest)
        = scanString (found.reverse ++ pieces) ((cs.flatMap escapeChar).reverse ++ written) rest := by
  induction cs with
  | nil => exact ⟨[], rfl, fun _ _ _ => rfl⟩
  | cons c cs ih =>
      obtain ⟨piece, means, scan⟩ := escapes_escapeChar c
      obtain ⟨found, joined, scanned⟩ := ih
      refine ⟨piece :: found, ?_, ?_⟩
      · rw [means, joined, Option.map_some]
      · intro pieces written rest
        simp only [List.flatMap_cons, List.append_assoc, scan, scanned, List.reverse_cons,
          List.reverse_append, List.singleton_append]

/-- A string reads back up to its closing quote. -/
theorem readLexeme?_ofString (s : String) (rest : List Char) :
    readLexeme? ((Lexeme.ofString s).written.toList ++ '"' :: rest)
      = some (Lexeme.ofString s, rest) := by
  obtain ⟨found, joined, scanned⟩ := exists_scanString_flatMap s.toList
  simp [readLexeme?, Lexeme.ofString, scanned, scanString, joined]

/-! ### Strings without escapes -/

theorem escapeChar_of_isDigit {c : Char} (digit : c.isDigit = true) : escapeChar c = [c] := by
  unfold escapeChar
  split
  iterate 7
    · cases digit
  · split
    · rename_i control
      have least := (Char.isDigit_iff_toNat.mp digit).1
      exact absurd (Nat.lt_of_le_of_lt least control) (by decide)
    · rfl

/-- A string in which nothing needs an escape is written as it is. -/
theorem toList_written_of_plain {s : String} (plain : ∀ c ∈ s.toList, escapeChar c = [c]) :
    (Lexeme.ofString s).written.toList = s.toList := by
  rw [Lexeme.ofString, String.toList_ofList]
  generalize s.toList = cs at plain
  induction cs with
  | nil => rfl
  | cons c cs ih =>
      rw [List.flatMap_cons, plain c List.mem_cons_self,
        ih fun d mem => plain d (List.mem_cons_of_mem c mem)]
      rfl

end ScriptMachine.Json
