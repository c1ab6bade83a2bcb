import Mathlib.Data.List.Infix
import ScriptMachine.Variable.Reference

/-!
The grammar of variable operands. An operand is the marker of an access, a context that stands for a
scope, a point, and a name with at least one character. A context is a word or a signed numeral of a
32-bit integer. Reading accepts exactly the operands of this grammar: a text splits in at most one
way, and what does not split is refused with the part that is no scope.
-/

namespace ScriptMachine

/-! ### Numerals -/

namespace Text

/-- Decimal digits, at least one. -/
structure IsDigits (cs : List Char) : Prop where
  nonempty : cs ≠ []
  digits : ∀ c ∈ cs, c.isDigit = true

/-- Decimal digits with at most one sign in front, and the integer that they denote. -/
inductive Numeral : List Char → Int → Prop where
  | unsigned {cs : List Char} (digits : IsDigits cs) : Numeral cs (Nat.ofDigitChars 10 cs 0)
  | plus {cs : List Char} (digits : IsDigits cs) : Numeral ('+' :: cs) (Nat.ofDigitChars 10 cs 0)
  | minus {cs : List Char} (digits : IsDigits cs) :
      Numeral ('-' :: cs) (-(Nat.ofDigitChars 10 cs 0 : Int))

/-- Digits are read as the number in base ten, and nothing but digits is. -/
theorem readDigits?_eq_some_iff {cs : List Char} {n : Nat} :
    readDigits? cs = some n ↔ IsDigits cs ∧ Nat.ofDigitChars 10 cs 0 = n := by
  unfold readDigits?
  constructor
  · intro read
    split at read
    · rename_i digits
      exact ⟨⟨digits.1, List.all_eq_true.mp digits.2⟩, Option.some.inj read⟩
    · cases read
  · rintro ⟨digits, rfl⟩
    exact if_pos ⟨digits.nonempty, List.all_eq_true.mpr digits.digits⟩

theorem IsDigits.read {cs : List Char} (digits : IsDigits cs) :
    readDigits? cs = some (Nat.ofDigitChars 10 cs 0) :=
  readDigits?_eq_some_iff.mpr ⟨digits, rfl⟩

theorem readInteger?_minus (cs : List Char) :
    readInteger? ('-' :: cs) = (readDigits? cs).map fun n : Nat => -(n : Int) := by
  cases read : readDigits? cs <;> simp [readInteger?, read]

theorem readInteger?_plus (cs : List Char) :
    readInteger? ('+' :: cs) = (readDigits? cs).map fun n : Nat => (n : Int) := by
  cases read : readDigits? cs <;> simp [readInteger?, readNatural?, read]

theorem readInteger?_of_unsigned {cs : List Char} (plus : ∀ rest, cs ≠ '+' :: rest)
    (minus : ∀ rest, cs ≠ '-' :: rest) :
    readInteger? cs = (readDigits? cs).map fun n : Nat => (n : Int) := by
  have natural : readNatural? cs = readDigits? cs := by
    unfold readNatural?
    split
    · rename_i rest
      exact absurd rfl (plus rest)
    · rfl
  unfold readInteger?
  split
  · rename_i rest
    exact absurd rfl (minus rest)
  · cases read : readDigits? cs <;> simp [natural, read]

/-- Text is read as an integer exactly if it is a numeral of it. -/
theorem readInteger?_eq_some_iff {cs : List Char} {n : Int} :
    readInteger? cs = some n ↔ Numeral cs n := by
  constructor
  · intro read
    by_cases minus : ∃ rest, cs = '-' :: rest
    · obtain ⟨rest, rfl⟩ := minus
      rw [readInteger?_minus] at read
      obtain ⟨k, found, rfl⟩ := Option.map_eq_some_iff.mp read
      obtain ⟨digits, rfl⟩ := readDigits?_eq_some_iff.mp found
      exact .minus digits
    · by_cases plus : ∃ rest, cs = '+' :: rest
      · obtain ⟨rest, rfl⟩ := plus
        rw [readInteger?_plus] at read
        obtain ⟨k, found, rfl⟩ := Option.map_eq_some_iff.mp read
        obtain ⟨digits, rfl⟩ := readDigits?_eq_some_iff.mp found
        exact .plus digits
      · rw [readInteger?_of_unsigned (not_exists.mp plus) (not_exists.mp minus)] at read
        obtain ⟨k, found, rfl⟩ := Option.map_eq_some_iff.mp read
        obtain ⟨digits, rfl⟩ := readDigits?_eq_some_iff.mp found
        exact .unsigned digits
  · rintro (digits | digits | digits)
    · exact readInteger?_of_readDigits? digits.read
    · rw [readInteger?_plus, digits.read, Option.map_some]
    · rw [readInteger?_minus, digits.read, Option.map_some]

/-- A numeral consists of digits and a sign. -/
theorem Numeral.char {cs : List Char} {n : Int} (numeral : Numeral cs n) :
    ∀ c ∈ cs, c.isDigit = true ∨ c = '+' ∨ c = '-' := by
  intro c mem
  cases numeral with
  | unsigned digits => exact .inl (digits.digits c mem)
  | plus digits =>
      rcases List.mem_cons.mp mem with rfl | mem
      · exact .inr (.inl rfl)
      · exact .inl (digits.digits c mem)
  | minus digits =>
      rcases List.mem_cons.mp mem with rfl | mem
      · exact .inr (.inr rfl)
      · exact .inl (digits.digits c mem)

end Text

/-! ### Contexts -/

namespace Scope

/-- The integers that stand for scopes, with these scopes. -/
def reserved : List (Int32 × Scope) :=
  [(Reserved.self, self), (Reserved.other, other), (Reserved.globals, globals),
    (Reserved.builtin, builtin), (Reserved.locals, locals), (Reserved.arguments, arguments),
    (Reserved.statics, statics)]

example : reserved.map Prod.fst = [-1, -2, -5, -6, -7, -15, -16] := rfl

/-- The integer stands for a scope other than itself. -/
def IsReserved (id : Int32) : Prop :=
  id ∈ reserved.map Prod.fst

instance (id : Int32) : Decidable (IsReserved id) :=
  inferInstanceAs (Decidable (id ∈ reserved.map Prod.fst))

/-- The scope that an integer stands for: the one it is reserved for, or else the integer itself. -/
inductive OfInteger (id : Int32) : Scope → Prop where
  | reserved {scope : Scope} (listed : (id, scope) ∈ reserved) : OfInteger id scope
  | free (unlisted : ¬ IsReserved id) : OfInteger id (.indexed id)

/-- The scope that a context stands for, as a word or as a numeral. -/
inductive Denotes : List Char → Scope → Prop where
  | word {word : String} {scope : Scope} (listed : (word, scope) ∈ named) :
      Denotes word.toList scope
  | numeral {context : List Char} {id : Int32} {scope : Scope}
      (numeral : Text.Numeral context id.toInt) (selected : OfInteger id scope) :
      Denotes context scope

/-- A reserved integer stands for its scope, and any other for an instance. -/
theorem ofId_eq_iff {id : Int32} {scope : Scope} : ofId id = scope ↔ OfInteger id scope := by
  constructor
  · rintro rfl
    unfold ofId
    iterate 7
      split
      · rename_i eq
        rw [eq]
        exact .reserved (by decide)
    exact .free (by simp_all [IsReserved, reserved])
  · rintro (listed | unlisted)
    · simp only [reserved, List.mem_cons, Prod.mk.injEq, List.not_mem_nil, or_false] at listed
      rcases listed with ⟨rfl, rfl⟩ | ⟨rfl, rfl⟩ | ⟨rfl, rfl⟩ | ⟨rfl, rfl⟩ | ⟨rfl, rfl⟩ |
        ⟨rfl, rfl⟩ | ⟨rfl, rfl⟩ <;> rfl
    · simp only [IsReserved, reserved, List.map_cons, List.map_nil, List.mem_cons, List.not_mem_nil,
        or_false, not_or] at unlisted
      simp only [ofId, unlisted, if_false]

/-- A context is read as an id exactly if it is a numeral of 32 bits. -/
theorem readId?_eq_some_iff {context : List Char} {id : Int32} :
    readId? context = some id ↔ Text.Numeral context id.toInt := by
  have least : Int32.minValue.toInt = -2 ^ 31 := rfl
  have greatest : Int32.maxValue.toInt = 2 ^ 31 - 1 := rfl
  rw [← Text.readInteger?_eq_some_iff]
  unfold readId?
  cases Text.readInteger? context with
  | none =>
      constructor
      · intro read
        cases read
      · intro denoted
        cases denoted
  | some n =>
      rw [Option.bind_eq_bind, Option.bind_some, Option.some_inj]
      constructor
      · intro read
        by_cases inside : Int32.minValue.toInt ≤ n ∧ n ≤ Int32.maxValue.toInt
        · rw [guard, if_pos inside] at read
          obtain rfl := Option.some.inj read
          exact (Int32.toInt_ofInt_of_le (by omega) (by omega)).symm
        · rw [guard, if_neg inside] at read
          cases read
      · rintro rfl
        have low := id.le_toInt
        have high := id.toInt_lt
        have inside : Int32.minValue.toInt ≤ id.toInt ∧ id.toInt ≤ Int32.maxValue.toInt := by omega
        rw [guard, if_pos inside, Int32.ofInt_toInt]
        rfl

theorem lookup_named_eq_some_iff {word : String} {scope : Scope} :
    named.lookup word = some scope ↔ (word, scope) ∈ named := by
  constructor
  · intro found
    obtain ⟨before, after, eq, -⟩ := List.lookup_eq_some_iff.mp found
    rw [eq]
    exact List.mem_append_right before List.mem_cons_self
  · intro listed
    simp only [named, List.mem_cons, Prod.mk.injEq, List.not_mem_nil, or_false] at listed
    rcases listed with ⟨rfl, rfl⟩ | ⟨rfl, rfl⟩ | ⟨rfl, rfl⟩ | ⟨rfl, rfl⟩ | ⟨rfl, rfl⟩ |
      ⟨rfl, rfl⟩ | ⟨rfl, rfl⟩ <;> rfl

/-- A word that names a scope consists of small letters. -/
theorem isLower_of_named {word : String} {scope : Scope} (listed : (word, scope) ∈ named) :
    ∀ c ∈ word.toList, c.isLower = true := by
  have all : ∀ entry ∈ named, entry.1.toList.all Char.isLower = true := by decide
  exact List.all_eq_true.mp (all (word, scope) listed)

/-- No character of a context is a point or an opening bracket. -/
theorem Denotes.char {context : List Char} {scope : Scope} (denotes : Denotes context scope) :
    ∀ c ∈ context, c ≠ '.' ∧ c ≠ '[' := by
  intro c mem
  rcases denotes with listed | ⟨numeral, -⟩
  · have lower := isLower_of_named listed c mem
    constructor <;> rintro rfl <;> exact absurd lower (by decide)
  · rcases numeral.char c mem with digit | rfl | rfl
    · constructor <;> rintro rfl <;> exact absurd digit (by decide)
    · decide
    · decide

/-- A numeral is no word. -/
theorem lookup_named_of_numeral {context : List Char} {n : Int}
    (numeral : Text.Numeral context n) : named.lookup (String.ofList context) = none := by
  cases found : named.lookup (String.ofList context) with
  | none => rfl
  | some scope =>
      have unread : ∀ entry ∈ named, Text.readInteger? entry.1.toList = none := by decide
      have none := unread _ (lookup_named_eq_some_iff.mp found)
      rw [String.toList_ofList, Text.readInteger?_eq_some_iff.mpr numeral] at none
      cases none

/-- Reading a context is exactly finding out what it denotes. -/
theorem read?_eq_some_iff {context : List Char} {scope : Scope} :
    read? context = some scope ↔ Denotes context scope := by
  constructor
  · intro read
    unfold read? at read
    split at read
    · rename_i found
      cases read
      have word := Denotes.word (lookup_named_eq_some_iff.mp found)
      rwa [String.toList_ofList] at word
    · obtain ⟨id, numeral, selected⟩ := Option.map_eq_some_iff.mp read
      exact .numeral (readId?_eq_some_iff.mp numeral) (ofId_eq_iff.mp selected)
  · rintro (listed | ⟨numeral, selected⟩)
    · rw [read?, String.ofList_toList, lookup_named_eq_some_iff.mpr listed]
    · rw [read?, lookup_named_of_numeral numeral, readId?_eq_some_iff.mpr numeral, Option.map_some,
        ofId_eq_iff.mpr selected]

end Scope

/-! ### Markers -/

namespace Access

/-- Nothing is lost when the marker is split off. -/
theorem marker_append_split (operand : List Char) :
    (split operand).1.marker.toList ++ (split operand).2 = operand := by
  unfold split
  generalize found : marked.findSome? _ = hit?
  cases hit? with
  | none => simp [marker]
  | some hit =>
      obtain ⟨⟨a, marker⟩, listed, hit_eq⟩ := List.exists_of_findSome?_eq_some found
      obtain ⟨rest, matched, rfl⟩ := Option.map_eq_some_iff.mp hit_eq
      obtain ⟨b, -, eq⟩ := List.mem_map.mp listed
      cases eq
      exact List.isPrefixOf?_eq_some_iff_append_eq.mp matched

/-- A marker is recognized whatever follows it, because no marker is the beginning of another. -/
theorem split_marker_append {a : Access} (marked : a ≠ .plain) (rest : List Char) :
    split (a.marker.toList ++ rest) = (a, rest) := by
  cases a with
  | plain => exact absurd rfl marked
  | _ => simp [split, Access.marked, marker, List.isPrefixOf?]

theorem marker_eq_cons {a : Access} (marked : a ≠ .plain) : ∃ rest, a.marker.toList = '[' :: rest := by
  cases a with
  | plain => exact absurd rfl marked
  | _ => exact ⟨_, rfl⟩

/-- Without an opening bracket there is no marker. -/
theorem split_of_head {operand : List Char} (unmarked : ∀ rest, operand ≠ '[' :: rest) :
    split operand = (.plain, operand) := by
  have whole := marker_append_split operand
  generalize split operand = parts at whole ⊢
  obtain ⟨a, rest⟩ := parts
  by_cases marked : a = .plain
  · subst marked
    exact congrArg (Prod.mk plain) whole
  · obtain ⟨more, eq⟩ := marker_eq_cons marked
    simp only [eq, List.cons_append] at whole
    exact absurd whole.symm (unmarked _)

end Access

/-! ### Operands -/

namespace VariableRef

/-- The text splits into the marker of an access, a context that denotes a scope, a point and a
name. -/
structure Splits (operand : String) (access : Access) (context name : String) : Prop where
  eq : operand = access.marker ++ context ++ "." ++ name
  pointless : '.' ∉ context.toList
  denotes : ∃ scope, Scope.Denotes context.toList scope
  nonempty : name ≠ ""

theorem splitPoint?_append {context name : List Char} (pointless : '.' ∉ context) :
    splitPoint? (context ++ '.' :: name) = some (context, name) := by
  have kept : ∀ c ∈ context, (c != '.') = true := by
    intro c mem
    exact bne_iff_ne.mpr fun eq => pointless (eq ▸ mem)
  simp [splitPoint?, List.dropWhile_append_of_pos kept, List.takeWhile_append_of_pos kept]

/-- Splitting at a point loses nothing but the point. -/
theorem eq_of_splitPoint? {cs context name : List Char}
    (found : splitPoint? cs = some (context, name)) : cs = context ++ '.' :: name := by
  unfold splitPoint? at found
  split at found
  · cases found
  · rename_i c _ dropped
    cases found
    have point : c = '.' := by
      have head := List.head?_dropWhile_not (· != '.') cs
      rw [dropped] at head
      simpa using head
    calc
      cs = cs.takeWhile (· != '.') ++ cs.dropWhile (· != '.') :=
        List.takeWhile_append_dropWhile.symm
      _ = cs.takeWhile (· != '.') ++ '.' :: name := by rw [dropped, point]

/-- The access of an operand is found, because a context does not start like a marker. -/
theorem split_append {context : List Char} {scope : Scope} (denotes : Scope.Denotes context scope)
    (access : Access) (name : List Char) :
    Access.split (access.marker.toList ++ (context ++ '.' :: name)) = (access, context ++ '.' :: name) := by
  by_cases marked : access = .plain
  · subst marked
    apply Access.split_of_head
    intro rest eq
    cases context with
    | nil => cases eq
    | cons c context =>
        obtain ⟨rfl, -⟩ := List.cons.inj eq
        exact (denotes.char '[' List.mem_cons_self).2 rfl
  · exact Access.split_marker_append marked _

/-- Reading gives a reference exactly for the operands that are written for it. -/
theorem parseChars_eq_ok_iff {operand : List Char} {r : VariableRef} :
    parseChars operand = .ok r ↔
      ∃ context, operand = r.access.marker.toList ++ (context ++ '.' :: r.name.toList) ∧
        Scope.Denotes context r.scope ∧ r.name ≠ "" := by
  constructor
  · intro parsed
    have whole := Access.marker_append_split operand
    unfold parseChars at parsed
    generalize Access.split operand = parts at whole parsed
    obtain ⟨access, rest⟩ := parts
    simp only at parsed
    split at parsed
    · cases parsed
    · rename_i context name found
      split at parsed
      · cases parsed
      · rename_i scope read
        split at parsed
        · cases parsed
        · rename_i nonempty
          cases parsed
          refine ⟨context, ?_, Scope.read?_eq_some_iff.mp read, ?_⟩
          · rw [String.toList_ofList, ← eq_of_splitPoint? found]
            exact whole.symm
          · intro empty
            exact nonempty (by simpa using congrArg String.toList empty)
  · -- No context contains a point, so the first point is the one behind the context.
    rintro ⟨context, rfl, denotes, nonempty⟩
    have pointless : '.' ∉ context := fun mem => (denotes.char '.' mem).1 rfl
    have nonempty' : r.name.toList ≠ [] := by simpa using nonempty
    simp only [parseChars, split_append denotes, splitPoint?_append pointless,
      Scope.read?_eq_some_iff.mpr denotes, nonempty', if_false, String.ofList_toList]

/-- An operand is accepted as a reference exactly if it is written by the grammar of that reference. -/
theorem parse_eq_ok_iff {operand : String} {r : VariableRef} :
    parse operand = .ok r ↔
      ∃ context, Splits operand r.access context r.name ∧
        Scope.Denotes context.toList r.scope := by
  have chars : parse operand = .ok r ↔ parseChars operand.toList = .ok r := by
    unfold parse
    cases parseChars operand.toList <;> simp [Except.mapError]
  rw [chars, parseChars_eq_ok_iff]
  constructor
  · rintro ⟨context, eq, denotes, nonempty⟩
    rw [← String.toList_ofList (l := context)] at denotes
    refine ⟨String.ofList context, ⟨?_, ?_, ⟨r.scope, denotes⟩, nonempty⟩, denotes⟩
    · apply String.toList_inj.mp
      simpa using eq
    · intro mem
      exact (denotes.char '.' mem).1 rfl
  · rintro ⟨context, splits, denotes⟩
    refine ⟨context.toList, ?_, denotes, splits.nonempty⟩
    rw [splits.eq]
    simp

theorem Splits.parse {operand context name : String} {access : Access} {scope : Scope}
    (splits : Splits operand access context name) (denotes : Scope.Denotes context.toList scope) :
    parse operand = .ok ⟨name, scope, access⟩ :=
  parse_eq_ok_iff.mpr ⟨context, splits, denotes⟩

/-- What is not read is refused for want of a scope. -/
theorem exists_of_parse_ne_ok {operand : String} (refused : ∀ r, parse operand ≠ .ok r) :
    ∃ part, parse operand = .error (.unknownVariableScope part) := by
  unfold parse at refused ⊢
  cases parsed : parseChars operand.toList with
  | ok r =>
      rw [parsed] at refused
      exact absurd rfl (refused r)
  | error part => exact ⟨part, rfl⟩

/-- An operand is written by the grammar in one way. -/
theorem Splits.unique {operand context name context' name' : String} {access access' : Access}
    (first : Splits operand access context name) (second : Splits operand access' context' name') :
    access = access' ∧ context = context' ∧ name = name' := by
  obtain ⟨scope, denotes⟩ := first.denotes
  obtain ⟨scope', denotes'⟩ := second.denotes
  have same := (first.parse denotes).symm.trans (second.parse denotes')
  cases same
  refine ⟨rfl, ?_, rfl⟩
  have eq := congrArg String.toList (first.eq.symm.trans second.eq)
  simp only [String.toList_append, List.append_assoc] at eq
  exact String.toList_inj.mp (List.append_cancel_right (List.append_cancel_left eq))

/-- Reading accepts exactly the texts that split into a marker, a context, a point and a name. Such a
text splits in one way, and gives the access of its marker, the scope that its context denotes and its
name. Every other text is refused for want of a scope. -/
theorem operands_accepted_exactly (operand : String) :
    ((∃ r, parse operand = .ok r) ↔ ∃ access context name, Splits operand access context name) ∧
      (∀ access context name, Splits operand access context name →
        (∀ access' context' name', Splits operand access' context' name' →
          access' = access ∧ context' = context ∧ name' = name) ∧
        ∀ r, parse operand = .ok r ↔
          r.access = access ∧ r.name = name ∧ Scope.Denotes context.toList r.scope) ∧
      ((¬ ∃ access context name, Splits operand access context name) →
        ∃ part, parse operand = .error (.unknownVariableScope part)) := by
  have accepted : (∃ r, parse operand = .ok r) ↔
      ∃ access context name, Splits operand access context name := by
    constructor
    · rintro ⟨r, parsed⟩
      obtain ⟨context, splits, -⟩ := parse_eq_ok_iff.mp parsed
      exact ⟨r.access, context, r.name, splits⟩
    · rintro ⟨access, context, name, splits⟩
      obtain ⟨scope, denotes⟩ := splits.denotes
      exact ⟨_, splits.parse denotes⟩
  refine ⟨accepted, ?_, ?_⟩
  · intro access context name splits
    refine ⟨fun access' context' name' other => other.unique splits, fun r => ?_⟩
    constructor
    · intro parsed
      obtain ⟨context', other, denotes⟩ := parse_eq_ok_iff.mp parsed
      obtain ⟨access_eq, rfl, name_eq⟩ := other.unique splits
      exact ⟨access_eq, name_eq, denotes⟩
    · rintro ⟨rfl, rfl, denotes⟩
      exact splits.parse denotes
  · intro unsplit
    apply exists_of_parse_ne_ok
    intro r parsed
    exact unsplit (accepted.mp ⟨r, parsed⟩)

/-- A numeral may have a sign and leading zeros, and all points after the first belong to the name;
without a name nothing is read. -/
theorem operands_accepted_at_numeral :
    Splits "[array]-0005.a.b" .array "-0005" "a.b" ∧
      parse "[array]-0005.a.b" = .ok ⟨"a.b", .globals, .array⟩ ∧
      ∃ part, parse "[array]-0005." = .error (.unknownVariableScope part) := by
  have numeral : Text.Numeral "-0005".toList Reserved.globals.toInt :=
    .minus ⟨by decide, List.all_eq_true.mp (by decide)⟩
  have selected : Scope.OfInteger Reserved.globals .globals := .reserved (by decide)
  have denotes : Scope.Denotes "-0005".toList .globals := .numeral numeral selected
  have splits : Splits "[array]-0005.a.b" .array "-0005" "a.b" :=
    ⟨by decide, by decide, ⟨_, denotes⟩, by decide⟩
  refine ⟨splits, ?_, ?_⟩
  · exact (((operands_accepted_exactly _).2.1 _ _ _ splits).2 _).mpr ⟨rfl, rfl, denotes⟩
  · apply (operands_accepted_exactly _).2.2
    rintro ⟨access, context, name, unsplit⟩
    obtain ⟨scope, denotes⟩ := unsplit.denotes
    have parsed := unsplit.parse denotes
    have refused : (parse "[array]-0005.").toOption = none := by decide
    rw [parsed] at refused
    cases refused

end VariableRef

end ScriptMachine
