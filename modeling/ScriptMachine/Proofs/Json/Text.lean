import ScriptMachine.Json.Parser
import ScriptMachine.Proofs.Json.Lexeme
import ScriptMachine.Proofs.Json.Number

/-!
JSON text reads back. The text of a value is a sequence of tokens, each written without blanks; the
lexer cuts the text into the same tokens, and the parser builds the same value from them. What is
asked of the value is that its strings are written with the fewest escapes and that its numbers read
back one by one.
-/

namespace ScriptMachine.Json

/-! ### The tokens of a value -/

mutual

/-- The tokens of a value. -/
def tokens : Json → List Token
  | null => [.null]
  | bool b => [.bool b]
  | number n => [.number n]
  | string t => [.string t]
  | array [] => [.openArray, .closeArray]
  | array (v :: rest) => .openArray :: (v.tokens ++ moreItems rest)
  | object [] => [.openObject, .closeObject]
  | object ((key, v) :: rest) =>
      .openObject :: .string key :: .colon :: (v.tokens ++ moreFields rest)

/-- The tokens of an array after one of its items. -/
def moreItems : List Json → List Token
  | [] => [.closeArray]
  | v :: rest => .comma :: (v.tokens ++ moreItems rest)

/-- The tokens of an object after one of its fields. -/
def moreFields : List (Lexeme × Json) → List Token
  | [] => [.closeObject]
  | (key, v) :: rest => .comma :: .string key :: .colon :: (v.tokens ++ moreFields rest)

end

/-- How a token is written. -/
def Token.text : Token → List Char
  | openArray => ['[']
  | closeArray => [']']
  | openObject => ['\x7b']
  | closeObject => ['\x7d']
  | comma => [',']
  | colon => [':']
  | null => ['n', 'u', 'l', 'l']
  | bool b => if b then ['t', 'r', 'u', 'e'] else ['f', 'a', 'l', 's', 'e']
  | number n => n.render.toList
  | string t => '"' :: (t.written.toList ++ ['"'])

/-- A value that its text gives back: the strings are escaped the way they are written, and the
numbers read back one by one. -/
inductive ReadsBack : Json → Prop
  | null : ReadsBack null
  | bool (b : Bool) : ReadsBack (bool b)
  | number {n : Number} (exact : n.ReadsBack) : ReadsBack (number n)
  | string (s : String) : ReadsBack (string (.ofString s))
  | array {items : List Json} (each : ∀ v ∈ items, ReadsBack v) : ReadsBack (array items)
  | object {fields : List (Lexeme × Json)} (keys : ∀ f ∈ fields, ∃ s, f.1 = .ofString s)
      (each : ∀ f ∈ fields, ReadsBack f.2) : ReadsBack (object fields)

/-! ### The text of a value is that of its tokens -/

/-- A value is written token by token. -/
def IsWrittenByToken (v : Json) : Prop :=
  v.render.toList = v.tokens.flatMap Token.text

/-- The text of an array after its bracket is that of the tokens of its items. -/
theorem toList_renderItems {v : Json} {items : List Json}
    (each : ∀ w ∈ v :: items, w.IsWrittenByToken) :
    (String.intercalate "," (renderItems (v :: items))).toList ++ "]".toList
      = (v.tokens ++ moreItems items).flatMap Token.text := by
  induction items generalizing v with
  | nil =>
      have text : v.IsWrittenByToken := each v List.mem_cons_self
      rw [renderItems, renderItems, String.intercalate_singleton, text, moreItems,
        List.flatMap_append]
      rfl
  | cons w items ih =>
      have text : v.IsWrittenByToken := each v List.mem_cons_self
      have rest := ih (fun u mem => each u (List.mem_cons_of_mem v mem))
      simp only [renderItems, String.intercalate_cons_cons, String.toList_append, List.append_assoc]
        at rest ⊢
      rw [text, rest]
      simp [moreItems, Token.text]

theorem toList_renderFields {key : Lexeme} {v : Json} {fields : List (Lexeme × Json)}
    (each : ∀ f ∈ (key, v) :: fields, f.2.IsWrittenByToken) :
    (String.intercalate "," (renderFields ((key, v) :: fields))).toList ++ "\x7d".toList
      = (Token.string key :: .colon :: (v.tokens ++ moreFields fields)).flatMap Token.text := by
  induction fields generalizing key v with
  | nil =>
      have text : v.IsWrittenByToken := each (key, v) List.mem_cons_self
      simp only [renderFields, String.intercalate_singleton, String.toList_append, moreFields]
      rw [text]
      simp [Lexeme.render, Token.text]
  | cons f fields ih =>
      obtain ⟨other, w⟩ := f
      have text : v.IsWrittenByToken := each (key, v) List.mem_cons_self
      have rest := ih (fun f mem => each f (List.mem_cons_of_mem (key, v) mem))
      simp only [renderFields, String.intercalate_cons_cons, String.toList_append,
        List.append_assoc] at rest ⊢
      rw [text, rest]
      simp [Lexeme.render, moreFields, Token.text]

/-- By induction on the value, its text is that of its tokens, one after another. -/
theorem ReadsBack.isWrittenByToken {v : Json} (readable : v.ReadsBack) : v.IsWrittenByToken := by
  induction readable with
  | null => rfl
  | bool b => cases b <;> rfl
  | number => simp [IsWrittenByToken, render, tokens, Token.text]
  | string s => simp [IsWrittenByToken, render, Lexeme.render, tokens, Token.text]
  | @array items each ih =>
      cases items with
      | nil => simp [IsWrittenByToken, render, renderItems, tokens, Token.text]
      | cons v items =>
          have text := toList_renderItems ih
          simp only [IsWrittenByToken, render, tokens, String.toList_append, List.append_assoc, text]
          rfl
  | @object fields keys each ih =>
      cases fields with
      | nil => simp [IsWrittenByToken, render, renderFields, tokens, Token.text]
      | cons f fields =>
          obtain ⟨key, v⟩ := f
          have text := toList_renderFields ih
          simp only [IsWrittenByToken, render, tokens, String.toList_append, List.append_assoc, text]
          rfl

/-! ### The lexer cuts the text into the tokens -/

/-- Nothing that starts with a blank is a token. -/
theorem not_isBlank_of_readToken? {c : Char} {cs : List Char} {read : Token × List Char}
    (found : readToken? (c :: cs) = some read) : isBlank c = false := by
  rw [Bool.eq_false_iff]
  intro blank
  simp only [isBlank, Bool.or_eq_true, beq_iff_eq] at blank
  rcases blank with ((rfl | rfl) | rfl) | rfl <;> cases found

theorem readTokens_token {cs rest : List Char} {t : Token} (found : readToken? cs = some (t, rest))
    (fuel : Nat) (before : List Token) :
    readTokens (fuel + 1) before cs = readTokens fuel (t :: before) rest := by
  cases cs with
  | nil => cases found
  | cons c cs =>
      have solid := not_isBlank_of_readToken? found
      simp [readTokens, solid, found]

/-- In front of the given text, a token is read back from what it is written as. -/
structure Token.ReadsAt (t : Token) (rest : List Char) : Prop where
  nonempty : t.text ≠ []
  read : readToken? (t.text ++ rest) = some (t, rest)

/-- In front of the given text, tokens are read back from what they are written as. -/
structure Lexes (ts : List Token) (rest : List Char) : Prop where
  length_le : ts.length ≤ (ts.flatMap Token.text).length
  read : ∀ fuel before, readTokens (fuel + ts.length) before (ts.flatMap Token.text ++ rest)
    = readTokens fuel (ts.reverse ++ before) rest

theorem lexes_nil (rest : List Char) : Lexes [] rest :=
  ⟨Nat.le_refl 0, fun _ _ => rfl⟩

/-- Tokens are cut off one by one, each in front of the text of those after it. -/
theorem Lexes.cons {t : Token} {ts : List Token} {rest : List Char}
    (first : t.ReadsAt (ts.flatMap Token.text ++ rest)) (others : Lexes ts rest) :
    Lexes (t :: ts) rest := by
  constructor
  · have one := List.length_pos_iff.mpr first.nonempty
    have more := others.length_le
    rw [List.flatMap_cons, List.length_append, List.length_cons]
    omega
  · intro fuel before
    rw [List.flatMap_cons, List.append_assoc, List.length_cons, ← Nat.add_assoc,
      readTokens_token first.read, others.read, List.reverse_cons, List.append_assoc,
      List.singleton_append]

/-- Text is cut into tokens part by part. -/
theorem Lexes.append {ts us : List Token} {rest : List Char}
    (first : Lexes ts (us.flatMap Token.text ++ rest)) (second : Lexes us rest) :
    Lexes (ts ++ us) rest := by
  constructor
  · rw [List.flatMap_append, List.length_append, List.length_append]
    exact Nat.add_le_add first.length_le second.length_le
  · intro fuel before
    have split := first.read (fuel + us.length) before
    rw [second.read] at split
    rw [List.flatMap_append, List.append_assoc, List.length_append, List.reverse_append,
      List.append_assoc, Nat.add_comm ts.length, ← Nat.add_assoc]
    exact split

theorem Lexes.mark {t : Token} {c : Char} (written : t.text = [c]) {ts : List Token}
    {rest : List Char} (found : ∀ more, readToken? (c :: more) = some (t, more))
    (others : Lexes ts rest) : Lexes (t :: ts) rest := by
  apply Lexes.cons _ others
  constructor
  · rw [written]
    exact List.cons_ne_nil c []
  · rw [written, List.singleton_append, found]

/-- A string ends at its closing quote, so it is read in front of any text. -/
theorem Token.readsAt_string (s : String) (rest : List Char) :
    (Token.string (.ofString s)).ReadsAt rest := by
  have quoted : (Token.string (.ofString s)).text ++ rest
      = '"' :: ((Lexeme.ofString s).written.toList ++ '"' :: rest) := by
    simp [Token.text]
  constructor
  · exact List.cons_ne_nil _ _
  · rw [quoted, readToken?, readLexeme?_ofString, Option.map_some]

/-- What a number starts with starts no other token. -/
theorem readToken?_of_readNumeral? {cs rest : List Char} {n : Numeral}
    (found : readNumeral? cs = some (n, rest)) : readToken? cs = some (.number n.value, rest) := by
  rw [readToken?, found, Option.map_some]
  all_goals
    intros
    subst_vars
    cases found

/-- A number is read where no character of a number follows. -/
theorem Token.readsAt_number {n : Number} (exact : n.ReadsBack) {rest : List Char}
    (stops : Stops rest) : (Token.number n).ReadsAt rest := by
  obtain ⟨numeral, found, value⟩ := exact
  constructor
  · intro empty
    rw [show n.render.toList = [] from empty] at found
    cases found
  · rw [← value]
    rw [← value] at found
    exact readToken?_of_readNumeral? (readNumeral?_append stops found)

/-- After an item of an array there is a comma or a bracket. -/
theorem stops_moreItems (items : List Json) (rest : List Char) :
    Stops ((moreItems items).flatMap Token.text ++ rest) := by
  cases items <;> simp [Stops, moreItems, Token.text]

theorem stops_moreFields (fields : List (Lexeme × Json)) (rest : List Char) :
    Stops ((moreFields fields).flatMap Token.text ++ rest) := by
  cases fields <;> simp [Stops, moreFields, Token.text]

theorem lexes_moreItems {items : List Json}
    (each : ∀ v ∈ items, ∀ rest, Stops rest → Lexes v.tokens rest) (rest : List Char) :
    Lexes (moreItems items) rest := by
  induction items with
  | nil => exact .mark rfl (fun _ => rfl) (lexes_nil rest)
  | cons v items ih =>
      apply Lexes.mark rfl (fun _ => rfl)
      apply Lexes.append
      · exact each v List.mem_cons_self _ (stops_moreItems items rest)
      · exact ih (fun w mem => each w (List.mem_cons_of_mem v mem))

/-- A field is read up to what follows it. -/
theorem lexes_field {key : Lexeme} (plain : ∃ s, key = .ofString s) {ts : List Token}
    {rest : List Char} (others : Lexes ts rest) : Lexes (.string key :: .colon :: ts) rest := by
  obtain ⟨s, rfl⟩ := plain
  exact .cons (Token.readsAt_string s _) (.mark rfl (fun _ => rfl) others)

theorem lexes_moreFields {fields : List (Lexeme × Json)} (keys : ∀ f ∈ fields, ∃ s, f.1 = .ofString s)
    (each : ∀ f ∈ fields, ∀ rest, Stops rest → Lexes f.2.tokens rest) (rest : List Char) :
    Lexes (moreFields fields) rest := by
  induction fields with
  | nil => exact .mark rfl (fun _ => rfl) (lexes_nil rest)
  | cons f fields ih =>
      obtain ⟨key, v⟩ := f
      apply Lexes.mark rfl (fun _ => rfl)
      apply lexes_field (keys (key, v) List.mem_cons_self)
      apply Lexes.append
      · exact each (key, v) List.mem_cons_self _ (stops_moreFields fields rest)
      · exact ih (fun f mem => keys f (List.mem_cons_of_mem _ mem))
          (fun f mem => each f (List.mem_cons_of_mem _ mem))

/-- By induction on the value, its text is cut into its tokens wherever a number could stop. -/
theorem ReadsBack.lexes {v : Json} (readable : v.ReadsBack) :
    ∀ rest, Stops rest → Lexes v.tokens rest := by
  induction readable with
  | null => exact fun rest _ => .cons ⟨List.cons_ne_nil _ _, rfl⟩ (lexes_nil rest)
  | bool b => cases b <;> exact fun rest _ => .cons ⟨List.cons_ne_nil _ _, rfl⟩ (lexes_nil rest)
  | number exact => exact fun rest stops => .cons (Token.readsAt_number exact stops) (lexes_nil rest)
  | string s => exact fun rest _ => .cons (Token.readsAt_string s _) (lexes_nil rest)
  | @array items each ih =>
      intro rest _
      cases items with
      | nil => exact .mark rfl (fun _ => rfl) (.mark rfl (fun _ => rfl) (lexes_nil rest))
      | cons v items =>
          rw [tokens]
          apply Lexes.mark rfl (fun _ => rfl)
          apply Lexes.append
          · -- What follows the first item is a mark, where a number stops whatever `rest` is.
            exact ih v List.mem_cons_self _ (stops_moreItems items rest)
          · exact lexes_moreItems (fun w mem => ih w (List.mem_cons_of_mem v mem)) rest
  | @object fields keys each ih =>
      intro rest _
      cases fields with
      | nil => exact .mark rfl (fun _ => rfl) (.mark rfl (fun _ => rfl) (lexes_nil rest))
      | cons f fields =>
          obtain ⟨key, v⟩ := f
          rw [tokens]
          apply Lexes.mark rfl (fun _ => rfl)
          apply lexes_field (keys (key, v) List.mem_cons_self)
          apply Lexes.append
          · exact ih (key, v) List.mem_cons_self _ (stops_moreFields fields rest)
          · exact lexes_moreFields (fun f mem => keys f (List.mem_cons_of_mem _ mem))
              (fun f mem => ih f (List.mem_cons_of_mem _ mem)) rest

/-! ### The parser builds the value from the tokens -/

/-- With a step for each token, a value is built from its tokens. -/
def Parses (v : Json) : Prop :=
  ∀ fuel rest, v.tokens.length ≤ fuel → readValue fuel (v.tokens ++ rest) = some (v, rest)

/-- Every value has a token, so the fuel of the parser goes down with it. -/
theorem tokens_ne_nil (v : Json) : v.tokens ≠ [] := by
  cases v with
  | array items => cases items <;> simp [tokens]
  | object fields => cases fields <;> simp [tokens]
  | _ => simp [tokens]

/-- An array is parsed item by item, in the order of its items. -/
theorem readItems_moreItems {v : Json} {items : List Json} (each : ∀ w ∈ v :: items, w.Parses)
    {fuel : Nat} (enough : (v.tokens ++ moreItems items).length ≤ fuel) (before : List Json)
    (rest : List Token) :
    readItems fuel before (v.tokens ++ (moreItems items ++ rest))
      = some (.array (before.reverse ++ v :: items), rest) := by
  induction items generalizing v fuel before with
  | nil =>
      rw [List.length_append, moreItems, List.length_singleton] at enough
      obtain ⟨fuel, rfl⟩ : ∃ k, fuel = k + 1 := ⟨fuel - 1, by omega⟩
      have first := each v List.mem_cons_self fuel (moreItems [] ++ rest) (by omega)
      rw [readItems, first]
      simp [moreItems]
  | cons w items ih =>
      -- The item takes at least one token, and so does the comma: one step less is enough for either.
      have one := List.length_pos_iff.mpr v.tokens_ne_nil
      rw [moreItems, List.length_append, List.length_cons] at enough
      obtain ⟨fuel, rfl⟩ : ∃ k, fuel = k + 1 := ⟨fuel - 1, by omega⟩
      have first := each v List.mem_cons_self fuel (moreItems (w :: items) ++ rest) (by omega)
      have shorter : (w.tokens ++ moreItems items).length ≤ fuel := by omega
      have others := ih (fun u mem => each u (List.mem_cons_of_mem v mem)) shorter (v :: before)
      rw [readItems, first]
      simp [moreItems, others]

theorem readFields_moreFields {key : Lexeme} {v : Json} {fields : List (Lexeme × Json)}
    (each : ∀ f ∈ (key, v) :: fields, f.2.Parses) {fuel : Nat}
    (enough : (v.tokens ++ moreFields fields).length ≤ fuel) (before : List (Lexeme × Json))
    (rest : List Token) :
    readFields fuel before (.string key :: .colon :: (v.tokens ++ (moreFields fields ++ rest)))
      = some (.object (before.reverse ++ (key, v) :: fields), rest) := by
  induction fields generalizing key v fuel before with
  | nil =>
      rw [List.length_append, moreFields, List.length_singleton] at enough
      obtain ⟨fuel, rfl⟩ : ∃ k, fuel = k + 1 := ⟨fuel - 1, by omega⟩
      have parses : v.Parses := each (key, v) List.mem_cons_self
      have first := parses fuel (moreFields [] ++ rest) (by omega)
      rw [readFields, first]
      simp [moreFields]
  | cons f fields ih =>
      obtain ⟨other, w⟩ := f
      -- As for arrays: the field takes at least three tokens, one of them for its value.
      have one := List.length_pos_iff.mpr v.tokens_ne_nil
      simp only [moreFields, List.length_append, List.length_cons] at enough
      obtain ⟨fuel, rfl⟩ : ∃ k, fuel = k + 1 := ⟨fuel - 1, by omega⟩
      have parses : v.Parses := each (key, v) List.mem_cons_self
      have first := parses fuel (moreFields ((other, w) :: fields) ++ rest) (by omega)
      have shorter : (w.tokens ++ moreFields fields).length ≤ fuel := by
        rw [List.length_append]
        omega
      have others := ih (fun f mem => each f (List.mem_cons_of_mem _ mem)) shorter ((key, v) :: before)
      rw [readFields, first]
      simp [moreFields, others]

/-- An item does not close the array that it starts. -/
theorem readValue_openArray (v : Json) (fuel : Nat) (rest : List Token) :
    readValue (fuel + 1) (.openArray :: (v.tokens ++ rest)) = readItems fuel [] (v.tokens ++ rest) := by
  cases v with
  | array items => cases items <;> simp [tokens, readValue]
  | object fields => cases fields <;> simp [tokens, readValue]
  | _ => simp [tokens, readValue]

/-- By induction on the value, the parser builds it from its tokens. -/
theorem ReadsBack.parses {v : Json} (readable : v.ReadsBack) : v.Parses := by
  induction readable with
  | @array items each ih =>
      intro fuel rest enough
      cases items with
      | nil =>
          obtain ⟨fuel, rfl⟩ : ∃ k, fuel = k + 1 := ⟨fuel - 1, by simp [tokens] at enough; omega⟩
          simp [tokens, readValue]
      | cons v items =>
          rw [tokens, List.length_cons] at enough
          obtain ⟨fuel, rfl⟩ : ∃ k, fuel = k + 1 := ⟨fuel - 1, by omega⟩
          -- One step goes to the bracket; the items have as many as they have tokens.
          rw [tokens, List.cons_append, List.append_assoc, readValue_openArray]
          exact readItems_moreItems ih (by omega) [] rest
  | @object fields keys each ih =>
      intro fuel rest enough
      cases fields with
      | nil =>
          obtain ⟨fuel, rfl⟩ : ∃ k, fuel = k + 1 := ⟨fuel - 1, by simp [tokens] at enough; omega⟩
          simp [tokens, readValue]
      | cons f fields =>
          obtain ⟨key, v⟩ := f
          rw [tokens, List.length_cons, List.length_cons, List.length_cons] at enough
          obtain ⟨fuel, rfl⟩ : ∃ k, fuel = k + 1 := ⟨fuel - 1, by omega⟩
          simp only [tokens, List.cons_append, List.append_assoc, readValue]
          exact readFields_moreFields ih (by omega) [] rest
  | _ =>
      intro fuel rest enough
      obtain ⟨fuel, rfl⟩ : ∃ k, fuel = k + 1 := ⟨fuel - 1, by simp [tokens] at enough; omega⟩
      simp [tokens, readValue]

/-! ### The whole text -/

/-- The text of a value reads back as that value. -/
theorem ReadsBack.parse?_render {v : Json} (readable : v.ReadsBack) : parse? v.render = some v := by
  have lexes := readable.lexes [] stops_nil
  have lexed : readTokens (v.render.toList.length + 1) [] v.render.toList
      = some v.tokens.reverse := by
    have length_le := lexes.length_le
    have cut := lexes.read (v.render.toList.length - v.tokens.length + 1) []
    rw [List.append_nil, List.append_nil, ← readable.isWrittenByToken] at cut
    rw [← readable.isWrittenByToken] at length_le
    rw [show v.render.toList.length + 1
      = v.render.toList.length - v.tokens.length + 1 + v.tokens.length by omega, cut]
    rfl
  have parsed := readable.parses (2 * v.tokens.length + 1) [] (by omega)
  rw [List.append_nil] at parsed
  simp only [parse?, lexed, List.reverse_reverse, parsed, Option.bind_eq_bind, Option.bind_some]
  rfl

end ScriptMachine.Json
