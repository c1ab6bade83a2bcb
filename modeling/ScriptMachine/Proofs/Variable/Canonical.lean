import ScriptMachine.Proofs.Variable.Operand

/-!
Canonical operands. Every reference that an operand can decode to has a canonical operand, which
decodes to it again. The others are those without a name and those that index a reserved integer,
because that integer is read as the scope that it is reserved for.
-/

namespace ScriptMachine

/-- A scope that is not indexed by a reserved integer. -/
def Scope.IsExpressible (scope : Scope) : Prop :=
  ∀ id, scope = .indexed id → ¬ IsReserved id

/-- The decimal digits of an integer are a numeral of it. -/
theorem Text.numeral_repr (n : Int) : Numeral n.repr.toList n :=
  readInteger?_eq_some_iff.mp (readInteger?_repr n)

/-- The text of a scope denotes it. -/
theorem Scope.IsExpressible.denotes_toText {scope : Scope} (expressible : scope.IsExpressible) :
    Denotes scope.toText.toList scope := by
  cases scope with
  | indexed id => exact .numeral (Text.numeral_repr id.toInt) (.free (expressible id rfl))
  | _ => exact .word (by decide)

/-- What a context denotes is expressible, whatever integer the context is. -/
theorem Scope.Denotes.isExpressible {context : List Char} {scope : Scope}
    (denotes : Denotes context scope) : scope.IsExpressible := by
  rintro id rfl
  rcases denotes with listed | ⟨-, listed | unlisted⟩
  · exact absurd listed (by simp [named])
  · exact absurd listed (by simp [reserved])
  · exact unlisted

namespace VariableRef

/-- A reference with a name, in an expressible scope. -/
structure IsExpressible (r : VariableRef) : Prop where
  named : r.name ≠ ""
  scope : r.scope.IsExpressible

/-- The canonical operand of a reference decodes to it. -/
theorem IsExpressible.parse_toText {r : VariableRef} (expressible : r.IsExpressible) :
    parse r.toText = .ok r := by
  have denotes := expressible.scope.denotes_toText
  have pointless : '.' ∉ r.scope.toText.toList := fun mem => (denotes.char '.' mem).1 rfl
  have splits : Splits r.toText r.access r.scope.toText r.name :=
    ⟨rfl, pointless, ⟨r.scope, denotes⟩, expressible.named⟩
  exact splits.parse denotes

/-- Whatever an operand decodes to can be expressed. -/
theorem isExpressible_of_parse {operand : String} {r : VariableRef} (parsed : parse operand = .ok r) :
    r.IsExpressible := by
  obtain ⟨context, splits, denotes⟩ := parse_eq_ok_iff.mp parsed
  exact ⟨splits.nonempty, denotes.isExpressible⟩

/-- The canonical operand of an expressible reference decodes to it. What an operand decodes to is
expressible, and two operands decode to one reference exactly if their canonical operands are the
same text. -/
theorem canonical_operand_decodes :
    (∀ r : VariableRef, r.IsExpressible → parse r.toText = .ok r) ∧
      (∀ operand r, parse operand = .ok r → r.IsExpressible ∧ parse r.toText = .ok r) ∧
      ∀ operand operand' r r', parse operand = .ok r → parse operand' = .ok r' →
        (r = r' ↔ r.toText = r'.toText) := by
  refine ⟨fun r expressible => expressible.parse_toText, ?_, ?_⟩
  · intro operand r parsed
    have expressible := isExpressible_of_parse parsed
    exact ⟨expressible, expressible.parse_toText⟩
  · intro operand operand' r r' parsed parsed'
    have first := (isExpressible_of_parse parsed).parse_toText
    have second := (isExpressible_of_parse parsed').parse_toText
    constructor
    · exact congrArg toText
    · intro same
      rw [same, second] at first
      exact (Except.ok.inj first).symm

/-- The integer next to the reserved ones is expressible, and a name may hold points and brackets. -/
theorem canonical_operand_decodes_at_stacktop_id :
    let r : VariableRef := ⟨"a.b[]", .indexed Reserved.stacktop, .arrayPopAf⟩
    r.IsExpressible ∧ r.toText = "[arraypopaf]-9.a.b[]" ∧ parse r.toText = .ok r ∧
      parse "-05.x" = .ok ⟨"x", .globals, .plain⟩ ∧ parse "global.x" = .ok ⟨"x", .globals, .plain⟩ := by
  intro r
  have expressible : r.IsExpressible := by
    refine ⟨by decide, ?_⟩
    rintro id eq
    cases eq
    decide
  refine ⟨expressible, by decide, canonical_operand_decodes.1 r expressible, ?_, ?_⟩
  · rfl
  · rfl

end VariableRef

end ScriptMachine
