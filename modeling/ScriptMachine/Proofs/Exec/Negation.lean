import ScriptMachine.Proofs.Exec.Compound
import ScriptMachine.Proofs.Value.Comparison

/-!
Negated conditions. A branch takes a real above one half for true, and `not` on its own makes a real
true that is at most one half. On a number exactly one of the two holds, so a branch on the negation
goes where the opposite branch goes. Of a not-a-number neither holds: it counts as false, and so does
what `not` makes of it, unless its operand is declared a truth value and is read as one first.
-/

namespace ScriptMachine

namespace Instruction

/-- `not.<t>`, whatever else the instruction carries. -/
structure IsNot (i : Instruction) (t : DataType) : Prop where
  opcode : i.opcode = .not
  typeOne : i.typeOne = t

/-- What a branch that is taken asks for: to leave the call, or to go on at its label. -/
def target? (i : Instruction) : Option Flow :=
  if i.jumpToEnd then some (.ret .undefined) else i.int?.map .jump

/-- `bt` or `bf`, as `wanted`, with somewhere to go. -/
structure IsBranch (i : Instruction) (wanted : Bool) (target : Flow) : Prop where
  opcode : i.opcode = if wanted then .branchTrue else .branchFalse
  target : i.target? = some target

variable {i : Instruction} {wanted : Bool} {target : Flow}

/-- A branch goes past the last instruction, or to a label that it carries. -/
theorem target?_cases (goes : i.target? = some target) :
    (i.jumpToEnd = true ∧ target = .ret .undefined) ∨
      i.jumpToEnd = false ∧ ∃ label, i.int? = some label ∧ target = .jump label := by
  unfold target? at goes
  split at goes
  · rename_i toEnd
    cases goes
    exact .inl ⟨toEnd, rfl⟩
  · rename_i inside
    obtain ⟨label, carried, rfl⟩ := Option.map_eq_some_iff.mp goes
    exact .inr ⟨Bool.eq_false_of_not_eq_true inside, label, carried, rfl⟩

/-- A branch that is taken does not just go on. -/
theorem IsBranch.target_ne_next (branches : i.IsBranch wanted target) : target ≠ .next := by
  obtain ⟨-, rfl⟩ | ⟨-, label, -, rfl⟩ := target?_cases branches.target <;> exact nofun

theorem isNot_unary (t : DataType) : (unary .not t).IsNot t :=
  ⟨rfl, rfl⟩

theorem isBranch_branch (wanted : Bool) (label : Int64) :
    (branch (if wanted then .branchTrue else .branchFalse) label).IsBranch wanted (.jump label) :=
  ⟨rfl, rfl⟩

end Instruction

/-! ### Truth and its negation -/

/-- On numbers, and only there, to be at most one half is not to be above it. -/
theorem Numeric.isFalsy_eq_not_isTruthy_iff (x : Float) :
    isFalsy x = !isTruthy x ↔ parts x ≠ .nan := by
  have number : parts 0.5 ≠ .nan := by decide
  have unplaced : compare? x 0.5 = none ↔ parts x = .nan := by
    rw [compare?_eq_none_iff, or_iff_left number]
  rw [ne_eq, ← unplaced, isFalsy, isTruthy]
  cases compare? x 0.5 with
  | none => decide
  | some order => cases order <;> decide

namespace Value

variable {v : Value}

/-- Every number has a truth. -/
theorem exists_truth_of_isNumeric (numeric : v.isNumeric = true) : ∃ truth, v.truth? = some truth := by
  obtain ⟨x, view⟩ := exists_real?_of_isNumeric numeric
  cases v with
  | bool b => exact ⟨b, rfl⟩
  | _ => exact ⟨Numeric.isTruthy x, congrArg (Option.map Numeric.isTruthy) view⟩

/-- The truth of a value is what it is converted to as a truth value. -/
theorem convert_bool_of_truth {truth : Bool} (holds : v.truth? = some truth) :
    v.convert .bool = .ok (.bool truth) := by
  simp only [convert, view, holds]
  rfl

/-- A truth value or a real. -/
inductive IsLogical : Value → Prop where
  | bool (b : Bool) : IsLogical (bool b)
  | real (x : Float) : IsLogical (real x)

/-- The negation of a truth value or a real is a truth value: the other one, unless the real is a
not-a-number. -/
theorem IsLogical.exists_invert (logical : v.IsLogical) :
    ∃ negated truth, v.invert = .ok (.bool negated) ∧ v.truth? = some truth ∧
      (negated = !truth ↔ ¬ v.IsNaN) := by
  cases logical with
  | bool b => exact ⟨!b, b, rfl, rfl, fun _ => nofun, fun _ => rfl⟩
  | real x =>
      have nan : (Value.real x).IsNaN ↔ Numeric.parts x = .nan := ⟨fun ⟨nan⟩ => nan, .real⟩
      exact ⟨Numeric.isFalsy x, Numeric.isTruthy x, rfl, rfl,
        (Numeric.isFalsy_eq_not_isTruthy_iff x).trans (not_congr nan).symm⟩

end Value

namespace Exec

variable {c : Config} {natives : Natives} {i negation branch opposite : Instruction} {wanted : Bool}
  {target : Flow} {t : DataType} {v : Value} {below : List Value} {room : Nat} {store : Store}
  {messages : List String}

/-! ### One instruction -/

/-- A taken branch does nothing but go to its target. -/
theorem takeBranch_of_target (goes : i.target? = some target) : takeBranch i = pure target := by
  obtain ⟨toEnd, rfl⟩ | ⟨inside, label, carried, rfl⟩ := Instruction.target?_cases goes
  · exact if_pos toEnd
  · rw [takeBranch, inside, carried]
    rfl

/-- A conditional branch takes the condition off, and is taken if its truth is as wanted. -/
theorem exec_branch_of_truth (branches : i.IsBranch wanted target) {truth : Bool}
    (holds : v.truth? = some truth) :
    exec c natives i ⟨⟨v :: below, room⟩, store, messages⟩
      = .ok (if truth = wanted then target else .next) ⟨⟨below, room + 1⟩, store, messages⟩ := by
  have conditional : exec c natives i = branchIf i wanted := by
    rw [exec, branches.opcode]
    cases wanted <;> rfl
  have popped : popCondition ⟨⟨v :: below, room⟩, store, messages⟩
      = .ok truth ⟨⟨below, room + 1⟩, store, messages⟩ :=
    Action.bind_of_ok (pop_eq_ok_iff.mpr ⟨Value.convert_bool_of_truth holds, rfl⟩)
  rw [conditional, branchIf, Action.bind_of_ok popped, takeBranch_of_target branches.target]
  split <;> rfl

/-- The operand is read in its declared type before it is negated. -/
theorem exec_not_of_invert (negates : i.IsNot t) {w negated : Value} (declared : v.convert t = .ok w)
    (inverts : w.invert = .ok negated) :
    exec c natives i ⟨⟨v :: below, room⟩, store, messages⟩
      = .ok .next ⟨⟨negated :: below, room⟩, store, messages⟩ := by
  have popped : pop t ⟨⟨v :: below, room⟩, store, messages⟩
      = .ok w ⟨⟨below, room + 1⟩, store, messages⟩ := pop_eq_ok_iff.mpr ⟨declared, rfl⟩
  rw [exec, negates.opcode]
  simp only [unary, negates.typeOne]
  rw [Action.bind_of_ok popped, inverts]
  rfl

/-! ### A branch on a negation -/

/-- A branch behind a negation is taken if the negation is as wanted. -/
theorem execAll_not_branch (negates : negation.IsNot t) (branches : branch.IsBranch wanted target)
    {w : Value} {negated : Bool} (declared : v.convert t = .ok w)
    (inverts : w.invert = .ok (.bool negated)) :
    execAll c natives [negation, branch] ⟨⟨v :: below, room⟩, store, messages⟩
      = .ok (if negated = wanted then target else .next) ⟨⟨below, room + 1⟩, store, messages⟩ := by
  rw [execAll_cons_of_next (exec_not_of_invert negates declared inverts), execAll_singleton]
  exact exec_branch_of_truth branches rfl

/-- Declared a truth value, the operand of `not` is read as the branches read it. Then a branch on the
negation comes to the same as the opposite branch for every number, a not-a-number included. -/
theorem negated_truth_branch_eq_opposite (negates : negation.IsNot .bool)
    (branches : branch.IsBranch wanted target) (opposes : opposite.IsBranch (!wanted) target)
    (numeric : v.isNumeric = true) :
    execAll c natives [negation, branch] ⟨⟨v :: below, room⟩, store, messages⟩
      = exec c natives opposite ⟨⟨v :: below, room⟩, store, messages⟩ := by
  obtain ⟨truth, holds⟩ := Value.exists_truth_of_isNumeric numeric
  have read := Value.convert_bool_of_truth holds
  rw [execAll_not_branch negates branches read rfl, exec_branch_of_truth opposes holds]
  cases truth <;> cases wanted <;> rfl

/-- A branch on the negation of a truth value or a real, and the opposite branch on the value itself,
take the value off and leave the rest alone, taken or not. They come to the same unless the value is a
not-a-number, of which exactly one of them is taken. -/
theorem negated_branch_agrees_iff (c : Config) (natives : Natives)
    {negation branch opposite : Instruction} {wanted : Bool} {target : Flow}
    (negates : negation.IsNot .untyped) (branches : branch.IsBranch wanted target)
    (opposes : opposite.IsBranch (!wanted) target) {v : Value} (logical : v.IsLogical)
    (below : List Value) (room : Nat) (store : Store) (messages : List String) :
    let before : Env := ⟨⟨v :: below, room⟩, store, messages⟩
    let after : Env := ⟨⟨below, room + 1⟩, store, messages⟩
    (∃ taken : Bool, execAll c natives [negation, branch] before
        = .ok (if taken then target else .next) after) ∧
      exec c natives opposite before
          = .ok (if v.truth? = some !wanted then target else .next) after ∧
        (execAll c natives [negation, branch] before = exec c natives opposite before ↔ ¬ v.IsNaN) := by
  intro before after
  obtain ⟨negated, truth, inverts, holds, other⟩ := logical.exists_invert
  have onNegation : execAll c natives [negation, branch] before = _ :=
    execAll_not_branch negates branches rfl inverts
  have onValue : exec c natives opposite before = _ := exec_branch_of_truth opposes holds
  refine ⟨⟨negated == wanted, ?_⟩, ?_, ?_⟩
  · simpa using onNegation
  · simpa [holds] using onValue
  · rw [onNegation, onValue, ← other]
    -- a target is not `.next`, so the flows are the same exactly if both branches are taken or neither
    have moves := branches.target_ne_next
    cases negated <;> cases truth <;> cases wanted <;> simp [moves, moves.symm]

/-- One half is not above one half: it counts as false, and its negation as true. -/
theorem negated_branch_agrees_at_one_half :
    let store : Store := { bindings := {}, instances := .startingAt 100000 }
    let before : Env := ⟨⟨[.real 0.5], 0⟩, store, []⟩
    let after : Env := ⟨⟨[], 1⟩, store, []⟩
    ((Instruction.unary .not .untyped).IsNot .untyped ∧
      (Instruction.branch .branchTrue 1).IsBranch true (.jump 1) ∧
        (Instruction.branch .branchFalse 1).IsBranch (!true) (.jump 1) ∧ (Value.real 0.5).IsLogical) ∧
      execAll {} ∅ [.unary .not .untyped, .branch .branchTrue 1] before = .ok (.jump 1) after ∧
        exec {} ∅ (.branch .branchFalse 1) before = .ok (.jump 1) after := by
  intro store before after
  have negates := Instruction.isNot_unary .untyped
  have branches := Instruction.isBranch_branch true 1
  have opposes := Instruction.isBranch_branch false 1
  have logical := Value.IsLogical.real 0.5
  obtain ⟨-, direct, agrees⟩ :=
    negated_branch_agrees_iff {} ∅ negates branches opposes logical [] 0 store []
  have below : (Value.real 0.5).truth? = some (!true) := congrArg some (by decide)
  have number : ¬ (Value.real 0.5).IsNaN := fun ⟨nan⟩ => absurd nan (by decide)
  rw [if_pos below] at direct
  exact ⟨⟨negates, branches, opposes, logical⟩, (agrees.mpr number).trans direct, direct⟩

/-- A not-a-number counts as false, and so does its negation: whichever branch it is, the one on the
negation does not do what the opposite one does. -/
theorem negated_not_a_number_disagrees :
    let store : Store := { bindings := {}, instances := .startingAt 100000 }
    let before : Env := ⟨⟨[.real Numeric.notANumber], 0⟩, store, []⟩
    let after : Env := ⟨⟨[], 1⟩, store, []⟩
    (execAll {} ∅ [.unary .not .untyped, .branch .branchTrue 1] before = .ok .next after ∧
      exec {} ∅ (.branch .branchFalse 1) before = .ok (.jump 1) after) ∧
        execAll {} ∅ [.unary .not .untyped, .branch .branchFalse 1] before = .ok (.jump 1) after ∧
          exec {} ∅ (.branch .branchTrue 1) before = .ok .next after := by
  intro store before after
  have inverts : (Value.real Numeric.notANumber).invert = .ok (.bool false) :=
    congrArg (Except.ok ∘ Value.bool) (by decide)
  have holds : (Value.real Numeric.notANumber).truth? = some false := congrArg some (by decide)
  have negates := Instruction.isNot_unary .untyped
  have onTrue := Instruction.isBranch_branch true 1
  have onFalse := Instruction.isBranch_branch false 1
  exact ⟨⟨execAll_not_branch negates onTrue rfl inverts, exec_branch_of_truth onFalse holds⟩,
    execAll_not_branch negates onFalse rfl inverts, exec_branch_of_truth onTrue holds⟩

end Exec

end ScriptMachine
