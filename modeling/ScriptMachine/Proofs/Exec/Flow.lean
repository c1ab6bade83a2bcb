import ScriptMachine.Exec.Instruction

/-!
What instructions ask the machine for. Only a branch asks for a jump: not one to the end, and to the
label that it carries.
-/

namespace ScriptMachine

/-- `b`, `bt` and `bf`. -/
def Opcode.isBranch : Opcode → Bool
  | .branch | .branchTrue | .branchFalse => true
  | _ => false

/-- A jump is left to branches, and goes to their label. -/
def Instruction.MayAsk (i : Instruction) : Flow → Prop
  | .jump label => i.opcode.isBranch ∧ i.jumpToEnd = false ∧ i.int? = some label
  | .next | .call _ _ | .ret _ | .refuse _ => True

namespace Exec

variable {α : Type} {c : Config} {natives : Natives} {i : Instruction} {asked : Flow → Prop}

/-- Where the action succeeds, it comes to a flow that is `asked`. -/
def Asks (asked : Flow → Prop) (act : Exec Flow) : Prop :=
  ∀ env flow after, act env = .ok flow after → asked flow

theorem Asks.pure {flow : Flow} (held : asked flow) : Asks asked (pure flow) := by
  intro env flow' after done
  cases done
  exact held

/-- Only the last part of a sequence says what is asked for. -/
theorem Asks.bind {act : Exec α} {f : α → Exec Flow} (rest : ∀ a, Asks asked (f a)) :
    Asks asked (act >>= f) := by
  intro env flow after done
  simp only [Bind.bind, EStateM.bind] at done
  split at done
  · exact rest _ _ _ _ done
  · cases done

/-- A softened action asks for what the action asks for, or refuses. -/
theorem Asks.soften {act : Exec Flow} (asks : Asks asked act) (refused : ∀ cause, asked (.refuse cause)) :
    Asks asked (soften act) := by
  intro env flow after done
  unfold Exec.soften at done
  split at done
  · cases done
    exact refused _
  · exact asks _ _ _ done

theorem asks_pushNext (v : Value) : Asks i.MayAsk (pushNext v) :=
  .bind fun _ => .pure trivial

theorem asks_refusal (scope : Scope) (access : Access) :
    Asks i.MayAsk (Pure.pure (refusal scope access)) :=
  .pure trivial

theorem asks_storeVariable : Asks i.MayAsk (storeVariable c i) := by
  refine .bind fun r => ?_
  split
  · exact asks_refusal _ _
  · exact .bind fun _ => .bind fun _ => .bind fun _ => .pure trivial
  · exact .bind fun _ => .bind fun _ => .bind fun _ => .pure trivial
  · exact .bind fun _ => .bind fun _ => .bind fun _ => .bind fun _ => .pure trivial
  · exact asks_refusal _ _

theorem asks_loadVariable : Asks i.MayAsk (loadVariable c i) := by
  refine .bind fun r => ?_
  split
  · exact asks_refusal _ _
  · exact .bind fun _ => .bind fun _ => asks_pushNext _
  · exact .bind fun _ => .bind fun _ => .bind fun _ => .bind fun _ => asks_pushNext _
  · exact .bind fun _ => .bind fun _ => .bind fun _ => asks_pushNext _
  · exact asks_refusal _ _

theorem asks_popVariable : Asks i.MayAsk (popVariable c i) := by
  unfold popVariable
  split
  · intro env flow after done
    cases done
  · exact asks_storeVariable.soften fun _ => trivial

theorem asks_pushInstruction : Asks i.MayAsk (push c i) := by
  unfold push
  split
  · exact asks_loadVariable.soften fun _ => trivial
  · exact .bind fun _ => asks_pushNext _

/-- A branch that is taken goes to its label, or leaves the call. -/
theorem asks_takeBranch (branch : i.opcode.isBranch) : Asks i.MayAsk (takeBranch i) := by
  unfold takeBranch
  cases toEnd : i.jumpToEnd with
  | true => exact .pure trivial
  | false =>
      cases carried : i.int? with
      | some label => exact .pure ⟨branch, toEnd, carried⟩
      | none =>
          intro env flow after done
          cases done

/-- A branch on a condition asks for what a taken branch asks for, or goes on. -/
theorem asks_branchIf (branch : i.opcode.isBranch) (wanted : Bool) :
    Asks i.MayAsk (branchIf i wanted) := by
  refine .bind fun b => ?_
  split
  · exact asks_takeBranch branch
  · exact .pure trivial

theorem asks_call : Asks i.MayAsk (call natives i) := by
  refine .bind fun name => .bind fun arguments => ?_
  split
  · intro env flow after done
    unfold runNative at done
    exact Asks.bind (fun _ => asks_pushNext _) _ _ _ done
  · exact .pure trivial

/-- No instruction asks for a jump that it may not ask for. -/
theorem asks_exec : Asks i.MayAsk (exec c natives i) := by
  unfold exec
  cases opcode : i.opcode with
  | pop => exact asks_popVariable
  | push | pushLocal | pushGlobal | pushBuiltin => exact asks_pushInstruction
  | pushShort => exact .bind fun _ => asks_pushNext _
  | binary op => exact .bind fun _ => .bind fun _ => .bind fun _ => asks_pushNext _
  | neg | not | conv => exact .bind fun _ => .bind fun _ => asks_pushNext _
  | cmp => exact .bind fun _ => .bind fun _ => .bind fun _ => .bind fun _ => asks_pushNext _
  | dup =>
      simp only [dup]
      split
      · exact .bind fun _ => .bind fun _ => .pure trivial
      · exact .bind fun _ => .pure trivial
  | popz => exact .bind fun _ => .pure trivial
  | branch => exact asks_takeBranch (by rw [opcode]; rfl)
  | branchTrue => exact asks_branchIf (by rw [opcode]; rfl) true
  | branchFalse => exact asks_branchIf (by rw [opcode]; rfl) false
  | call => exact asks_call
  | ret => exact .bind fun _ => .pure trivial
  | exit => exact .pure trivial

/-- Only a branch to a label makes the machine jump. -/
theorem jump_of_exec {env after : Env} {label : Int64}
    (executed : exec c natives i env = .ok (.jump label) after) :
    i.opcode.isBranch ∧ i.jumpToEnd = false ∧ i.int? = some label :=
  asks_exec env (.jump label) after executed

end Exec

end ScriptMachine
