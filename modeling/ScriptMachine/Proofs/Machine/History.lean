import ScriptMachine.Artifact.Decode
import ScriptMachine.Proofs.Machine.FunctionIndex
import ScriptMachine.Proofs.Machine.Request

/-!
Histories: what a host does to a machine, one action after another. Only loading changes the scripts
and the function index, so that after any history both are determined by the scripts loaded in it.
-/

namespace ScriptMachine

/-- Something that a host does to a machine. -/
inductive HostAction where
  | load (s : Script)
  /-- Loads the scripts of an artifact, or none if its text cannot be read. -/
  | loadText (text : String)
  | register (name : String) (native : Native)
  | request (fuel : Nat) (instances : Registry) (r : Request)
  | reset

namespace HostAction

/-- The machine after an action. -/
def perform (m : Machine) : HostAction → Machine
  | .load s => (m.load s).1
  | .loadText text =>
      match Script.artifactOfText? text with
      | some scripts => (m.loadAll scripts).1
      | none => m
  | .register name native => m.register name native
  | .request fuel instances r => (r.perform fuel m instances).machine
  | .reset => m.reset.1

/-- The scripts that an action loads, in order. -/
def loads : HostAction → List Script
  | .load s => [s]
  | .loadText text => (Script.artifactOfText? text).getD []
  | .register _ _ | .request _ _ _ | .reset => []

end HostAction

/-- The machine after a history. -/
def Machine.performAll (m : Machine) (history : List HostAction) : Machine :=
  history.foldl HostAction.perform m

/-! ### Loading -/

/-- Loading changes nothing but the program. -/
theorem Machine.loadAll_eq (m : Machine) (scripts : List Script) :
    (m.loadAll scripts).1 = { m with program := scripts.foldl Program.load m.program } := by
  induction scripts generalizing m with
  | nil => rfl
  | cons s rest ih => exact ih (m.load s).1

/-- Loading scripts changes neither the settings nor the natives. -/
theorem Program.foldl_load (p : Program) (scripts : List Script) :
    (scripts.foldl load p).config = p.config ∧ (scripts.foldl load p).natives = p.natives := by
  induction scripts generalizing p with
  | nil => exact ⟨rfl, rfl⟩
  | cons s rest ih => exact ih (p.load s)

/-! ### Scripts and functions -/

variable {m : Machine} {past : List Script}

/-- Scripts that are loaded one after another are added to those loaded before. -/
theorem Machine.indexes_loadAll (indexed : m.program.Indexes past) (scripts : List Script) :
    (m.loadAll scripts).1.program.Indexes (past ++ scripts) := by
  induction scripts generalizing m past with
  | nil => rwa [List.append_nil]
  | cons s rest ih =>
      rw [← List.singleton_append, ← List.append_assoc]
      exact ih (m := (m.load s).1) (indexed.load s)

/-- What an action loads is all that matters for the scripts and the index. -/
theorem HostAction.indexes_perform (indexed : m.program.Indexes past) (a : HostAction) :
    (a.perform m).program.Indexes (past ++ a.loads) := by
  cases a with
  | load s => exact indexed.load s
  | loadText text =>
      cases read : Script.artifactOfText? text with
      | none =>
          simp only [perform, loads, read, Option.getD_none, List.append_nil]
          exact indexed
      | some scripts =>
          simp only [perform, loads, read, Option.getD_some]
          exact m.indexes_loadAll indexed scripts
  | register name native =>
      rw [loads, List.append_nil]
      exact ⟨indexed.scripts, indexed.functions⟩
  | request fuel instances r =>
      rw [loads, List.append_nil, perform, r.program_perform]
      exact indexed
  | reset =>
      rw [loads, List.append_nil]
      exact indexed

/-- By induction on the history, a machine holds what its loads say. -/
theorem Machine.indexes_performAll (indexed : m.program.Indexes past) (history : List HostAction) :
    (m.performAll history).program.Indexes (past ++ history.flatMap HostAction.loads) := by
  induction history generalizing m past with
  | nil => rwa [List.flatMap_nil, List.append_nil]
  | cons a history ih =>
      rw [List.flatMap_cons, ← List.append_assoc]
      exact ih (a.indexes_perform indexed)

/-- After any history of a new machine: the script under a name is the last one loaded under it; a
function is indexed exactly if the last script loaded that declares it is still in place, and then
with that script and the greatest label that declares it; a script is found before a function of the
same name; and a text that cannot be read is loaded without effect. -/
theorem index_after_history (config : Config) (natives : Natives) (history : List HostAction) :
    let m := (Machine.new config natives).performAll history
    let loads := history.flatMap HostAction.loads
    (∀ name s, m.program.scripts[name]? = some s ↔ LastWith (·.name = name) loads s) ∧
      (∀ f, m.program.functions[f]?.isSome ↔
        ∃ s, LastWith (·.Declares f) loads s ∧ m.program.scripts[s.name]? = some s) ∧
      (∀ f s index, m.program.functions[f]? = some ⟨s, index⟩ ↔
        LastWith (·.Declares f) loads s ∧ m.program.scripts[s.name]? = some s ∧
          s.StartsAt f index) ∧
      (∀ f, m.program.lookup? f
        = (m.program.scripts[f]?.map fun s => ⟨s, 0⟩).or m.program.functions[f]?) ∧
      ∀ text, Script.artifactOfText? text = none → (HostAction.loadText text).perform m = m := by
  intro m loads
  have indexed : m.program.Indexes loads :=
    (Machine.new config natives).indexes_performAll (Program.Indexes.empty config natives) history
  refine ⟨indexed.scripts, ?_, fun f s index => indexed.functions f ⟨s, index⟩, ?_, ?_⟩
  · intro f
    rw [Option.isSome_iff_exists]
    constructor
    · rintro ⟨e, found⟩
      obtain ⟨last, kept, -⟩ := (indexed.functions f e).mp found
      exact ⟨e.script, last, kept⟩
    · rintro ⟨s, last, kept⟩
      obtain ⟨index, starts⟩ := last.holds.exists_startsAt
      exact ⟨⟨s, index⟩, (indexed.functions f ⟨s, index⟩).mpr ⟨last, kept, starts⟩⟩
  · intro f
    unfold Program.lookup?
    cases m.program.scripts[f]? <;> rfl
  · intro text unreadable
    simp only [HostAction.perform, unreadable]

end ScriptMachine
