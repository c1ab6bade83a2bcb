import ScriptMachine.Artifact.Encode
import ScriptMachine.Artifact.Settings
import ScriptMachine.Machine.Basic
import ScriptMachine.Proofs.Machine.Turn
import ScriptMachine.Proofs.Machine.Evaluation
import ScriptMachine.Proofs.Action
import ScriptMachine.Proofs.Exec.Keeps
import ScriptMachine.Proofs.Exec.Stores
import ScriptMachine.Proofs.Machine.CallBounds
import ScriptMachine.Proofs.Machine.FunctionIndex
import ScriptMachine.Proofs.Machine.History
import ScriptMachine.Proofs.Machine.Reload
import ScriptMachine.Proofs.Value.Computed
import ScriptMachine.Proofs.Native.Standard
import ScriptMachine.Proofs.Exec.Discipline
import ScriptMachine.Proofs.Machine.Discipline
import ScriptMachine.Proofs.Machine.Failure
import ScriptMachine.Proofs.Machine.ArrayBounds
import ScriptMachine.Proofs.Storage.Shadowed
import ScriptMachine.Proofs.Machine.Shadowed
import ScriptMachine.Proofs.Exec.Flow
import ScriptMachine.Proofs.Machine.Initializers
import ScriptMachine.Proofs.Machine.Termination
import ScriptMachine.Proofs.Machine.LoadOrder
import ScriptMachine.Proofs.Instance.Registry
import ScriptMachine.Proofs.Machine.Reset
import ScriptMachine.Proofs.Storage.Resolution
import ScriptMachine.Proofs.Machine.Identity
import ScriptMachine.Proofs.Variable.Operand
import ScriptMachine.Proofs.Variable.Canonical
import ScriptMachine.Proofs.Machine.CallLog
import ScriptMachine.Proofs.Json.Number
import ScriptMachine.Proofs.Json.Lexeme
import ScriptMachine.Proofs.Json.Text
import ScriptMachine.Proofs.Artifact.Record
import ScriptMachine.Proofs.Artifact.RoundTrip
import ScriptMachine.Proofs.Storage.Item
import ScriptMachine.Proofs.Storage.Plain
import ScriptMachine.Proofs.Storage.Indexed
import ScriptMachine.Proofs.Storage.FailedStore
import ScriptMachine.Proofs.Storage.Selection
import ScriptMachine.Proofs.Exec.Access
import ScriptMachine.Proofs.Exec.ItemStore
import ScriptMachine.Proofs.Exec.Literal
import ScriptMachine.Proofs.Exec.Compound
import ScriptMachine.Proofs.Exec.StackEffect
import ScriptMachine.Proofs.Instance.FreshIds
import ScriptMachine.Proofs.Numeric.Zero
import ScriptMachine.Proofs.Value.Integer
import ScriptMachine.Proofs.Value.Comparison
import ScriptMachine.Proofs.Value.Injection
import ScriptMachine.Proofs.Exec.Negation
