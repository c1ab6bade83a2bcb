import ScriptMachine.Json.Number
import ScriptMachine.Json.Parser
import ScriptMachine.Json.Record
import ScriptMachine.Script
import ScriptMachine.Text.Blank

/-!
Reading script artifacts. Every fault, in the text or in the data, makes the whole artifact
unreadable.
-/

namespace ScriptMachine

namespace Artifact

/-- The field names of an instruction, in order. -/
def instructionFields : List String :=
  ["Raw", "Opcode", "TypeOne", "TypeTwo", "StringData", "IntData", "DoubleData", "BoolData",
    "Comparison", "JumpToEnd", "FunctionName", "FunctionArgumentCount"]

/-- The field names of a label, in order. -/
def labelFields : List String :=
  ["InstructionIndex", "FunctionName"]

/-- The field names of a script, in order. -/
def scriptFields : List String :=
  ["AssetId", "Name", "IsGlobalInit", "LocalVariables", "Labels", "Instructions"]

/-- A declared type, written as one character. -/
def dataType? (v : Json) : Option DataType := do
  match (← v.text?).toList with
  | [c] => DataType.ofCode? c
  | _ => none

/-- A 32-bit integer. -/
def int32? (v : Json) : Option Int32 :=
  (v.integer? Int32.minValue.toInt Int32.maxValue.toInt).map Int32.ofInt

/-- A 64-bit integer. -/
def int64? (v : Json) : Option Int64 :=
  (v.integer? Int64.minValue.toInt Int64.maxValue.toInt).map Int64.ofInt

/-- An unsigned 32-bit integer. -/
def uint32? (v : Json) : Option UInt32 :=
  (v.integer? 0 (UInt32.size - 1)).map UInt32.ofInt

/-- An unsigned 64-bit integer. -/
def uint64? (v : Json) : Option UInt64 :=
  (v.integer? 0 (UInt64.size - 1)).map UInt64.ofInt

/-- An instruction. -/
def instruction? (v : Json) : Option Instruction := do
  let r ← v.record? instructionFields
  return {
    raw := ← r.required? "Raw" Json.text?
    opcode := ← r.required? "Opcode" (Json.word? Opcode.ofMnemonic?)
    typeOne := ← r.defaulted? "TypeOne" .untyped dataType?
    typeTwo := ← r.defaulted? "TypeTwo" .untyped dataType?
    text? := ← r.defaulted? "StringData" none (Json.optional? Json.text?)
    int? := ← r.defaulted? "IntData" none (Json.optional? int64?)
    double? := ← r.defaulted? "DoubleData" none (Json.optional? Json.real?)
    bool? := ← r.defaulted? "BoolData" none (Json.optional? Json.bool?)
    comparison? := ← r.defaulted? "Comparison" none (Json.optional? (Json.word? Comparison.ofWord?))
    jumpToEnd := ← r.defaulted? "JumpToEnd" false Json.bool?
    function? := ← r.defaulted? "FunctionName" none (Json.optional? Json.text?)
    argumentCount? := ← r.defaulted? "FunctionArgumentCount" none (Json.optional? uint32?) }

/-- A label. -/
def label? (v : Json) : Option Label := do
  let r ← v.record? labelFields
  return {
    instructionIndex := ← r.required? "InstructionIndex" uint64?
    function? := ← r.defaulted? "FunctionName" none (Json.optional? Json.text?) }

/-- The number of a label: a field name that is written exactly as a JSON integer, without escapes. -/
def labelNumber? (key : Json.Lexeme) : Option Int64 := do
  match ← Json.readNumeral? key.written.toList with
  | (n, []) => int64? (.number n.value)
  | _ => none

/-- Labels; of two with the same number the later one stays. -/
def labels? : Json → Option Labels
  | .object fields => do
      let labels ← fields.mapM fun (key, v) => do return (← labelNumber? key, ← label? v)
      return labels.foldl (fun m (number, l) => m.insert number l) ∅
  | _ => none

/-- A script. -/
def script? (v : Json) : Option Script := do
  let r ← v.record? scriptFields
  return {
    assetId := ← r.required? "AssetId" int32?
    name := ← r.required? "Name" Json.text?
    isGlobalInit := ← r.defaulted? "IsGlobalInit" false Json.bool?
    localVariables := ← r.defaulted? "LocalVariables" [] (Json.items? Json.text?)
    labels := ← r.defaulted? "Labels" ∅ labels?
    instructions := (← r.required? "Instructions" (Json.items? instruction?)).toArray }

end Artifact

/-- Reads the text of one script. -/
def Script.ofText? (text : String) : Option Script := do
  Artifact.script? (← Json.parse? text)

/-- Reads the text of a list of scripts. -/
def Script.listOfText? (text : String) : Option (List Script) := do
  (← Json.parse? text).items? Artifact.script?

/-- Reads the text of an artifact: a list of scripts if it starts, after white space, with an opening
bracket, and one script otherwise. -/
def Script.artifactOfText? (text : String) : Option (List Script) :=
  match Text.trimStart text.toList with
  | '[' :: _ => listOfText? text
  | _ => (ofText? text).map fun s => [s]

end ScriptMachine
