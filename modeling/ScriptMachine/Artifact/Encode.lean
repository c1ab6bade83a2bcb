import ScriptMachine.Artifact.Decode
import ScriptMachine.Json.Printer

/-!
Writing script artifacts, with every field present. A real literal that is not finite cannot be
written and becomes `null`.
-/

namespace ScriptMachine

namespace Artifact

/-- A string. -/
def ofString (s : String) : Json :=
  .string (Json.Lexeme.ofString s)

/-- An integer. -/
def ofInt (n : Int) : Json :=
  .number (if n < 0 then .negative (Int64.ofInt n) else .natural (UInt64.ofNat n.toNat))

/-- A real, or `null` if it is not finite. -/
def ofReal (x : Float) : Json :=
  match Numeric.parts x with
  | .finite .. => .number (.real x)
  | _ => .null

/-- Something, or `null` for nothing. -/
def ofOption {α : Type} (write : α → Json) : Option α → Json
  | some a => write a
  | none => .null

/-- A record with the given fields. -/
def ofFields (fields : List (String × Json)) : Json :=
  .object (fields.map fun (name, v) => (Json.Lexeme.ofString name, v))

/-- The fields of an instruction. -/
def instructionRecord (i : Instruction) : List (String × Json) :=
  [("Raw", ofString i.raw), ("Opcode", ofString i.opcode.mnemonic),
    ("TypeOne", ofString i.typeOne.toText), ("TypeTwo", ofString i.typeTwo.toText),
    ("StringData", ofOption ofString i.text?),
    ("IntData", ofOption (fun n => ofInt n.toInt) i.int?),
    ("DoubleData", ofOption ofReal i.double?), ("BoolData", ofOption .bool i.bool?),
    ("Comparison", ofOption (fun c => ofString c.word) i.comparison?),
    ("JumpToEnd", .bool i.jumpToEnd), ("FunctionName", ofOption ofString i.function?),
    ("FunctionArgumentCount", ofOption (fun n => ofInt n.toNat) i.argumentCount?)]

/-- The fields of a label. -/
def labelRecord (l : Label) : List (String × Json) :=
  [("InstructionIndex", ofInt l.instructionIndex.toNat), ("FunctionName", ofOption ofString l.function?)]

/-- The labels of a script, in ascending order. -/
def ofLabels (labels : Labels) : Json :=
  ofFields (labels.toList.map fun (number, l) => (toString number, ofFields (labelRecord l)))

/-- The fields of a script. -/
def scriptRecord (s : Script) : List (String × Json) :=
  [("AssetId", ofInt s.assetId.toInt), ("Name", ofString s.name),
    ("IsGlobalInit", .bool s.isGlobalInit),
    ("LocalVariables", .array (s.localVariables.map ofString)), ("Labels", ofLabels s.labels),
    ("Instructions", .array (s.instructions.toList.map fun i => ofFields (instructionRecord i)))]

/-- A script in JSON form. -/
def ofScript (s : Script) : Json :=
  ofFields (scriptRecord s)

end Artifact

/-- The text of a script artifact. -/
def Script.toText (s : Script) : String :=
  (Artifact.ofScript s).render

/-- Whether the text of a script reads back as the same script. -/
def Script.readsBack (s : Script) : Bool :=
  match Script.ofText? s.toText with
  | some t => s.same t
  | none => false

end ScriptMachine
