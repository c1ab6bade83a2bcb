import ScriptMachine.Proofs.Artifact.Record
import ScriptMachine.Proofs.Table

/-!
Artifacts read back. A script has one full form in JSON and many shorter ones, in which fields that
hold their defaults are left out, in the script itself and in each of its labels and instructions.
Every form is read as the script, less the reals that are not finite: these are written as nothing.
-/

namespace ScriptMachine

/-! ### Reals that can be written -/

/-- A double that is neither infinite nor a not-a-number. -/
def Numeric.isFinite (x : Float) : Bool :=
  match parts x with
  | .finite .. => true
  | _ => false

/-- A finite double has a place among all numbers: only the greatest exponent field lies above it. -/
theorem Numeric.exists_rank?_of_isFinite {x : Float} (finite : isFinite x = true) :
    ∃ rank, rank? x = some rank := by
  have bounded : ¬ 2047 * pow2 52 < x.toBits.toNat % pow2 63 := by
    intro above
    have size := x.toBits.toNat_lt
    have field : x.toBits.toNat / pow2 52 % 2048 = 2047 := by
      rw [show pow2 52 = 4503599627370496 from rfl] at above ⊢
      rw [show pow2 63 = 9223372036854775808 from rfl] at above
      omega
    simp only [isFinite, parts, field, if_true] at finite
    split at finite
    · rename_i fraction
      split at fraction <;> cases fraction
    · cases finite
  simp only [rank?, if_neg bounded]
  split
  · exact ⟨_, rfl⟩
  · exact ⟨_, rfl⟩

/-- A finite double is the same as itself. -/
theorem Numeric.same_self {x : Float} (finite : isFinite x = true) : same x x = true := by
  obtain ⟨rank, found⟩ := exists_rank?_of_isFinite finite
  simp [same, compare?, found]

/-- The instruction without a real that cannot be written. -/
def Instruction.recorded (i : Instruction) : Instruction :=
  { i with double? := i.double?.filter Numeric.isFinite }

/-- The script without the reals that cannot be written. -/
def Script.recorded (s : Script) : Script :=
  { s with instructions := s.instructions.map Instruction.recorded }

/-- The reals of a script. -/
def Script.reals (s : Script) : List Float :=
  s.instructions.toList.filterMap fun i => i.double?

namespace Artifact

open Json (Omits Record bind_of_eq_some)

/-- A finite real is written as a number. -/
theorem ofReal_of_isFinite {x : Float} (finite : Numeric.isFinite x = true) :
    ofReal x = .number (.real x) := by
  cases parts : Numeric.parts x with
  | finite negative m e => simp only [ofReal, parts]
  | _ => simp [Numeric.isFinite, parts] at finite

/-- A real that is not finite is written as null, like an absent one. -/
theorem ofReal_of_not_isFinite {x : Float} (not_finite : ¬ Numeric.isFinite x = true) :
    ofReal x = .null := by
  cases parts : Numeric.parts x with
  | finite negative m e => simp [Numeric.isFinite, parts] at not_finite
  | _ => simp only [ofReal, parts]

/-- A real that is not finite is read as nothing. -/
theorem optional?_ofReal (x? : Option Float) :
    (ofOption ofReal x?).optional? Json.real? = some (x?.filter Numeric.isFinite) := by
  cases x? with
  | none => rfl
  | some x =>
      by_cases finite : Numeric.isFinite x = true
      · rw [ofOption, ofReal_of_isFinite finite, Option.filter_some, if_pos finite]
        rfl
      · rw [ofOption, ofReal_of_not_isFinite finite, Option.filter_some, if_neg finite]
        rfl

/-! ### Instructions -/

/-- The fields of an instruction that may be left out, with their defaults. -/
def instructionDefaults : Record :=
  [("TypeOne", ofString DataType.untyped.toText), ("TypeTwo", ofString DataType.untyped.toText),
    ("StringData", .null), ("IntData", .null), ("DoubleData", .null), ("BoolData", .null),
    ("Comparison", .null), ("JumpToEnd", .bool false), ("FunctionName", .null),
    ("FunctionArgumentCount", .null)]

/-- An instruction is read as a record in each of its forms. -/
theorem record?_instruction {i : Instruction} {kept : Record}
    (omits : Omits instructionDefaults (instructionRecord i) kept) :
    (ofFields kept).record? instructionFields = some kept :=
  record?_ofFields omits rfl (by decide)

/-- Every default is what its field is read as when it is left out. -/
theorem instruction?_omits {i : Instruction} {kept : Record}
    (omits : Omits instructionDefaults (instructionRecord i) kept) :
    instruction? (ofFields kept) = instruction? (ofFields (instructionRecord i)) := by
  have distinct : Record.IsDistinct (instructionRecord i) :=
    (by decide : instructionFields.Nodup)
  rw [instruction?, instruction?, bind_of_eq_some (record?_instruction omits),
    bind_of_eq_some (record?_instruction (Omits.refl _ _))]
  -- Field by field the full record is read alike; what is left to show is about the defaults alone.
  iterate 2 rw [Record.required?_omits omits distinct]
  iterate 10 rw [Record.defaulted?_omits omits distinct]
  all_goals simp [instructionDefaults, dataType?_toText, Json.optional?, Json.bool?]

/-- The full form of an instruction is read as what was recorded of it. -/
theorem instruction?_record (i : Instruction) :
    instruction? (ofFields (instructionRecord i)) = some i.recorded := by
  have raw : Record.required? (instructionRecord i) "Raw" Json.text? = some i.raw := rfl
  have opcode : Record.required? (instructionRecord i) "Opcode" (Json.word? Opcode.ofMnemonic?)
      = some i.opcode := Opcode.ofMnemonic?_mnemonic i.opcode
  have typeOne : Record.defaulted? (instructionRecord i) "TypeOne" .untyped dataType?
      = some i.typeOne := dataType?_toText i.typeOne
  have typeTwo : Record.defaulted? (instructionRecord i) "TypeTwo" .untyped dataType?
      = some i.typeTwo := dataType?_toText i.typeTwo
  have text : Record.defaulted? (instructionRecord i) "StringData" none (Json.optional? Json.text?)
      = some i.text? := optional?_ofOption rfl text?_ofString i.text?
  have int : Record.defaulted? (instructionRecord i) "IntData" none (Json.optional? int64?)
      = some i.int? := optional?_ofOption rfl int64?_ofInt i.int?
  have double : Record.defaulted? (instructionRecord i) "DoubleData" none (Json.optional? Json.real?)
      = some (i.double?.filter Numeric.isFinite) := optional?_ofReal i.double?
  have bool : Record.defaulted? (instructionRecord i) "BoolData" none (Json.optional? Json.bool?)
      = some i.bool? := optional?_ofOption rfl (fun _ : Bool => rfl) i.bool?
  have comparison : Record.defaulted? (instructionRecord i) "Comparison" none
      (Json.optional? (Json.word? Comparison.ofWord?)) = some i.comparison? :=
    optional?_ofOption rfl Comparison.ofWord?_word i.comparison?
  have jumpToEnd : Record.defaulted? (instructionRecord i) "JumpToEnd" false Json.bool?
      = some i.jumpToEnd := rfl
  have function : Record.defaulted? (instructionRecord i) "FunctionName" none
      (Json.optional? Json.text?) = some i.function? :=
    optional?_ofOption rfl text?_ofString i.function?
  have argumentCount : Record.defaulted? (instructionRecord i) "FunctionArgumentCount" none
      (Json.optional? uint32?) = some i.argumentCount? :=
    optional?_ofOption rfl uint32?_ofInt i.argumentCount?
  rw [instruction?, bind_of_eq_some (record?_instruction (Omits.refl _ _)), bind_of_eq_some raw,
    bind_of_eq_some opcode, bind_of_eq_some typeOne, bind_of_eq_some typeTwo, bind_of_eq_some text,
    bind_of_eq_some int, bind_of_eq_some double, bind_of_eq_some bool, bind_of_eq_some comparison,
    bind_of_eq_some jumpToEnd, bind_of_eq_some function, bind_of_eq_some argumentCount]
  rfl

/-- A form of an instruction. -/
def IsInstruction (i : Instruction) (v : Json) : Prop :=
  IsForm instructionDefaults (instructionRecord i) v

/-- Every form of an instruction is read as what was recorded of it. -/
theorem IsInstruction.read {i : Instruction} {v : Json} (form : IsInstruction i v) :
    instruction? v = some i.recorded := by
  obtain ⟨kept, omits, rfl⟩ := form
  rw [instruction?_omits omits, instruction?_record]

/-! ### Labels -/

/-- The fields of a label that may be left out, with their defaults. -/
def labelDefaults : Record :=
  [("FunctionName", .null)]

/-- A form of a label. -/
def IsLabel (l : Label) (v : Json) : Prop :=
  IsForm labelDefaults (labelRecord l) v

theorem record?_label {l : Label} {kept : Record} (omits : Omits labelDefaults (labelRecord l) kept) :
    (ofFields kept).record? labelFields = some kept :=
  record?_ofFields omits rfl (by decide)

/-- Every form of a label is read as that label. -/
theorem IsLabel.read {l : Label} {v : Json} (form : IsLabel l v) : label? v = some l := by
  obtain ⟨kept, omits, rfl⟩ := form
  have distinct : Record.IsDistinct (labelRecord l) := (by decide : labelFields.Nodup)
  have index : Record.required? (labelRecord l) "InstructionIndex" uint64?
      = some l.instructionIndex := uint64?_ofInt l.instructionIndex
  have function : Record.defaulted? (labelRecord l) "FunctionName" none (Json.optional? Json.text?)
      = some l.function? := optional?_ofOption rfl text?_ofString l.function?
  rw [label?, bind_of_eq_some (record?_label omits), Record.required?_omits omits distinct,
    Record.defaulted?_omits omits distinct, bind_of_eq_some index, bind_of_eq_some function]
  · rfl
  · simp [labelDefaults, Json.optional?]
  · simp [labelDefaults]

/-- The number of a label is written without escapes. -/
theorem toList_written_repr (n : Int) :
    (Json.Lexeme.ofString n.repr).written.toList = n.repr.toList := by
  have digits : ∀ k : Nat, ∀ c ∈ Nat.toDigits 10 k, Json.escapeChar c = [c] := fun k c mem =>
    Json.escapeChar_of_isDigit (Nat.isDigit_of_mem_toDigits (by decide) (by decide) mem)
  apply Json.toList_written_of_plain
  cases n with
  | ofNat k =>
      rw [Int.repr, Nat.toList_repr]
      exact digits k
  | negSucc k =>
      have text : (Int.negSucc k).repr.toList = '-' :: Nat.toDigits 10 (k + 1) := by simp [Int.repr]
      rw [text]
      intro c mem
      rcases List.mem_cons.mp mem with rfl | mem
      · decide
      · exact digits (k + 1) c mem

/-- The number of a label is written like the same number elsewhere. -/
theorem exists_number_of_label (n : Int64) :
    ∃ m : Json.Number, ofInt n.toInt = .number m ∧ m.ReadsBack ∧ m.render = n.toInt.repr := by
  refine ⟨_, rfl, ?_, ?_⟩
  · cases readsBack_ofInt n.minValue_le_toInt with
    | number exact => exact exact
  · split
    · rw [Int64.ofInt_toInt]
      rfl
    · obtain ⟨k, eq⟩ := Int.eq_ofNat_of_zero_le (by omega : 0 ≤ n.toInt)
      have fits : k < UInt64.size := by
        have greatest := n.toInt_lt
        change k < 2 ^ 64
        omega
      rw [eq]
      change Nat.repr (UInt64.ofNat k).toNat = Nat.repr k
      rw [UInt64.toNat_ofNat_of_lt' fits]

/-- The number of a label is read from its decimal text. -/
theorem labelNumber?_ofString (n : Int64) : labelNumber? (.ofString (toString n)) = some n := by
  obtain ⟨m, written, ⟨numeral, found, value⟩, text⟩ := exists_number_of_label n
  have back := int64?_ofInt n
  rw [written] at back
  rw [text] at found
  have shown : (Json.Lexeme.ofString (toString n)).written.toList = n.toInt.repr.toList :=
    toList_written_repr n.toInt
  simp [labelNumber?, shown, found, value, back]

/-- The forms of the labels of a script: one field for each, in ascending order. -/
def IsLabels (labels : Labels) (v : Json) : Prop :=
  ∃ entries, List.Forall₂ (fun x (f : String × Json) => f.1 = toString x.1 ∧ IsLabel x.2 f.2)
    labels.toList entries ∧ v = ofFields entries

/-- Labels are read back as one table, each of them from any of its forms. -/
theorem IsLabels.read {labels : Labels} {v : Json} (form : IsLabels labels v) :
    labels? v = some labels := by
  obtain ⟨entries, each, rfl⟩ := form
  rw [ofFields, labels?, bind_of_eq_some (a := labels.toList) (mapM_eq_some ?_)]
  · exact congrArg some (Table.foldl_insert_toList labels)
  · rw [List.forall₂_map_right_iff]
    apply each.imp
    rintro ⟨number, l⟩ ⟨key, v⟩ ⟨rfl, form⟩
    dsimp only
    rw [bind_of_eq_some (labelNumber?_ofString number), bind_of_eq_some form.read]
    rfl

/-! ### Scripts -/

/-- The fields of a script that may be left out, with their defaults. -/
def scriptDefaults : Record :=
  [("IsGlobalInit", .bool false), ("LocalVariables", .array []), ("Labels", .object [])]

/-- The fields of a script with the given forms of its labels and instructions. -/
def scriptRecordWith (s : Script) (labels : Json) (instructions : List Json) : Record :=
  [("AssetId", ofInt s.assetId.toInt), ("Name", ofString s.name),
    ("IsGlobalInit", .bool s.isGlobalInit),
    ("LocalVariables", .array (s.localVariables.map ofString)), ("Labels", labels),
    ("Instructions", .array instructions)]

/-- The forms of a script: labels and instructions in any of their forms, and then the script itself
with all its fields or with some left out. -/
def IsScript (s : Script) (v : Json) : Prop :=
  ∃ labels instructions, IsLabels s.labels labels ∧
    List.Forall₂ IsInstruction s.instructions.toList instructions ∧
    IsForm scriptDefaults (scriptRecordWith s labels instructions) v

theorem record?_script {s : Script} {labels : Json} {instructions : List Json} {kept : Record}
    (omits : Omits scriptDefaults (scriptRecordWith s labels instructions) kept) :
    (ofFields kept).record? scriptFields = some kept :=
  record?_ofFields omits rfl (by decide)

/-- Every form of a script is read as what was recorded of it. -/
theorem IsScript.read {s : Script} {v : Json} (form : IsScript s v) :
    script? v = some s.recorded := by
  obtain ⟨labels, instructions, labelled, each, kept, omits, rfl⟩ := form
  have distinct : Record.IsDistinct (scriptRecordWith s labels instructions) :=
    (by decide : scriptFields.Nodup)
  have assetId : (scriptRecordWith s labels instructions).required? "AssetId" int32?
      = some s.assetId := int32?_ofInt s.assetId
  have name : (scriptRecordWith s labels instructions).required? "Name" Json.text?
      = some s.name := rfl
  have isGlobalInit : (scriptRecordWith s labels instructions).defaulted? "IsGlobalInit" false
      Json.bool? = some s.isGlobalInit := rfl
  have locals : (scriptRecordWith s labels instructions).defaulted? "LocalVariables" []
      (Json.items? Json.text?) = some s.localVariables := by
    apply mapM_eq_some
    rw [List.forall₂_map_right_iff]
    exact List.forall₂_same.mpr fun name _ => text?_ofString name
  have table : (scriptRecordWith s labels instructions).defaulted? "Labels" ∅ labels?
      = some s.labels := labelled.read
  have code : (scriptRecordWith s labels instructions).required? "Instructions"
      (Json.items? instruction?) = some (s.instructions.map Instruction.recorded).toList := by
    apply mapM_eq_some
    rw [Array.toList_map, List.forall₂_map_left_iff]
    exact each.imp fun i v form => form.read
  -- Omitted fields are read as their defaults, so as the fields of the full record.
  rw [script?, bind_of_eq_some (record?_script omits)]
  iterate 2 rw [Record.required?_omits omits distinct]
  iterate 3 rw [Record.defaulted?_omits omits distinct]
  rw [Record.required?_omits omits distinct, bind_of_eq_some assetId, bind_of_eq_some name,
    bind_of_eq_some isGlobalInit, bind_of_eq_some locals, bind_of_eq_some table,
    bind_of_eq_some code]
  · rfl
  all_goals simp [scriptDefaults, Json.bool?, Json.items?, labels?]

/-- The full form is one of the forms. -/
theorem isScript_ofScript (s : Script) : IsScript s (ofScript s) := by
  refine ⟨_, _, ⟨_, ?_, rfl⟩, ?_, isForm_ofFields scriptDefaults (scriptRecord s)⟩
  · rw [List.forall₂_map_right_iff]
    exact List.forall₂_same.mpr fun x _ => ⟨rfl, isForm_ofFields labelDefaults (labelRecord x.2)⟩
  · rw [List.forall₂_map_right_iff]
    exact List.forall₂_same.mpr fun i _ => isForm_ofFields instructionDefaults (instructionRecord i)

/-! ### Texts -/

theorem readsBack_ofString (s : String) : (ofString s).ReadsBack :=
  .string s

/-- A written real reads back if its digits do, and null always does. -/
theorem readsBack_ofReal {x : Float}
    (exact : Numeric.isFinite x = true → (Json.Number.real x).ReadsBack) : (ofReal x).ReadsBack := by
  by_cases finite : Numeric.isFinite x = true
  · rw [ofReal_of_isFinite finite]
    exact .number (exact finite)
  · rw [ofReal_of_not_isFinite finite]
    exact .null

/-- The text of an instruction reads back if the digits of its real do. -/
theorem IsInstruction.readsBack {i : Instruction} {v : Json} (form : IsInstruction i v)
    (exact : ∀ x ∈ i.double?, Numeric.isFinite x = true → (Json.Number.real x).ReadsBack) :
    v.ReadsBack := by
  apply IsForm.readsBack form
  have text : ∀ s? : Option String, (ofOption ofString s?).ReadsBack := fun s? =>
    readsBack_ofOption fun s _ => readsBack_ofString s
  simp only [instructionRecord, List.forall_mem_cons]
  refine ⟨readsBack_ofString _, readsBack_ofString _, readsBack_ofString _, readsBack_ofString _,
    text _, ?_, ?_, ?_, ?_, .bool _, text _, ?_, by simp⟩
  · exact readsBack_ofOption fun n _ => readsBack_ofInt n.minValue_le_toInt
  · exact readsBack_ofOption fun x mem => readsBack_ofReal (exact x mem)
  · exact readsBack_ofOption fun b _ => .bool b
  · exact readsBack_ofOption fun c _ => readsBack_ofString c.word
  · exact readsBack_ofOption fun n _ => readsBack_ofInt (minValue_le_natCast n.toNat)

theorem IsLabel.readsBack {l : Label} {v : Json} (form : IsLabel l v) : v.ReadsBack := by
  apply IsForm.readsBack form
  simp only [labelRecord, List.forall_mem_cons]
  refine ⟨readsBack_ofInt (minValue_le_natCast _), ?_, by simp⟩
  exact readsBack_ofOption fun s _ => readsBack_ofString s

theorem IsLabels.readsBack {labels : Labels} {v : Json} (form : IsLabels labels v) :
    v.ReadsBack := by
  obtain ⟨entries, each, rfl⟩ := form
  apply readsBack_ofFields
  intro f mem
  obtain ⟨x, -, -, form⟩ := exists_of_forall₂ each mem
  exact form.readsBack

/-- The text of a script reads back if the digits of its reals do; nothing else in it can be lost
between text and tree. -/
theorem IsScript.readsBack {s : Script} {v : Json} (form : IsScript s v)
    (exact : ∀ x ∈ s.reals, Numeric.isFinite x = true → (Json.Number.real x).ReadsBack) :
    v.ReadsBack := by
  obtain ⟨labels, instructions, labelled, each, form⟩ := form
  apply form.readsBack
  simp only [scriptRecordWith, List.forall_mem_cons]
  refine ⟨readsBack_ofInt ?_, readsBack_ofString _, .bool _, .array ?_, labelled.readsBack,
    .array ?_, by simp⟩
  · exact Int.le_trans (by decide) s.assetId.minValue_le_toInt
  · intro v mem
    obtain ⟨name, -, rfl⟩ := List.mem_map.mp mem
    exact readsBack_ofString name
  · intro v mem
    obtain ⟨i, listed, form⟩ := exists_of_forall₂ each mem
    exact form.readsBack fun x found => exact x (List.mem_filterMap.mpr ⟨i, listed, found⟩)

end Artifact

/-! ### What is lost -/

/-- An instruction is recorded as it is exactly if its real is finite. -/
theorem Instruction.recorded_eq_iff {i : Instruction} :
    i.recorded = i ↔ ∀ x ∈ i.double?, Numeric.isFinite x = true := by
  constructor
  · intro same x found
    have kept : i.double?.filter Numeric.isFinite = i.double? := congrArg Instruction.double? same
    exact (Option.filter_eq_some_iff.mp (kept.trans found)).2
  · intro finite
    have kept : i.double?.filter Numeric.isFinite = i.double? := by
      cases found : i.double? with
      | none => rfl
      | some x => exact Option.filter_eq_some_iff.mpr ⟨rfl, finite x found⟩
    rw [recorded, kept]

/-- So it is for the comparison of instructions, to which a not-a-number differs from itself. -/
theorem Instruction.same_recorded_iff {i : Instruction} :
    i.same i.recorded = true ↔ ∀ x ∈ i.double?, Numeric.isFinite x = true := by
  have others : i.same i.recorded = sameDouble i.double? i.recorded.double? := by
    simp [same, recorded]
  rw [others]
  constructor
  · intro same x found
    by_contra not_finite
    have lost : i.recorded.double? = none := by
      simpa [recorded, Option.mem_def.mp found] using not_finite
    rw [found, lost] at same
    cases same
  · intro finite
    rw [recorded_eq_iff.mpr finite]
    cases found : i.double? with
    | none => rfl
    | some x => exact Numeric.same_self (finite x found)

namespace Script

/-- The reals of a script are those of its instructions. -/
theorem forall_reals_iff {s : Script} {p : Float → Prop} :
    (∀ x ∈ s.reals, p x) ↔ ∀ i ∈ s.instructions.toList, ∀ x ∈ i.double?, p x := by
  constructor
  · intro each i listed x found
    exact each x (List.mem_filterMap.mpr ⟨i, listed, found⟩)
  · intro each x mem
    obtain ⟨i, listed, found⟩ := List.mem_filterMap.mp mem
    exact each i listed x found

/-- A script is recorded as it is exactly if its reals are finite. -/
theorem recorded_eq_iff {s : Script} :
    s.recorded = s ↔ ∀ x ∈ s.reals, Numeric.isFinite x = true := by
  have code : s.recorded = s
      ↔ s.instructions.toList.map Instruction.recorded = s.instructions.toList.map id := by
    constructor
    · intro same
      have kept : s.instructions.map Instruction.recorded = s.instructions :=
        congrArg instructions same
      rw [← Array.toList_map, kept, List.map_id]
    · intro same
      have kept : s.instructions.map Instruction.recorded = s.instructions := by
        apply Array.toList_inj.mp
        rw [Array.toList_map, same, List.map_id]
      rw [recorded, kept]
  rw [code, List.map_inj_left, forall_reals_iff]
  exact forall₂_congr fun i _ => Instruction.recorded_eq_iff

/-- A recorded script is the same as the script exactly if no real of it was lost. -/
theorem same_recorded_iff {s : Script} :
    s.same s.recorded = true ↔ ∀ x ∈ s.reals, Numeric.isFinite x = true := by
  have each : s.same s.recorded = s.instructions.toList.all fun i => i.same i.recorded := by
    simp only [same, recorded, beq_self_eq_true, Array.size_map, Bool.true_and, Array.toList_map,
      ← List.map_prod_left_eq_zip, List.all_map]
    rfl
  rw [each, List.all_eq_true, forall_reals_iff]
  exact forall₂_congr fun i _ => Instruction.same_recorded_iff

end Script

/-- The text of every finite real of the script reads back as that real. -/
def Script.RealsReadBack (s : Script) : Prop :=
  ∀ x ∈ s.reals, Numeric.isFinite x = true → (Json.Number.real x).ReadsBack

/-- **Artifacts round-trip.** Every form of a script is read: the full form, which `Script.toText`
writes, and each form in which some fields that hold their defaults are left out. So is its text, if
the texts of the reals are exact. If every real is finite, what is read is the script itself; if one
is not, then it is another script, and also the comparison of scripts tells the two apart. -/
theorem artifact_round_trip (s : Script) :
    Artifact.IsScript s (Artifact.ofScript s) ∧
    ∀ v, Artifact.IsScript s v → ∃ t, Artifact.script? v = some t ∧
      (s.RealsReadBack → Script.ofText? v.render = some t) ∧
      ((∀ x ∈ s.reals, Numeric.isFinite x = true) → t = s ∧ s.same t = true) ∧
      ((∃ x ∈ s.reals, ¬ Numeric.isFinite x = true) → t ≠ s ∧ s.same t = false) := by
  refine ⟨Artifact.isScript_ofScript s, ?_⟩
  intro v form
  refine ⟨s.recorded, form.read, ?_, ?_, ?_⟩
  · intro exact
    rw [Script.ofText?, (form.readsBack exact).parse?_render]
    exact form.read
  · intro finite
    exact ⟨Script.recorded_eq_iff.mpr finite, Script.same_recorded_iff.mpr finite⟩
  · rintro ⟨x, mem, not_finite⟩
    constructor
    · intro same
      exact not_finite (Script.recorded_eq_iff.mp same x mem)
    · rw [Bool.eq_false_iff]
      intro same
      exact not_finite (Script.same_recorded_iff.mp same x mem)

/-- One half reads back, also from a text without the defaults of its script; infinity does not. -/
theorem artifact_round_trip_for_half_and_infinity :
    let half : Script := { assetId := -3, name := "half", instructions := #[.pushDouble 0.5] }
    let short := Artifact.ofFields [("AssetId", Artifact.ofInt (-3)), ("Name", Artifact.ofString "half"),
      ("Instructions", .array [Artifact.ofFields (Artifact.instructionRecord (.pushDouble 0.5))])]
    let infinite : Script :=
      { assetId := 3, name := "infinite", instructions := #[.pushDouble (Numeric.infinity false)] }
    Script.ofText? half.toText = some half ∧ Script.ofText? short.render = some half ∧
      ∃ t, Script.ofText? infinite.toText = some t ∧ t ≠ infinite ∧ infinite.same t = false := by
  intro half short infinite
  have exact : half.RealsReadBack := by
    intro x mem _
    obtain rfl : x = 0.5 := by simpa [half, Script.reals, Instruction.pushDouble] using mem
    exact ⟨⟨false, ['0'], some ['5'], none⟩, by decide +kernel, by decide +kernel⟩
  have finite : ∀ x ∈ half.reals, Numeric.isFinite x = true := by decide +kernel
  have omitted : Artifact.IsScript half short := by
    refine ⟨.object [], [Artifact.ofFields (Artifact.instructionRecord (.pushDouble 0.5))],
      ⟨[], ?_, rfl⟩, .cons (Artifact.isForm_ofFields _ _) .nil, _, ⟨?_, ?_⟩, rfl⟩
    · simp [half]
    · exact .cons_cons _ (.cons_cons _ (.cons _ (.cons _ (.cons _ (.cons_cons _ .slnil)))))
    · simp [half, Artifact.scriptRecordWith, Artifact.scriptDefaults]
  have read : ∀ v, Artifact.IsScript half v → Script.ofText? v.render = some half := by
    intro v form
    obtain ⟨t, -, text, same, -⟩ := (artifact_round_trip half).2 v form
    rw [text exact, (same finite).1]
  refine ⟨read _ (artifact_round_trip half).1, read short omitted, ?_⟩
  have not_finite : Numeric.isFinite (Numeric.infinity false) = false := by decide +kernel
  have only : infinite.reals = [Numeric.infinity false] := rfl
  have lost : infinite.RealsReadBack := by
    intro x mem finite
    rw [only, List.mem_singleton] at mem
    rw [mem, not_finite] at finite
    cases finite
  obtain ⟨form, each⟩ := artifact_round_trip infinite
  obtain ⟨t, -, text, -, differs⟩ := each _ form
  refine ⟨t, text lost, differs ⟨Numeric.infinity false, ?_, ?_⟩⟩
  · rw [only]
    exact List.mem_singleton_self _
  · rw [not_finite]
    exact Bool.false_ne_true

end ScriptMachine
