import Mathlib.Data.List.Forall2
import Mathlib.Data.List.Nodup
import ScriptMachine.Artifact.Encode
import ScriptMachine.Proofs.Json.Text

/-!
Records read back, also when fields are left out that hold their defaults, and so do the pieces of
data that the fields of an artifact hold.
-/

namespace ScriptMachine

namespace Json

/-- Goes on with what was read. -/
theorem bind_of_eq_some {α β : Type} {a? : Option α} {a : α} (found : a? = some a)
    (next : α → Option β) : (a? >>= next) = next a := by
  rw [found]
  rfl

/-! ### Fields left out -/

/-- Some of the fields of a record, where those left out stand among the defaults. -/
structure Omits (defaults full kept : Record) : Prop where
  sublist : kept.Sublist full
  default : ∀ f ∈ full, f ∉ kept → f ∈ defaults

/-- No two fields of a record have the same name. -/
def Record.IsDistinct (r : Record) : Prop :=
  (r.map Prod.fst).Nodup

/-- A record may be written with all its fields. -/
theorem Omits.refl (defaults full : Record) : Omits defaults full full :=
  ⟨List.Sublist.refl full, fun _ mem absent => absurd mem absent⟩

/-- Leaving fields out keeps the names distinct. -/
theorem Omits.isDistinct {defaults full kept : Record} (omits : Omits defaults full kept)
    (distinct : full.IsDistinct) : kept.IsDistinct :=
  (omits.sublist.map Prod.fst).nodup distinct

namespace Record

/-- Where names are distinct, every field is found under its name. -/
theorem IsDistinct.lookup_of_mem {r : Record} (distinct : r.IsDistinct) {name : String} {v : Json}
    (mem : (name, v) ∈ r) : r.lookup name = some v := by
  induction r with
  | nil => cases mem
  | cons f r ih =>
      obtain ⟨fresh, others⟩ := List.nodup_cons.mp distinct
      rcases List.mem_cons.mp mem with rfl | mem
      · exact List.lookup_cons_self
      · have other : name ≠ f.1 := by
          rintro rfl
          exact fresh (List.mem_map.mpr ⟨_, mem, rfl⟩)
        rw [List.lookup_cons, beq_false_of_ne other]
        exact ih others mem

theorem mem_of_lookup {r : Record} {name : String} {v : Json} (found : r.lookup name = some v) :
    (name, v) ∈ r := by
  obtain ⟨before, after, rfl, -⟩ := List.lookup_eq_some_iff.mp found
  simp

variable {α : Type} {defaults full kept : Record} {name : String} {read : Json → Option α}

/-- What is found in the full record is found among the kept fields too, or stands among the
defaults and is found no more. -/
theorem lookup_omits (omits : Omits defaults full kept) (distinct : full.IsDistinct) (name : String) :
    kept.lookup name = full.lookup name ∨
      kept.lookup name = none ∧ ∃ v, full.lookup name = some v ∧ (name, v) ∈ defaults := by
  cases found : kept.lookup name with
  | some v =>
      left
      exact (distinct.lookup_of_mem (omits.sublist.mem (mem_of_lookup found))).symm
  | none =>
      cases there : full.lookup name with
      | none => exact .inl rfl
      | some v =>
          right
          refine ⟨rfl, v, rfl, omits.default _ (mem_of_lookup there) ?_⟩
          intro mem
          rw [(omits.isDistinct distinct).lookup_of_mem mem] at found
          cases found

/-- A field that has no default is not left out. -/
theorem required?_omits (omits : Omits defaults full kept) (distinct : full.IsDistinct)
    (needed : ∀ v, (name, v) ∉ defaults) : kept.required? name read = full.required? name read := by
  rcases lookup_omits omits distinct name with same | ⟨-, v, -, default⟩
  · rw [required?, required?, same]
  · exact absurd default (needed v)

/-- A field that is left out is read as its default is. -/
theorem defaulted?_omits (omits : Omits defaults full kept) (distinct : full.IsDistinct) {standard : α}
    (default : ∀ v, (name, v) ∈ defaults → read v = some standard) :
    kept.defaulted? name standard read = full.defaulted? name standard read := by
  rcases lookup_omits omits distinct name with same | ⟨absent, v, there, listed⟩
  · rw [defaulted?, defaulted?, same]
  · rw [defaulted?, defaulted?, absent, there]
    exact (default v listed).symm

end Record

/-- A record is read field by field if its names are distinct and known. -/
theorem knownFields?_ofString {names : List String} {r : Record} (distinct : r.IsDistinct)
    (known : ∀ f ∈ r, f.1 ∈ names) :
    knownFields? names (r.map fun (name, v) => (Lexeme.ofString name, v)) = some r := by
  induction r with
  | nil => rfl
  | cons f r ih =>
      obtain ⟨name, v⟩ := f
      obtain ⟨fresh, others⟩ := List.nodup_cons.mp distinct
      have rest := ih others fun f mem => known f (List.mem_cons_of_mem _ mem)
      have single : (r.any fun (other, _) => other == name) = false := by
        rw [List.any_eq_false]
        rintro ⟨other, w⟩ mem
        rw [beq_iff_eq]
        rintro rfl
        exact fresh (List.mem_map.mpr ⟨_, mem, rfl⟩)
      rw [List.map_cons, knownFields?, rest]
      simp [Lexeme.ofString, known (name, v) List.mem_cons_self, single]

end Json

namespace Artifact

open Json (Omits Record)

/-- The forms of a record: all its fields, or some left out that hold their defaults. -/
def IsForm (defaults full : Record) (v : Json) : Prop :=
  ∃ kept, Omits defaults full kept ∧ v = ofFields kept

/-- The full record is one of its own forms. -/
theorem isForm_ofFields (defaults full : Record) : IsForm defaults full (ofFields full) :=
  ⟨full, Omits.refl defaults full, rfl⟩

/-- Whatever fields are left out, the others are read as they were written. -/
theorem record?_ofFields {names : List String} {defaults full kept : Record}
    (omits : Omits defaults full kept) (order : full.map Prod.fst = names) (distinct : names.Nodup) :
    (ofFields kept).record? names = some kept := by
  subst order
  apply Json.knownFields?_ofString (omits.isDistinct distinct)
  intro f mem
  exact List.mem_map.mpr ⟨f, omits.sublist.mem mem, rfl⟩

/-- A record reads back if each of its fields does. -/
theorem readsBack_ofFields {r : Record} (each : ∀ f ∈ r, f.2.ReadsBack) : (ofFields r).ReadsBack := by
  apply Json.ReadsBack.object
  · intro f mem
    obtain ⟨⟨name, v⟩, _, rfl⟩ := List.mem_map.mp mem
    exact ⟨name, rfl⟩
  · intro f mem
    obtain ⟨⟨name, v⟩, listed, rfl⟩ := List.mem_map.mp mem
    exact each (name, v) listed

/-- Every form of a record reads back if the fields of the full one do. -/
theorem IsForm.readsBack {defaults full : Record} {v : Json} (form : IsForm defaults full v)
    (each : ∀ f ∈ full, f.2.ReadsBack) : v.ReadsBack := by
  obtain ⟨kept, omits, rfl⟩ := form
  exact readsBack_ofFields fun f mem => each f (omits.sublist.mem mem)

/-! ### The pieces -/

theorem text?_ofString (s : String) : (ofString s).text? = some s :=
  rfl

/-- The text of a declared type is read as that type. -/
theorem dataType?_toText (t : DataType) : dataType? (ofString t.toText) = some t := by
  cases t <;> rfl

/-- An integer of at most 64 bits reads back within any bounds that hold it. -/
theorem integer?_ofInt {n least greatest : Int} (above : least ≤ n) (below : n ≤ greatest)
    (signed : Int64.minValue.toInt ≤ n) (unsigned : n < UInt64.size) :
    (ofInt n).integer? least greatest = some n := by
  have value : (if n < 0 then Json.Number.negative (Int64.ofInt n)
      else .natural (UInt64.ofNat n.toNat)).integer? = some n := by
    split
    · rw [Json.Number.integer?, Int64.toInt_ofInt_of_le signed]
      omega
    · have fits : n.toNat < UInt64.size := by omega
      rw [Json.Number.integer?, UInt64.toNat_ofNat_of_lt' fits, Int.toNat_of_nonneg]
      omega
  rw [ofInt, Json.integer?, value]
  simp [above, below]

/-- A 32-bit integer is read as it was written, and so are integers of the other widths. -/
theorem int32?_ofInt (n : Int32) : int32? (ofInt n.toInt) = some n := by
  have signed : Int64.minValue.toInt ≤ n.toInt :=
    Int.le_trans (by decide) n.minValue_le_toInt
  have unsigned : n.toInt < UInt64.size := Int.lt_of_le_of_lt n.toInt_le (by decide)
  rw [int32?, integer?_ofInt n.minValue_le_toInt n.toInt_le signed unsigned]
  simp

theorem int64?_ofInt (n : Int64) : int64? (ofInt n.toInt) = some n := by
  have unsigned : n.toInt < UInt64.size := Int.lt_of_le_of_lt n.toInt_le (by decide)
  rw [int64?, integer?_ofInt n.minValue_le_toInt n.toInt_le n.minValue_le_toInt unsigned]
  simp

/-- A natural number is above every number with a sign. -/
theorem minValue_le_natCast (n : Nat) : Int64.minValue.toInt ≤ n :=
  Int.le_trans (by decide : Int64.minValue.toInt ≤ 0) (Int.natCast_nonneg n)

theorem uint32?_ofInt (n : UInt32) : uint32? (ofInt n.toNat) = some n := by
  have bound := n.toNat_lt
  have size := n.toNat_lt_size
  have unsigned : (n.toNat : Int) < UInt64.size := by
    have : UInt32.size ≤ UInt64.size := by decide
    omega
  rw [uint32?, integer?_ofInt (by omega) (by omega) (minValue_le_natCast n.toNat) unsigned,
    Option.map_some, UInt32.ofInt, Int.emod_eq_of_lt (by omega) (by omega), Int.toNat_natCast,
    UInt32.ofNat_toNat]

theorem uint64?_ofInt (n : UInt64) : uint64? (ofInt n.toNat) = some n := by
  have bound := n.toNat_lt
  have size := n.toNat_lt_size
  have unsigned : (n.toNat : Int) < UInt64.size := by
    have : UInt64.size ≤ UInt64.size := by decide
    omega
  rw [uint64?, integer?_ofInt (by omega) (by omega) (minValue_le_natCast n.toNat) unsigned,
    Option.map_some, UInt64.ofInt, Int.emod_eq_of_lt (by omega) (by omega), Int.toNat_natCast,
    UInt64.ofNat_toNat]

/-- What reads back also reads back as an option, unless it is written as nothing. -/
theorem optional?_ofOption {α : Type} {read : Json → Option α} {write : α → Json}
    (refused : read .null = none) (back : ∀ a, read (write a) = some a) (a? : Option α) :
    (ofOption write a?).optional? read = some a? := by
  cases a? with
  | none => rfl
  | some a =>
      have found := back a
      rw [ofOption, Json.optional?]
      · rw [found, Option.map_some]
      · intro null
        rw [null, refused] at found
        cases found

/-- Items that read back one by one read back as a list. -/
theorem mapM_eq_some {α β : Type} {read : β → Option α} {as : List α} {bs : List β}
    (each : List.Forall₂ (fun a b => read b = some a) as bs) : bs.mapM read = some as := by
  induction each with
  | nil => rfl
  | cons found _ ih => simp [List.mapM_cons, found, ih]

/-- Every form in a list of forms is that of some item. -/
theorem exists_of_forall₂ {α β : Type} {IsFormOf : α → β → Prop} {as : List α} {bs : List β}
    (each : List.Forall₂ IsFormOf as bs) {b : β} (mem : b ∈ bs) : ∃ a ∈ as, IsFormOf a b := by
  induction each with
  | nil => cases mem
  | @cons a b' as bs form _ ih =>
      rcases List.mem_cons.mp mem with rfl | mem
      · exact ⟨a, List.mem_cons_self, form⟩
      · obtain ⟨a', listed, form'⟩ := ih mem
        exact ⟨a', List.mem_cons_of_mem a listed, form'⟩

/-- A written integer reads back if it is in the range of its reader. -/
theorem readsBack_ofInt {n : Int} (signed : Int64.minValue.toInt ≤ n) : (ofInt n).ReadsBack := by
  apply Json.ReadsBack.number
  split
  · apply Json.readsBack_negative
    rw [Int64.toInt_ofInt_of_le signed] <;> omega
  · exact Json.readsBack_natural _

/-- What may be absent reads back if it does when it is there. -/
theorem readsBack_ofOption {α : Type} {write : α → Json} {a? : Option α}
    (each : ∀ a ∈ a?, (write a).ReadsBack) : (ofOption write a?).ReadsBack := by
  cases a? with
  | none => exact .null
  | some a => exact each a rfl

end Artifact

end ScriptMachine
