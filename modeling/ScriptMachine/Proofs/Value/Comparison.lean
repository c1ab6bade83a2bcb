import ScriptMachine.Proofs.Value.Integer
import ScriptMachine.Value.Compare

/-!
The six comparisons of two values. All of them are read off one standing: two numbers or two strings
are ordered unless one of them is a not-a-number, and any other two values are equal or different.
Exchanging the values turns the order around, so the answers fit together.
-/

namespace ScriptMachine

/-! ### Comparisons -/

/-- The comparisons that ask for an order. -/
def Comparison.isOrder : Comparison → Bool
  | lt | lte | gte | gt => true
  | eq | neq => false

/-- The comparison that holds of two values exchanged. -/
def Comparison.converse : Comparison → Comparison
  | lt => gt
  | lte => gte
  | eq => eq
  | neq => neq
  | gte => lte
  | gt => lt

theorem Comparison.holds_converse (c : Comparison) (o : Ordering) :
    c.converse.holds o.swap = c.holds o := by
  cases c <;> cases o <;> rfl

/-- An order is one of less, equal and greater. -/
theorem Comparison.existsUnique_holds (order : Ordering) :
    ∃! c : Comparison, c ∈ [lt, eq, gt] ∧ c.holds order = true := by
  cases order with
  | lt => exact ⟨lt, by decide, fun c => by cases c <;> decide⟩
  | eq => exact ⟨eq, by decide, fun c => by cases c <;> decide⟩
  | gt => exact ⟨gt, by decide, fun c => by cases c <;> decide⟩

/-! ### Doubles -/

namespace Numeric

/-- Exchanging two doubles turns their order around. -/
theorem compare?_swap (x y : Float) : compare? y x = (compare? x y).map Ordering.swap := by
  unfold compare?
  cases rank? x with
  | none => cases rank? y <;> rfl
  | some m =>
      cases rank? y with
      | none => rfl
      | some n => exact congrArg some Std.OrientedOrd.eq_swap

theorem same_comm (x y : Float) : same x y = same y x := by
  unfold same
  rw [compare?_swap x y]
  cases compare? x y with
  | none => rfl
  | some o => cases o <;> rfl

/-- Two doubles have no order if and only if one of them is a not-a-number. -/
theorem compare?_eq_none_iff (x y : Float) : compare? x y = none ↔ parts x = .nan ∨ parts y = .nan := by
  rw [← rank?_eq_none_iff, ← rank?_eq_none_iff]
  unfold compare?
  cases rank? x with
  | none => exact ⟨fun _ => .inl rfl, fun _ => rfl⟩
  | some m =>
      cases rank? y with
      | none => exact ⟨fun _ => .inr rfl, fun _ => rfl⟩
      | some n => exact ⟨nofun, nofun⟩

end Numeric

namespace Value

/-! ### Equality -/

mutual

/-- By induction on the values, item by item, equality does not depend on their order. -/
theorem equal_comm (v w : Value) : equal v w = equal w v := by
  cases v with
  | array items =>
      cases w with
      | array others => rw [equal, equal, equalArrays_comm]
      | _ => rfl
  | real x =>
      cases w with
      | real y => exact Numeric.same_comm x y
      | _ => rfl
  | undefined => cases w <;> rfl
  | bool a | int32 a | int64 a | string a =>
      cases w <;> first | rfl | exact BEq.comm

theorem equalArrays_comm (items others : Array Value) :
    equalArrays items others = equalArrays others items := by
  obtain ⟨items⟩ := items
  obtain ⟨others⟩ := others
  exact equalItems_comm items others

theorem equalItems_comm (vs ws : List Value) : equalItems vs ws = equalItems ws vs := by
  cases vs with
  | nil => cases ws <;> rfl
  | cons v vs =>
      cases ws with
      | nil => rfl
      | cons w ws => rw [equalItems, equalItems, equal_comm, equalItems_comm]

end

/-! ### Numbers and texts -/

/-- A real that is not a number. -/
inductive IsNaN : Value → Prop where
  | real {x : Float} (nan : Numeric.parts x = .nan) : IsNaN (real x)

/-- Two numbers or two strings. -/
inductive Comparable : Value → Value → Prop where
  | numbers {a b : Value} (lhs : a.isNumeric = true) (rhs : b.isNumeric = true) : Comparable a b
  | strings (s t : String) : Comparable (string s) (string t)

variable {a b : Value}

theorem Comparable.symm (comparable : Comparable a b) : Comparable b a := by
  cases comparable with
  | numbers lhs rhs => exact .numbers rhs lhs
  | strings s t => exact .strings t s

/-- The real view of a number is a not-a-number only if the number is one. -/
theorem parts_real?_eq_nan_iff {x : Float} (view : a.real? = some x) :
    Numeric.parts x = .nan ↔ a.IsNaN := by
  have rounded (n : Int) : Numeric.parts (Numeric.ofInt n) ≠ .nan := by
    intro nan
    obtain ⟨rank, placed⟩ := Numeric.exists_rank?_nearest (n < 0) ⟨n.natAbs, 1⟩
    cases placed.symm.trans ((Numeric.rank?_eq_none_iff _).mpr nan)
  cases a with
  | real y =>
      cases view
      exact ⟨.real, fun ⟨nan⟩ => nan⟩
  | int32 n | int64 n =>
      cases view
      exact ⟨fun nan => absurd nan (rounded _), nofun⟩
  | bool c =>
      cases view
      refine ⟨fun nan => ?_, nofun⟩
      cases c <;> cases nan
  | undefined | string s | array items => cases view

/-- A not-a-number equals no value. -/
theorem IsNaN.equal_eq_false (nan : a.IsNaN) (b : Value) : equal a b = false := by
  obtain ⟨nan⟩ := nan
  cases b with
  | real y =>
      have unplaced := (Numeric.compare?_eq_none_iff _ y).mpr (.inl nan)
      exact beq_false_of_ne (unplaced ▸ nofun)
  | undefined | bool c | int32 n | int64 n | string s | array items => rfl

theorem isNumeric_of_real? {x : Float} (view : a.real? = some x) : a.isNumeric = true := by
  rw [← isSome_real?, view, Option.isSome_some]

theorem exists_real?_of_isNumeric (numeric : a.isNumeric = true) : ∃ x, a.real? = some x :=
  Option.isSome_iff_exists.mp (a.isSome_real?.trans numeric)

theorem exists_holds_of_isInteger (whole : a.isInteger = true) : ∃ w n, a.Holds w n := by
  cases a with
  | int32 n => exact ⟨_, _, .narrow n⟩
  | int64 n => exact ⟨_, _, .wide n⟩
  | undefined | bool b | real x | string s | array items => cases whole

theorem isNumeric_of_holds {w : Nat} {n : Int} (holds : a.Holds w n) : a.isNumeric = true := by
  cases holds <;> rfl

theorem not_isNaN_of_holds {w : Nat} {n : Int} (holds : a.Holds w n) : ¬ a.IsNaN := by
  cases holds <;> nofun

/-- How the sizes of two values are read: as texts, as integers, or as reals unless both are
integers. -/
inductive Measured : Value → Value → Prop where
  | texts (s t : String) : Measured (string s) (string t)
  | integers {a b : Value} {w u : Nat} {m n : Int} (lhs : a.Holds w m) (rhs : b.Holds u n) :
      Measured a b
  | reals {a b : Value} {x y : Float} (lhs : a.real? = some x) (rhs : b.real? = some y)
      (mixed : (a.isInteger && b.isInteger) = false) : Measured a b

/-- Two values that can be compared are two strings, two integers, or two other numbers. -/
theorem Comparable.measured (comparable : Comparable a b) : Measured a b := by
  cases comparable with
  | strings s t => exact .texts s t
  | numbers lhs rhs =>
      by_cases whole : (a.isInteger && b.isInteger) = true
      · obtain ⟨lhs, rhs⟩ := Bool.and_eq_true_iff.mp whole
        obtain ⟨_, _, ofLhs⟩ := exists_holds_of_isInteger lhs
        obtain ⟨_, _, ofRhs⟩ := exists_holds_of_isInteger rhs
        exact .integers ofLhs ofRhs
      · obtain ⟨x, ofLhs⟩ := exists_real?_of_isNumeric lhs
        obtain ⟨y, ofRhs⟩ := exists_real?_of_isNumeric rhs
        exact .reals ofLhs ofRhs (Bool.eq_false_of_not_eq_true whole)

theorem Measured.comparable (measured : Measured a b) : Comparable a b := by
  cases measured with
  | texts s t => exact .strings s t
  | integers lhs rhs => exact .numbers (isNumeric_of_holds lhs) (isNumeric_of_holds rhs)
  | reals lhs rhs mixed => exact .numbers (isNumeric_of_real? lhs) (isNumeric_of_real? rhs)

/-! ### Standing -/

/-- How the exchanged values stand to each other. -/
def Standing.swap : Standing → Standing
  | ordered o => ordered o.swap
  | incomparable => incomparable
  | unordered same => unordered same

/-- How two values stand to each other, by what they are. -/
inductive Stands (a b : Value) : Prop where
  | ordered (order : Ordering) (comparable : Comparable a b) (lhs : ¬ a.IsNaN) (rhs : ¬ b.IsNaN)
      (standing_eq : standing a b = .ordered order)
  | incomparable (comparable : Comparable a b) (nan : a.IsNaN ∨ b.IsNaN)
      (standing_eq : standing a b = .incomparable)
  | unordered (incomparable : ¬ Comparable a b) (standing_eq : standing a b = .unordered (equal a b))

/-- Two integers stand to each other as their integer values. -/
theorem standing_of_holds {w u : Nat} {m n : Int} (lhs : a.Holds w m) (rhs : b.Holds u n) :
    standing a b = .ordered (Ord.compare m n) := by
  have words (m n : Int64) : Ord.compare m n = Ord.compare m.toInt n.toInt := by
    simp only [Ord.compare, compareOfLessAndEq, Int64.lt_iff_toInt_lt, Int64.toInt_inj]
  cases lhs <;> cases rhs <;> simp [standing, isInteger, integer?, words]

/-- Two numbers, not both of them integers, stand to each other as their real views. -/
theorem standing_of_real? {x y : Float} (lhs : a.real? = some x) (rhs : b.real? = some y)
    (mixed : (a.isInteger && b.isInteger) = false) :
    standing a b = ((Numeric.compare? x y).map Standing.ordered).getD .incomparable := by
  unfold standing
  split
  · cases lhs
  · rw [mixed, lhs, rhs]
    dsimp only
    cases Numeric.compare? x y <;> rfl

theorem standing_of_not_comparable (incomparable : ¬ Comparable a b) :
    standing a b = .unordered (equal a b) := by
  unfold standing
  split
  · exact absurd (.strings _ _) incomparable
  · split
    · rename_i whole _ _
      obtain ⟨lhs, rhs⟩ := Bool.and_eq_true_iff.mp whole
      obtain ⟨_, _, ofLhs⟩ := exists_holds_of_isInteger lhs
      obtain ⟨_, _, ofRhs⟩ := exists_holds_of_isInteger rhs
      exact absurd (Measured.integers ofLhs ofRhs).comparable incomparable
    · split
      · rename_i lhs rhs
        exact absurd (.numbers (isNumeric_of_real? lhs) (isNumeric_of_real? rhs)) incomparable
      · rfl

/-- Two values stand to each other in one of three ways: in an order, without one because of a
not-a-number, or without one because of what they are. -/
theorem stands (a b : Value) : Stands a b := by
  by_cases comparable : Comparable a b
  · cases comparable.measured with
    | texts s t => exact .ordered _ comparable nofun nofun rfl
    | integers lhs rhs =>
        exact .ordered _ comparable (not_isNaN_of_holds lhs) (not_isNaN_of_holds rhs)
          (standing_of_holds lhs rhs)
    | @reals _ _ x y lhs rhs mixed =>
        have unplaced := Numeric.compare?_eq_none_iff x y
        rw [parts_real?_eq_nan_iff lhs, parts_real?_eq_nan_iff rhs] at unplaced
        have standing_eq := standing_of_real? lhs rhs mixed
        cases order : Numeric.compare? x y with
        | none =>
            rw [order] at standing_eq
            exact .incomparable comparable (unplaced.mp order) standing_eq
        | some o =>
            rw [order] at standing_eq
            -- Doubles have no order next to a not-a-number, so here there is none.
            have numbers : ¬ (a.IsNaN ∨ b.IsNaN) := by simp [← unplaced, order]
            exact .ordered o comparable (fun nan => numbers (.inl nan)) (fun nan => numbers (.inr nan))
              standing_eq
  · exact .unordered comparable (standing_of_not_comparable comparable)

/-- Exchanging two values turns their standing around. -/
theorem standing_swap (a b : Value) : standing b a = (standing a b).swap := by
  by_cases comparable : Comparable a b
  · cases comparable.measured with
    | texts s t => exact congrArg Standing.ordered Std.OrientedOrd.eq_swap
    | integers lhs rhs =>
        rw [standing_of_holds lhs rhs, standing_of_holds rhs lhs]
        exact congrArg Standing.ordered Std.OrientedOrd.eq_swap
    | @reals _ _ x y lhs rhs mixed =>
        rw [standing_of_real? lhs rhs mixed, standing_of_real? rhs lhs (Bool.and_comm _ _ ▸ mixed),
          Numeric.compare?_swap x y]
        cases Numeric.compare? x y <;> rfl
  · rw [standing_of_not_comparable comparable, equal_comm,
      standing_of_not_comparable fun exchanged => comparable exchanged.symm]
    rfl

/-! ### Coherence -/

/-- The six comparisons of two values fit together. -/
structure Coherent (a b : Value) : Prop where
  /-- Equality answers for all values, and inequality is its negation. -/
  equality : ∃ same, compare .eq a b = .ok same ∧ compare .neq a b = .ok !same
  /-- Two numbers and two strings have an order. -/
  answered : Comparable a b → ∀ c, ∃ holds, compare c a b = .ok holds
  /-- No other values have one, whichever comparison asks for it. -/
  refused : ¬ Comparable a b → ∀ c, c.isOrder = true →
    compare c a b = .error (.typeMismatch a.typeName b.typeName)
  trichotomy : Comparable a b → ¬ a.IsNaN → ¬ b.IsNaN →
    ∃! c, c ∈ [Comparison.lt, .eq, .gt] ∧ compare c a b = .ok true
  lte_eq_not_gt : ¬ a.IsNaN → ¬ b.IsNaN → compare .lte a b = Bool.not <$> compare .gt a b
  gte_eq_not_lt : ¬ a.IsNaN → ¬ b.IsNaN → compare .gte a b = Bool.not <$> compare .lt a b
  /-- A not-a-number differs from every value, and nothing else holds of it. -/
  nan : a.IsNaN ∨ b.IsNaN → ∀ c, compare c a b = .ok true ↔ c = .neq
  exchange : ∀ c holds, compare c a b = .ok holds ↔ compare c.converse b a = .ok holds
  integers : ∀ w u m n, a.Holds w m → b.Holds u n → compare .lt a b = .ok (decide (m < n))
  strings : ∀ s t, a = string s → b = string t →
    (compare .lt a b = .ok true ↔ List.Lex (· < ·) s.toList t.toList)

/-- Equality is always answered, and inequality with the opposite. -/
theorem exists_equal (a b : Value) :
    ∃ same, compare .eq a b = .ok same ∧ compare .neq a b = .ok !same := by
  unfold compare
  cases standing a b with
  | ordered order => exact ⟨_, rfl, rfl⟩
  | incomparable => exact ⟨_, rfl, rfl⟩
  | unordered same => exact ⟨_, rfl, rfl⟩

/-- Values that can be compared are compared without an error. -/
theorem Comparable.answered (comparable : Comparable a b) (c : Comparison) :
    ∃ holds, compare c a b = .ok holds := by
  cases stands a b with
  | ordered order _ _ _ standing_eq => exact ⟨_, by rw [compare, standing_eq]⟩
  | incomparable _ _ standing_eq => exact ⟨_, by rw [compare, standing_eq]⟩
  | unordered incomparable => exact absurd comparable incomparable

/-- Values that cannot be compared have no order to ask for: both types are named. -/
theorem refused_of_not_comparable (incomparable : ¬ Comparable a b) {c : Comparison}
    (isOrder : c.isOrder = true) : compare c a b = .error (.typeMismatch a.typeName b.typeName) := by
  rw [compare, standing_of_not_comparable incomparable]
  cases c with
  | eq | neq => cases isOrder
  | lt | lte | gte | gt => rfl

/-- Without a not-a-number, one value is less than the other, equal to it or greater, and only one of
these. -/
theorem Comparable.trichotomy (comparable : Comparable a b) (lhs : ¬ a.IsNaN) (rhs : ¬ b.IsNaN) :
    ∃! c, c ∈ [Comparison.lt, .eq, .gt] ∧ compare c a b = .ok true := by
  cases stands a b with
  | ordered order _ _ _ standing_eq =>
      simp only [compare, standing_eq, Except.ok.injEq]
      exact Comparison.existsUnique_holds order
  | incomparable _ nan => exact (nan.elim lhs rhs).elim
  | unordered incomparable => exact absurd comparable incomparable

/-- Off not-a-numbers a comparison with equality is the negation of the strict one the other way. -/
theorem compare_weak (lhs : ¬ a.IsNaN) (rhs : ¬ b.IsNaN) :
    compare .lte a b = Bool.not <$> compare .gt a b ∧
      compare .gte a b = Bool.not <$> compare .lt a b := by
  cases stands a b with
  | ordered order _ _ _ standing_eq =>
      simp only [compare, standing_eq]
      exact ⟨rfl, rfl⟩
  | incomparable _ nan => exact (nan.elim lhs rhs).elim
  | unordered _ standing_eq =>
      simp only [compare, standing_eq]
      exact ⟨rfl, rfl⟩

/-- Next to a not-a-number only inequality holds. -/
theorem compare_of_isNaN (nan : a.IsNaN ∨ b.IsNaN) (c : Comparison) :
    compare c a b = .ok true ↔ c = .neq := by
  cases stands a b with
  | ordered _ _ lhs rhs => exact (nan.elim lhs rhs).elim
  | incomparable _ _ standing_eq => simp [compare, standing_eq]
  | unordered _ standing_eq =>
      have different : equal a b = false := by
        obtain lhs | rhs := nan
        · exact lhs.equal_eq_false b
        · exact (equal_comm a b).trans (rhs.equal_eq_false a)
      cases c <;> simp [compare, standing_eq, different]

/-- Exchanging the values answers the converse comparison. -/
theorem compare_converse (c : Comparison) (a b : Value) (holds : Bool) :
    compare c a b = .ok holds ↔ compare c.converse b a = .ok holds := by
  unfold compare
  rw [standing_swap a b]
  cases standing a b with
  | ordered order => simp only [Standing.swap, Comparison.holds_converse]
  | incomparable => cases c <;> exact Iff.rfl
  | unordered same => cases c <;> simp [Comparison.converse, Standing.swap]

/-- Integers are compared by their values, whatever their widths. -/
theorem compare_lt_of_holds {w u : Nat} {m n : Int} (lhs : a.Holds w m) (rhs : b.Holds u n) :
    compare .lt a b = .ok (decide (m < n)) := by
  rw [compare, standing_of_holds lhs rhs]
  have lt_iff : Ord.compare m n = .lt ↔ m < n := Std.compare_eq_lt
  exact congrArg Except.ok (Bool.eq_iff_iff.mpr (by simpa [Comparison.holds] using lt_iff))

/-- Strings are compared character by character. -/
theorem compare_lt_string (s t : String) :
    compare .lt (string s) (string t) = .ok true ↔ List.Lex (· < ·) s.toList t.toList := by
  have standing_eq : standing (string s) (string t) = .ordered (Ord.compare s t) := rfl
  have lt_iff : Ord.compare s t = .lt ↔ s < t := compareOfLessAndEq_eq_lt
  rw [compare, standing_eq]
  simpa [Comparison.holds, lt_iff] using String.lt_iff

/-- The six comparisons of any two values fit together. -/
theorem comparisons_coherent (a b : Value) : Coherent a b where
  equality := exists_equal a b
  answered := Comparable.answered
  refused incomparable _ := refused_of_not_comparable incomparable
  trichotomy := Comparable.trichotomy
  lte_eq_not_gt lhs rhs := (compare_weak lhs rhs).1
  gte_eq_not_lt lhs rhs := (compare_weak lhs rhs).2
  nan := compare_of_isNaN
  exchange c := compare_converse c a b
  integers _ _ _ _ := compare_lt_of_holds
  strings := by
    rintro s t rfl rfl
    exact compare_lt_string s t

end Value

end ScriptMachine
