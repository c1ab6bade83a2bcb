import ScriptMachine.Machine.Program

/-!
What the function index of a program holds after scripts have been loaded. The index is kept up to
date load by load: the functions of a replaced script leave it, and those of the new script overwrite
what is there. `Program.Indexes` says what it holds in terms of all loads so far: a function is
indexed exactly if the last load that declared it is still in place.
-/

namespace ScriptMachine

/-- The last item of a list with a property. -/
def LastWith {α : Type} (P : α → Prop) (l : List α) (x : α) : Prop :=
  ∃ before after, l = before ++ x :: after ∧ P x ∧ ∀ y ∈ after, ¬ P y

/-- A label of a script starts a function of this name. -/
def Script.Declares (s : Script) (f : String) : Prop :=
  ∃ (label : Int64) (l : Label), s.labels[label]? = some l ∧ l.function? = some f

/-- Where a script starts a function: at the greatest of the labels with its name. -/
def Script.StartsAt (s : Script) (f : String) (index : Nat) : Prop :=
  ∃ (label : Int64) (l : Label), s.labels[label]? = some l ∧ l.function? = some f ∧
    l.instructionIndex.toNat = index ∧
      ∀ (other : Int64) (l' : Label), s.labels[other]? = some l' → l'.function? = some f →
        other ≤ label

/-- What a program holds after scripts have been loaded in order. -/
structure Program.Indexes (loads : List Script) (p : Program) : Prop where
  scripts : ∀ name s, p.scripts[name]? = some s ↔ LastWith (·.name = name) loads s
  functions : ∀ f e, p.functions[f]? = some e ↔
    LastWith (·.Declares f) loads e.script ∧ p.scripts[e.script.name]? = some e.script ∧
      e.script.StartsAt f e.index

/-! ### The last item -/

section LastWith

variable {α : Type} {P : α → Prop} {l : List α} {a x : α}

theorem not_lastWith_nil : ¬ LastWith P [] x := by
  rintro ⟨before, after, eq, -, -⟩
  exact absurd eq (by simp)

/-- One more item is the last with the property, or leaves the last one what it was. -/
theorem lastWith_concat : LastWith P (l ++ [a]) x ↔ (P a ∧ x = a) ∨ (¬ P a ∧ LastWith P l x) := by
  constructor
  · rintro ⟨before, after, eq, holds, none⟩
    rcases List.eq_nil_or_concat after with rfl | ⟨after, b, rfl⟩
    · obtain ⟨rfl, rfl⟩ := List.append_singleton_inj.mp eq
      exact .inl ⟨holds, rfl⟩
    · rw [List.concat_eq_append, ← List.cons_append, ← List.append_assoc] at eq
      obtain ⟨rfl, rfl⟩ := List.append_singleton_inj.mp eq
      refine .inr ⟨none a (by simp), before, after, rfl, holds, ?_⟩
      exact fun y mem => none y (by simp [mem])
  · rintro (⟨holds, rfl⟩ | ⟨fails, before, after, rfl, holds, none⟩)
    · exact ⟨l, [], rfl, holds, by simp⟩
    · refine ⟨before, after ++ [a], by simp, holds, fun y mem => ?_⟩
      rcases List.mem_append.mp mem with mem | mem
      · exact none y mem
      · rwa [List.mem_singleton.mp mem]

theorem exists_lastWith (occurs : ∃ x ∈ l, P x) : ∃ y, LastWith P l y := by
  induction l with
  | nil =>
      obtain ⟨x, mem, -⟩ := occurs
      cases mem
  | cons b l ih =>
      by_cases later : ∃ y ∈ l, P y
      · obtain ⟨y, before, after, rfl, holds, none⟩ := ih later
        exact ⟨y, b :: before, after, rfl, holds, none⟩
      · obtain ⟨x, mem, holds⟩ := occurs
        rcases List.mem_cons.mp mem with rfl | mem
        · exact ⟨x, [], l, rfl, holds, fun y mem holds => later ⟨y, mem, holds⟩⟩
        · exact absurd ⟨x, mem, holds⟩ later

theorem LastWith.holds (found : LastWith P l x) : P x := by
  obtain ⟨-, -, -, holds, -⟩ := found
  exact holds

end LastWith

/-! ### The functions of a script -/

namespace Script

variable {s : Script} {f : String}

theorem StartsAt.declares {index : Nat} (starts : s.StartsAt f index) : s.Declares f := by
  obtain ⟨label, l, found, named, -, -⟩ := starts
  exact ⟨label, l, found, named⟩

theorem StartsAt.unique {i j : Nat} (first : s.StartsAt f i) (second : s.StartsAt f j) : i = j := by
  obtain ⟨label, l, found, named, rfl, greatest⟩ := first
  obtain ⟨label', l', found', named', rfl, greatest'⟩ := second
  obtain rfl := Int64.le_antisymm (greatest' _ _ found named) (greatest _ _ found' named')
  rw [found] at found'
  cases found'
  rfl

/-- Labels are listed in ascending order, so the last one listed is the greatest. -/
theorem startsAt_of_lastWith {label : Int64} {l : Label}
    (last : LastWith (·.2.function? = some f) s.labels.toList (label, l)) :
    s.StartsAt f l.instructionIndex.toNat := by
  obtain ⟨before, after, eq, named, none⟩ := last
  have found : s.labels[label]? = some l := by
    rw [← Std.ExtTreeMap.mem_toList_iff_getElem?_eq_some, eq]
    simp
  refine ⟨label, l, found, named, rfl, fun other l' found' named' => ?_⟩
  have mem := Std.ExtTreeMap.mem_toList_iff_getElem?_eq_some.mpr found'
  have sorted : s.labels.toList.Pairwise fun a b => compare a.1 b.1 = .lt :=
    Std.ExtTreeMap.ordered_keys_toList
  rw [eq] at mem sorted
  rcases List.mem_append.mp mem with mem | mem
  · have lt := (List.pairwise_append.mp sorted).2.2 _ mem _ List.mem_cons_self
    exact Int64.le_of_lt (Std.compare_eq_lt.mp lt)
  · rcases List.mem_cons.mp mem with same | mem
    · cases same
      exact Int64.le_refl _
    · exact absurd named' (none _ mem)

theorem Declares.exists_lastWith (declared : s.Declares f) :
    ∃ label l, LastWith (·.2.function? = some f) s.labels.toList (label, l) := by
  obtain ⟨label, l, found, named⟩ := declared
  have mem := Std.ExtTreeMap.mem_toList_iff_getElem?_eq_some.mpr found
  have occurs : ∃ x ∈ s.labels.toList, x.2.function? = some f := ⟨_, mem, named⟩
  obtain ⟨⟨label, l⟩, last⟩ := ScriptMachine.exists_lastWith occurs
  exact ⟨label, l, last⟩

/-- A declared function starts somewhere in its script. -/
theorem Declares.exists_startsAt (declared : s.Declares f) : ∃ index, s.StartsAt f index := by
  obtain ⟨label, l, last⟩ := declared.exists_lastWith
  exact ⟨_, startsAt_of_lastWith last⟩

end Script

/-! ### One load -/

namespace Program

variable {functions : Std.ExtTreeMap String Entry compare} {s : Script} {f : String}

/-- Entries under other names leave the owner of a function. -/
theorem getElem?_foldl_insert {entries : List (String × Nat)} (absent : ∀ x ∈ entries, x.1 ≠ f) :
    (entries.foldl (fun m (name, index) => m.insert name ⟨s, index⟩) functions)[f]?
      = functions[f]? := by
  induction entries generalizing functions with
  | nil => rfl
  | cons x entries ih =>
      have other : ¬ compare x.1 f = .eq := by
        rw [Std.LawfulEqCmp.compare_eq_iff_eq]
        exact absent x List.mem_cons_self
      rw [List.foldl_cons, ih fun y mem => absent y (List.mem_cons_of_mem _ mem),
        Std.ExtTreeMap.getElem?_insert, if_neg other]

theorem name_ne_of_undeclared {labels : List (Int64 × Label)}
    (unnamed : ∀ x ∈ labels, ¬ x.2.function? = some f) :
    ∀ x ∈ labels.filterMap fun (_, l) => l.function?.map fun name => (name, l.instructionIndex.toNat),
      x.1 ≠ f := by
  intro x mem eq
  obtain ⟨⟨label, l⟩, listed, named⟩ := List.mem_filterMap.mp mem
  obtain ⟨name, found, rfl⟩ := Option.map_eq_some_iff.mp named
  exact unnamed (label, l) listed (found.trans (congrArg some eq))

theorem declare_of_not_declares (undeclared : ¬ s.Declares f) :
    (declare functions s)[f]? = functions[f]? := by
  refine getElem?_foldl_insert (name_ne_of_undeclared fun x mem named => undeclared ?_)
  exact ⟨x.1, x.2, Std.ExtTreeMap.mem_toList_iff_getElem?_eq_some.mp mem, named⟩

/-- Of several labels with one name the last one is written last. -/
theorem declare_of_declares (declared : s.Declares f) :
    ∃ index, s.StartsAt f index ∧ (declare functions s)[f]? = some ⟨s, index⟩ := by
  obtain ⟨label, l, last⟩ := declared.exists_lastWith
  refine ⟨_, Script.startsAt_of_lastWith last, ?_⟩
  obtain ⟨before, after, eq, named, none⟩ := last
  replace named : l.function? = some f := named
  rw [declare, Script.functions, eq, List.filterMap_append, List.filterMap_cons]
  simp only [named, Option.map_some]
  rw [List.foldl_append, List.foldl_cons, getElem?_foldl_insert (name_ne_of_undeclared none),
    Std.ExtTreeMap.getElem?_insert_self]

variable {p : Program} {loads : List Script}

/-- A load puts the script under its name and leaves all others. -/
theorem scripts_load (p : Program) (s : Script) (name : String) :
    (p.load s).scripts[name]? = if s.name = name then some s else p.scripts[name]? := by
  simp only [load, Std.ExtTreeMap.getElem?_insert, Std.LawfulEqCmp.compare_eq_iff_eq]

/-- A loaded script becomes the owner of every function that it declares. -/
theorem functions_load_of_declares (declared : s.Declares f) :
    ∃ index, s.StartsAt f index ∧ (p.load s).functions[f]? = some ⟨s, index⟩ :=
  declare_of_declares declared

/-- Loading a script that does not declare a function forgets it only if it belonged to the script
that is replaced. -/
theorem functions_load_of_not_declares (undeclared : ¬ s.Declares f) :
    (p.load s).functions[f]? = p.functions[f]?.filter fun e => e.script.name != s.name := by
  rw [load, declare_of_not_declares undeclared, Std.ExtTreeMap.getElem?_filter']

theorem Indexes.empty (config : Config) (natives : Natives) :
    Indexes [] { config := config, natives := natives } where
  scripts name s := by simp [not_lastWith_nil]
  functions f e := by simp [not_lastWith_nil]

/-- One more load. Either the script declares the function and now owns it; or it does not, and the
owner is the same as before unless that is the script it replaces. -/
theorem Indexes.load (indexed : p.Indexes loads) (s : Script) :
    (p.load s).Indexes (loads ++ [s]) where
  scripts name t := by
    rw [scripts_load, lastWith_concat]
    by_cases same : s.name = name
    · simp [same, eq_comm]
    · simp [same, indexed.scripts]
  functions f e := by
    rw [lastWith_concat, scripts_load]
    by_cases declared : s.Declares f
    · -- The script takes the function over from any other owner.
      obtain ⟨index, starts, found⟩ := functions_load_of_declares (p := p) declared
      rw [found]
      constructor
      · intro eq
        cases eq
        exact ⟨.inl ⟨declared, rfl⟩, if_pos rfl, starts⟩
      · obtain ⟨script, i⟩ := e
        rintro ⟨⟨-, rfl⟩ | ⟨undeclared, -⟩, -, starts'⟩
        · rw [starts.unique starts']
        · exact absurd declared undeclared
    · rw [functions_load_of_not_declares declared, Option.filter_eq_some_iff, indexed.functions]
      constructor
      · rintro ⟨⟨last, kept, starts⟩, other⟩
        have ne : s.name ≠ e.script.name := Ne.symm (bne_iff_ne.mp other)
        exact ⟨.inr ⟨declared, last⟩, (if_neg ne).trans kept, starts⟩
      · rintro ⟨⟨declares, -⟩ | ⟨-, last⟩, kept, starts⟩
        · exact absurd declares declared
        · -- An owner of the same name would now be `s`, which does not declare the function.
          by_cases same : s.name = e.script.name
          · rw [if_pos same] at kept
            rw [Option.some.inj kept] at declared
            exact absurd starts.declares declared
          · rw [if_neg same] at kept
            exact ⟨⟨last, kept, starts⟩, bne_iff_ne.mpr (Ne.symm same)⟩

/-- What a call can enter is a loaded script, or a function of one. -/
theorem Indexes.exists_loaded_of_lookup? (indexed : p.Indexes loads) {e : Entry}
    (found : p.lookup? f = some e) : ∃ name : String, p.scripts[name]? = some e.script := by
  unfold lookup? at found
  split at found
  · rename_i s loaded
    cases found
    exact ⟨f, loaded⟩
  · obtain ⟨-, kept, -⟩ := (indexed.functions f e).mp found
    exact ⟨e.script.name, kept⟩

end Program

end ScriptMachine
