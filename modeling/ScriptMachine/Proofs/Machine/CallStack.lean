import ScriptMachine.Machine.CallStack

/-!
Calls that wait: pushing one and taking it off again, and the calls of one run as those on top of
the calls that were in progress before it.
-/

namespace ScriptMachine.CallStack

variable {c rest below : CallStack} {own : List Frame} {base : Nat}

/-! ### One call more or less -/

theorem depth_push (c : CallStack) (f : Frame) : (c.push f).depth = c.depth + 1 :=
  rfl

theorem eq_push_of_pop? {f : Frame} (popped : c.pop? = some (f, rest)) : c = rest.push f := by
  obtain ⟨frames, depth, depth_eq⟩ := c
  cases frames with
  | nil => cases popped
  | cons g frames =>
      cases popped
      ext1
      · rfl
      · simp [push, depth_eq]

theorem depth_eq_zero_of_pop? (popped : c.pop? = none) : c.depth = 0 := by
  obtain ⟨frames, depth, depth_eq⟩ := c
  cases frames with
  | nil => exact depth_eq
  | cons f frames => cases popped

/-! ### Cutting down to a base -/

theorem depth_cutTo (above : base ≤ c.depth) : (c.cutTo base).depth = base :=
  Nat.min_eq_right above

theorem cutTo_push (above : base ≤ c.depth) (f : Frame) : (c.push f).cutTo base = c.cutTo base := by
  ext1
  · have succ : c.depth + 1 - base = c.depth - base + 1 := by omega
    simp [cutTo, push, succ]
  · simp only [cutTo, push]
    omega

/-! ### Calls on top of others -/

theorem depth_of_frames (eq : c.frames = own ++ below.frames) : c.depth = own.length + below.depth := by
  rw [c.depth_eq, below.depth_eq, eq, List.length_append]

theorem eq_of_frames {c' : CallStack} (eq : c.frames = c'.frames) : c = c' := by
  have depth_eq : c.depth = c'.depth := by rw [c.depth_eq, c'.depth_eq, eq]
  ext1
  · exact eq
  · exact depth_eq

/-- Cut down to the depth of the calls below, a stack is those calls. -/
theorem cutTo_of_frames (eq : c.frames = own ++ below.frames) : c.cutTo below.depth = below := by
  apply eq_of_frames
  have above : c.depth - below.depth = own.length := by
    rw [depth_of_frames eq]
    exact Nat.add_sub_cancel _ _
  simp only [cutTo, above, eq, List.drop_left]

/-- On top of others, at no greater depth, there is no call. -/
theorem eq_of_frames_of_le (eq : c.frames = own ++ below.frames) (le : c.depth ≤ below.depth) :
    c = below := by
  have none : own = [] := by
    rw [depth_of_frames eq] at le
    exact List.eq_nil_of_length_eq_zero (by omega)
  rw [none] at eq
  exact eq_of_frames eq

/-- The topmost of some calls on top of others, and the rest. -/
theorem exists_of_frames_of_lt (eq : c.frames = own ++ below.frames) (lt : below.depth < c.depth) :
    ∃ (caller : Frame) (rest : CallStack) (own' : List Frame), c = rest.push caller ∧
      own = caller :: own' ∧ rest.frames = own' ++ below.frames := by
  obtain ⟨frames, depth, depth_eq⟩ := c
  cases own with
  | nil =>
      have same := depth_of_frames eq
      rw [List.length_nil, Nat.zero_add] at same
      exact absurd same (Nat.ne_of_gt lt)
  | cons caller own' =>
      cases eq
      refine ⟨caller, ⟨own' ++ below.frames, depth - 1, by rw [depth_eq]; rfl⟩, own', ?_, rfl, rfl⟩
      exact eq_of_frames rfl

end ScriptMachine.CallStack
