import ExprTree.Reader

set_option autoImplicit false

/-!
# What one step of reading can do

For each function that reads a node: how it can be done, and in which ways it can
fail.  Every statement about reading rests on these lists and does not look at the
functions again.
-/

namespace ExprTree.Expression

variable {sub : Nat → Step Measured} {s rest : Stream} {found : Measured} {e : SyntaxError}

theorem literal_done (h : literal s = .done found rest) :
    found = ⟨.literal s.current s.current.value, 1⟩ ∧ rest = s.advance := by
  simp only [literal, Step.bind_eq_done_iff, Step.advance_apply, Step.pure_apply,
    Outcome.done.injEq] at h
  obtain ⟨_, _, ⟨rfl, rfl⟩, rfl, rfl⟩ := h
  exact ⟨rfl, rfl⟩

theorem name_done (h : name s = .done found rest) :
    found = ⟨.name s.current, 1⟩ ∧ rest = s.advance := by
  simp only [name, Step.bind_eq_done_iff, Step.advance_apply, Step.pure_apply,
    Outcome.done.injEq] at h
  obtain ⟨_, _, ⟨rfl, rfl⟩, rfl, rfl⟩ := h
  exact ⟨rfl, rfl⟩

theorem group_done (h : group sub s = .done found rest) :
    ∃ inner mid, sub 0 s.advance = .done inner mid ∧ mid.current.kind = .closeParen ∧
      inner.height < maxLevels ∧ rest = mid.advance ∧
      found = ⟨.parenthesized s.current inner.tree mid.current, inner.height + 1⟩ := by
  simp only [group, Step.bind_eq_done_iff, Step.advance_apply, Step.pure_apply,
    Outcome.done.injEq, Step.expect_eq_done_iff, nest_eq_done_iff] at h
  obtain ⟨_, _, ⟨rfl, rfl⟩, inner, mid, hsub, _, _, ⟨hclose, rfl, rfl⟩, _, _, ⟨hlt, rfl, rfl⟩,
    rfl, rfl⟩ := h
  exact ⟨inner, mid, hsub, hclose, hlt, rfl, rfl⟩

theorem signed_done {p : Nat} (h : signed sub p s = .done found rest) :
    ∃ inner, sub p s.advance = .done inner rest ∧ inner.height < maxLevels ∧
      found = ⟨.unary s.current inner.tree, inner.height + 1⟩ := by
  simp only [signed, Step.bind_eq_done_iff, Step.advance_apply, Step.pure_apply,
    Outcome.done.injEq, nest_eq_done_iff] at h
  obtain ⟨_, _, ⟨rfl, rfl⟩, inner, mid, hsub, _, _, ⟨hlt, rfl, rfl⟩, rfl, rfl⟩ := h
  exact ⟨inner, hsub, hlt, rfl⟩

theorem joined_done {p : Nat} {left : Measured} (h : joined sub p left s = .done found rest) :
    ∃ right, sub p s.advance = .done right rest ∧ max left.height right.height < maxLevels ∧
      found = ⟨.binary left.tree s.current right.tree, max left.height right.height + 1⟩ := by
  simp only [joined, Step.bind_eq_done_iff, Step.advance_apply, Step.pure_apply,
    Outcome.done.injEq, nest_eq_done_iff] at h
  obtain ⟨_, _, ⟨rfl, rfl⟩, right, mid, hsub, _, _, ⟨hlt, rfl, rfl⟩, rfl, rfl⟩ := h
  exact ⟨right, hsub, hlt, rfl⟩

/-- The target of an assignment is the name that comes next. -/
theorem primary_of_identifier (h : s.current.kind = .identifier) :
    primary sub s = .done ⟨.name s.current, 1⟩ s.advance := by
  unfold primary
  rw [h]
  rfl

theorem assignment_done (hname : s.current.kind = .identifier)
    (h : assignment sub s = .done found rest) :
    ∃ value, sub 0 s.advance.advance = .done value rest ∧ s.advance.current.kind = .equals ∧
      max 1 value.height < maxLevels ∧
      found = ⟨.assignment (.name s.current) s.advance.current value.tree,
        max 1 value.height + 1⟩ := by
  simp only [assignment, Step.bind_eq_done_iff, primary_of_identifier hname, Step.pure_apply,
    Outcome.done.injEq, Step.expect_eq_done_iff, nest_eq_done_iff] at h
  obtain ⟨_, _, ⟨rfl, rfl⟩, _, _, ⟨hequals, rfl, rfl⟩, value, mid, hsub, _, _, ⟨hlt, rfl, rfl⟩,
    rfl, rfl⟩ := h
  exact ⟨value, hsub, hequals, hlt, rfl⟩

/-! ## Failure -/

/-- The refusal of a tree that is too high. -/
def tooDeep (t : Token) : SyntaxError := .nestingTooDeep maxLevels t.span

/-- A group fails inside it, at a parenthesis that is missing, or by its height. -/
theorem group_failed (h : group sub s = .failed e rest) :
    sub 0 s.advance = .failed e rest ∨
    (∃ inner, sub 0 s.advance = .done inner rest ∧ rest.current.kind ≠ .closeParen ∧
      e = .unexpectedToken .closeParen rest.current.kind rest.current.span) ∨
    (∃ inner mid, sub 0 s.advance = .done inner mid ∧ mid.current.kind = .closeParen ∧
      maxLevels ≤ inner.height ∧ e = tooDeep s.current ∧ rest = mid.advance) := by
  simp only [group, Step.bind_eq_failed_iff, Step.advance_apply, Step.pure_apply,
    Outcome.done.injEq, reduceCtorEq, false_or, Step.expect_eq_done_iff,
    Step.expect_eq_failed_iff, nest_eq_failed_iff, and_false, exists_false, or_false] at h
  obtain ⟨_, _, ⟨rfl, rfl⟩, hsub | ⟨inner, mid, hsub, ⟨hclose, rfl, rfl⟩ |
    ⟨_, _, ⟨hclose, rfl, rfl⟩, hle, rfl, rfl⟩⟩⟩ := h
  · exact .inl hsub
  · exact .inr (.inl ⟨inner, hsub, hclose, rfl⟩)
  · exact .inr (.inr ⟨inner, mid, hsub, hclose, hle, rfl, rfl⟩)

/-- A signed operand fails inside it or by its height. -/
theorem signed_failed {p : Nat} (h : signed sub p s = .failed e rest) :
    sub p s.advance = .failed e rest ∨
    ∃ inner, sub p s.advance = .done inner rest ∧ maxLevels ≤ inner.height ∧
      e = tooDeep s.current := by
  simp only [signed, Step.bind_eq_failed_iff, Step.advance_apply, Step.pure_apply,
    Outcome.done.injEq, reduceCtorEq, false_or, nest_eq_failed_iff, and_false, exists_false,
    or_false] at h
  obtain ⟨_, _, ⟨rfl, rfl⟩, hsub | ⟨inner, mid, hsub, hle, rfl, rfl⟩⟩ := h
  · exact .inl hsub
  · exact .inr ⟨inner, hsub, hle, rfl⟩

/-- An operation fails inside its right operand or by its height. -/
theorem joined_failed {p : Nat} {left : Measured} (h : joined sub p left s = .failed e rest) :
    sub p s.advance = .failed e rest ∨
    ∃ right, sub p s.advance = .done right rest ∧ maxLevels ≤ max left.height right.height ∧
      e = tooDeep s.current := by
  simp only [joined, Step.bind_eq_failed_iff, Step.advance_apply, Step.pure_apply,
    Outcome.done.injEq, reduceCtorEq, false_or, nest_eq_failed_iff, and_false, exists_false,
    or_false] at h
  obtain ⟨_, _, ⟨rfl, rfl⟩, hsub | ⟨right, mid, hsub, hle, rfl, rfl⟩⟩ := h
  · exact .inl hsub
  · exact .inr ⟨right, hsub, hle, rfl⟩

/-- An assignment fails inside its value or by its height: its equals sign has been seen. -/
theorem assignment_failed (hname : s.current.kind = .identifier)
    (hequals : s.advance.current.kind = .equals) (h : assignment sub s = .failed e rest) :
    sub 0 s.advance.advance = .failed e rest ∨
    ∃ value, sub 0 s.advance.advance = .done value rest ∧ maxLevels ≤ max 1 value.height ∧
      e = tooDeep s.advance.current := by
  simp only [assignment, Step.bind_eq_failed_iff, primary_of_identifier hname,
    Step.pure_apply, Outcome.done.injEq, reduceCtorEq, false_or, Step.expect_eq_done_iff,
    Step.expect_eq_failed_iff, nest_eq_failed_iff, and_false, exists_false, or_false] at h
  obtain ⟨_, _, ⟨rfl, rfl⟩, ⟨hne, _⟩ |
    ⟨_, _, ⟨_, rfl, rfl⟩, hsub | ⟨value, mid, hsub, hle, rfl, rfl⟩⟩⟩ := h
  · exact absurd hequals hne
  · exact .inl hsub
  · exact .inr ⟨value, hsub, hle, rfl⟩

end ExprTree.Expression
