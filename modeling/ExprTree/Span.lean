set_option autoImplicit false

/-!
# Spans of source text

A span is a stretch of the source by byte offsets of its UTF-8 form, the end
exclusive.  Offsets are natural numbers without a bound.
-/

namespace ExprTree

/-- The bytes from `start` up to, not including, `stop`. -/
structure Span where
  start : Nat
  stop : Nat
  deriving DecidableEq, Repr, Inhabited

namespace Span

/-- The span without bytes at an offset. -/
def point (offset : Nat) : Span := ⟨offset, offset⟩

/-- The least span that covers both. -/
def hull (a b : Span) : Span := ⟨min a.start b.start, max a.stop b.stop⟩

/-- The number of bytes. -/
def size (s : Span) : Nat := s.stop - s.start

/-- Whether the span has no bytes. -/
def isEmpty (s : Span) : Bool := s.start == s.stop

/-- The span `n` bytes further on. -/
def shift (n : Nat) (s : Span) : Span := ⟨s.start + n, s.stop + n⟩

/-- The written form, the two offsets joined by two full stops. -/
def text (s : Span) : String := s.start.repr ++ ".." ++ s.stop.repr

/-! ## Laws of the hull and the shift -/

theorem hull_of_le {a b : Span} (hs : a.start ≤ b.start) (ht : a.stop ≤ b.stop) :
    a.hull b = ⟨a.start, b.stop⟩ := by
  simp [hull, Nat.min_eq_left hs, Nat.max_eq_right ht]

@[simp] theorem shift_zero (s : Span) : s.shift 0 = s := rfl

end Span

end ExprTree
