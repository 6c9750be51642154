import ExprTree.SyntaxError
import ExprTree.Token.Scanner

set_option autoImplicit false

/-!
# Streams of tokens, and steps over them

A stream holds the tokens still to be read, without blanks; after the last of them it
shows the end-of-file token, however often it is looked at.  A step reads from a
stream: it ends with a value or with a refusal, and in both cases at a place in the
stream, so that reading can go on from there.
-/

namespace ExprTree

/-- The tokens ahead, and the offset of the end of the source. -/
structure Stream where
  ahead : List Token
  finish : Nat
  deriving DecidableEq, Repr, Inhabited

namespace Stream

/-- The token that comes next. -/
def current (s : Stream) : Token := s.ahead.headD (.endOfFile s.finish)

/-- The token after the one that comes next. -/
def second (s : Stream) : Token := s.ahead.tail.headD (.endOfFile s.finish)

/-- The stream after the token that comes next. -/
def advance (s : Stream) : Stream := { s with ahead := s.ahead.tail }

/-- The stream of a list of tokens that ends at `finish`: blanks are left out, and the first
token that stands for nothing refuses the whole list. -/
def ofTokens (tokens : List Token) (finish : Nat) : Except SyntaxError Stream :=
  match tokens.find? fun t => t.kind == .invalid with
  | some t => .error (.invalidToken (t.text.getD "") t.span)
  | none => .ok ⟨tokens.filter fun t => t.kind != .whitespace, finish⟩

/-- The stream of a source. -/
def ofString (source : String) : Except SyntaxError Stream :=
  let scanner := Scanner.ofList source.toList
  ofTokens scanner.upToEnd scanner.atEnd.offset

@[simp] theorem finish_advance (s : Stream) : s.advance.finish = s.finish := rfl

/-- Only the token at the end of the source is not ahead. -/
theorem ahead_eq_of_kind_ne {s : Stream} (h : s.current.kind ≠ .endOfFile) :
    s.ahead = s.current :: s.advance.ahead := by
  obtain ⟨ahead, finish⟩ := s
  cases ahead with
  | nil => exact absurd rfl h
  | cons t ts => rfl

end Stream

/-! ## Steps -/

/-- How a step ends, and where. -/
inductive Outcome (α : Type) where
  | done (value : α) (rest : Stream)
  | failed (error : SyntaxError) (rest : Stream)
  deriving DecidableEq, Repr

namespace Outcome

variable {α : Type}

/-- The place in the stream where the step ended. -/
def rest : Outcome α → Stream
  | done _ rest => rest
  | failed _ rest => rest

end Outcome

/-- Reading from a stream. -/
def Step (α : Type) : Type := Stream → Outcome α

namespace Step

variable {α β : Type}

instance : Monad Step where
  pure a := fun s => .done a s
  bind x f := fun s =>
    match x s with
    | .done a rest => f a rest
    | .failed e rest => .failed e rest

@[simp] theorem pure_apply (a : α) (s : Stream) : (pure a : Step α) s = .done a s := rfl

theorem bind_apply (x : Step α) (f : α → Step β) (s : Stream) :
    (x >>= f) s =
      match x s with
      | .done a rest => f a rest
      | .failed e rest => .failed e rest := rfl

/-- Two steps one after the other are done when both are. -/
theorem bind_eq_done_iff {x : Step α} {f : α → Step β} {s rest : Stream} {b : β} :
    (x >>= f) s = .done b rest ↔ ∃ a mid, x s = .done a mid ∧ f a mid = .done b rest := by
  rw [bind_apply]
  cases x s with
  | done a mid => simp [and_assoc]
  | failed e mid => simp

/-- Two steps one after the other fail when the first does, or the second after the first. -/
theorem bind_eq_failed_iff {x : Step α} {f : α → Step β} {s rest : Stream} {e : SyntaxError} :
    (x >>= f) s = .failed e rest ↔
      x s = .failed e rest ∨ ∃ a mid, x s = .done a mid ∧ f a mid = .failed e rest := by
  rw [bind_apply]
  cases x s with
  | done a mid => simp [and_assoc]
  | failed e mid => simp

/-- The token that comes next, read. -/
def advance : Step Token := fun s => .done s.current s.advance

/-- Reads the token that comes next if it is of a kind, and refuses it otherwise. -/
def expect (kind : Kind) : Step Token := fun s =>
  if s.current.kind = kind then .done s.current s.advance
  else .failed (.unexpectedToken kind s.current.kind s.current.span) s

@[simp] theorem advance_apply (s : Stream) : advance s = .done s.current s.advance := rfl

theorem expect_eq_done_iff {kind : Kind} {s rest : Stream} {t : Token} :
    expect kind s = .done t rest ↔
      s.current.kind = kind ∧ t = s.current ∧ rest = s.advance := by
  unfold expect
  split
  · rename_i h
    simp only [Outcome.done.injEq, h, true_and]
    exact ⟨fun e => ⟨e.1.symm, e.2.symm⟩, fun e => ⟨e.1.symm, e.2.symm⟩⟩
  · rename_i h
    simp [h]

theorem expect_eq_failed_iff {kind : Kind} {s rest : Stream} {e : SyntaxError} :
    expect kind s = .failed e rest ↔
      s.current.kind ≠ kind ∧ e = .unexpectedToken kind s.current.kind s.current.span ∧
        rest = s := by
  unfold expect
  split
  · rename_i h
    simp [h]
  · rename_i h
    simp [h, eq_comm]

end Step

end ExprTree
