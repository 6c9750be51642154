import ExprTree.Tree.Relabel

set_option autoImplicit false

/-!
# Trees with a hole

A node of a tree at a certain place in it: the node itself, and the tree around it
with a hole there.  What is around the hole is a list of frames, one for each node on
the way from the hole up to the root, each without the child that the way comes from.
-/

namespace ExprTree.Tree

/-- A node without one of the nodes directly below it. -/
inductive Frame where
  /-- `□ operator right` -/
  | inLeft (operator : Token) (right : Tree)
  /-- `left operator □` -/
  | inRight (left : Tree) (operator : Token)
  /-- `operator □` -/
  | inOperand (operator : Token)
  /-- `open □ close` -/
  | inExpression (opening closing : Token)
  /-- `□ equals value` -/
  | inTarget (equals : Token) (value : Tree)
  /-- `target equals □` -/
  | inValue (target : Tree) (equals : Token)
  deriving DecidableEq, Repr

namespace Frame

/-- The node with a tree for the one that is missing. -/
def fill (tree : Tree) : Frame → Tree
  | inLeft operator right => .binary tree operator right
  | inRight left operator => .binary left operator tree
  | inOperand operator => .unary operator tree
  | inExpression opening closing => .parenthesized opening tree closing
  | inTarget equals value => .assignment tree equals value
  | inValue target equals => .assignment target equals tree

/-- The tokens before those of the tree that is missing. -/
def before : Frame → List Token
  | inLeft _ _ => []
  | inRight left operator => left.leaves ++ [operator]
  | inOperand operator => [operator]
  | inExpression opening _ => [opening]
  | inTarget _ _ => []
  | inValue target equals => target.leaves ++ [equals]

/-- The tokens behind those of the tree that is missing. -/
def after : Frame → List Token
  | inLeft operator right => operator :: right.leaves
  | inRight _ _ => []
  | inOperand _ => []
  | inExpression _ closing => [closing]
  | inTarget equals value => equals :: value.leaves
  | inValue _ _ => []

/-- The frame with every token changed by `f`. -/
def mapTokens (f : Token → Token) : Frame → Frame
  | inLeft operator right => inLeft (f operator) (right.mapTokens f)
  | inRight left operator => inRight (left.mapTokens f) (f operator)
  | inOperand operator => inOperand (f operator)
  | inExpression opening closing => inExpression (f opening) (f closing)
  | inTarget equals value => inTarget (f equals) (value.mapTokens f)
  | inValue target equals => inValue (target.mapTokens f) (f equals)

/-- Whether the target of an assignment is missing. -/
def isTarget : Frame → Bool
  | inTarget .. => true
  | _ => false

theorem leaves_fill (frame : Frame) (tree : Tree) :
    (frame.fill tree).leaves = frame.before ++ tree.leaves ++ frame.after := by
  cases frame <;> simp [fill, leaves, before, after]

theorem mapTokens_fill (f : Token → Token) (frame : Frame) (tree : Tree) :
    (frame.fill tree).mapTokens f = (frame.mapTokens f).fill (tree.mapTokens f) := by
  cases frame <;> rfl

@[simp] theorem before_mapTokens (f : Token → Token) (frame : Frame) :
    (frame.mapTokens f).before = frame.before.map f := by
  cases frame <;> simp [mapTokens, before]

@[simp] theorem after_mapTokens (f : Token → Token) (frame : Frame) :
    (frame.mapTokens f).after = frame.after.map f := by
  cases frame <;> simp [mapTokens, after]

@[simp] theorem isTarget_mapTokens (f : Token → Token) (frame : Frame) :
    (frame.mapTokens f).isTarget = frame.isTarget := by
  cases frame <;> rfl

end Frame

/-- What is around a hole, the innermost frame first. -/
abbrev Context : Type := List Frame

namespace Context

/-- The tree with the hole filled. -/
def fill (tree : Tree) : Context → Tree
  | [] => tree
  | frame :: context => fill (frame.fill tree) context

/-- The tokens before the hole. -/
def before : Context → List Token
  | [] => []
  | frame :: context => before context ++ frame.before

/-- The tokens behind the hole. -/
def after : Context → List Token
  | [] => []
  | frame :: context => frame.after ++ after context

/-- The context with every token changed by `f`. -/
def mapTokens (f : Token → Token) (context : Context) : Context := context.map (Frame.mapTokens f)

/-- Whether the hole is the target of an assignment. -/
def isTarget : Context → Bool
  | [] => false
  | frame :: _ => frame.isTarget

theorem leaves_fill (context : Context) (tree : Tree) :
    (context.fill tree).leaves = context.before ++ tree.leaves ++ context.after := by
  induction context generalizing tree with
  | nil => simp [fill, before, after]
  | cons frame context ih => simp [fill, before, after, ih, Frame.leaves_fill]

theorem mapTokens_fill (f : Token → Token) (context : Context) (tree : Tree) :
    (context.fill tree).mapTokens f = (context.mapTokens f).fill (tree.mapTokens f) := by
  induction context generalizing tree with
  | nil => rfl
  | cons frame context ih =>
    rw [fill, ih, Frame.mapTokens_fill]
    rfl

@[simp] theorem before_mapTokens (f : Token → Token) (context : Context) :
    (context.mapTokens f).before = context.before.map f := by
  induction context with
  | nil => rfl
  | cons frame context ih => simp_all [mapTokens, before]

@[simp] theorem after_mapTokens (f : Token → Token) (context : Context) :
    (context.mapTokens f).after = context.after.map f := by
  induction context with
  | nil => rfl
  | cons frame context ih => simp_all [mapTokens, after]

@[simp] theorem isTarget_mapTokens (f : Token → Token) (context : Context) :
    (context.mapTokens f).isTarget = context.isTarget := by
  cases context with
  | nil => rfl
  | cons frame context => exact frame.isTarget_mapTokens f

/-- What is around a hole further down, up to the other hole and from there on. -/
theorem fill_append (inner outer : Context) (tree : Tree) :
    fill tree (inner ++ outer) = outer.fill (inner.fill tree) := by
  induction inner generalizing tree with
  | nil => rfl
  | cons frame inner ih => exact ih (frame.fill tree)

end Context

end ExprTree.Tree
