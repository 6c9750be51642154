import ExprTree.Proofs.PartialTree.Spine
import ExprTree.Proofs.Steps

set_option autoImplicit false

/-!
# What is read is canonical

Whenever an expression is read, the tree is canonical, its leaves are the tokens
that were read, the height carried with it is its own, and the token that comes
next cannot continue it.  Each function of `Expression` has one lemma that says
what it read; `expression_reads` puts them together by induction on the number of
expressions that may still be opened.
-/

namespace ExprTree

/-- Whether an operator of precedence `p` takes the tree as its left operand. -/
def Tree.IsLeftOperand (p : Nat) (tree : Tree) : Prop :=
  (∀ q, tree.precedence? = some q → p ≤ q) ∧ ¬ tree.EndsInAssignment

/-- Whether the tree is whole before a token of kind `next`: an operator takes it as a left operand,
and an equals sign takes no name from its end. -/
def Tree.EndsBefore (next : Kind) (tree : Tree) : Prop :=
  (∀ p, next.binaryPrecedence? = some p → tree.IsLeftOperand p) ∧
  (next = .equals → ∀ name, tree.lastOperand ≠ .name name)

namespace Expression

/-- What reading `found` from `s` up to `rest` amounts to. -/
structure Reads (s : Stream) (found : Measured) (rest : Stream) : Prop where
  /-- The tokens read are the leaves. -/
  ahead_eq : s.ahead = found.tree.leaves ++ rest.ahead
  finish_eq : rest.finish = s.finish
  canonical : found.tree.Canonical
  /-- The height carried along is that of the tree. -/
  height_eq : found.height = found.tree.height
  height_le : found.tree.height ≤ maxLevels
  ends : found.tree.EndsBefore rest.current.kind

/-- What reading an expression for a least precedence amounts to: what operators it left bind no
tighter than that. -/
structure ReadsFor (least : Nat) (s : Stream) (found : Measured) (rest : Stream) : Prop
    extends Reads s found rest where
  fits : found.tree.Fits least
  stops : ∀ p, rest.current.kind.binaryPrecedence? = some p → p ≤ least

/-- Behind an expression that was read for the least precedence of all no operator is left. -/
theorem ReadsFor.no_operator {s rest : Stream} {found : Measured} (h : ReadsFor 0 s found rest) :
    ∀ p, rest.current.kind.binaryPrecedence? ≠ some p := by
  intro p hp
  have hle := h.stops p hp
  have hpos := Kind.binaryPrecedence?_pos hp
  omega

variable {sub : Nat → Step Measured} {s rest : Stream} {found : Measured}

/-- The token that comes next is ahead unless it is the end-of-file token. -/
theorem ahead_eq_of_kind_eq {kind : Kind} (h : s.current.kind = kind) (hk : kind ≠ .endOfFile) :
    s.ahead = s.current :: s.advance.ahead :=
  Stream.ahead_eq_of_kind_ne (h ▸ hk)

/-- A sign that comes next is a plus or a minus, and is ahead. -/
theorem sign_of_unaryPrecedence? {p : Nat} (h : s.current.kind.unaryPrecedence? = some p) :
    (s.current.kind = .plus ∨ s.current.kind = .minus) ∧
      s.ahead = s.current :: s.advance.ahead := by
  have hsign : s.current.kind = .plus ∨ s.current.kind = .minus := by
    revert h
    cases s.current.kind <;> simp [Kind.unaryPrecedence?]
  refine ⟨hsign, ?_⟩
  apply Stream.ahead_eq_of_kind_ne
  intro hk
  rw [hk] at h
  cases h

/-- An operator that comes next is ahead. -/
theorem ahead_eq_of_binaryPrecedence? {p : Nat}
    (h : s.current.kind.binaryPrecedence? = some p) : s.ahead = s.current :: s.advance.ahead := by
  apply Stream.ahead_eq_of_kind_ne
  intro hk
  rw [hk] at h
  cases h

/-- What is no operation and ends neither in an assignment nor in a name is whole before any
token. -/
theorem endsBefore_of_operand {tree : Tree} (next : Kind) (hprec : tree.precedence? = none)
    (hends : ¬ tree.EndsInAssignment)
    (hlast : next = .equals → ∀ name, tree.lastOperand ≠ .name name) : tree.EndsBefore next := by
  refine ⟨?_, hlast⟩
  intro p _
  refine ⟨?_, hends⟩
  intro q hq
  rw [hprec] at hq
  cases hq

theorem one_le_maxLevels : 1 ≤ maxLevels := by decide

/-! ## Each function -/

theorem literal_reads
    (hkind : s.current.kind = .number ∨ s.current.kind = .trueKeyword ∨
      s.current.kind = .falseKeyword)
    (h : literal s = .done found rest) :
    Reads s found rest ∧ found.tree.precedence? = none := by
  obtain ⟨rfl, rfl⟩ := literal_done h
  have hahead : s.ahead = s.current :: s.advance.ahead := by
    rcases hkind with hk | hk | hk <;> exact ahead_eq_of_kind_eq hk (by decide)
  refine ⟨⟨hahead, rfl, ⟨hkind, rfl⟩, rfl, one_le_maxLevels, ?_⟩, rfl⟩
  exact endsBefore_of_operand _ rfl id fun _ name => by simp [Tree.lastOperand]

/-- A name is whole unless an equals sign follows it. -/
theorem name_reads (hkind : s.current.kind = .identifier) (hnext : s.advance.current.kind ≠ .equals)
    (h : name s = .done found rest) : Reads s found rest ∧ found.tree.precedence? = none := by
  obtain ⟨rfl, rfl⟩ := name_done h
  refine ⟨⟨ahead_eq_of_kind_eq hkind (by decide), rfl, hkind, rfl, one_le_maxLevels, ?_⟩, rfl⟩
  exact endsBefore_of_operand _ rfl id fun he => absurd he hnext

section

variable (hsub : ∀ {least : Nat} {s : Stream} {found : Measured} {rest : Stream},
  sub least s = .done found rest → ReadsFor least s found rest)

include hsub

theorem group_reads (hkind : s.current.kind = .openParen) (h : group sub s = .done found rest) :
    Reads s found rest ∧ found.tree.precedence? = none := by
  obtain ⟨inner, mid, hinner, hclose, hlt, rfl, rfl⟩ := group_done h
  have hi := hsub hinner
  refine ⟨⟨?_, hi.finish_eq, ⟨hkind, hclose, hi.canonical⟩, ?_, ?_, ?_⟩, rfl⟩
  · rw [ahead_eq_of_kind_eq hkind (by decide), hi.ahead_eq, ahead_eq_of_kind_eq hclose (by decide)]
    simp [Tree.leaves]
  · simp [Tree.height, hi.height_eq]
  · rw [hi.height_eq] at hlt
    exact hlt
  · exact endsBefore_of_operand _ rfl id fun _ name => by simp [Tree.lastOperand]

theorem signed_reads {p : Nat} (hp : s.current.kind.unaryPrecedence? = some p)
    (h : signed sub p s = .done found rest) :
    Reads s found rest ∧ found.tree.precedence? = none := by
  obtain ⟨inner, hinner, hlt, rfl⟩ := signed_done h
  have hi := hsub hinner
  obtain ⟨hsign, hahead⟩ := sign_of_unaryPrecedence? hp
  have hsix := Kind.unaryPrecedence?_eq hp
  have hkind : inner.tree.kind ≠ .binaryExpression :=
    OpenNode.kind_ne_of_fits (by omega) hi.canonical hi.fits
  refine ⟨⟨?_, hi.finish_eq, ⟨hsign, hkind, hi.canonical⟩, ?_, ?_, ?_⟩, rfl⟩
  · rw [hahead, hi.ahead_eq]
    rfl
  · simp [Tree.height, hi.height_eq]
  · rw [hi.height_eq] at hlt
    exact hlt
  · refine ⟨?_, hi.ends.2⟩
    intro q hq
    refine ⟨?_, (hi.ends.1 q hq).2⟩
    intro r hr
    cases hr

theorem assignment_reads (hname : s.current.kind = .identifier)
    (h : assignment sub s = .done found rest) :
    Reads s found rest ∧ found.tree.precedence? = none ∧
      ∀ p, rest.current.kind.binaryPrecedence? ≠ some p := by
  obtain ⟨value, hvalue, hequals, hlt, rfl⟩ := assignment_done hname h
  have hv := hsub hvalue
  refine ⟨⟨?_, hv.finish_eq, ⟨rfl, hequals, hname, hv.canonical⟩, ?_, ?_, ?_⟩, rfl, hv.no_operator⟩
  · rw [ahead_eq_of_kind_eq hname (by decide), ahead_eq_of_kind_eq hequals (by decide),
      hv.ahead_eq]
    rfl
  · simp [Tree.height, hv.height_eq]
  · rw [hv.height_eq] at hlt
    exact hlt
  · exact ⟨fun p hp => absurd hp (hv.no_operator p), hv.ends.2⟩

theorem joined_reads {p : Nat} {s₀ : Stream} {left : Measured} (hleft : Reads s₀ left s)
    (hp : s.current.kind.binaryPrecedence? = some p)
    (h : joined sub p left s = .done found rest) :
    Reads s₀ found rest ∧ found.tree.precedence? = some p ∧
      rest.ahead.length < s.ahead.length := by
  obtain ⟨right, hright, hlt, rfl⟩ := joined_done h
  have hr := hsub hright
  obtain ⟨hprec, hends⟩ := hleft.ends.1 p hp
  have hahead := ahead_eq_of_binaryPrecedence? hp
  refine ⟨⟨?_, ?_, ⟨⟨p, hp, hr.fits, hprec⟩, hends, hleft.canonical, hr.canonical⟩, ?_, ?_, ?_⟩,
    hp, ?_⟩
  · rw [hleft.ahead_eq, hahead, hr.ahead_eq]
    simp [Tree.leaves]
  · rw [hr.finish_eq, Stream.finish_advance, hleft.finish_eq]
  · simp [Tree.height, hleft.height_eq, hr.height_eq]
  · rw [hleft.height_eq, hr.height_eq] at hlt
    exact hlt
  · refine ⟨?_, hr.ends.2⟩
    intro q hq
    refine ⟨?_, (hr.ends.1 q hq).2⟩
    intro r hrp
    have hpr : p = r := Option.some.inj (hp.symm.trans hrp)
    have hle := hr.stops q hq
    omega
  · rw [hahead, hr.ahead_eq, List.length_cons, List.length_append]
    omega

/-- A primary is whole unless it is a name before an equals sign. -/
theorem primary_reads
    (hname : s.current.kind = .identifier → s.advance.current.kind ≠ .equals)
    (h : primary sub s = .done found rest) :
    Reads s found rest ∧ found.tree.precedence? = none := by
  unfold primary at h
  split at h
  · rename_i hk
    exact group_reads hsub hk h
  · rename_i hk
    exact literal_reads (.inr (.inl hk)) h
  · rename_i hk
    exact literal_reads (.inr (.inr hk)) h
  · rename_i hk
    exact literal_reads (.inl hk) h
  · rename_i hk
    exact name_reads hk (hname hk) h
  · cases h

theorem operand_reads {least : Nat}
    (hname : s.current.kind = .identifier → s.advance.current.kind ≠ .equals)
    (h : operand sub least s = .done found rest) :
    Reads s found rest ∧ found.tree.precedence? = none := by
  unfold operand at h
  split at h
  · rename_i p hp
    split at h
    · exact signed_reads hsub hp h
    · exact primary_reads hsub hname h
  · exact primary_reads hsub hname h

/-- Operators are taken as long as they bind tightly enough.  The fuel is the number of tokens
ahead, so it does not run out before they do. -/
theorem chain_reads {least fuel : Nat} {s₀ : Stream} {left : Measured}
    (hfuel : s.ahead.length ≤ fuel) (hleft : Reads s₀ left s) (hfits : left.tree.Fits least)
    (h : chain sub least fuel left s = .done found rest) : ReadsFor least s₀ found rest := by
  induction fuel generalizing left s with
  | zero =>
      have hnil : s.ahead = [] := List.eq_nil_of_length_eq_zero (Nat.le_zero.1 hfuel)
      have hend : s.current.kind = .endOfFile := by simp [Stream.current, hnil, Token.endOfFile]
      cases h
      refine ⟨hleft, hfits, ?_⟩
      intro p hp
      rw [hend] at hp
      cases hp
  | succ fuel ih =>
      simp only [chain] at h
      split at h
      · rename_i p hp
        split at h
        · rename_i hle
          cases h
          refine ⟨hleft, hfits, ?_⟩
          intro q hq
          cases Option.some.inj (hp.symm.trans hq)
          exact hle
        · rename_i hlt
          obtain ⟨next, mid, hjoined, hchain⟩ := Step.bind_eq_done_iff.1 h
          obtain ⟨hnext, hprec, hshort⟩ := joined_reads hsub hleft hp hjoined
          have hfitsNext : next.tree.Fits least := by
            intro q hq
            cases Option.some.inj (hprec.symm.trans hq)
            exact Nat.not_le.1 hlt
          exact ih (by omega) hnext hfitsNext hchain
      · rename_i hnone
        cases h
        refine ⟨hleft, hfits, ?_⟩
        intro p hp
        rw [hnone] at hp
        cases hp

theorem body_reads {least : Nat} (h : body sub least s = .done found rest) :
    ReadsFor least s found rest := by
  unfold body at h
  split at h
  · rename_i hassign
    obtain ⟨hreads, hprec, hstop⟩ := assignment_reads hsub hassign.1 h
    exact ⟨hreads, OpenNode.fits_of_precedence?_eq_none hprec, fun p hp => absurd hp (hstop p)⟩
  · rename_i hassign
    obtain ⟨left, mid, hoperand, hchain⟩ := Step.bind_eq_done_iff.1 h
    have hname : s.current.kind = .identifier → s.advance.current.kind ≠ .equals :=
      fun hk hequals => hassign ⟨hk, hequals⟩
    obtain ⟨hleft, hprec⟩ := operand_reads hsub hname hoperand
    exact chain_reads hsub (Nat.le_refl _) hleft (OpenNode.fits_of_precedence?_eq_none hprec) hchain

end

/-- What is read as an expression, however many expressions may be opened for it. -/
theorem expression_reads {levels least : Nat} (h : expression levels least s = .done found rest) :
    ReadsFor least s found rest := by
  induction levels generalizing least s found rest with
  | zero => cases h
  | succ levels ih => exact body_reads ih h

end Expression

end ExprTree
