import ExprTree.Proofs.PartialTree

set_option autoImplicit false

/-!
# Reading into a partial tree

`PartialTree.Follows` lists what one token can do to a partial tree.  From it come
the three invariants of a run of tokens: the leaves are the tokens read, the height
only grows, and a canonical partial tree stays canonical.  A canonical partial tree
can always be completed, so the tokens that can be read are the beginnings of
canonical trees.
-/

namespace ExprTree.PartialTree

open OpenNode

/-! ## One token -/

/-- The partial tree `q` is `p` and one more token. -/
inductive Follows : PartialTree → Token → PartialTree → Prop where
  | group {nodes : List OpenNode} {t : Token} (h : t.kind = .openParen) :
      Follows (expecting nodes) t (expecting (.group t :: nodes))
  | sign {nodes : List OpenNode} {t : Token} (h : t.kind = .plus ∨ t.kind = .minus) :
      Follows (expecting nodes) t (expecting (.sign t :: nodes))
  | literal {nodes : List OpenNode} {t : Token}
      (h : t.kind = .number ∨ t.kind = .trueKeyword ∨ t.kind = .falseKeyword) :
      Follows (expecting nodes) t (holding nodes (.literal t t.value))
  | name {nodes : List OpenNode} {t : Token} (h : t.kind = .identifier) :
      Follows (expecting nodes) t (holding nodes (.name t))
  | operation {nodes : List OpenNode} {operand : Tree} {t : Token} {p : Nat}
      (h : t.kind.binaryPrecedence? = some p) :
      Follows (holding nodes operand) t (operate nodes operand p t)
  | assignment {nodes : List OpenNode} {name t : Token} (h : t.kind = .equals) :
      Follows (holding nodes (.name name)) t (expecting (.assignment (.name name) t :: nodes))
  | close {nodes outer : List OpenNode} {operand inner : Tree} {opening t : Token}
      (h : t.kind = .closeParen) (hs : settle 0 nodes operand = (.group opening :: outer, inner)) :
      Follows (holding nodes operand) t (holding outer (.parenthesized opening inner t))

theorem follows_of_read_expecting {nodes : List OpenNode} {t : Token} {q : PartialTree}
    (h : (expecting nodes).read t = some q) : Follows (expecting nodes) t q := by
  rw [read] at h
  split at h
  · rename_i hk
    cases h
    exact .group hk
  · rename_i hk
    cases h
    exact .sign (.inl hk)
  · rename_i hk
    cases h
    exact .sign (.inr hk)
  · rename_i hk
    cases h
    exact .literal (.inl hk)
  · rename_i hk
    cases h
    exact .literal (.inr (.inl hk))
  · rename_i hk
    cases h
    exact .literal (.inr (.inr hk))
  · rename_i hk
    cases h
    exact .name hk
  · cases h

theorem follows_of_read_holding {nodes : List OpenNode} {operand : Tree} {t : Token}
    {q : PartialTree} (h : (holding nodes operand).read t = some q) :
    Follows (holding nodes operand) t q := by
  rw [read] at h
  split at h
  · rename_i p hp
    cases h
    exact .operation hp
  · split at h
    · rename_i hk
      cases operand with
      | name name =>
          cases h
          exact .assignment hk
      | _ => cases h
    · rename_i hk
      rw [close?] at h
      split at h
      · rename_i opening outer inner hs
        cases h
        exact .close hk hs
      · cases h
    · cases h

/-- Reading a token does one of the things listed. -/
theorem follows_of_read {p q : PartialTree} {t : Token} (h : p.read t = some q) :
    Follows p t q := by
  cases p with
  | expecting nodes => exact follows_of_read_expecting h
  | holding nodes operand => exact follows_of_read_holding h

/-- The token read is the last leaf. -/
theorem Follows.leaves_eq {p q : PartialTree} {t : Token} (h : Follows p t q) :
    q.leaves = p.leaves ++ [t] := by
  cases h with
  | group | sign => simp [leaves, OpenNode.leaves]
  | literal | name => simp [leaves, Tree.leaves]
  | assignment => simp [leaves, OpenNode.leaves, Tree.leaves]
  | @operation nodes operand t p hp =>
      have hs := leaves_settle p nodes operand
      simp only [operate, leaves, allLeaves_cons, OpenNode.leaves]
      rw [← List.append_assoc, hs]
  | @close nodes outer operand inner opening t hk hs =>
      have hl := leaves_settle 0 nodes operand
      rw [hs, allLeaves_cons] at hl
      simp only [leaves, ← hl, Tree.leaves, OpenNode.leaves, List.append_assoc,
        List.cons_append, List.nil_append]

/-- No token makes the least tree lower. -/
theorem Follows.height_le {p q : PartialTree} {t : Token} (h : Follows p t q) :
    p.height ≤ q.height := by
  cases h with
  | group | sign | assignment => exact fullHeight_mono _ (Nat.le_of_lt (lt_heightOver _ _))
  | literal | name => exact Nat.le_refl _
  | @operation nodes operand t p hp =>
      simp only [height, operate, fullHeight_cons, ← fullHeight_settle p nodes operand]
      apply fullHeight_mono
      simp only [heightOver]
      omega
  | @close nodes outer operand inner opening t hk hs =>
      have hh := fullHeight_settle 0 nodes operand
      rw [hs] at hh
      exact Nat.le_of_eq hh.symm

/-- What an operator settles is a left operand for it, and the nodes left open admit it. -/
theorem nested_operate {nodes : List OpenNode} {operand : Tree} {t : Token} {p : Nat}
    (hp : t.kind.binaryPrecedence? = some p) (h : (holding nodes operand).Canonical) :
    (operate nodes operand p t).Canonical := by
  obtain ⟨hn, hc, hprec, hends⟩ := h
  have hpos := Kind.binaryPrecedence?_pos hp
  have hleft : ∀ q, operand.precedence? = some q → p ≤ q := by
    intro q hq
    rw [hprec] at hq
    cases hq
  obtain ⟨hn', hc', _⟩ := canonical_settle p nodes operand hn hc (fits_of_precedence?_eq_none hprec)
  refine ⟨⟨⟨p, hp, precedence?_settle p nodes operand hleft⟩,
    not_endsInAssignment_settle hpos nodes operand hends, hc'⟩, ?_, hn'⟩
  intro q hq
  rw [hp] at hq
  cases hq
  have hopen := closedBy_head_settle p nodes operand
  revert hopen
  cases (settle p nodes operand).1 with
  | nil => exact fun _ => hpos
  | cons node outer =>
      intro hopen
      have hnode : node.closedBy p = false := hopen node rfl
      cases node with
      | group opening => exact hpos
      | _ => exact Nat.not_le.1 (of_decide_eq_false hnode)

/-- A canonical partial tree stays canonical. -/
theorem Follows.canonical {p q : PartialTree} {t : Token} (h : Follows p t q)
    (hp : p.Canonical) : q.Canonical := by
  cases h with
  | group hk => exact ⟨hk, trivial, hp⟩
  | sign hk => exact ⟨hk, trivial, hp⟩
  | literal hk => exact ⟨hp, ⟨hk, rfl⟩, rfl, id⟩
  | name hk => exact ⟨hp, hk, rfl, id⟩
  | operation hk => exact nested_operate hk hp
  | assignment hk => exact ⟨⟨rfl, hk, hp.2.1⟩, trivial, hp.1⟩
  | @close nodes outer operand inner opening t hk hs =>
      obtain ⟨hn, hc, hprec, _⟩ := hp
      have hset := canonical_settle 0 nodes operand hn hc (fits_of_precedence?_eq_none hprec)
      rw [hs] at hset
      obtain ⟨⟨hopening, _, houter⟩, hinner, _⟩ := hset
      exact ⟨houter, ⟨hopening, hk, hinner⟩, rfl, id⟩

/-! ## A run of tokens -/

@[simp] theorem readAll_cons (p : PartialTree) (t : Token) (ts : List Token) :
    p.readAll (t :: ts) = (p.read t).bind fun q => q.readAll ts := rfl

theorem readAll_append (p : PartialTree) (ts us : List Token) :
    p.readAll (ts ++ us) = (p.readAll ts).bind fun q => q.readAll us := by
  simp only [readAll, List.foldlM_append]
  rfl

/-- One run of tokens after another. -/
theorem readAll_append_of_eq_some {p q : PartialTree} {ts : List Token}
    (h : p.readAll ts = some q) (us : List Token) : p.readAll (ts ++ us) = q.readAll us := by
  rw [readAll_append, h, Option.bind_some]

/-- A run of tokens begins with one of them. -/
theorem follows_of_readAll_cons {p q : PartialTree} {t : Token} {ts : List Token}
    (h : p.readAll (t :: ts) = some q) : ∃ r, Follows p t r ∧ r.readAll ts = some q := by
  rw [readAll_cons, Option.bind_eq_some_iff] at h
  obtain ⟨r, hr, hq⟩ := h
  exact ⟨r, follows_of_read hr, hq⟩

/-- The tokens read are the last leaves. -/
theorem leaves_of_readAll {p q : PartialTree} {ts : List Token} (h : p.readAll ts = some q) :
    q.leaves = p.leaves ++ ts := by
  induction ts generalizing p with
  | nil =>
      cases h
      exact (List.append_nil _).symm
  | cons t ts ih =>
      obtain ⟨r, hr, hq⟩ := follows_of_readAll_cons h
      rw [ih hq, hr.leaves_eq, List.append_assoc, List.singleton_append]

/-- No run of tokens makes the least tree lower. -/
theorem height_le_of_readAll {p q : PartialTree} {ts : List Token} (h : p.readAll ts = some q) :
    p.height ≤ q.height := by
  induction ts generalizing p with
  | nil =>
      cases h
      exact Nat.le_refl _
  | cons t ts ih =>
      obtain ⟨r, hr, hq⟩ := follows_of_readAll_cons h
      exact Nat.le_trans hr.height_le (ih hq)

/-- A canonical partial tree stays canonical through a run of tokens. -/
theorem canonical_of_readAll {p q : PartialTree} {ts : List Token} (h : p.readAll ts = some q)
    (hp : p.Canonical) : q.Canonical := by
  induction ts generalizing p with
  | nil =>
      cases h
      exact hp
  | cons t ts ih =>
      obtain ⟨r, hr, hq⟩ := follows_of_readAll_cons h
      exact ih hq (hr.canonical hp)

/-! ## Completion -/

/-- A number at no place, for an operand that is still due. -/
def someNumber : Token := ⟨.number, .point 0, none, .absent⟩

/-- A canonical partial tree is the beginning of a canonical tree. -/
theorem exists_canonical_of_canonical {p : PartialTree} (h : p.Canonical) :
    ∃ tree : Tree, tree.Canonical ∧ p.leaves <+: tree.leaves := by
  cases p with
  | expecting nodes =>
      have hc : (Tree.literal someNumber someNumber.value).Canonical := ⟨.inl rfl, rfl⟩
      obtain ⟨hcan, hpre⟩ := canonical_fillAll h hc (fits_of_precedence?_eq_none rfl)
      exact ⟨_, hcan, List.IsPrefix.trans (List.prefix_append _ _) hpre⟩
  | holding nodes operand =>
      obtain ⟨hn, hc, hprec, _⟩ := h
      obtain ⟨hcan, hpre⟩ := canonical_fillAll hn hc (fits_of_precedence?_eq_none hprec)
      exact ⟨_, hcan, hpre⟩

/-- Tokens that can be read are the beginning of a canonical tree. -/
theorem exists_canonical_of_readAll {ts : List Token} {p : PartialTree}
    (h : start.readAll ts = some p) : ∃ tree : Tree, tree.Canonical ∧ ts <+: tree.leaves := by
  have hp : p.Canonical := canonical_of_readAll h trivial
  have hl : p.leaves = ts := leaves_of_readAll h
  obtain ⟨tree, hc, hpre⟩ := exists_canonical_of_canonical hp
  exact ⟨tree, hc, hl ▸ hpre⟩

end ExprTree.PartialTree
