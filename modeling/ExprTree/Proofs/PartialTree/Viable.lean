import ExprTree.Proofs.PartialTree.Spine

set_option autoImplicit false

/-!
# Viable kinds

Whether tokens are the beginning of a canonical tree is a matter of their kinds
alone: a canonical tree stays canonical when its leaves are changed for tokens of
the same kinds, with the values of the literals to match
(`Tree.exists_resembling`).  So what a partial tree takes and refuses decides which
kinds are viable (`viable_map_iff`).
-/

namespace ExprTree

open PartialTree

/-- Whether two trees are the same in all that the grouping of a tree around them looks at, and as
high. -/
structure Tree.Resembles (a b : Tree) : Prop where
  kind_eq : a.kind = b.kind
  precedence?_eq : a.precedence? = b.precedence?
  endsInAssignment_iff : a.EndsInAssignment ↔ b.EndsInAssignment
  height_eq : a.height = b.height

/-- Tokens of the kinds of two stretches with a token between them come apart in the same way. -/
theorem Token.exists_append_cons_of_kinds {ts front back : List Token} {t : Token}
    (h : ts.map kind = (front ++ t :: back).map kind) :
    ∃ before u after, ts = before ++ u :: after ∧ before.map kind = front.map kind ∧
      u.kind = t.kind ∧ after.map kind = back.map kind := by
  rw [List.map_append, List.map_cons, List.map_eq_append_iff] at h
  obtain ⟨before, more, rfl, hbefore, hmore⟩ := h
  obtain ⟨u, after, rfl, hu, hafter⟩ := List.map_eq_cons_iff.1 hmore
  exact ⟨before, u, after, rfl, hbefore, hu, hafter⟩

/-- Tokens of the kinds of the leaves of a canonical tree are the leaves of one that resembles
it. -/
theorem Tree.exists_resembling {tree : Tree} {ts : List Token} (hc : tree.Canonical)
    (h : ts.map Token.kind = tree.leaves.map Token.kind) :
    ∃ other : Tree, other.Canonical ∧ other.leaves = ts ∧ other.Resembles tree := by
  induction tree generalizing ts with
  | binary left operator right ihl ihr =>
      obtain ⟨⟨p, hp, hright, hleft⟩, hends, hcl, hcr⟩ := hc
      obtain ⟨before, t, after, rfl, hbefore, ht, hafter⟩ := Token.exists_append_cons_of_kinds h
      obtain ⟨l, hl, rfl, hlike⟩ := ihl hcl hbefore
      obtain ⟨r, hr, rfl, hrlike⟩ := ihr hcr hafter
      refine ⟨.binary l t r, ⟨⟨p, ht ▸ hp, ?_, ?_⟩, ?_, hl, hr⟩, rfl, rfl, ?_, ?_, ?_⟩
      · rw [hrlike.precedence?_eq]
        exact hright
      · rw [hlike.precedence?_eq]
        exact hleft
      · rw [hlike.endsInAssignment_iff]
        exact hends
      · exact congrArg Kind.binaryPrecedence? ht
      · exact hrlike.endsInAssignment_iff
      · simp [height, hlike.height_eq, hrlike.height_eq]
  | unary operator operand ih =>
      obtain ⟨hop, hkind, hco⟩ := hc
      obtain ⟨t, after, rfl, ht, hafter⟩ := List.map_eq_cons_iff.1 h
      obtain ⟨o, ho, rfl, hlike⟩ := ih hco hafter
      refine ⟨.unary t o, ⟨ht ▸ hop, ?_, ho⟩, rfl, rfl, rfl, hlike.endsInAssignment_iff, ?_⟩
      · rw [hlike.kind_eq]
        exact hkind
      · simp [height, hlike.height_eq]
  | parenthesized opening expression closing ih =>
      obtain ⟨hopening, hclosing, hce⟩ := hc
      obtain ⟨t, more, rfl, ht, hmore⟩ := List.map_eq_cons_iff.1 h
      obtain ⟨inside, u, after, rfl, hinside, hu, hafter⟩ := Token.exists_append_cons_of_kinds hmore
      cases List.map_eq_nil_iff.1 hafter
      obtain ⟨e, he, rfl, hlike⟩ := ih hce hinside
      refine ⟨.parenthesized t e u, ⟨ht ▸ hopening, hu ▸ hclosing, he⟩, rfl, rfl, rfl, Iff.rfl, ?_⟩
      simp [height, hlike.height_eq]
  | literal token value =>
      obtain ⟨t, rfl, ht⟩ := List.map_eq_singleton_iff.1 h
      exact ⟨.literal t t.value, ⟨ht ▸ hc.1, rfl⟩, rfl, rfl, rfl, Iff.rfl, rfl⟩
  | name token =>
      obtain ⟨t, rfl, ht⟩ := List.map_eq_singleton_iff.1 h
      exact ⟨.name t, ht.trans hc, rfl, rfl, rfl, Iff.rfl, rfl⟩
  | assignment target equals value iht ihv =>
      obtain ⟨htarget, hequals, hct, hcv⟩ := hc
      obtain ⟨before, t, after, rfl, hbefore, ht, hafter⟩ := Token.exists_append_cons_of_kinds h
      obtain ⟨n, hn, rfl, hnlike⟩ := iht hct hbefore
      obtain ⟨v, hv, rfl, hvlike⟩ := ihv hcv hafter
      refine ⟨.assignment n t v, ⟨?_, ht ▸ hequals, hn, hv⟩, rfl, rfl, rfl, Iff.rfl, ?_⟩
      · rw [hnlike.kind_eq]
        exact htarget
      · simp [height, hnlike.height_eq, hvlike.height_eq]

/-- Tokens of the kinds that a canonical tree begins with are the beginning of one as high. -/
theorem Tree.exists_isPrefix_of_kinds {tree : Tree} {ts : List Token} (hc : tree.Canonical)
    (h : ts.map Token.kind <+: tree.leaves.map Token.kind) :
    ∃ other : Tree, other.Canonical ∧ ts <+: other.leaves ∧ other.height = tree.height := by
  obtain ⟨kinds, hkinds⟩ := h
  obtain ⟨before, after, hleaves, hbefore, _⟩ := List.map_eq_append_iff.1 hkinds.symm
  have hmap : (ts ++ after).map Token.kind = tree.leaves.map Token.kind := by
    rw [hleaves, List.map_append, List.map_append, hbefore]
  obtain ⟨other, hother, hts, hlike⟩ := exists_resembling hc hmap
  exact ⟨other, hother, ⟨after, hts.symm⟩, hlike.height_eq⟩

/-! ## Viability -/

/-- Whether a canonical tree, of whatever height, has leaves that begin with these kinds. -/
def Viable (kinds : List Kind) : Prop :=
  ∃ tree : Tree, tree.Canonical ∧ kinds <+: tree.leaves.map Token.kind

/-- Whether a canonical tree, of whatever height, has leaves of just these kinds. -/
def Complete (kinds : List Kind) : Prop :=
  ∃ tree : Tree, tree.Canonical ∧ tree.leaves.map Token.kind = kinds

/-- What is read is viable. -/
theorem viable_of_readAll {ts : List Token} {p : PartialTree} (h : start.readAll ts = some p) :
    Viable (ts.map Token.kind) := by
  obtain ⟨tree, hc, hpre⟩ := exists_canonical_of_readAll h
  exact ⟨tree, hc, hpre.map Token.kind⟩

/-- Tokens of the kinds that a canonical tree begins with are read to no more than its height. -/
theorem exists_readAll_of_kinds {tree : Tree} {ts : List Token} (hc : tree.Canonical)
    (h : ts.map Token.kind <+: tree.leaves.map Token.kind) :
    ∃ p, start.readAll ts = some p ∧ p.height ≤ tree.height := by
  obtain ⟨other, hother, hpre, hheight⟩ := Tree.exists_isPrefix_of_kinds hc h
  rw [← hheight]
  exact exists_readAll_of_isPrefix hother hpre

/-- Tokens are of viable kinds if and only if they are read. -/
theorem viable_map_iff {ts : List Token} :
    Viable (ts.map Token.kind) ↔ ∃ p, start.readAll ts = some p := by
  constructor
  · rintro ⟨tree, hc, hpre⟩
    obtain ⟨p, hp, _⟩ := exists_readAll_of_kinds hc hpre
    exact ⟨p, hp⟩
  · rintro ⟨p, hp⟩
    exact viable_of_readAll hp

/-- A token that is refused makes the kinds read so far no longer viable. -/
theorem not_viable_of_read_eq_none {ts : List Token} {t : Token} {p : PartialTree}
    (hread : start.readAll ts = some p) (h : p.read t = none) :
    ¬ Viable (ts.map Token.kind ++ [t.kind]) := by
  intro hviable
  have hmap : ts.map Token.kind ++ [t.kind] = (ts ++ [t]).map Token.kind := by simp
  rw [hmap, viable_map_iff] at hviable
  obtain ⟨q, hq⟩ := hviable
  rw [readAll_append_of_eq_some hread, readAll_cons, h] at hq
  cases hq

/-- Nothing goes on with an end-of-file token. -/
theorem read_endOfFile (p : PartialTree) {t : Token} (h : t.kind = .endOfFile) :
    p.read t = none := by
  cases p with
  | expecting nodes => simp [PartialTree.read, h]
  | holding nodes operand => simp [PartialTree.read, h, Kind.binaryPrecedence?]

/-- No canonical tree has an end-of-file token. -/
theorem not_viable_endOfFile {kinds : List Kind} : ¬ Viable (kinds ++ [.endOfFile]) := by
  intro hviable
  obtain ⟨tree, hc, more, hmore⟩ := hviable
  rw [List.append_assoc] at hmore
  obtain ⟨before, after, hleaves, rfl, hafter⟩ := List.map_eq_append_iff.1 hmore.symm
  obtain ⟨t, ts, rfl, ht, _⟩ := List.map_eq_cons_iff.1 hafter
  obtain ⟨p, hp, _⟩ := exists_readAll_of_isPrefix hc ⟨t :: ts, hleaves.symm⟩
  apply not_viable_of_read_eq_none hp (read_endOfFile p ht)
  refine ⟨tree, hc, ts.map Token.kind, ?_⟩
  rw [hleaves]
  simp

/-- What is read to an unfinished partial tree is not complete. -/
theorem not_complete_of_finish?_eq_none {ts : List Token} {p : PartialTree}
    (hread : start.readAll ts = some p) (h : p.finish? = none) :
    ¬ Complete (ts.map Token.kind) := by
  rintro ⟨tree, hc, hleaves⟩
  obtain ⟨other, hother, hts, _⟩ := Tree.exists_resembling hc hleaves.symm
  rw [finish?_eq_some_of_leaves hother (hts ▸ hread)] at h
  cases h

end ExprTree
