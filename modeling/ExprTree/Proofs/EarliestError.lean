import ExprTree.Proofs.Sources

set_option autoImplicit false

/-!
# Refusals are true and come at the first chance

The tokens before the one that is refused are viable, and they no longer are with
that one.  So no reader that goes from left to right could have refused the source
earlier, and none can go on.  The kind that a refusal asks for would have been
viable at that place.  All of this is said of kinds, and of trees of any height.
-/

namespace ExprTree

open PartialTree

/-- What is expected is viable. -/
theorem viable_expected {ts : List Token} {p : PartialTree} {expected : Kind}
    (hread : start.readAll ts = some p)
    (haccepted : ∀ t : Token, t.kind = expected → ∃ q, p.read t = some q) :
    Viable (ts.map Token.kind ++ [expected]) := by
  obtain ⟨q, hq⟩ := haccepted ⟨expected, .point 0, none, .absent⟩ rfl
  have hmore : start.readAll (ts ++ [⟨expected, .point 0, none, .absent⟩]) = some q := by
    rw [readAll_append_of_eq_some hread, readAll_cons, hq]
    rfl
  have hviable := viable_of_readAll hmore
  rwa [List.map_append] at hviable

/-- A token is reported as unexpected where the kinds before it are viable, are so with the expected
kind, which is that of a number or a closing parenthesis, and are not with the kind that is there,
nor by themselves those of a whole tree.  A token is reported as trailing where those before it are
the leaves of a canonical tree and no canonical tree begins with their kinds and its own. -/
theorem read_error_earliest (mode : Mode) (source : String) :
    (∀ expected got span,
      Tree.read mode source = .error (.unexpectedToken expected got span) →
        (expected = .number ∨ expected = .closeParen) ∧
        ∃ before t after, Token.significant source = before ++ t :: after ∧
          t.kind = got ∧ t.span = span ∧
          Viable (before.map Token.kind) ∧
          Viable (before.map Token.kind ++ [expected]) ∧
          ¬ Viable (before.map Token.kind ++ [got]) ∧
          ¬ Complete (before.map Token.kind)) ∧
    (∀ got span,
      Tree.read mode source = .error (.trailingToken got span) →
        ∃ (tree : Tree) (t : Token) (after : List Token),
          Token.significant source = tree.leaves ++ t :: after ∧
          t.kind = got ∧ t.span = span ∧ tree.Canonical ∧
          ¬ Viable (tree.leaves.map Token.kind ++ [got])) := by
  rcases Tree.read_cases mode source with ⟨text, span, hread⟩ | ⟨s, hs, hread⟩
  · rw [hread]
    exact ⟨nofun, nofun⟩
  · rw [hread]
    constructor
    · intro expected got span h
      rcases Reader.refuses_of_read_eq_error h with hrefuses | ⟨found, _, _, htrailing⟩
      · obtain ⟨taken, p, hahead, hfinish, hp, hexplains⟩ := hrefuses
        obtain ⟨after, hsignificant⟩ := Token.exists_significant hs hahead hfinish
        cases hexplains with
        | unexpected hexpected hunfinished hrefused haccepted =>
            exact ⟨hexpected, taken, _, after, hsignificant, rfl, rfl, viable_of_readAll hp,
              viable_expected hp haccepted, not_viable_of_read_eq_none hp hrefused,
              not_complete_of_finish?_eq_none hp hunfinished⟩
      · cases htrailing
    · intro got span h
      rcases Reader.refuses_of_read_eq_error h with hrefuses | ⟨found, hr, _, htrailing⟩
      · obtain ⟨_, _, _, _, _, hexplains⟩ := hrefuses
        cases hexplains
      · cases htrailing
        obtain ⟨after, hsignificant⟩ := Token.exists_significant hs hr.ahead_eq hr.finish_eq
        exact ⟨found.tree, _, after, hsignificant, rfl, rfl, hr.canonical, not_viable_of_reads hr⟩

/-- In `(1 2` a parenthesis is missing, and in `1 2` an expression ends before the second number. -/
theorem read_error_earliest_of_two_numbers :
    (Tree.read .strict "(1 2" = .error (.unexpectedToken .closeParen .number ⟨3, 4⟩) ∧
      ∃ before t after, Token.significant "(1 2" = before ++ t :: after ∧ t.span = ⟨3, 4⟩ ∧
        Viable (before.map Token.kind ++ [.closeParen]) ∧
        ¬ Viable (before.map Token.kind ++ [.number])) ∧
    Tree.read .strict "1 2" = .error (.trailingToken .number ⟨2, 3⟩) ∧
      ∃ (tree : Tree) (t : Token) (after : List Token),
        Token.significant "1 2" = tree.leaves ++ t :: after ∧ t.span = ⟨2, 3⟩ ∧
        tree.Canonical ∧ ¬ Viable (tree.leaves.map Token.kind ++ [.number]) := by
  have hgroup : Tree.read .strict "(1 2" =
      .error (.unexpectedToken .closeParen .number ⟨3, 4⟩) := rfl
  have hwhole : Tree.read .strict "1 2" = .error (.trailingToken .number ⟨2, 3⟩) := rfl
  obtain ⟨_, before, t, after, hbefore, _, hspan, _, hexpected, hgot, _⟩ :=
    (read_error_earliest .strict "(1 2").1 _ _ _ hgroup
  obtain ⟨tree, u, rest, hleaves, _, htrailing, hc, hmore⟩ :=
    (read_error_earliest .strict "1 2").2 _ _ hwhole
  exact ⟨⟨hgroup, before, t, after, hbefore, hspan, hexpected, hgot⟩,
    hwhole, tree, u, rest, hleaves, htrailing, hc, hmore⟩

end ExprTree
