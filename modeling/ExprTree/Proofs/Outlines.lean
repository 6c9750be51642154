import ExprTree.Proofs.Subtrees
import ExprTree.Proofs.Unparsing

set_option autoImplicit false

/-!
# Outlines tell trees apart

What an outline shows of an element has no white space in it, so each line gives back
the depth and the label of its element.  A label alone does not
say of what it is: a name can be spelled like the kind of a node.  But a tree starts
with a node, and the kind of a node says which of its children are nodes and which are
tokens; and a token is known, but for its place and the digits of a number, from what
it shows.  So two outlines are the same exactly if the trees are, as far as
`Tree.erase` keeps them (`outline_eq_iff`).
-/

namespace ExprTree

/-! ## Lines -/

/-- Where two texts go on with a character that neither starts with, they come apart alike. -/
theorem append_cons_inj {α : Type} {a : α} {xs ys xs' ys' : List α} (hx : a ∉ xs) (hy : a ∉ ys)
    (h : xs ++ a :: xs' = ys ++ a :: ys') : xs = ys ∧ xs' = ys' := by
  induction xs generalizing ys with
  | nil =>
      cases ys with
      | nil => exact ⟨rfl, (List.cons.inj h).2⟩
      | cons y ys =>
          rw [List.nil_append, List.cons_append, List.cons.injEq] at h
          exact absurd (h.1 ▸ List.mem_cons_self) hy
  | cons x xs ih =>
      cases ys with
      | nil =>
          rw [List.nil_append, List.cons_append, List.cons.injEq] at h
          exact absurd (h.1 ▸ List.mem_cons_self) hx
      | cons y ys =>
          rw [List.cons_append, List.cons_append, List.cons.injEq] at h
          obtain ⟨rfl, hrest⟩ := h
          obtain ⟨rfl, hmore⟩ :=
            ih (List.not_mem_of_not_mem_cons hx) (List.not_mem_of_not_mem_cons hy) hrest
          exact ⟨rfl, hmore⟩

/-- Behind repetitions of an element, texts without it come apart alike. -/
theorem replicate_append_inj {α : Type} [DecidableEq α] {a : α} {m n : Nat} {xs ys : List α}
    (hx : a ∉ xs) (hy : a ∉ ys) (h : List.replicate m a ++ xs = List.replicate n a ++ ys) :
    m = n ∧ xs = ys := by
  have hcount := congrArg (List.count a) h
  rw [List.count_append, List.count_append, List.count_replicate_self, List.count_replicate_self,
    List.count_eq_zero_of_not_mem hx, List.count_eq_zero_of_not_mem hy] at hcount
  cases hcount
  exact ⟨rfl, List.append_cancel_left h⟩

namespace Outline

/-- The characters of a line that shows a label at a depth. -/
def line (depth : Nat) (label : String) : List Char :=
  List.replicate (indent * depth) ' ' ++ label.toList ++ ['\n']

/-- A line gives back the depth and the label, and says where the next line starts. -/
theorem line_append_inj {m n : Nat} {label other : String} {rest rest' : List Char}
    (hlabel : Text.Unspaced label) (hother : Text.Unspaced other)
    (h : line m label ++ rest = line n other ++ rest') :
    m = n ∧ label = other ∧ rest = rest' := by
  have hbreak : ∀ (k : Nat) {l : String}, Text.Unspaced l →
      '\n' ∉ List.replicate (indent * k) ' ' ++ l.toList := by
    intro k l hl hmem
    rcases List.mem_append.1 hmem with hmem | hmem
    · have hspace := List.eq_of_mem_replicate hmem
      cases hspace
    · exact hl.not_mem (by decide) hmem
  rw [line, line, List.append_assoc, List.append_assoc _ ['\n'], List.singleton_append,
    List.singleton_append] at h
  obtain ⟨hline, hrest⟩ := append_cons_inj (hbreak m hlabel) (hbreak n hother) h
  obtain ⟨hdepth, hchars⟩ := replicate_append_inj hlabel.not_space hother.not_space hline
  refine ⟨?_, String.toList_inj.1 hchars, hrest⟩
  exact Nat.eq_of_mul_eq_mul_left (by decide) hdepth

/-- Lines give back the depths and the labels. -/
theorem lines_inj {xs ys : List (Nat × String)} (hx : ∀ x ∈ xs, Text.Unspaced x.2)
    (hy : ∀ y ∈ ys, Text.Unspaced y.2)
    (h : (xs.flatMap fun x => line x.1 x.2) = ys.flatMap fun y => line y.1 y.2) : xs = ys := by
  have hne : ∀ (depth : Nat) (label : String) (rest : List Char),
      line depth label ++ rest ≠ [] := by
    intro depth label rest
    simp [line]
  induction xs generalizing ys with
  | nil =>
      cases ys with
      | nil => rfl
      | cons y ys => exact absurd h.symm (hne _ _ _)
  | cons x xs ih =>
      cases ys with
      | nil => exact absurd h (hne _ _ _)
      | cons y ys =>
          obtain ⟨hxhead, hxs⟩ := List.forall_mem_cons.1 hx
          obtain ⟨hyhead, hys⟩ := List.forall_mem_cons.1 hy
          rw [List.flatMap_cons, List.flatMap_cons] at h
          obtain ⟨hdepth, hlabel, hrest⟩ := line_append_inj hxhead hyhead h
          rw [ih hxs hys hrest, Prod.ext hdepth hlabel]

end Outline

/-! ## Labels -/

/-- What an outline shows of the tree, element by element, with the depth. -/
def Tree.marks (tree : Tree) (depth : Nat) : List (Nat × String) :=
  (tree.walk depth).map fun (depth, e) => (depth, e.label)

/-- An outline is made of lines, one for each mark. -/
theorem Tree.toList_outline (tree : Tree) :
    tree.outline.toList = (tree.marks 0).flatMap fun x => Outline.line x.1 x.2 := by
  rw [outline, String.toList_join, marks, List.flatMap_map, List.flatMap_map]
  congr 1
  funext x
  simp [Element.outlineLine, Outline.line]

/-- What an outline shows of the tree, element by element. -/
def Tree.labels : Tree → List String
  | binary left operator right =>
    Kind.binaryExpression.name :: (left.labels ++ (Element.token operator).label :: right.labels)
  | unary operator operand =>
    Kind.unaryExpression.name :: (Element.token operator).label :: operand.labels
  | parenthesized opening expression closing =>
    Kind.parenthesizedExpression.name :: (Element.token opening).label ::
      (expression.labels ++ [(Element.token closing).label])
  | literal token _ => [Kind.literalExpression.name, (Element.token token).label]
  | name token => [Kind.nameExpression.name, (Element.token token).label]
  | assignment target equals value =>
    Kind.assignmentExpression.name ::
      (target.labels ++ (Element.token equals).label :: value.labels)

namespace Element

/-- What an outline shows of the element and what is below it. -/
def labels : Element → List String
  | node part => part.labels
  | token t => [(Element.token t).label]

/-- What is kept of the element. -/
def erase : Element → Element
  | node part => .node part.erase
  | token t => .token t.erase

/-- Whether the element is a node. -/
def isNode : Element → Bool
  | node _ => true
  | token _ => false

end Element

theorem Tree.map_marks (tree : Tree) (depth : Nat) :
    (tree.marks depth).map Prod.snd = tree.labels := by
  rw [marks, List.map_map]
  induction tree generalizing depth <;> simp_all [walk, labels, Element.label, Element.display?,
    Element.kind, kind]

/-- What holds of the names of all kinds and of the labels of the leaves holds of all labels. -/
theorem Tree.forall_labels {P : String → Prop} (hkind : ∀ kind : Kind, P kind.name) {tree : Tree}
    (hleaves : ∀ t ∈ tree.leaves, P (Element.token t).label) : ∀ label ∈ tree.labels, P label := by
  induction tree <;> simp_all [labels, leaves, or_imp, forall_and]

/-! ## Labels of tokens that stand for what they show -/

open Text (isLetter isNumeric isWhiteSpace)

/-- What holds of letters and numeric characters, of the characters of marks and of the stray
character, if it is one, holds of all characters of a lexeme that is no spaces. -/
theorem Lexeme.Solid.forall_chars {P : Char → Prop} {l : Lexeme} (h : l.Solid)
    (hclass : ∀ c, isLetter c = true ∨ isNumeric c = true → P c)
    (hmark : ∀ (kind : Kind) (s : String), kind.spelling? = some s → ∀ c ∈ s.toList, P c)
    (hstray : ∀ c, l.shape = .stray c → P c) : ∀ c ∈ l.chars, P c := by
  obtain ⟨hwhole, hblanks⟩ := h
  have hdescribes := Shape.describes_of_read? hwhole
  cases hs : l.shape with
  | blanks => exact absurd hs hblanks
  | digits =>
      rw [hs] at hdescribes
      intro c hc
      exact hclass c (.inr (hdescribes c hc))
  | suffixed =>
      rw [hs] at hdescribes
      obtain ⟨ds, ls, hchars, _, _, hds, hls⟩ := hdescribes
      rw [hchars, List.forall_mem_append]
      exact ⟨fun c hc => hclass c (.inr (hds c hc)), fun c hc => hclass c (.inl (hls c hc))⟩
  | word =>
      rw [hs] at hdescribes
      obtain ⟨l, rest, hchars, hl, hrest⟩ := hdescribes
      rw [hchars, List.forall_mem_cons]
      exact ⟨hclass l (.inl hl), fun c hc => hclass c (hrest c hc)⟩
  | mark kind =>
      rw [hs] at hdescribes
      have hall := hmark kind _ hdescribes
      rwa [String.toList_ofList] at hall
  | stray c =>
      rw [hs] at hdescribes
      rw [show l.chars = [c] from hdescribes, List.forall_mem_singleton]
      exact hstray c hs

/-- Lexemes have no white space in them, but for spaces and stray characters. -/
theorem Lexeme.unspaced_text {l : Lexeme} (h : l.Solid)
    (hstray : ∀ c, l.shape = .stray c → isWhiteSpace c = false) : Text.Unspaced l.text := by
  apply Text.EachChar.ofList
  refine h.forall_chars ?_ ?_ hstray
  · exact fun c => Text.isWhiteSpace_eq_false_of_class
  · exact fun kind s hs => (Text.graphic_spelling hs).unspaced

namespace Token

/-- The label of a token that stands for what it shows. -/
theorem ReadsBack.label_eq {t : Token} (h : t.ReadsBack) :
    (Element.token t).label = t.shown.text := by
  rw [Element.label, Element.display?, h.display?_eq]
  rfl

theorem ReadsBack.unspaced_label {t : Token} (h : t.ReadsBack) (hvalid : t.kind ≠ .invalid) :
    Text.Unspaced (Element.token t).label := by
  rw [h.label_eq]
  apply Lexeme.unspaced_text h.solid
  intro c hc
  refine absurd ?_ hvalid
  rw [← h.kind_eq 0, Lexeme.toToken, hc]

/-- What is shown of a token says all but its place and the digits of a number. -/
theorem ReadsBack.erase_eq_of_label_eq {t u : Token} (ht : t.ReadsBack) (hu : u.ReadsBack)
    (h : (Element.token t).label = (Element.token u).label) : t.erase = u.erase := by
  rw [ht.label_eq, hu.label_eq] at h
  have hshown : t.shown = u.shown := by
    rw [shown, shown, ht.display?_eq, hu.display?_eq, h]
  rw [← ht.erase_eq 0, ← hu.erase_eq 0, hshown]

end Token

/-! ## Trees -/

namespace Tree

/-- The labels of a tree are the kind of its root and the labels of its children. -/
theorem labels_eq_children (tree : Tree) :
    tree.labels = tree.kind.name :: tree.children.flatMap Element.labels := by
  cases tree <;> simp [labels, children, kind, Element.labels]

/-- Trees whose labels start alike have roots of one kind. -/
theorem kind_eq_of_labels_append_eq {tree other : Tree} {rest rest' : List String}
    (h : tree.labels ++ rest = other.labels ++ rest') : tree.kind = other.kind := by
  rw [labels_eq_children, labels_eq_children, List.cons_append, List.cons_append,
    List.cons.injEq] at h
  exact Kind.name_injective h.1

/-- The kind of the root says which of the children are nodes. -/
theorem isNode_children_eq {tree other : Tree} (h : tree.kind = other.kind) :
    tree.children.map Element.isNode = other.children.map Element.isNode := by
  cases tree <;> cases other <;> first | rfl | cases h

/-- What is kept of the children is what is kept of the tree: the value of a literal is that of its
token. -/
theorem erase_eq_of_children_eq {tree other : Tree} (hc : tree.Canonical) (hc' : other.Canonical)
    (hkind : tree.kind = other.kind)
    (h : tree.children.map Element.erase = other.children.map Element.erase) :
    tree.erase = other.erase := by
  cases tree with
  | literal token value =>
      cases other with
      | literal token' value' =>
          simp only [children, List.map_cons, List.map_nil, Element.erase, List.cons.injEq,
            Element.token.injEq, and_true] at h
          have hvalue : value = value' := by
            rw [hc.2, hc'.2]
            exact (Token.mk.inj h).2.2.2
          rw [erase, erase, mapTokens, mapTokens, h, hvalue]
      | _ => cases hkind
  | _ =>
      cases other <;> simp_all [kind, children, Element.erase, erase, mapTokens]

end Tree

namespace Element

/-- Elements that are told apart by their labels, whatever follows, are so one after another. -/
theorem erase_eq_of_flatMap_labels {es es' : List Element} {rest rest' : List String}
    (hforms : es.map isNode = es'.map isNode)
    (happart : ∀ e ∈ es, ∀ e' ∈ es', e.isNode = e'.isNode → ∀ more more',
      e.labels ++ more = e'.labels ++ more' → e.erase = e'.erase ∧ more = more')
    (h : es.flatMap labels ++ rest = es'.flatMap labels ++ rest') :
    es.map erase = es'.map erase ∧ rest = rest' := by
  induction es generalizing es' with
  | nil =>
      cases List.map_eq_nil_iff.1 hforms.symm
      exact ⟨rfl, h⟩
  | cons e es ih =>
      cases es' with
      | nil => cases hforms
      | cons e' es' =>
          rw [List.map_cons, List.map_cons, List.cons.injEq] at hforms
          rw [List.flatMap_cons, List.flatMap_cons, List.append_assoc, List.append_assoc] at h
          obtain ⟨hfirst, hmore⟩ :=
            happart e List.mem_cons_self e' List.mem_cons_self hforms.1 _ _ h
          obtain ⟨hothers, hrest⟩ := ih hforms.2
            (fun d hd d' hd' =>
              happart d (List.mem_cons_of_mem e hd) d' (List.mem_cons_of_mem e' hd'))
            hmore
          rw [List.map_cons, List.map_cons, hfirst, hothers]
          exact ⟨rfl, hrest⟩

end Element

namespace Tree

/-- Trees over tokens that stand for what they show are told apart by their labels, whatever labels
follow: the kind of the root says which of the labels after it are those of a token and which start
a tree. -/
theorem erase_eq_of_labels_append_eq {tree other : Tree} {rest rest' : List String}
    (hc : tree.Canonical) (hc' : other.Canonical) (hback : ∀ t ∈ tree.leaves, t.ReadsBack)
    (hback' : ∀ t ∈ other.leaves, t.ReadsBack) (h : tree.labels ++ rest = other.labels ++ rest') :
    tree.erase = other.erase ∧ rest = rest' := by
  induction tree using children_induction generalizing other rest rest' with
  | node tree ih =>
      have hkind := kind_eq_of_labels_append_eq h
      rw [labels_eq_children, labels_eq_children, List.cons_append, List.cons_append,
        List.cons.injEq] at h
      have happart : ∀ e ∈ tree.children, ∀ e' ∈ other.children, e.isNode = e'.isNode →
          ∀ more more', e.labels ++ more = e'.labels ++ more' →
            e.erase = e'.erase ∧ more = more' := by
        intro e he e' he' hform more more' hsame
        have hleaf : ∀ t ∈ e.leaves, t.ReadsBack :=
          fun t ht => hback t ((leaves_isInfix_of_child he).subset ht)
        have hleaf' : ∀ t ∈ e'.leaves, t.ReadsBack :=
          fun t ht => hback' t ((leaves_isInfix_of_child he').subset ht)
        -- The roots are of one kind, so that a node stands beside a node and a token beside a token.
        cases e with
        | node part =>
            cases e' with
            | node part' =>
                obtain ⟨hpart, hmore⟩ := ih part he (canonical_of_child he hc)
                  (canonical_of_child he' hc') hleaf hleaf' hsame
                exact ⟨congrArg Element.node hpart, hmore⟩
            | token t' => cases hform
        | token t =>
            cases e' with
            | node part' => cases hform
            | token t' =>
                obtain ⟨hlabel, hmore⟩ := List.cons.inj hsame
                have herase := (hleaf t (List.mem_singleton_self t)).erase_eq_of_label_eq
                  (hleaf' t' (List.mem_singleton_self t')) hlabel
                exact ⟨congrArg Element.token herase, hmore⟩
      obtain ⟨hchildren, hrest⟩ :=
        Element.erase_eq_of_flatMap_labels (isNode_children_eq hkind) happart h.2
      exact ⟨erase_eq_of_children_eq hc hc' hkind hchildren, hrest⟩

/-- What is shown of the elements of a tree does not change when its tokens are changed so that they
show the same. -/
theorem marks_mapTokens {f : Token → Token} {tree : Tree}
    (h : ∀ t ∈ tree.leaves, (f t).display? = t.display? ∧ (f t).kind = t.kind) (depth : Nat) :
    (tree.mapTokens f).marks depth = tree.marks depth := by
  unfold marks
  induction tree generalizing depth <;> simp_all [mapTokens, walk, leaves, Element.label,
    Element.display?, Element.kind, kind, or_imp, forall_and]

/-- Of a tree whose leaves show what is kept of them, the outline is that of what is kept. -/
theorem outline_erase {tree : Tree} (h : ∀ t ∈ tree.leaves, t.erase.display? = t.display?) :
    tree.erase.outline = tree.outline := by
  apply String.toList_inj.1
  rw [toList_outline, toList_outline, erase, marks_mapTokens]
  intro t ht
  exact ⟨h t ht, rfl⟩

/-- The names of kinds have no white space in them, so no mark has if none of the leaves shows
any. -/
theorem unspaced_marks {tree : Tree}
    (h : ∀ t ∈ tree.leaves, Text.Unspaced (Element.token t).label) :
    ∀ x ∈ tree.marks 0, Text.Unspaced x.2 := by
  intro x hx
  apply forall_labels (fun kind => (Text.graphic_name kind).unspaced) h
  rw [← tree.map_marks 0]
  exact List.mem_map_of_mem hx

/-- The outline of a tree whose leaves show what they stand for says what the labels are. -/
theorem labels_eq_of_outline_eq {tree other : Tree}
    (hlabels : ∀ t ∈ tree.leaves, Text.Unspaced (Element.token t).label)
    (hlabels' : ∀ t ∈ other.leaves, Text.Unspaced (Element.token t).label)
    (h : tree.outline = other.outline) : tree.labels = other.labels := by
  have hlines := congrArg String.toList h
  rw [toList_outline, toList_outline] at hlines
  rw [← tree.map_marks 0, ← other.map_marks 0,
    Outline.lines_inj (unspaced_marks hlabels) (unspaced_marks hlabels') hlines]

end Tree

/-- Of two sources that are read, each in any mode, the trees have the same outline exactly if they
are the same but for the places of tokens and the digits in which numbers were written. -/
theorem outline_eq_iff {mode mode' : Mode} {source source' : String} {tree other : Tree}
    (h : Tree.read mode source = .ok tree) (h' : Tree.read mode' source' = .ok other) :
    tree.outline = other.outline ↔ tree.erase = other.erase := by
  obtain ⟨hc, _, hleaves⟩ := Tree.solid_leaves_of_read h
  obtain ⟨hc', _, hleaves'⟩ := Tree.solid_leaves_of_read h'
  constructor
  · intro hsame
    have hback : ∀ t ∈ tree.leaves, t.ReadsBack := by
      intro t ht
      obtain ⟨_, l, offset, hl, rfl⟩ := hleaves t ht
      exact hl.readsBack offset
    have hback' : ∀ t ∈ other.leaves, t.ReadsBack := by
      intro t ht
      obtain ⟨_, l, offset, hl, rfl⟩ := hleaves' t ht
      exact hl.readsBack offset
    have hlabels := Tree.labels_eq_of_outline_eq
      (fun t ht => (hback t ht).unspaced_label (hleaves t ht).1)
      (fun t ht => (hback' t ht).unspaced_label (hleaves' t ht).1) hsame
    have hnothing : tree.labels ++ [] = other.labels ++ [] := by
      rw [hlabels]
    exact (Tree.erase_eq_of_labels_append_eq hc hc' hback hback' hnothing).1
  · intro hsame
    rw [← Tree.outline_erase, hsame, Tree.outline_erase]
    · intro t ht
      obtain ⟨_, l, offset, _, rfl⟩ := hleaves' t ht
      exact l.display?_erase_toToken offset
    · intro t ht
      obtain ⟨_, l, offset, _, rfl⟩ := hleaves t ht
      exact l.display?_erase_toToken offset

/-- A name spelled like the kind of a node, and a number with leading zeros. -/
theorem outline_eq_iff_of_leading_zeros :
    ∃ tree other : Tree, Tree.read .strict "UnaryExpression - 007" = .ok tree ∧
      Tree.read .lenient "UnaryExpression-7 7" = .ok other ∧ tree ≠ other ∧
      tree.outline = other.outline := by
  let tree : Tree :=
    .binary (.name ⟨.identifier, ⟨0, 15⟩, some "UnaryExpression", .text "UnaryExpression"⟩)
      ⟨.minus, ⟨16, 17⟩, none, .absent⟩
      (.literal ⟨.number, ⟨18, 21⟩, some "007", .int 7⟩ (.int 7))
  let other : Tree :=
    .binary (.name ⟨.identifier, ⟨0, 15⟩, some "UnaryExpression", .text "UnaryExpression"⟩)
      ⟨.minus, ⟨15, 16⟩, none, .absent⟩
      (.literal ⟨.number, ⟨16, 17⟩, some "7", .int 7⟩ (.int 7))
  have h : Tree.read .strict "UnaryExpression - 007" = .ok tree := by rfl
  have h' : Tree.read .lenient "UnaryExpression-7 7" = .ok other := by rfl
  exact ⟨tree, other, h, h', by decide, (outline_eq_iff h h').2 (by decide)⟩

end ExprTree
