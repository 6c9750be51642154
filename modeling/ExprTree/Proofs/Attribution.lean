import ExprTree.Proofs.Documents
import ExprTree.Proofs.LineByLine
import ExprTree.Proofs.Outlines
import ExprTree.Proofs.Spacing
import ExprTree.Proofs.TextLines

set_option autoImplicit false

/-!
# What is written, and for which line

Neither a complaint nor a document has a line break in it, and of the lines of an
outline only the first does not start with a space.  So what a run writes and what it
complains of come apart into lines again, and each of these can be attributed to the
line of the input that it is about (`run_attributed`).
-/

namespace ExprTree

/-! ## Texts on one line -/

namespace Text

/-- Whether a text has no line break in it. -/
def OneLine (s : String) : Prop := EachChar (fun c => c ≠ '\n') s

instance (s : String) : Decidable (OneLine s) := inferInstanceAs (Decidable (EachChar _ s))

theorem Unspaced.oneLine {s : String} (h : Unspaced s) : OneLine s := by
  refine h.mono ?_
  rintro _ hwhite rfl
  revert hwhite
  decide

theorem Graphic.oneLine {s : String} (h : Graphic s) : OneLine s := h.unspaced.oneLine

/-- No hexadecimal digit is a line break. -/
theorem lineBreak_not_mem_toDigits (n : Nat) : '\n' ∉ Nat.toDigits 16 n := by
  have hdigit : ∀ d < 16, '\n' ≠ Nat.digitChar d := by decide
  induction n using Nat.strongRecOn with
  | _ n ih =>
      rw [Nat.toDigits_eq_if (by decide)]
      split
      · rename_i hn
        rw [List.mem_singleton]
        exact hdigit n hn
      · rw [List.mem_append, List.mem_singleton, not_or]
        exact ⟨ih (n / 16) (by omega), hdigit _ (Nat.mod_lt _ (by decide))⟩

/-- A quotation does not show a line break raw. -/
theorem lineBreak_not_mem_quoteChar (c : Char) : '\n' ∉ quoteChar c := by
  unfold quoteChar
  split
  case h_7 hline _ _ =>
    split
    · simp [lineBreak_not_mem_toDigits]
    · rw [List.mem_singleton]
      exact Ne.symm hline
  all_goals decide

theorem oneLine_quote (s : String) : OneLine (quote s) := by
  refine EachChar.ofList ?_
  rintro _ hmem rfl
  rw [List.mem_cons, List.mem_append, List.mem_singleton, List.mem_flatMap] at hmem
  rcases hmem with h | ⟨c, _, h⟩ | h
  · cases h
  · exact lineBreak_not_mem_quoteChar c h
  · cases h

/-- Whether the text is that of the lines, each with a line break behind it and none in it. -/
def MadeOf (lines : List String) (text : String) : Prop :=
  text = String.join (lines.map fun l => l ++ "\n") ∧ ∀ l ∈ lines, OneLine l

end Text

namespace SyntaxError

/-- The complaint about a refused line, without the line break. -/
def report (e : SyntaxError) : String := "error: " ++ e.message ++ " at " ++ e.span.text

theorem oneLine_message (e : SyntaxError) : Text.OneLine e.message := by
  unfold message
  cases e with
  | invalidToken text span =>
      have hwords : Text.OneLine "Invalid token " := by decide
      exact hwords.append (Text.oneLine_quote text)
  | unexpectedToken expected got span =>
      have hwords : Text.OneLine "Unexpected token: expected " := by decide
      have hgot : Text.OneLine ", got " := by decide
      exact ((hwords.append (Text.graphic_name expected).oneLine).append hgot).append
        (Text.graphic_name got).oneLine
  | trailingToken got span =>
      have hwords : Text.OneLine "Unexpected trailing token " := by decide
      exact hwords.append (Text.graphic_name got).oneLine
  | nestingTooDeep limit span =>
      have hwords : Text.OneLine "Expression nests deeper than " := by decide
      have hlevels : Text.OneLine " levels" := by decide
      exact (hwords.append (Text.graphic_repr limit).oneLine).append hlevels

/-- Whatever is refused, the complaint is one line. -/
theorem oneLine_report (e : SyntaxError) : Text.OneLine e.report := by
  have herror : Text.OneLine "error: " := by decide
  have hat : Text.OneLine " at " := by decide
  exact ((herror.append e.oneLine_message).append hat).append (Text.graphic_span e.span).oneLine

end SyntaxError

/-! ## Lines of an outline -/

/-- Whether a line starts with a space. -/
def Outline.IsIndented (line : String) : Prop := line.toList.head? = some ' '

instance (line : String) : Decidable (Outline.IsIndented line) :=
  inferInstanceAs (Decidable (_ = _))

/-- The line that shows a label at a depth, without the line break. -/
def Outline.bareLine (depth : Nat) (label : String) : String :=
  String.ofList (List.replicate (indent * depth) ' ') ++ label

theorem Outline.isIndented_bareLine {depth : Nat} (h : 0 < depth) (label : String) :
    IsIndented (bareLine depth label) := by
  obtain ⟨n, hn⟩ : ∃ n, indent * depth = n + 1 :=
    Nat.exists_eq_add_one_of_ne_zero (Nat.mul_ne_zero (by decide) (by omega))
  rw [IsIndented, bareLine, hn, String.toList_append, String.toList_ofList, List.replicate_succ,
    List.cons_append, List.head?_cons]

theorem Outline.not_isIndented_of_unspaced {label : String} (h : Text.Unspaced label) :
    ¬ IsIndented label :=
  fun hspace => h.not_space (List.mem_of_mem_head? hspace)

theorem Outline.oneLine_bareLine (depth : Nat) {label : String} (h : Text.Unspaced label) :
    Text.OneLine (bareLine depth label) :=
  (Text.EachChar.replicate (by decide) _).append h.oneLine

namespace Tree

/-- The lines of the outline, without their line breaks. -/
def outlineLines (tree : Tree) : List String :=
  (tree.marks 0).map fun x => Outline.bareLine x.1 x.2

theorem outline_eq_join (tree : Tree) :
    tree.outline = String.join (tree.outlineLines.map fun l => l ++ "\n") := by
  rw [outline, outlineLines, marks, List.map_map, List.map_map]
  rfl

/-- The elements of a tree are no less deep than its root. -/
theorem le_depth_of_mem_walk (tree : Tree) : ∀ depth, ∀ x ∈ tree.walk depth, depth ≤ x.1 := by
  induction tree using children_induction with
  | node tree ih =>
      intro depth x hx
      rw [walk_eq_children, List.mem_cons, List.mem_flatMap] at hx
      rcases hx with rfl | ⟨e, he, hx⟩
      · exact Nat.le_refl _
      · cases e with
        | node part => exact Nat.le_of_succ_le (ih part he (depth + 1) x hx)
        | token t =>
            cases List.mem_singleton.1 hx
            exact Nat.le_succ depth

/-- What is below the root of a tree is deeper than the root. -/
theorem lt_depth_of_mem_walk_children {tree : Tree} {depth : Nat} :
    ∀ e ∈ tree.children, ∀ x ∈ e.walk (depth + 1), depth < x.1 := by
  intro e _ x hx
  cases e with
  | node part => exact part.le_depth_of_mem_walk (depth + 1) x hx
  | token t =>
      cases List.mem_singleton.1 hx
      exact Nat.lt_succ_self depth

/-- The first line of an outline is the kind of the root, and all others start with a space. -/
theorem exists_outlineLines_eq_cons (tree : Tree) :
    ∃ below, tree.outlineLines = tree.kind.name :: below ∧
      ∀ line ∈ below, Outline.IsIndented line := by
  rw [outlineLines, marks, walk_eq_children, List.map_cons, List.map_cons, List.map_map]
  refine ⟨_, congrArg (fun l => l :: _) (String.empty_append (s := tree.kind.name)), ?_⟩
  intro line hline
  obtain ⟨x, hx, rfl⟩ := List.mem_map.1 hline
  obtain ⟨e, he, hmem⟩ := List.mem_flatMap.1 hx
  exact Outline.isIndented_bareLine (lt_depth_of_mem_walk_children e he x hmem) _

/-- Outlines one after the other are made of their lines. -/
theorem join_outlines (trees : List Tree) :
    String.join (trees.map outline) =
      String.join ((trees.flatMap outlineLines).map fun l => l ++ "\n") := by
  induction trees with
  | nil => rfl
  | cons tree trees ih =>
      rw [List.map_cons, String.join_cons, ih, List.flatMap_cons, List.map_append,
        String.join_append, ← outline_eq_join]

/-- The lines of outlines that do not start with a space are the first ones. -/
theorem filter_outlineLines (trees : List Tree) :
    ((trees.flatMap outlineLines).filter fun line => ¬ Outline.IsIndented line) =
      trees.map fun tree => tree.kind.name := by
  induction trees with
  | nil => rfl
  | cons tree trees ih =>
      obtain ⟨below, hlines, hbelow⟩ := tree.exists_outlineLines_eq_cons
      have hfirst :=
        Outline.not_isIndented_of_unspaced (Text.graphic_name tree.kind).unspaced
      have hnone : (below.filter fun line => ¬ Outline.IsIndented line) = [] := by
        simpa using hbelow
      rw [List.flatMap_cons, List.filter_append, ih, hlines, List.filter_cons_of_pos (by simpa),
        hnone, List.map_cons]
      rfl

/-- Tokens of lexemes show no white space, and an outline shows nothing else but the names of
kinds. -/
theorem unspaced_marks_of_solid {tree : Tree}
    (h : ∀ t ∈ tree.leaves, t.kind ≠ .invalid ∧
      ∃ (l : Lexeme) (offset : Nat), l.Solid ∧ l.toToken offset = t) :
    ∀ x ∈ tree.marks 0, Text.Unspaced x.2 := by
  apply unspaced_marks
  intro t ht
  obtain ⟨hvalid, l, offset, hl, rfl⟩ := h t ht
  exact (hl.readsBack offset).unspaced_label hvalid

/-- An outline that shows nothing with white space in it is made of its lines. -/
theorem madeOf_outlineLines {tree : Tree} (h : ∀ x ∈ tree.marks 0, Text.Unspaced x.2) :
    Text.MadeOf tree.outlineLines tree.outline := by
  refine ⟨tree.outline_eq_join, ?_⟩
  rw [outlineLines, List.forall_mem_map]
  exact fun x hx => Outline.oneLine_bareLine x.1 (h x hx)

/-- The lines of the outline of a tree that has been read have no line breaks in them. -/
theorem oneLine_outlineLines {mode : Mode} {source : String} {tree : Tree}
    (h : read mode source = .ok tree) : ∀ line ∈ tree.outlineLines, Text.OneLine line := by
  obtain ⟨_, _, hleaves⟩ := solid_leaves_of_read h
  exact (madeOf_outlineLines (unspaced_marks_of_solid hleaves)).2

theorem oneLine_document (tree : Tree) : Text.OneLine tree.document := by
  refine (Json.uncontrolled_compact tree.toJson).mono ?_
  rintro _ hle rfl
  exact absurd hle (by decide)

end Tree

/-! ## Lines of an input -/

/-- Lexemes without a significant token have no characters but spaces. -/
theorem Lexeme.eq_space_of_filter_eq_nil {offset : Nat} {ls : List Lexeme} (h : ∀ l ∈ ls, l.Whole)
    (hnone : (tokens offset ls).filter Token.isSignificant = []) : ∀ c ∈ allChars ls, c = ' ' := by
  induction ls generalizing offset with
  | nil => exact List.forall_mem_nil _
  | cons l ls ih =>
      obtain ⟨hl, hls⟩ := List.forall_mem_cons.1 h
      obtain ⟨hfirst, hmore⟩ := List.forall_mem_cons.1 (List.filter_eq_nil_iff.1 hnone)
      have hblanks : l.shape = .blanks := Decidable.byContradiction fun hshape =>
        hfirst (Solid.isSignificant ⟨hl, hshape⟩ offset)
      have hspaces := Shape.describes_of_read? hl
      rw [hblanks] at hspaces
      rw [allChars_cons, List.forall_mem_append]
      exact ⟨hspaces, ih hls (List.filter_eq_nil_iff.2 hmore)⟩

/-- A line is blank exactly if it has no token but blanks before its end. -/
theorem Text.isBlankLine_iff_significant (line : String) :
    isBlankLine line = true ↔ Token.significant line = [.endOfFile line.utf8ByteSize] := by
  have hspaces : isBlankLine line = true ↔ ∀ c ∈ line.toList, c = ' ' := by
    simp [isBlankLine]
  rw [hspaces, Token.significant_eq, List.append_left_eq_self]
  constructor
  · intro h
    have hline : line.toList = List.replicate line.toList.length ' ' ++ [] := by
      rw [List.append_nil, ← List.eq_replicate_of_mem h]
    rw [Scanner.ofList, hline]
    exact Scanner.significant_spaces 0 _ []
  · intro h
    obtain ⟨ls, hunfused, hchars, htokens⟩ := (Scanner.ofList line.toList).exists_unfused
    rw [htokens] at h
    have hall := Lexeme.eq_space_of_filter_eq_nil hunfused.whole h
    rwa [hchars] at hall

namespace Finding

/-- The tree of the line, if it is an expression. -/
def tree? : Finding → Option Tree
  | parsed tree => some tree
  | _ => none

/-- Why the line is refused, if it is. -/
def error? : Finding → Option SyntaxError
  | rejected e => some e
  | _ => none

theorem ofLine_eq_blank_iff (mode : Mode) (line : String) :
    ofLine mode line = .blank ↔ Token.significant line = [.endOfFile line.utf8ByteSize] := by
  rw [← Text.isBlankLine_iff_significant, ofLine]
  by_cases hblank : Text.isBlankLine line = true
  · simp [hblank]
  · rw [if_neg hblank]
    cases Tree.read mode line <;> simpa using hblank

/-- A line is an expression exactly if a tree is read from it: from a blank one none is. -/
theorem ofLine_eq_parsed_iff {mode : Mode} {line : String} {tree : Tree} :
    ofLine mode line = .parsed tree ↔ Tree.read mode line = .ok tree := by
  rw [ofLine]
  by_cases hblank : Text.isBlankLine line = true
  · rw [if_pos hblank]
    refine iff_of_false Finding.noConfusion ?_
    intro hread
    obtain ⟨s, found, rest, hs, hr, _, _⟩ := Tree.reads_of_read_eq_ok hread
    obtain ⟨_, _, hsignificant⟩ := Stream.ofString_eq_ok_iff.1 hs
    rw [(Text.isBlankLine_iff_significant line).1 hblank, hr.ahead_eq] at hsignificant
    have hlength := congrArg List.length hsignificant
    have hleaves := List.length_pos_of_ne_nil found.tree.leaves_ne_nil
    simp only [List.length_append, List.length_singleton] at hlength
    omega
  · rw [if_neg hblank]
    cases Tree.read mode line <;> simp

/-- The trees of the lines that are expressions, in the order of the lines. -/
def trees (fs : List Finding) : List Tree := fs.filterMap tree?

/-- The refusals of the lines that are refused, in the order of the lines. -/
def refusals (fs : List Finding) : List SyntaxError := fs.filterMap error?

@[simp] theorem trees_blank (fs : List Finding) : trees (blank :: fs) = trees fs := rfl

@[simp] theorem trees_parsed (tree : Tree) (fs : List Finding) :
    trees (parsed tree :: fs) = tree :: trees fs := rfl

@[simp] theorem trees_rejected (e : SyntaxError) (fs : List Finding) :
    trees (rejected e :: fs) = trees fs := rfl

@[simp] theorem refusals_blank (fs : List Finding) : refusals (blank :: fs) = refusals fs := rfl

@[simp] theorem refusals_parsed (tree : Tree) (fs : List Finding) :
    refusals (parsed tree :: fs) = refusals fs := rfl

@[simp] theorem refusals_rejected (e : SyntaxError) (fs : List Finding) :
    refusals (rejected e :: fs) = e :: refusals fs := rfl

/-- As many lines are counted as expressions as there are trees. -/
theorem parsed_ofVerdicts (fs : List Finding) :
    (Tally.ofVerdicts (fs.map verdict)).parsed = (trees fs).length := by
  unfold Tally.ofVerdicts
  induction fs with
  | nil => rfl
  | cons f fs ih => cases f <;> simpa [verdict] using ih

/-- As many lines are counted as refused as there are refusals. -/
theorem rejected_ofVerdicts (fs : List Finding) :
    (Tally.ofVerdicts (fs.map verdict)).rejected = (refusals fs).length := by
  unfold Tally.ofVerdicts
  induction fs with
  | nil => rfl
  | cons f fs ih => cases f <;> simpa [verdict] using ih

/-- The trees of lines are read from them. -/
theorem read_of_mem_trees {mode : Mode} {lines : List String} {tree : Tree}
    (h : tree ∈ trees (lines.map (ofLine mode))) :
    ∃ line ∈ lines, Tree.read mode line = .ok tree := by
  obtain ⟨f, hf, htree⟩ := List.mem_filterMap.1 h
  obtain ⟨line, hline, rfl⟩ := List.mem_map.1 hf
  refine ⟨line, hline, ofLine_eq_parsed_iff.1 ?_⟩
  cases hfinding : ofLine mode line with
  | parsed other =>
      rw [hfinding] at htree
      cases htree
      rfl
  | _ =>
      rw [hfinding] at htree
      cases htree

end Finding

namespace Options

/-- What is complained of in lines is what is refused in them, whatever is written. -/
theorem filterMap_complaint?_shown (o : Options) (lines : List String) :
    (lines.flatMap o.shown).filterMap Event.complaint? =
      (Finding.refusals (lines.map (Finding.ofLine o.mode))).map SyntaxError.complaint := by
  have htable : ∀ line, (o.tableShown line).filterMap Event.complaint? = [] := by
    intro line
    unfold tableShown
    split <;> rfl
  induction lines with
  | nil => rfl
  | cons line lines ih =>
      rw [List.flatMap_cons, List.filterMap_append, ih, List.map_cons, shown]
      cases Finding.ofLine o.mode line with
      | blank => rfl
      | parsed tree =>
          rw [List.filterMap_append, htable]
          rfl
      | rejected e =>
          rw [List.filterMap_append, htable]
          rfl

/-- Without the tables of tokens, what is written for lines is what is written for their trees. -/
theorem filterMap_output?_shown {o : Options} (h : o.tokens = false) (lines : List String) :
    (lines.flatMap o.shown).filterMap Event.output? =
      (Finding.trees (lines.map (Finding.ofLine o.mode))).map fun tree => tree.render o.format := by
  have htable : ∀ line, o.tableShown line = [] := by
    intro line
    rw [tableShown, h]
    rfl
  induction lines with
  | nil => rfl
  | cons line lines ih =>
      rw [List.flatMap_cons, List.filterMap_append, ih, List.map_cons, shown, htable]
      cases Finding.ofLine o.mode line <;> rfl

/-- What the lines of a text come to. -/
def findings (o : Options) (input : String) : List Finding :=
  (Text.lines input).map (Finding.ofLine o.mode)

/-- A run over a text comes to its end. -/
theorem ending_run_bytes (o : Options) (input : String) :
    (o.run (Text.bytes input)).ending =
      .ok (.ofVerdicts ((o.findings input).map Finding.verdict)) := by
  rw [o.ending_run, texts_splitLines_bytes, Text.length_lines, if_pos rfl, findings, List.map_map]
  rfl

/-- What is complained of is made of one line for each refusal. -/
theorem madeOf_complaints (o : Options) (input : String) :
    Text.MadeOf ((Finding.refusals (o.findings input)).map SyntaxError.report)
      (o.run (Text.bytes input)).complaints := by
  refine ⟨?_, List.forall_mem_map.2 fun e _ => e.oneLine_report⟩
  rw [o.complaints_run, texts_splitLines_bytes, o.filterMap_complaint?_shown, List.map_map]
  rfl

/-- The trees are written as one line each if they are written as documents. -/
theorem madeOf_documents {o : Options} (htokens : o.tokens = false) (hformat : o.format = .json)
    (input : String) :
    Text.MadeOf ((Finding.trees (o.findings input)).map Tree.document)
      (o.run (Text.bytes input)).output := by
  refine ⟨?_, List.forall_mem_map.2 fun tree _ => tree.oneLine_document⟩
  rw [o.output_run, texts_splitLines_bytes, filterMap_output?_shown htokens, hformat, List.map_map]
  rfl

/-- The trees are written one after the other if they are written as outlines. -/
theorem madeOf_outlines {o : Options} (htokens : o.tokens = false)
    (hformat : o.format = .tree) (input : String) :
    Text.MadeOf ((Finding.trees (o.findings input)).flatMap Tree.outlineLines)
      (o.run (Text.bytes input)).output := by
  constructor
  · rw [o.output_run, texts_splitLines_bytes, filterMap_output?_shown htokens, hformat,
      ← Tree.join_outlines]
    rfl
  · intro line hline
    obtain ⟨tree, htree, hmem⟩ := List.mem_flatMap.1 hline
    obtain ⟨source, _, hread⟩ := Finding.read_of_mem_trees htree
    exact Tree.oneLine_outlineLines hread line hmem

end Options

/-! ## Runs -/

/-- How a run over a text accounts for the lines of the text. -/
structure Options.Accounts (o : Options) (input : String) (tally : Tally) : Prop where
  /-- The run comes to its end with the tally, and so does any that writes in another way. -/
  ending : ∀ other : Options, other.mode = o.mode →
    (other.run (Text.bytes input)).ending = .ok tally ∧
      (other.run (Text.bytes input)).complaints = (o.run (Text.bytes input)).complaints
  /-- Every line is counted once, by what it comes to. -/
  total : tally.parsed + tally.rejected + tally.blank = (Text.lines input).length
  counted : tally = .ofVerdicts ((o.findings input).map Finding.verdict)
  /-- A line is counted as blank exactly if it has no token but blanks before its end. -/
  blank : ∀ line ∈ Text.lines input, (Finding.ofLine o.mode line).verdict = .blank ↔
    Token.significant line = [.endOfFile line.utf8ByteSize]
  /-- There is one line of complaint for each refused line, in the order of the lines. -/
  rejected : (Finding.refusals (o.findings input)).length = tally.rejected
  complaints : Text.MadeOf ((Finding.refusals (o.findings input)).map SyntaxError.report)
    (o.run (Text.bytes input)).complaints
  /-- There is one document, on one line, for each expression, in the order of the lines. -/
  parsed : (Finding.trees (o.findings input)).length = tally.parsed
  documents : o.tokens = false → o.format = .json →
    Text.MadeOf ((Finding.trees (o.findings input)).map Tree.document)
      (o.run (Text.bytes input)).output
  /-- There is one outline for each expression, in the order of the lines.  It starts with the kind
  of the root, and this is its only line that does not start with a space. -/
  outlines : o.tokens = false → o.format = .tree →
    Text.MadeOf ((Finding.trees (o.findings input)).flatMap Tree.outlineLines)
      (o.run (Text.bytes input)).output
  outline : ∀ tree ∈ Finding.trees (o.findings input), Text.MadeOf tree.outlineLines tree.outline ∧
    ∃ below, tree.outlineLines = tree.kind.name :: below ∧ ∀ line ∈ below, Outline.IsIndented line
  roots : (((Finding.trees (o.findings input)).flatMap Tree.outlineLines).filter fun line =>
      ¬ Outline.IsIndented line) =
    (Finding.trees (o.findings input)).map fun tree => tree.kind.name

/-- All that a run over a text counts, writes and complains of can be attributed to the lines of the
text, whatever the options. -/
theorem run_attributed (o : Options) (input : String) : ∃ tally, o.Accounts input tally := by
  refine ⟨.ofVerdicts ((o.findings input).map Finding.verdict), ?_⟩
  constructor
  case ending =>
    intro other hmode
    have hfindings : other.findings input = o.findings input := by
      rw [Options.findings, Options.findings, hmode]
    rw [other.ending_run_bytes, hfindings, (other.madeOf_complaints input).1,
      (o.madeOf_complaints input).1, hfindings]
    exact ⟨rfl, rfl⟩
  case total =>
    have hlines := Tally.lines_ofVerdicts ((o.findings input).map Finding.verdict)
    rwa [List.length_map, Options.findings, List.length_map] at hlines
  case counted => rfl
  case blank =>
    intro line _
    rw [← Finding.ofLine_eq_blank_iff o.mode]
    cases Finding.ofLine o.mode line <;> simp [Finding.verdict]
  case rejected => exact (Finding.rejected_ofVerdicts _).symm
  case complaints => exact o.madeOf_complaints input
  case parsed => exact (Finding.parsed_ofVerdicts _).symm
  case documents => exact fun htokens hformat => Options.madeOf_documents htokens hformat input
  case outlines => exact fun htokens hformat => Options.madeOf_outlines htokens hformat input
  case outline =>
    intro tree htree
    obtain ⟨line, _, hread⟩ := Finding.read_of_mem_trees htree
    exact ⟨⟨tree.outline_eq_join, Tree.oneLine_outlineLines hread⟩,
      tree.exists_outlineLines_eq_cons⟩
  case roots => exact Tree.filter_outlineLines _

end ExprTree
