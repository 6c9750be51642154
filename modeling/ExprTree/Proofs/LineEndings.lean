import ExprTree.Proofs.TextLines

set_option autoImplicit false

/-!
# Line endings

A line feed may have carriage returns before it: one belongs to the line end, and one
more is dropped from the line.  At the end of an input that does not end in a line feed
there is no line end, and the carriage return there is the one that is dropped.  So an
input without carriage returns is worked through as it is with one or two of them before
any of its line feeds, and with one at its end (`run_eq_of_returnsAdded`).
-/

namespace ExprTree

namespace Text

/-- Whether some characters are others with carriage returns added: one or two before line feeds,
any of them, and one behind a last line that no line feed ends. -/
inductive ReturnsAdded : List Char → List Char → Prop where
  | nil : ReturnsAdded [] []
  | last {c : Char} (hc : c ≠ '\n') : ReturnsAdded [c] [c, '\r']
  | char {c : Char} {cs ds : List Char} (hc : c ≠ '\n') (h : ReturnsAdded cs ds) :
      ReturnsAdded (c :: cs) (c :: ds)
  | lineFeed {n : Nat} {cs ds : List Char} (hn : n ≤ 2) (h : ReturnsAdded cs ds) :
      ReturnsAdded ('\n' :: cs) (List.replicate n '\r' ++ '\n' :: ds)

theorem breakLines_cons_of_ne {c : Char} (h : c ≠ '\n') (current cs : List Char) :
    breakLines current (c :: cs) = breakLines (current ++ [c]) cs :=
  if_neg h

theorem dropReturn_concat (cs : List Char) : dropReturn (cs ++ ['\r']) = cs := by
  rw [dropReturn, List.getLast?_concat, if_pos rfl, List.dropLast_concat]

/-- Two carriage returns at most are dropped, one with the line end and one from the line. -/
theorem dropReturn_dropReturn {n : Nat} (hn : n ≤ 2) {cs : List Char} (h : '\r' ∉ cs) :
    dropReturn (dropReturn (cs ++ List.replicate n '\r')) = cs := by
  match n, hn with
  | 0, _ =>
      rw [List.replicate_zero, List.append_nil, dropReturn_of_not_mem h, dropReturn_of_not_mem h]
  | 1, _ => rw [List.replicate_one, dropReturn_concat, dropReturn_of_not_mem h]
  | 2, _ =>
      rw [List.replicate_succ', ← List.append_assoc, dropReturn_concat, List.replicate_one,
        dropReturn_concat]

/-- Carriage returns added to a text leave its lines as they are, once that at the end of a line is
dropped. -/
theorem dropReturn_breakLines {cs ds current : List Char} (h : ReturnsAdded cs ds)
    (hcs : '\r' ∉ cs) (hcurrent : '\r' ∉ current) :
    (breakLines current ds).map dropReturn = (breakLines current cs).map dropReturn := by
  induction h generalizing current with
  | nil => rfl
  | @last c hc =>
      have hline : '\r' ∉ current ++ [c] := List.not_mem_append hcurrent hcs
      have hreturn : '\r' ≠ '\n' := by decide
      rw [breakLines_cons_of_ne hc, breakLines_cons_of_ne hc, breakLines_cons_of_ne hreturn,
        breakLines, breakLines, if_neg (by simp), if_neg (by simp), List.map_singleton,
        List.map_singleton, dropReturn_concat, dropReturn_of_not_mem hline]
  | @char c cs ds hc _ ih =>
      rw [List.mem_cons, not_or] at hcs
      have hline : '\r' ∉ current ++ [c] := by
        rw [List.mem_append, List.mem_singleton, not_or]
        exact ⟨hcurrent, hcs.1⟩
      rw [breakLines_cons_of_ne hc, breakLines_cons_of_ne hc, ih hcs.2 hline]
  | @lineFeed n cs ds hn _ ih =>
      rw [List.mem_cons, not_or] at hcs
      have hreturns : '\n' ∉ List.replicate n '\r' := by
        intro hmem
        cases List.eq_of_mem_replicate hmem
      have hline := breakLines_append List.not_mem_nil current cs
      rw [List.nil_append, List.append_nil] at hline
      rw [breakLines_append hreturns, hline, List.map_cons, List.map_cons,
        dropReturn_dropReturn hn hcurrent, dropReturn_of_not_mem hcurrent,
        dropReturn_of_not_mem hcurrent, ih hcs.2 List.not_mem_nil]

theorem lines_eq_of_returnsAdded {text other : String} (h : ReturnsAdded text.toList other.toList)
    (htext : '\r' ∉ text.toList) : lines other = lines text := by
  have hlines := congrArg (List.map String.ofList)
    (dropReturn_breakLines h htext List.not_mem_nil)
  rwa [List.map_map, List.map_map] at hlines

end Text

/-- A run over a text depends on its lines alone. -/
theorem Options.run_bytes (o : Options) (input : String) :
    o.run (Text.bytes input) =
      ⟨(o.handleAll 1 (Text.lines input)).flatMap Handled.events,
        .ok (.ofVerdicts ((o.handleAll 1 (Text.lines input)).map Handled.verdict))⟩ := by
  unfold run
  simp only [texts_splitLines_bytes, Text.length_lines, if_true]

/-- Line endings do not matter.  A text without carriage returns comes to the same when one or two
of them stand before any of its line feeds and one behind a last line that no line feed ends: the
same is written, complained of, counted and recorded, in the same order. -/
theorem run_eq_of_returnsAdded (o : Options) {input other : String}
    (hinput : '\r' ∉ input.toList) (h : Text.ReturnsAdded input.toList other.toList) :
    o.run (Text.bytes other) = o.run (Text.bytes input) ∧
      ∃ tally, (o.run (Text.bytes other)).ending = .ok tally := by
  have hrun : o.run (Text.bytes other) = o.run (Text.bytes input) := by
    rw [o.run_bytes, o.run_bytes, Text.lines_eq_of_returnsAdded h hinput]
  exact ⟨hrun, _, by rw [o.run_bytes]⟩

/-- A blank line, two expressions and a line that is refused, with carriage returns before most
line feeds and at the end. -/
theorem run_eq_of_returnsAdded_of_five :
    Options.run ⟨.tree, .strict, false⟩ (Text.bytes "\r\n1\n(\r\r\nb\r") =
      Options.run ⟨.tree, .strict, false⟩ (Text.bytes "\n1\n(\nb") ∧
    (Options.run ⟨.tree, .strict, false⟩ (Text.bytes "\r\n1\n(\r\r\nb\r")).ending =
      .ok ⟨2, 1, 1⟩ := by
  have h : Text.ReturnsAdded "\n1\n(\nb".toList "\r\n1\n(\r\r\nb\r".toList :=
    .lineFeed (n := 1) (by decide) <| .char (by decide) <| .lineFeed (n := 0) (by decide) <|
      .char (by decide) <| .lineFeed (n := 2) (by decide) <| .last (by decide)
  obtain ⟨hrun, _⟩ := run_eq_of_returnsAdded ⟨.tree, .strict, false⟩ (by decide) h
  refine ⟨hrun, ?_⟩
  rw [hrun]
  rfl

end ExprTree
