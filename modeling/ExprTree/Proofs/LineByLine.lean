import ExprTree.Session.Run

set_option autoImplicit false

/-!
# An input, line by line

What a run writes, what it complains of and how it ends are put together from what
each line comes to.  The number of a line is recorded and not looked at otherwise, so
a line comes to the same wherever it stands, and an input that is put together from
whole lines is worked through as its parts are, one after the other
(`run_append`).  Only a line that is not text ends a run before the end.
-/

namespace ExprTree

/-! ## What a line comes to -/

/-- What a line comes to. -/
inductive Finding where
  /-- Nothing but spaces is on it. -/
  | blank
  /-- It is an expression. -/
  | parsed (tree : Tree)
  /-- It is refused. -/
  | rejected (error : SyntaxError)
  deriving DecidableEq, Repr, Inhabited

namespace Finding

/-- What a line comes to when it is read in a mode. -/
def ofLine (mode : Mode) (line : String) : Finding :=
  if Text.isBlankLine line then blank
  else
    match Tree.read mode line with
    | .ok tree => parsed tree
    | .error e => rejected e

/-- What the line is counted as. -/
def verdict : Finding → Verdict
  | blank => .blank
  | parsed _ => .parsed
  | rejected _ => .rejected

end Finding

namespace Event

/-- Whether the event is seen outside of the log. -/
def isVisible : Event → Bool
  | record _ => false
  | _ => true

theorem filter_isVisible_records (rs : List Record) : (rs.map record).filter isVisible = [] := by
  rw [List.filter_map, List.map_eq_nil_iff, List.filter_eq_nil_iff]
  intro r _
  exact Bool.false_ne_true

/-- All that is written is visible. -/
theorem filterMap_output?_filter (events : List Event) :
    (events.filter isVisible).filterMap output? = events.filterMap output? := by
  rw [List.filterMap_filter]
  congr 1
  funext e
  cases e <;> rfl

/-- All that is complained of is visible. -/
theorem filterMap_complaint?_filter (events : List Event) :
    (events.filter isVisible).filterMap complaint? = events.filterMap complaint? := by
  rw [List.filterMap_filter]
  congr 1
  funext e
  cases e <;> rfl

end Event

namespace Options

/-- What is seen of the tokens of a line. -/
def tableShown (o : Options) (line : String) : List Event :=
  if o.tokens then [.output (Token.table (Token.scan line))] else []

/-- What is seen of a line. -/
def shown (o : Options) (line : String) : List Event :=
  match Finding.ofLine o.mode line with
  | .blank => []
  | .parsed tree => o.tableShown line ++ [.output (tree.render o.format)]
  | .rejected e => o.tableShown line ++ [.complaint e.complaint]

theorem filter_isVisible_tableEvents (o : Options) (line : String) :
    (o.tableEvents line).filter Event.isVisible = o.tableShown line := by
  unfold tableEvents tableShown
  split
  · rw [List.filter_append, Event.filter_isVisible_records]
    rfl
  · rfl

/-- How a line is handled does not depend on its number, but for what is recorded. -/
theorem handle_eq (o : Options) (number : Nat) (line : String) :
    (o.handle number line).verdict = (Finding.ofLine o.mode line).verdict ∧
      (o.handle number line).events.filter Event.isVisible = o.shown line := by
  unfold handle shown Finding.ofLine
  split
  · exact ⟨rfl, rfl⟩
  · simp only [Reading.result_ofString]
    cases Tree.read o.mode line with
    | ok tree =>
        refine ⟨rfl, ?_⟩
        dsimp only
        rw [List.filter_append, List.filter_append, filter_isVisible_tableEvents,
          Event.filter_isVisible_records, List.append_nil]
        rfl
    | error e =>
        refine ⟨rfl, ?_⟩
        dsimp only
        rw [List.filter_append, List.filter_append, filter_isVisible_tableEvents,
          Event.filter_isVisible_records, List.append_nil]
        rfl

/-! ## What the lines of an input come to -/

theorem verdicts_handleAll (o : Options) (first : Nat) (lines : List String) :
    (o.handleAll first lines).map Handled.verdict =
      lines.map fun line => (Finding.ofLine o.mode line).verdict := by
  induction lines generalizing first with
  | nil => rfl
  | cons line lines ih =>
      rw [handleAll, List.zipIdx_cons, List.map_cons, List.map_cons, List.map_cons,
        (o.handle_eq first line).1]
      exact congrArg _ (ih (first + 1))

theorem shown_handleAll (o : Options) (first : Nat) (lines : List String) :
    ((o.handleAll first lines).flatMap Handled.events).filter Event.isVisible =
      lines.flatMap o.shown := by
  induction lines generalizing first with
  | nil => rfl
  | cons line lines ih =>
      rw [handleAll, List.zipIdx_cons, List.map_cons, List.flatMap_cons, List.filter_append,
        (o.handle_eq first line).2, List.flatMap_cons]
      exact congrArg _ (ih (first + 1))

/-- What a run writes is what is written for its lines. -/
theorem output_run (o : Options) (bytes : List UInt8) :
    (o.run bytes).output =
      String.join (((texts (Text.splitLines bytes)).flatMap o.shown).filterMap Event.output?) := by
  rw [← o.shown_handleAll 1, Event.filterMap_output?_filter]
  rfl

/-- What a run complains of is what is complained of in its lines. -/
theorem complaints_run (o : Options) (bytes : List UInt8) :
    (o.run bytes).complaints =
      String.join
        (((texts (Text.splitLines bytes)).flatMap o.shown).filterMap Event.complaint?) := by
  rw [← o.shown_handleAll 1, Event.filterMap_complaint?_filter]
  rfl

/-- A run comes to the end if all lines are text, and then counts what they come to. -/
theorem ending_run (o : Options) (bytes : List UInt8) :
    (o.run bytes).ending =
      if (texts (Text.splitLines bytes)).length = (Text.splitLines bytes).length then
        .ok (.ofVerdicts ((texts (Text.splitLines bytes)).map fun line =>
          (Finding.ofLine o.mode line).verdict))
      else .error .notText := by
  rw [← o.verdicts_handleAll 1]
  rfl

/-! ## Lines up to the first that is not text -/

theorem texts_cons (line : List UInt8) (lines : List (List UInt8)) :
    texts (line :: lines) =
      match Text.lineText? line with
      | some text => text :: texts lines
      | none => [] := by
  unfold texts
  rw [List.map_cons, List.takeWhile_cons]
  cases Text.lineText? line <;> rfl

theorem length_texts_le (lines : List (List UInt8)) : (texts lines).length ≤ lines.length := by
  induction lines with
  | nil => exact Nat.le_refl _
  | cons line lines ih =>
      rw [texts_cons]
      cases Text.lineText? line with
      | none => exact Nat.zero_le _
      | some text => exact Nat.succ_le_succ ih

/-- Lines behind others are reached if all of these are text. -/
theorem texts_append (lines more : List (List UInt8)) :
    texts (lines ++ more) =
      if (texts lines).length = lines.length then texts lines ++ texts more else texts lines := by
  induction lines with
  | nil => rfl
  | cons line lines ih =>
      rw [List.cons_append, texts_cons, texts_cons, ih]
      cases Text.lineText? line with
      | none => rfl
      | some text =>
          simp only [List.length_cons, Nat.add_right_cancel_iff]
          split <;> rfl

end Options

/-- Behind the end of a line the lines are those of the input that starts there. -/
theorem Text.splitLines_append {a : List UInt8} (b : List UInt8)
    (ha : a = [] ∨ a.getLast? = some lineFeed) :
    splitLines (a ++ b) = splitLines a ++ splitLines b := by
  rcases ha with rfl | ha
  · rfl
  · obtain ⟨front, rfl⟩ := List.getLast?_eq_some_iff.1 ha
    rw [List.append_assoc, List.singleton_append, splitLines_append_lineFeed]

/-! ## Inputs put together -/

/-- An input may be cut behind the end of any line.  If the first part is worked through to its
end, the whole comes to what the parts come to, one after the other: the same is written, the same
is complained of, and it ends as the second part does, with the lines of the first counted as well.
If a line of the first part is not text, the second part is not looked at. -/
theorem run_append (o : Options) (a b : List UInt8)
    (ha : a = [] ∨ a.getLast? = some Text.lineFeed) :
    (∀ tally, (o.run a).ending = .ok tally →
      (o.run (a ++ b)).output = (o.run a).output ++ (o.run b).output ∧
      (o.run (a ++ b)).complaints = (o.run a).complaints ++ (o.run b).complaints ∧
      (o.run (a ++ b)).ending = (o.run b).ending.map fun more => tally + more) ∧
    ∀ failure, (o.run a).ending = .error failure →
      failure = .notText ∧ o.run (a ++ b) = o.run a := by
  have hlines := Text.splitLines_append b ha
  have htexts := Options.texts_append (Text.splitLines a) (Text.splitLines b)
  rw [o.ending_run a]
  by_cases hall : (Options.texts (Text.splitLines a)).length = (Text.splitLines a).length
  · rw [if_pos hall] at htexts ⊢
    refine ⟨?_, by simp⟩
    rintro _ ⟨⟩
    refine ⟨?_, ?_, ?_⟩
    · rw [o.output_run, o.output_run, o.output_run, hlines, htexts, List.flatMap_append,
        List.filterMap_append, String.join_append]
    · rw [o.complaints_run, o.complaints_run, o.complaints_run, hlines, htexts,
        List.flatMap_append, List.filterMap_append, String.join_append]
    · rw [o.ending_run, o.ending_run, hlines, htexts, List.length_append, List.length_append, hall,
        List.map_append, Tally.ofVerdicts_append]
      simp only [Nat.add_left_cancel_iff]
      split <;> rfl
  · rw [if_neg hall] at htexts ⊢
    refine ⟨by simp, ?_⟩
    rintro _ ⟨⟩
    refine ⟨rfl, ?_⟩
    -- The lines that are reached are those of the first part, and not all lines are.
    have hle := Options.length_texts_le (Text.splitLines a)
    have hmore : ¬ (Options.texts (Text.splitLines a)).length =
        (Text.splitLines a ++ Text.splitLines b).length := by
      rw [List.length_append]
      omega
    unfold Options.run
    simp only [hlines, htexts, if_neg hall, if_neg hmore]

/-- A name and a lone parenthesis, and behind them a number and a line that is not text. -/
theorem run_append_of_bad_line :
    let o : Options := ⟨.tree, .strict, true⟩
    let a : List UInt8 := [121, 13, 10, 41, 10]
    let b : List UInt8 := [49, 10, 255, 10, 50]
    a.getLast? = some Text.lineFeed ∧ (o.run a).ending = .ok ⟨1, 1, 0⟩ ∧
      (o.run b).ending = .error .notText ∧
      (o.run (a ++ b)).output = (o.run a).output ++ (o.run b).output ∧
      (o.run (a ++ b)).complaints =
        "error: Unexpected token: expected Number, got CloseParen at 0..1\n" ∧
      (o.run (a ++ b)).ending = .error .notText ∧
      o.run ([49, 10, 255, 10] ++ a) = o.run [49, 10, 255, 10] := by
  intro o a b
  have hfirst : (o.run a).ending = .ok ⟨1, 1, 0⟩ := by rfl
  have hsecond : (o.run b).ending = .error .notText := by rfl
  have hbad : (o.run [49, 10, 255, 10]).ending = .error .notText := by rfl
  have hcomplaint : (o.run a).complaints ++ (o.run b).complaints =
      "error: Unexpected token: expected Number, got CloseParen at 0..1\n" := by decide +kernel
  obtain ⟨houtput, hcomplaints, hending⟩ := (run_append o a b (.inr rfl)).1 _ hfirst
  obtain ⟨_, hstop⟩ := (run_append o [49, 10, 255, 10] a (.inr rfl)).2 _ hbad
  rw [hsecond] at hending
  exact ⟨rfl, hfirst, hsecond, houtput, hcomplaints.trans hcomplaint, hending, hstop⟩

end ExprTree
