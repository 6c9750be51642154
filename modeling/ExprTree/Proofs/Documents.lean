import ExprTree.Proofs.CharacterClasses
import ExprTree.Tree.OfJson

set_option autoImplicit false

/-!
# Documents of trees lose nothing

The written form of a document can be told from what follows it: a string ends at the
first quotation mark that is not escaped, an object where its members do, and a number
where its digits do, as something other than a digit always follows.  So the scan of
`Json.scan` takes a document off the front of every text that starts with it, and the
tree is found again from its document (`document_lossless`).
-/

namespace ExprTree

namespace Json

/-! ## Strings -/

theorem hexValue?_digitChar {d : Nat} (h : d < 16) : hexValue? (Nat.digitChar d) = some d := by
  have hall : ∀ d < 16, hexValue? (Nat.digitChar d) = some d := by decide
  exact hall d h

/-- A character that is not written with a backslash stands for itself. -/
theorem scanChar_cons {c : Char} (hquote : c ≠ '"') (hbackslash : c ≠ '\\') (rest : List Char) :
    scanChar (c :: rest) = some (c, rest) := by
  unfold scanChar
  split <;> simp_all

/-- The written form of a character gives back the character. -/
theorem scanChar_escape (c : Char) (rest : List Char) :
    scanChar (escape c ++ rest) = some (c, rest) := by
  unfold escape
  split
  · rfl
  · rfl
  · rfl
  · rfl
  · rfl
  · rfl
  · rfl
  · rename_i hquote hbackslash _ _ _ _ _
    split
    · rename_i hcontrol
      have hvalue : c.toNat / 16 * 16 + c.toNat % 16 = c.toNat := by omega
      have hzero : hexValue? '0' = some 0 := hexValue?_digitChar (d := 0) (by decide)
      simp [scanChar, hzero, hexValue?_digitChar (d := c.toNat / 16) (by omega),
        hexValue?_digitChar (d := c.toNat % 16) (by omega), hvalue, Char.ofNat_toNat]
    · exact scanChar_cons hquote hbackslash rest

/-- No written form of a character starts with a quotation mark. -/
theorem exists_escape_eq_cons (c : Char) : ∃ d ds, escape c = d :: ds ∧ d ≠ '"' := by
  unfold escape
  split
  case h_8 hquote _ _ _ _ _ _ =>
    split
    · exact ⟨_, _, rfl, by decide⟩
    · exact ⟨_, _, rfl, hquote⟩
  all_goals exact ⟨_, _, rfl, by decide⟩

theorem scanInside_escape {cs rest : List Char} {fuel : Nat} (h : cs.length ≤ fuel) :
    scanInside fuel (cs.flatMap escape ++ '"' :: rest) = some (cs, rest) := by
  induction cs generalizing fuel with
  | nil => simp [scanInside]
  | cons c cs ih =>
      obtain ⟨d, ds, hescape, hd⟩ := exists_escape_eq_cons c
      obtain ⟨fuel, rfl⟩ : ∃ n, fuel = n + 1 := Nat.exists_eq_add_one_of_ne_zero (by grind)
      have hchar := scanChar_escape c (cs.flatMap escape ++ '"' :: rest)
      have hinside := ih (Nat.le_of_succ_le_succ h)
      rw [List.flatMap_cons, List.append_assoc]
      rw [hescape, List.cons_append] at hchar ⊢
      rw [scanInside]
      · rw [hchar]
        simp [hinside]
      · rintro _ hsame
        exact hd (List.cons.inj hsame).1

theorem toList_quoted (s : String) :
    (quoted s).toList = '"' :: (s.toList.flatMap escape ++ ['"']) := by
  rw [quoted, String.toList_ofList]

theorem length_le_flatMap_escape (cs : List Char) : cs.length ≤ (cs.flatMap escape).length := by
  induction cs with
  | nil => exact Nat.le_refl _
  | cons c cs ih =>
      obtain ⟨d, ds, hescape, _⟩ := exists_escape_eq_cons c
      rw [List.flatMap_cons, hescape, List.length_append, List.length_cons, List.length_cons]
      omega

/-- A string in quotation marks gives back the string, whatever follows. -/
theorem scanQuoted_quoted (s : String) (rest : List Char) :
    scanQuoted ((quoted s).toList ++ rest) = some (s, rest) := by
  have hlength := length_le_flatMap_escape s.toList
  rw [toList_quoted, List.cons_append, List.append_assoc, List.singleton_append, scanQuoted,
    scanInside_escape, Option.map_some]
  · simp only [String.ofList_toList]
  · rw [List.length_append]
    omega

/-! ## Numbers -/

/-- Whether a text does not start with a digit. -/
def Undigited (cs : List Char) : Prop := ∀ c ∈ cs.head?, c.isDigit = false

theorem undigited_cons {c : Char} (h : c.isDigit = false) (cs : List Char) :
    Undigited (c :: cs) := by
  rintro _ ⟨⟩
  exact h

/-- The digits of a number give back the number. -/
theorem scanNat_repr (n : Nat) {rest : List Char} (h : Undigited rest) :
    scanNat (n.repr.toList ++ rest) = (n, rest) := by
  have hdigits : ∀ c ∈ Nat.toDigits 10 n, c.isDigit = true :=
    fun c hc => Nat.isDigit_of_mem_toDigits (by decide) (by decide) hc
  obtain ⟨htake, hdrop⟩ := Text.stretch_append hdigits h
  rw [scanNat, Nat.repr_eq_ofList_toDigits, String.toList_ofList, htake, hdrop,
    Nat.ofDigitChars_toDigits (by decide) (by decide)]

/-- A number has digits. -/
theorem exists_toList_repr_eq_cons (n : Nat) :
    ∃ c cs, n.repr.toList = c :: cs ∧ c.isDigit = true := by
  obtain ⟨c, cs, hdigits⟩ := List.exists_cons_of_ne_nil (Nat.toDigits_ne_nil (b := 10) (n := n))
  refine ⟨c, cs, ?_, ?_⟩
  · rw [Nat.repr_eq_ofList_toDigits, String.toList_ofList, hdigits]
  · apply Nat.isDigit_of_mem_toDigits (b := 10) (n := n) (by decide) (by decide)
    rw [hdigits]
    exact List.mem_cons_self

/-- The written form of a number gives back the number, and starts with a digit or a minus sign. -/
theorem scanInt_repr (n : Int) {rest : List Char} (h : Undigited rest) :
    scanInt (n.repr.toList ++ rest) = (n, rest) ∧
      ∃ c cs, n.repr.toList = c :: cs ∧ (c.isDigit = true ∨ c = '-') := by
  cases n with
  | ofNat n =>
      obtain ⟨c, cs, htext, hdigit⟩ := exists_toList_repr_eq_cons n
      have hnat := scanNat_repr n h
      rw [Int.repr]
      refine ⟨?_, c, cs, htext, .inl hdigit⟩
      rw [htext] at hnat ⊢
      rw [List.cons_append, scanInt, ← List.cons_append, hnat]
      · rfl
      · rintro _ hminus
        cases hminus
        cases hdigit
  | negSucc n =>
      rw [Int.repr, String.toList_append]
      refine ⟨?_, '-', _, rfl, .inr rfl⟩
      have hnat := scanNat_repr n.succ h
      change (-((scanNat (n.succ.repr.toList ++ rest)).1 : Int),
        (scanNat (n.succ.repr.toList ++ rest)).2) = _
      rw [hnat]
      rfl

/-! ## Documents -/

/-- What holds of all scalars, and of an object if it holds of the values of its members, holds of
all documents. -/
@[elab_as_elim]
theorem induction_members {P : Json → Prop} (null : P null) (bool : ∀ b, P (bool b))
    (number : ∀ n, P (number n)) (string : ∀ s, P (string s))
    (object : ∀ members, (∀ m ∈ members, P m.2) → P (object members)) : ∀ document, P document
  | .null => null
  | .bool b => bool b
  | .number n => number n
  | .string s => string s
  | .object members =>
    object members fun m _ => induction_members null bool number string object m.2
termination_by document => sizeOf document
decreasing_by
  have hmember := List.sizeOf_lt_of_mem ‹m ∈ members›
  obtain ⟨name, value⟩ := m
  simp only [Prod.mk.sizeOf_spec, Json.object.sizeOf_spec] at *
  omega

/-- What starts with a digit or a minus sign is a number. -/
theorem scan_number {c : Char} (h : c.isDigit = true ∨ c = '-') (fuel : Nat) (cs : List Char) :
    scan (fuel + 1) (c :: cs) =
      some (number (scanInt (c :: cs)).1, (scanInt (c :: cs)).2) := by
  unfold scan
  split <;> simp_all

/-- What starts with a brace and a quotation mark is an object with members. -/
theorem scan_members (fuel : Nat) (cs : List Char) :
    scan (fuel + 1) ('\x7b' :: '"' :: cs) =
      (scanMembers fuel ('"' :: cs)).map fun (members, rest) => (object members, rest) := rfl

theorem length_compactMembers_singleton (name : String) (value : Json) :
    (compactMembers [(name, value)]).length = (quoted name).length + 1 + value.compact.length := by
  rw [compactMembers, String.length_append, String.length_append]
  rfl

theorem length_compactMembers_cons (name : String) (value : Json) (next : String × Json)
    (members : List (String × Json)) :
    (compactMembers ((name, value) :: next :: members)).length =
      (quoted name).length + 1 + value.compact.length + 1 +
        (compactMembers (next :: members)).length := by
  rw [compactMembers, String.length_append, String.length_append, String.length_append,
    String.length_append]
  rfl

theorem length_compact_object (members : List (String × Json)) :
    (object members).compact.length = (compactMembers members).length + 2 := by
  rw [compact, String.length_append, String.length_append, Nat.add_right_comm]
  exact Nat.add_comm _ _

/-- The name of the first member comes first. -/
theorem exists_compactMembers_eq_cons (m : String × Json) (members : List (String × Json)) :
    ∃ cs, (compactMembers (m :: members)).toList = '"' :: cs := by
  cases members with
  | nil =>
      simp only [compactMembers, String.toList_append, toList_quoted, List.cons_append]
      exact ⟨_, rfl⟩
  | cons next members =>
      simp only [compactMembers, String.toList_append, toList_quoted, List.cons_append]
      exact ⟨_, rfl⟩

/-- Whether the document is read back, whatever follows but more digits. -/
def ReadsBack (document : Json) : Prop :=
  ∀ (fuel : Nat) (rest : List Char), document.compact.length < fuel → Undigited rest →
    scan fuel (document.compact.toList ++ rest) = some (document, rest)

theorem readsBack_of_succ {document : Json}
    (h : ∀ (fuel : Nat) (rest : List Char), document.compact.length ≤ fuel → Undigited rest →
      scan (fuel + 1) (document.compact.toList ++ rest) = some (document, rest)) :
    document.ReadsBack := by
  intro fuel rest hfuel hrest
  cases fuel with
  | zero => exact absurd hfuel (Nat.not_lt_zero _)
  | succ fuel => exact h fuel rest (Nat.le_of_lt_succ hfuel) hrest

/-- Members are read back up to the closing brace if their values are read back. -/
theorem scanMembers_compactMembers {m : String × Json} {members : List (String × Json)}
    {fuel : Nat} {rest : List Char} (hvalues : ∀ m' ∈ m :: members, m'.2.ReadsBack)
    (hfuel : (compactMembers (m :: members)).length ≤ fuel) :
    scanMembers (fuel + 1) ((compactMembers (m :: members)).toList ++ '\x7d' :: rest) =
      some (m :: members, rest) := by
  induction members generalizing m fuel with
  | nil =>
      obtain ⟨name, value⟩ := m
      rw [length_compactMembers_singleton] at hfuel
      have hvalue := hvalues _ List.mem_cons_self fuel ('\x7d' :: rest) (by grind)
        (undigited_cons (by decide) _)
      simp only [compactMembers, String.toList_append, List.append_assoc]
      rw [scanMembers, scanQuoted_quoted]
      simp only [String.reduceToList, List.singleton_append, hvalue]
  | cons next members ih =>
      obtain ⟨name, value⟩ := m
      rw [length_compactMembers_cons] at hfuel
      have hvalue := hvalues _ List.mem_cons_self fuel
        (',' :: ((compactMembers (next :: members)).toList ++ '\x7d' :: rest)) (by grind)
        (undigited_cons (by decide) _)
      obtain ⟨fuel, rfl⟩ : ∃ n, fuel = n + 1 := Nat.exists_eq_add_one_of_ne_zero (by omega)
      have hmore : scanMembers (fuel + 1)
          ((compactMembers (next :: members)).toList ++ '\x7d' :: rest) =
            some (next :: members, rest) :=
        ih (fun m' hm' => hvalues m' (List.mem_cons_of_mem _ hm')) (by omega)
      simp only [compactMembers, String.toList_append, List.append_assoc]
      rw [scanMembers, scanQuoted_quoted]
      simp only [String.reduceToList, List.singleton_append, hvalue, hmore, Option.map_some]

theorem readsBack (document : Json) : document.ReadsBack := by
  induction document using induction_members with
  | null =>
      apply readsBack_of_succ
      intro fuel rest _ _
      rw [compact]
      rfl
  | bool b =>
      apply readsBack_of_succ
      intro fuel rest _ _
      cases b <;> rfl
  | number n =>
      apply readsBack_of_succ
      intro fuel rest _ hrest
      obtain ⟨hback, c, cs, htext, hhead⟩ := scanInt_repr n hrest
      rw [compact]
      rw [htext, List.cons_append] at hback ⊢
      rw [scan_number hhead, hback]
  | string s =>
      apply readsBack_of_succ
      intro fuel rest _ _
      have hback := scanQuoted_quoted s rest
      rw [compact]
      rw [toList_quoted, List.cons_append] at hback ⊢
      simp only [scan, hback, Option.map_some]
  | object members ih =>
      apply readsBack_of_succ
      intro fuel rest hfuel _
      cases members with
      | nil => rfl
      | cons m members =>
          rw [length_compact_object] at hfuel
          obtain ⟨fuel, rfl⟩ : ∃ n, fuel = n + 1 := Nat.exists_eq_add_one_of_ne_zero (by omega)
          have hmembers : scanMembers (fuel + 1)
              ((compactMembers (m :: members)).toList ++ '\x7d' :: rest) =
                some (m :: members, rest) := scanMembers_compactMembers ih (by omega)
          obtain ⟨cs, htext⟩ := exists_compactMembers_eq_cons m members
          rw [compact]
          simp only [htext, List.cons_append] at hmembers
          simp only [String.toList_append, String.reduceToList, htext, List.cons_append,
            List.nil_append, List.append_assoc]
          rw [scan_members, hmembers, Option.map_some]

/-- The whole text of a document is read back. -/
theorem ofString?_compact (document : Json) : ofString? document.compact = some document := by
  have hwhole : scan (document.compact.length + 1) (document.compact.toList ++ []) =
      some (document, []) := by
    apply document.readsBack _ _ (Nat.lt_succ_self _)
    rintro _ ⟨⟩
  rw [List.append_nil] at hwhole
  rw [ofString?, hwhole]

/-! ## Characters -/

/-- Whether a text has no control character of the first 32, as a line break is. -/
def Uncontrolled (s : String) : Prop := Text.EachChar (fun c => 0x20 ≤ c.toNat) s

instance (s : String) : Decidable (Uncontrolled s) :=
  inferInstanceAs (Decidable (Text.EachChar _ s))

theorem uncontrolled_of_graphic {s : String} (h : Text.Graphic s) : Uncontrolled s := by
  refine h.mono ?_
  intro c hc
  obtain ⟨r, hr, hle, _⟩ := (Text.graphics.contains_iff c).1 hc
  cases List.mem_singleton.1 hr
  exact Nat.le_of_succ_le hle

theorem le_toNat_of_mem_escape {c d : Char} (h : d ∈ escape c) : 0x20 ≤ d.toNat := by
  unfold escape at h
  split at h
  case h_8 =>
    split at h
    · have hdigits : ∀ n < 16, 0x20 ≤ (Nat.digitChar n).toNat := by decide
      simp only [List.mem_cons, List.not_mem_nil, or_false] at h
      rcases h with rfl | rfl | rfl | rfl | rfl | rfl
      · decide
      · decide
      · decide
      · decide
      · exact hdigits _ (by omega)
      · exact hdigits _ (by omega)
    · cases List.mem_singleton.1 h
      omega
  all_goals
    simp only [List.mem_cons, List.not_mem_nil, or_false] at h
    rcases h with rfl | rfl <;> decide

theorem uncontrolled_quoted (s : String) : Uncontrolled (quoted s) := by
  intro c hc
  rw [toList_quoted, List.mem_cons, List.mem_append, List.mem_singleton] at hc
  rcases hc with rfl | hc | rfl
  · decide
  · obtain ⟨d, _, hmem⟩ := List.mem_flatMap.1 hc
    exact le_toNat_of_mem_escape hmem
  · decide

/-- Members have no control characters in them if their values have none. -/
theorem uncontrolled_compactMembers {members : List (String × Json)}
    (h : ∀ m ∈ members, Uncontrolled m.2.compact) : Uncontrolled (compactMembers members) := by
  have hcolon : Uncontrolled ":" := by decide
  have hcomma : Uncontrolled "," := by decide
  induction members with
  | nil =>
      rintro c hc
      cases hc
  | cons m members ih =>
      obtain ⟨name, value⟩ := m
      obtain ⟨hvalue, hvalues⟩ := List.forall_mem_cons.1 h
      have hmember := ((uncontrolled_quoted name).append hcolon).append hvalue
      cases members with
      | nil => rwa [compactMembers]
      | cons next members =>
          rw [compactMembers]
          exact (hmember.append hcomma).append (ih hvalues)

/-- No document has a control character in it. -/
theorem uncontrolled_compact (document : Json) : Uncontrolled document.compact := by
  induction document using induction_members with
  | null =>
      rw [compact]
      decide
  | bool b =>
      rw [compact]
      cases b with
      | false => decide
      | true => decide
  | number n =>
      rw [compact]
      cases n with
      | ofNat n => exact uncontrolled_of_graphic (Text.graphic_repr n)
      | negSucc n =>
          have hminus : Uncontrolled "-" := by decide
          exact hminus.append (uncontrolled_of_graphic (Text.graphic_repr n.succ))
  | string s =>
      rw [compact]
      exact uncontrolled_quoted s
  | object members ih =>
      have hopening : Uncontrolled "\x7b" := by decide
      have hclosing : Uncontrolled "\x7d" := by decide
      rw [compact]
      exact (hopening.append (uncontrolled_compactMembers ih)).append hclosing

end Json

/-! ## Trees -/

theorem Value.ofJson?_toJson (value : Value) : ofJson? value.toJson = some value := by
  cases value <;> rfl

theorem Token.ofJson?_toJson (t : Token) : ofJson? t.toJson = some t := by
  obtain ⟨kind, ⟨start, stop⟩, text, value⟩ := t
  have hspan : spanOfJson? (spanJson ⟨start, stop⟩) = some ⟨start, stop⟩ := rfl
  cases text <;>
    simp [toJson, ofJson?, Kind.ofName?_name, Value.ofJson?_toJson, hspan]

namespace Tree

/-- A tree is found again from its JSON form. -/
theorem ofJson?_toJson (tree : Tree) : ofJson? tree.toJson = some tree := by
  induction tree with
  | binary left operator right ihl ihr =>
      simp [toJson, ofJson?, Json.tagged, Token.ofJson?_toJson, ihl, ihr]
  | unary operator operand ih => simp [toJson, ofJson?, Json.tagged, Token.ofJson?_toJson, ih]
  | parenthesized opening expression closing ih =>
      simp [toJson, ofJson?, Json.tagged, Token.ofJson?_toJson, ih]
  | literal token value =>
      simp [toJson, ofJson?, Json.tagged, Token.ofJson?_toJson, Value.ofJson?_toJson]
  | name token => simp [toJson, ofJson?, Json.tagged, Token.ofJson?_toJson]
  | assignment target equals value iht ihv =>
      simp [toJson, ofJson?, Json.tagged, Token.ofJson?_toJson, iht, ihv]

theorem ofDocument?_document (tree : Tree) : ofDocument? tree.document = some tree := by
  rw [ofDocument?, document, Json.ofString?_compact, Option.bind_some, ofJson?_toJson]

end Tree

/-- The document of a tree is one line of text, whatever the tree: none of its characters is a line
break or another of the first 32 control characters.  From the document alone the tree is found
again, with all spans, texts and values; so no two trees have the same document. -/
theorem document_lossless :
    (∀ tree : Tree, Tree.ofDocument? tree.document = some tree) ∧
    (∀ tree other : Tree, tree.document = other.document → tree = other) ∧
    ∀ tree : Tree, ∀ c ∈ tree.document.toList, c ≠ '\n' ∧ 0x20 ≤ c.toNat := by
  refine ⟨Tree.ofDocument?_document, ?_, ?_⟩
  · intro tree other h
    have hsame := congrArg Tree.ofDocument? h
    rw [Tree.ofDocument?_document, Tree.ofDocument?_document] at hsame
    exact Option.some.inj hsame
  · intro tree c hc
    have hcontrol := Json.uncontrolled_compact tree.toJson c hc
    refine ⟨?_, hcontrol⟩
    rintro rfl
    exact absurd hcontrol (by decide)

/-- A token without text has no member for it, and a line break is escaped. -/
example : (Tree.name ⟨.identifier, ⟨0, 1⟩, none, .text "\n"⟩).document =
    "\x7b\"Name\":\x7b\"name\":\x7b\"kind\":\"Identifier\"," ++
      "\"span\":\x7b\"start\":0,\"end\":1\x7d,\"value\":\"\\n\"\x7d\x7d\x7d" := by decide

end ExprTree
