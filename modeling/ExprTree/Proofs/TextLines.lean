import ExprTree.Session.Run

set_option autoImplicit false

/-!
# The lines of a text

A line feed and a carriage return are bytes that no other character has among its own,
so the bytes of a text come apart into lines where its characters do.  Each of these
lines is text again, and its end is seen from the characters alone
(`texts_splitLines_bytes`).
-/

namespace ExprTree

namespace Text

/-! ## Bytes of characters -/

/-- The bytes of the UTF-8 form of characters. -/
def encode (cs : List Char) : List UInt8 := cs.flatMap String.utf8EncodeChar

/-- The bytes of the UTF-8 form of a text. -/
def bytes (s : String) : List UInt8 := s.toByteArray.data.toList

@[simp] theorem encode_nil : encode [] = [] := rfl

@[simp] theorem encode_append (cs ds : List Char) : encode (cs ++ ds) = encode cs ++ encode ds :=
  List.flatMap_append

theorem encode_cons (c : Char) (cs : List Char) :
    encode (c :: cs) = String.utf8EncodeChar c ++ encode cs := rfl

theorem encode_singleton (c : Char) : encode [c] = String.utf8EncodeChar c :=
  List.append_nil _

theorem encode_eq_nil_iff {cs : List Char} : encode cs = [] ↔ cs = [] := by
  cases cs with
  | nil => simp
  | cons c cs => simp [encode_cons]

theorem bytes_eq_encode (s : String) : bytes s = encode s.toList := by
  rw [bytes, ← String.utf8Encode_toList]
  exact List.toList_data_toByteArray

/-- The bytes of characters are the UTF-8 form of these. -/
theorem decode?_encode (cs : List Char) : decode? (encode cs) = some (String.ofList cs) := by
  have hbytes : (⟨(encode cs).toArray⟩ : ByteArray) = cs.utf8Encode := by
    rw [List.utf8Encode, ← encode]
    exact ByteArray.ext (List.data_toByteArray).symm
  rw [decode?, hbytes, String.fromUTF8?, dif_pos ByteArray.isValidUTF8_utf8Encode]
  congr 1

/-- One of the first 128 characters has one byte, which is its number. -/
theorem utf8EncodeChar_of_lt {c : Char} (hc : c.toNat < 128) :
    String.utf8EncodeChar c = [UInt8.ofNat c.toNat] :=
  if_pos (Nat.le_of_lt_succ hc)

/-- Any other character has no byte that is one of these. -/
theorem le_of_mem_utf8EncodeChar {c : Char} (hc : 128 ≤ c.toNat) :
    ∀ b ∈ String.utf8EncodeChar c, 128 ≤ b.toNat := by
  have hvalue : c.val.toNat = c.toNat := rfl
  intro b hb
  simp only [String.utf8EncodeChar, hvalue] at hb
  -- The first byte says how many there are, and the others continue it.
  split at hb
  · omega
  · split at hb
    · simp only [List.mem_cons, List.not_mem_nil, or_false] at hb
      rcases hb with rfl | rfl <;> rw [UInt8.toNat_ofNat'] <;> omega
    · split at hb
      · simp only [List.mem_cons, List.not_mem_nil, or_false] at hb
        rcases hb with rfl | rfl | rfl <;> rw [UInt8.toNat_ofNat'] <;> omega
      · simp only [List.mem_cons, List.not_mem_nil, or_false] at hb
        rcases hb with rfl | rfl | rfl | rfl <;> rw [UInt8.toNat_ofNat'] <;> omega

/-- A byte below 128 stands for the character of this number and for no other. -/
theorem eq_of_mem_utf8EncodeChar {c d : Char} (hd : d.toNat < 128)
    (h : UInt8.ofNat d.toNat ∈ String.utf8EncodeChar c) : c = d := by
  have hlow : (UInt8.ofNat d.toNat).toNat = d.toNat := by
    rw [UInt8.toNat_ofNat']
    omega
  by_cases hc : c.toNat < 128
  · rw [utf8EncodeChar_of_lt hc, List.mem_singleton] at h
    have hnumber := congrArg UInt8.toNat h
    rw [hlow, UInt8.toNat_ofNat'] at hnumber
    apply Char.toNat_inj.1
    omega
  · have hhigh := le_of_mem_utf8EncodeChar (Nat.le_of_not_lt hc) _ h
    omega

/-! ## Lines of characters -/

/-- The lines of characters, `current` being those of the line that is read.  A line feed ends a
line, and a carriage return right before it belongs to the line end. -/
def breakLines (current : List Char) : List Char → List (List Char)
  | [] => if current = [] then [] else [current]
  | c :: cs =>
    if c = '\n' then dropReturn current :: breakLines [] cs else breakLines (current ++ [c]) cs

/-- The lines of a text, without their ends and without another carriage return at theirs. -/
def lines (text : String) : List String :=
  (breakLines [] text.toList).map fun cs => String.ofList (dropReturn cs)

theorem withoutReturn_cons_of_ne {b : UInt8} (h : b ≠ carriageReturn) (bs : List UInt8) :
    withoutReturn (b :: bs) = b :: bs := by
  rw [withoutReturn, if_neg h]

/-- A carriage return at the end of characters is one at the end of their bytes. -/
theorem withoutReturn_encode (cs : List Char) :
    (withoutReturn (encode cs).reverse).reverse = encode (dropReturn cs) := by
  rcases List.eq_nil_or_concat cs with rfl | ⟨init, d, rfl⟩
  · rfl
  · rw [List.concat_eq_append, dropReturn, List.getLast?_concat, List.dropLast_concat]
    by_cases hd : d = '\r'
    · subst hd
      rw [encode_append, List.reverse_append]
      exact List.reverse_reverse _
    · -- The last byte of another character is no carriage return.
      obtain ⟨front, b, hbytes⟩ := (String.utf8EncodeChar d).eq_nil_or_concat.resolve_left
        String.utf8EncodeChar_ne_nil
      have hb : b ≠ carriageReturn := by
        rintro rfl
        apply hd
        apply eq_of_mem_utf8EncodeChar (by decide)
        rw [hbytes, List.concat_eq_append]
        exact List.mem_concat_self
      have hreverse : (encode (init ++ [d])).reverse =
          b :: (front.reverse ++ (encode init).reverse) := by
        rw [encode_append, encode_singleton, hbytes]
        simp
      rw [if_neg (by simpa using hd), hreverse, withoutReturn_cons_of_ne hb, ← hreverse,
        List.reverse_reverse]

/-- Bytes without a line feed are collected as part of the line. -/
theorem collectLines_append {bs : List UInt8} (h : lineFeed ∉ bs) (current rest : List UInt8) :
    collectLines current [] (bs ++ rest) = collectLines (bs.reverse ++ current) [] rest := by
  induction bs generalizing current with
  | nil => rfl
  | cons b bs ih =>
      rw [List.mem_cons, not_or] at h
      rw [List.cons_append, collectLines, if_neg (Ne.symm h.1), ih h.2, List.reverse_cons,
        List.append_assoc, List.singleton_append]

/-- The lines of bytes are the bytes of the lines. -/
theorem collectLines_encode (current cs : List Char) :
    collectLines (encode current).reverse [] (encode cs) =
      (breakLines current cs).map encode := by
  induction cs generalizing current with
  | nil =>
      rw [encode_nil, collectLines, breakLines]
      by_cases hcurrent : current = []
      · subst hcurrent
        rfl
      · rw [if_neg hcurrent, if_neg (by simpa [encode_eq_nil_iff] using hcurrent)]
        simp
  | cons c cs ih =>
      rw [breakLines, encode_cons]
      by_cases hc : c = '\n'
      · subst hc
        have hnext := ih []
        rw [encode_nil, List.reverse_nil] at hnext
        rw [if_pos rfl, List.map_cons, ← hnext, ← withoutReturn_encode]
        exact collectLines_eq_append [] [_] _
      · have hfeed : lineFeed ∉ String.utf8EncodeChar c := fun h =>
          hc (eq_of_mem_utf8EncodeChar (by decide) h)
        rw [if_neg hc, collectLines_append hfeed, ← ih, encode_append, encode_singleton,
          List.reverse_append]

/-- The lines of the bytes of a text are its lines, each of them text. -/
theorem map_lineText?_splitLines (text : String) :
    (splitLines (bytes text)).map lineText? = (lines text).map some := by
  have hlines := collectLines_encode [] text.toList
  rw [encode_nil, List.reverse_nil, ← bytes_eq_encode] at hlines
  rw [splitLines, hlines, lines, List.map_map, List.map_map]
  apply List.map_congr_left
  intro cs _
  rw [Function.comp_apply, Function.comp_apply, lineText?, decode?_encode, Option.map_some,
    String.toList_ofList]

/-- Characters without a line feed are collected as part of the line that it ends. -/
theorem breakLines_append {cs : List Char} (h : '\n' ∉ cs) (current rest : List Char) :
    breakLines current (cs ++ '\n' :: rest) = dropReturn (current ++ cs) :: breakLines [] rest := by
  induction cs generalizing current with
  | nil => rw [List.nil_append, breakLines, if_pos rfl, List.append_nil]
  | cons c cs ih =>
      rw [List.mem_cons, not_or] at h
      rw [List.cons_append, breakLines, if_neg (Ne.symm h.1), ih h.2, List.append_assoc,
        List.singleton_append]

theorem dropReturn_of_not_mem {cs : List Char} (h : '\r' ∉ cs) : dropReturn cs = cs := by
  rw [dropReturn, if_neg]
  intro hlast
  exact h (List.mem_of_getLast? hlast)

/-- A text that is made of lines has these lines. -/
theorem lines_join {ls : List String} (h : ∀ l ∈ ls, '\n' ∉ l.toList ∧ '\r' ∉ l.toList) :
    lines (String.join (ls.map fun l => l ++ "\n")) = ls := by
  induction ls with
  | nil => rfl
  | cons l ls ih =>
      obtain ⟨⟨hfeed, hreturn⟩, hls⟩ := List.forall_mem_cons.1 h
      have htext : (String.join ((l :: ls).map fun l => l ++ "\n")).toList =
          l.toList ++ '\n' :: (String.join (ls.map fun l => l ++ "\n")).toList := by
        rw [List.map_cons, String.join_cons, String.toList_append, String.toList_append]
        simp
      have hmore := ih hls
      rw [lines] at hmore ⊢
      rw [htext, breakLines_append hfeed, List.nil_append, dropReturn_of_not_mem hreturn,
        List.map_cons, hmore, dropReturn_of_not_mem hreturn, String.ofList_toList]

theorem length_lines (text : String) : (lines text).length = (splitLines (bytes text)).length := by
  rw [← List.length_map some, ← map_lineText?_splitLines, List.length_map]

end Text

/-- All lines of a text are reached. -/
theorem Options.texts_splitLines_bytes (text : String) :
    texts (Text.splitLines (Text.bytes text)) = Text.lines text := by
  rw [texts, Text.map_lineText?_splitLines]
  generalize Text.lines text = ls
  induction ls with
  | nil => rfl
  | cons l ls ih => exact congrArg (List.cons l) ih

end ExprTree
