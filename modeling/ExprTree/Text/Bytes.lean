set_option autoImplicit false

/-!
# Bytes of a text, lines of an input

Offsets into a source count the bytes of its UTF-8 form, while the source itself
is worked on as a list of characters.  `byteSize` is the bridge between the two;
`decode?` reads a text from bytes, if they are the UTF-8 form of one.

An input is a list of bytes, and a line ends at a line feed.  A carriage return
right before the line feed belongs to the line end; what follows the last line feed
is a line if it is not empty.  Each line is then text, or the input is not: lines are
decoded one by one, and one more carriage return at the end of a line is dropped.
-/

namespace ExprTree.Text

/-- The number of bytes of the UTF-8 form. -/
def byteSize (cs : List Char) : Nat := cs.foldr (fun c size => c.utf8Size + size) 0

@[simp] theorem byteSize_nil : byteSize [] = 0 := rfl

@[simp] theorem byteSize_cons (c : Char) (cs : List Char) :
    byteSize (c :: cs) = c.utf8Size + byteSize cs := rfl

@[simp] theorem byteSize_append (cs ds : List Char) :
    byteSize (cs ++ ds) = byteSize cs + byteSize ds := by
  induction cs with
  | nil => simp
  | cons c cs ih => rw [List.cons_append, byteSize_cons, byteSize_cons, ih, Nat.add_assoc]

theorem byteSize_eq_zero_iff {cs : List Char} : byteSize cs = 0 ↔ cs = [] := by
  cases cs with
  | nil => simp
  | cons c cs =>
    have := Char.utf8Size_pos c
    simp only [byteSize_cons, reduceCtorEq, iff_false]
    omega

/-- The measure is the size of the stored string. -/
theorem byteSize_toList (s : String) : byteSize s.toList = s.utf8ByteSize := by
  have h : ∀ cs : List Char, cs.utf8Encode.size = byteSize cs := by
    intro cs
    induction cs with
    | nil => rfl
    | cons c cs ih =>
      rw [List.utf8Encode_cons, ByteArray.size_append, ih, byteSize_cons,
        List.utf8Encode_singleton, List.size_toByteArray, String.length_utf8EncodeChar]
  rw [← h, String.utf8Encode_toList, String.size_toByteArray]

/-- The text that the bytes are the UTF-8 form of, if there is one. -/
def decode? (bytes : List UInt8) : Option String := String.fromUTF8? ⟨bytes.toArray⟩

/-! ## Lines -/

/-- The byte that ends a line. -/
def lineFeed : UInt8 := 10

/-- The byte that may stand before the end of a line. -/
def carriageReturn : UInt8 := 13

/-- A line kept in reverse, without a carriage return at its end. -/
def withoutReturn : List UInt8 → List UInt8
  | [] => []
  | b :: bs => if b = carriageReturn then bs else b :: bs

/-- Collects lines behind those already `found`, which are kept in reverse; `current` holds, in
reverse as well, the bytes of the line that is being read. -/
def collectLines (current : List UInt8) (found : List (List UInt8)) :
    List UInt8 → List (List UInt8)
  | [] => (if current.isEmpty then found else current.reverse :: found).reverse
  | b :: bs =>
    if b = lineFeed then collectLines [] ((withoutReturn current).reverse :: found) bs
    else collectLines (b :: current) found bs

/-- The lines of an input, without their ends. -/
def splitLines (bytes : List UInt8) : List (List UInt8) := collectLines [] [] bytes

/-- The text without a carriage return at its end. -/
def dropReturn (cs : List Char) : List Char :=
  if cs.getLast? = some '\r' then cs.dropLast else cs

/-- The text of a line, if its bytes are those of a text. -/
def lineText? (bytes : List UInt8) : Option String :=
  (decode? bytes).map fun s => String.ofList (dropReturn s.toList)

/-- Whether nothing but spaces is on a line. -/
def isBlankLine (line : String) : Bool := line.toList.all fun c => c == ' '

/-! ## Inputs put together -/

theorem collectLines_eq_append (current : List UInt8) (found : List (List UInt8))
    (bytes : List UInt8) :
    collectLines current found bytes = found.reverse ++ collectLines current [] bytes := by
  induction bytes generalizing current found with
  | nil =>
    unfold collectLines
    split <;> simp
  | cons b bs ih =>
    unfold collectLines
    split
    · rw [ih [] (_ :: found), ih [] [_]]
      simp
    · exact ih (b :: current) found

/-- The lines up to a line feed do not depend on what follows it. -/
theorem splitLines_append_lineFeed (a b : List UInt8) :
    splitLines (a ++ lineFeed :: b) = splitLines (a ++ [lineFeed]) ++ splitLines b := by
  have h : ∀ current, collectLines current [] (a ++ lineFeed :: b) =
      collectLines current [] (a ++ [lineFeed]) ++ collectLines [] [] b := by
    induction a with
    | nil =>
      intro current
      simp only [List.nil_append, collectLines, if_true, List.isEmpty_nil]
      exact collectLines_eq_append [] _ b
    | cons c cs ih =>
      intro current
      simp only [List.cons_append, collectLines]
      split
      · rw [collectLines_eq_append, ih [], collectLines_eq_append [] [_] (cs ++ [lineFeed]),
          List.append_assoc]
      · exact ih (c :: current)
  exact h []

end ExprTree.Text
