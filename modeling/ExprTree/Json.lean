set_option autoImplicit false

/-!
# Compact JSON documents

The documents that a tree is written as: scalars and objects, no arrays.  Members
keep the order in which they are given.  The compact form has no blanks and no
line breaks; a string is escaped where the JSON grammar demands it and nowhere
else, so every character from U+0020 on except `"` and `\` stands for itself.
-/

namespace ExprTree

/-- A JSON document without arrays. -/
inductive Json where
  | null
  | bool (b : Bool)
  | number (n : Int)
  | string (s : String)
  | object (members : List (String × Json))
  deriving Inhabited

namespace Json

/-! ## Strings -/

/-- The written form of one character inside a string. -/
def escape (c : Char) : List Char :=
  match c with
  | '"' => ['\\', '"']
  | '\\' => ['\\', '\\']
  | '\x08' => ['\\', 'b']
  | '\x0c' => ['\\', 'f']
  | '\n' => ['\\', 'n']
  | '\r' => ['\\', 'r']
  | '\t' => ['\\', 't']
  | c =>
    if c.toNat < 0x20 then
      ['\\', 'u', '0', '0', Nat.digitChar (c.toNat / 16), Nat.digitChar (c.toNat % 16)]
    else [c]

/-- A string between quotation marks. -/
def quoted (s : String) : String :=
  String.ofList ('"' :: (s.toList.flatMap escape ++ ['"']))

/-! ## Documents -/

mutual

/-- The document on one line, without blanks. -/
def compact : Json → String
  | null => "null"
  | bool b => if b then "true" else "false"
  | number n => n.repr
  | string s => quoted s
  | object members => "\x7b" ++ compactMembers members ++ "\x7d"

/-- The members of an object, separated by commas. -/
def compactMembers : List (String × Json) → String
  | [] => ""
  | [(name, value)] => quoted name ++ ":" ++ compact value
  | (name, value) :: next :: rest =>
    quoted name ++ ":" ++ compact value ++ "," ++ compactMembers (next :: rest)

end

/-- An object with a single member, as it names the case of a choice. -/
def tagged (tag : String) (content : Json) : Json := object [(tag, content)]

end Json

end ExprTree
