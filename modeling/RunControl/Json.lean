/-
RunControl/Json.lean

JSON values and their texts.  A number is an integer or a binary floating-point
number; the members of an object stand in the order in which they are written.

`compact` writes a value without any white space, `pretty` with two blanks per
level.  In both a string escapes the quote, the backslash and the controls
below U+0020, the common ones of those by a letter, and nothing else.
-/
import RunControl.Binary64.Decimal
import RunControl.Text.Ascii
import RunControl.Dict

namespace RunControl

/-- A JSON value. -/
inductive Json where
  | null
  | bool (value : Bool)
  | int (value : Int)
  | double (value : Binary64)
  | string (value : String)
  | array (items : List Json)
  | object (members : List (String × Json))
  deriving Inhabited

namespace Json

/-! ### Equality -/

mutual

/-- Equality of values, numbers compared as numbers: the two zeros are equal. -/
def same : Json → Json → Bool
  | null, null => true
  | bool a, bool b => a == b
  | int a, int b => a == b
  | double a, double b => a.same b
  | string a, string b => a == b
  | array as, array bs => sameItems as bs
  | object as, object bs => sameMembers as bs
  | _, _ => false

/-- Equality of lists of values. -/
def sameItems : List Json → List Json → Bool
  | [], [] => true
  | a :: as, b :: bs => same a b && sameItems as bs
  | _, _ => false

/-- Equality of lists of members. -/
def sameMembers : List (String × Json) → List (String × Json) → Bool
  | [], [] => true
  | (k, a) :: as, (l, b) :: bs => k == l && same a b && sameMembers as bs
  | _, _ => false

end

instance : BEq Json := ⟨same⟩

/-! ### Building objects -/

/-- A member that is left out when there is no value. -/
def maybe (key : String) (value : Option Json) : List (String × Json) :=
  value.toList.map fun v => (key, v)

/-- The object of a map's entries. -/
def ofDict {α : Type} (f : α → Json) (m : Dict α) : Json :=
  object (m.entries.map fun e => (e.1, f e.2))

/-! ### Strings and numbers -/

/-- A character inside the quotes. -/
def escape (c : Char) : List Char :=
  match c with
  | '"' => ['\\', '"']
  | '\\' => ['\\', '\\']
  | '\x08' => ['\\', 'b']
  | '\x0c' => ['\\', 'f']
  | '\n' => ['\\', 'n']
  | '\r' => ['\\', 'r']
  | '\t' => ['\\', 't']
  | c =>
    if c.toNat < 0x20 then
      ['\\', 'u', '0', '0', Text.hexDigit (c.toNat / 16), Text.hexDigit (c.toNat % 16)]
    else [c]

/-- A text between quotes. -/
def quote (s : String) : List Char :=
  '"' :: s.toList.flatMap escape ++ ['"']

/-- Floating-point numbers are written with an exponent from `1e+16` on and
below `1e-5`. -/
def numberLayout : Binary64.Layout where
  leastPlain := -4
  greatestPlain := 16
  plus := true

/-- A floating-point number; JSON has no text for the infinite ones and for
`nan`, and `null` stands for them. -/
def doubleText (d : Binary64) : List Char :=
  if d.isFinite then (numberLayout.write d).toList else "null".toList

/-- An integer. -/
def intText (i : Int) : List Char :=
  if i < 0 then '-' :: Nat.toDigits 10 i.natAbs else Nat.toDigits 10 i.natAbs

/-! ### Compact texts -/

mutual

/-- The characters of a value without white space. -/
def compactChars : Json → List Char
  | null => "null".toList
  | bool b => (if b then "true" else "false").toList
  | int i => intText i
  | double d => doubleText d
  | string s => quote s
  | array items => '[' :: compactItems items ++ [']']
  | object members => '\x7b' :: compactMembers members ++ ['\x7d']

/-- Values with commas between them. -/
def compactItems : List Json → List Char
  | [] => []
  | [a] => compactChars a
  | a :: b :: r => compactChars a ++ ',' :: compactItems (b :: r)

/-- Members with commas between them. -/
def compactMembers : List (String × Json) → List Char
  | [] => []
  | [(k, a)] => quote k ++ ':' :: compactChars a
  | (k, a) :: b :: r => quote k ++ ':' :: compactChars a ++ ',' :: compactMembers (b :: r)

end

/-- The text of a value without white space. -/
def compact (j : Json) : String :=
  String.ofList j.compactChars

/-! ### Indented texts -/

/-- The start of a line at a level. -/
def newline (level : Nat) : List Char :=
  '\n' :: List.replicate (2 * level) ' '

mutual

/-- The characters of a value that stands at a level. -/
def prettyChars (level : Nat) : Json → List Char
  | array [] => ['[', ']']
  | array (a :: r) =>
    '[' :: prettyItems (level + 1) (a :: r) ++ newline level ++ [']']
  | object [] => ['\x7b', '\x7d']
  | object (m :: r) =>
    '\x7b' :: prettyMembers (level + 1) (m :: r) ++ newline level ++ ['\x7d']
  | null => "null".toList
  | bool b => (if b then "true" else "false").toList
  | int i => intText i
  | double d => doubleText d
  | string s => quote s

/-- Values on lines of their own. -/
def prettyItems (level : Nat) : List Json → List Char
  | [] => []
  | [a] => newline level ++ prettyChars level a
  | a :: b :: r => newline level ++ prettyChars level a ++ ',' :: prettyItems level (b :: r)

/-- Members on lines of their own. -/
def prettyMembers (level : Nat) : List (String × Json) → List Char
  | [] => []
  | [(k, a)] => newline level ++ quote k ++ ':' :: ' ' :: prettyChars level a
  | (k, a) :: b :: r =>
    newline level ++ quote k ++ ':' :: ' ' :: prettyChars level a ++
      ',' :: prettyMembers level (b :: r)

end

/-- The text of a value, two blanks per level. -/
def pretty (j : Json) : String :=
  String.ofList (j.prettyChars 0)

end Json

end RunControl
