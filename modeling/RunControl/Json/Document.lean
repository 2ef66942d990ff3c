/-
RunControl/Json/Document.lean

JSON texts as trees.  A document keeps what a text says and a value does not:
numbers as written, members in order with their repetitions, and strings that
escape half of a surrogate pair and so have no characters (`none`).  What a
document means depends on the place it stands in; a part that nobody asks for
only has to be well formed.

`Document.ofText?` reads a whole text: one value with white space around it.
-/
import RunControl.Json.Numeral

namespace RunControl.Json

/-- A JSON text as a tree. -/
inductive Document where
  | null
  | bool (value : Bool)
  | number (numeral : Numeral)
  | string (text : Option String)
  | array (items : List Document)
  | object (members : List (Option String × Document))
  deriving Inhabited

namespace Document

/-! ### White space and literals -/

/-- The white space of JSON: blank, tab, line feed and carriage return. -/
def isSpace (c : Char) : Bool :=
  c == ' ' || c == '\t' || c == '\n' || c == '\r'

/-- The characters after the white space. -/
def skipSpace (cs : List Char) : List Char :=
  cs.dropWhile isSpace

/-- The characters after a word that they start with. -/
def after? : List Char → List Char → Option (List Char)
  | [], cs => some cs
  | w :: word, c :: cs => if w = c then after? word cs else none
  | _ :: _, [] => none

/-! ### Strings -/

/-- One element of a string: a character, or half of a surrogate pair. -/
inductive Piece where
  | char (c : Char)
  | half (n : Nat)

/-- The value of four hexadecimal digits. -/
def hexFour? : List Char → Option (Nat × List Char)
  | a :: b :: c :: d :: r => do
    let a ← Text.hexValue? a
    let b ← Text.hexValue? b
    let c ← Text.hexValue? c
    let d ← Text.hexValue? d
    pure (((a * 16 + b) * 16 + c) * 16 + d, r)
  | _ => none

/-- The element that a code unit stands for. -/
def Piece.ofUnit (n : Nat) : Piece :=
  if 0xD800 ≤ n ∧ n < 0xE000 then .half n else .char (Char.ofNat n)

/-- The elements of a string up to its closing quote, and what comes after. The
first argument bounds the number of elements. -/
def pieces : Nat → List Char → Option (List Piece × List Char)
  | 0, _ => none
  | _, [] => none
  | _, '"' :: r => some ([], r)
  | n + 1, '\\' :: e :: r =>
    let plain (c : Char) := (pieces n r).map fun (ps, r) => (Piece.char c :: ps, r)
    match e with
    | '"' => plain '"'
    | '\\' => plain '\\'
    | '/' => plain '/'
    | 'b' => plain '\x08'
    | 'f' => plain '\x0c'
    | 'n' => plain '\n'
    | 'r' => plain '\r'
    | 't' => plain '\t'
    | 'u' => do
      let (unit, r) ← hexFour? r
      let (ps, r) ← pieces n r
      pure (Piece.ofUnit unit :: ps, r)
    | _ => none
  | n + 1, c :: r =>
    if c.toNat < 0x20 ∨ c = '\\' then none
    else (pieces n r).map fun (ps, r) => (.char c :: ps, r)

/-- The characters of a string; `none` if half of a surrogate pair stands alone. -/
def joinPieces : List Piece → Option (List Char)
  | [] => some []
  | .char c :: ps => (joinPieces ps).map (c :: ·)
  | .half h :: .half l :: ps =>
    if h < 0xDC00 ∧ 0xDC00 ≤ l then
      (joinPieces ps).map (Char.ofNat (0x10000 + (h - 0xD800) * 0x400 + (l - 0xDC00)) :: ·)
    else none
  | .half _ :: _ => none

/-- Reads a string after its opening quote. -/
def string? (cs : List Char) : Option (Option String × List Char) :=
  (pieces (cs.length + 1) cs).map fun (ps, r) => ((joinPieces ps).map String.ofList, r)

/-! ### Numbers -/

/-- The digits that a text starts with. -/
def digits (cs : List Char) : List Char × List Char :=
  (cs.takeWhile Char.isDigit, cs.dropWhile Char.isDigit)

/-- Reads at least one digit. -/
def digits? (cs : List Char) : Option (List Char × List Char) :=
  match digits cs with
  | ([], _) => none
  | found => some found

/-- Reads the digits before the point: a single zero, or digits that start with
another one. -/
def whole? : List Char → Option (List Char × List Char)
  | '0' :: r => some (['0'], r)
  | cs => digits? cs

/-- Reads the fraction, if there is one. -/
def fraction? : List Char → Option (Option (List Char) × List Char)
  | '.' :: r => (digits? r).map fun (ds, r) => (some ds, r)
  | cs => some (none, cs)

/-- Reads the sign and the digits of an exponent. -/
def exponentValue? : List Char → Option (Int × List Char)
  | '-' :: r => (digits? r).map fun (ds, r) => (-(Text.ofDigits ds : Int), r)
  | '+' :: r => (digits? r).map fun (ds, r) => ((Text.ofDigits ds : Int), r)
  | cs => (digits? cs).map fun (ds, r) => ((Text.ofDigits ds : Int), r)

/-- Reads the exponent, if there is one. -/
def exponent? : List Char → Option (Option Int × List Char)
  | 'e' :: r => (exponentValue? r).map fun (x, r) => (some x, r)
  | 'E' :: r => (exponentValue? r).map fun (x, r) => (some x, r)
  | cs => some (none, cs)

/-- Reads a number after its sign. -/
def unsigned? (negative : Bool) (cs : List Char) : Option (Numeral × List Char) := do
  let (whole, cs) ← whole? cs
  let (fraction, cs) ← fraction? cs
  let (exponent, cs) ← exponent? cs
  pure ({ negative, whole, fraction, exponent }, cs)

/-- Reads a number. -/
def numeral? : List Char → Option (Numeral × List Char)
  | '-' :: r => unsigned? true r
  | cs => unsigned? false cs

/-! ### Values -/

mutual

/-- Reads a value that starts at the first character. The first argument bounds
the depth of the recursion. -/
def value? : Nat → List Char → Option (Document × List Char)
  | 0, _ => none
  | _, [] => none
  | n + 1, c :: r =>
    match c with
    | 'n' => (after? "ull".toList r).map fun r => (null, r)
    | 't' => (after? "rue".toList r).map fun r => (bool true, r)
    | 'f' => (after? "alse".toList r).map fun r => (bool false, r)
    | '"' => (string? r).map fun (s, r) => (string s, r)
    | '[' =>
      match skipSpace r with
      | ']' :: r => some (array [], r)
      | r => (items? n r).map fun (ds, r) => (array ds, r)
    | '\x7b' =>
      match skipSpace r with
      | '\x7d' :: r => some (object [], r)
      | r => (members? n r).map fun (ms, r) => (object ms, r)
    | _ => (numeral? (c :: r)).map fun (x, r) => (number x, r)

/-- Reads values with commas between them, up to the closing bracket. -/
def items? : Nat → List Char → Option (List Document × List Char)
  | 0, _ => none
  | n + 1, cs => do
    let (d, r) ← value? n (skipSpace cs)
    match skipSpace r with
    | ']' :: r => pure ([d], r)
    | ',' :: r =>
      let (ds, r) ← items? n r
      pure (d :: ds, r)
    | _ => none

/-- Reads members with commas between them, up to the closing brace. -/
def members? : Nat → List Char → Option (List (Option String × Document) × List Char)
  | 0, _ => none
  | n + 1, cs =>
    match skipSpace cs with
    | '"' :: r => do
      let (k, r) ← string? r
      match skipSpace r with
      | ':' :: r =>
        let (d, r) ← value? n (skipSpace r)
        match skipSpace r with
        | '\x7d' :: r => pure ([(k, d)], r)
        | ',' :: r =>
          let (ms, r) ← members? n r
          pure ((k, d) :: ms, r)
        | _ => none
      | _ => none
    | _ => none

end

/-- The document that some characters write, with white space around it. -/
def ofChars? (cs : List Char) : Option Document :=
  match value? (2 * cs.length + 2) (skipSpace cs) with
  | some (d, r) => if (skipSpace r).isEmpty then some d else none
  | none => none

/-- The document that a text writes. -/
def ofText? (s : String) : Option Document :=
  ofChars? s.toList

end Document

end RunControl.Json
