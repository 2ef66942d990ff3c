/-
RunControl/Url/Percent.lean

Characters that stand for themselves in no address, or not in some part of it.
They are written as the bytes of their UTF-8 form, each as a percent sign and
two hexadecimal digits.
-/
import RunControl.Text.Ascii
import RunControl.Text.Utf8

namespace RunControl.Url

open Text

/-- A byte as a percent sign and two digits. -/
def percentByte (b : UInt8) : List Char :=
  ['%', (hexDigit (b.toNat / 16)).toUpper, (hexDigit (b.toNat % 16)).toUpper]

/-- Writes the characters that are not allowed as bytes. -/
def percentEncode (isSpecial : Char → Bool) (cs : List Char) : List Char :=
  cs.flatMap fun c => if isSpecial c then (Utf8.encodeChar c).flatMap percentByte else [c]

/-- The bytes of a text, those that are written with a percent sign among them. -/
def percentDecode : List Char → List UInt8
  | '%' :: a :: b :: r =>
    match hexValue? a, hexValue? b with
    | some x, some y => (16 * x + y).toUInt8 :: percentDecode r
    | _, _ => 0x25 :: percentDecode (a :: b :: r)
  | c :: r => Utf8.encodeChar c ++ percentDecode r
  | [] => []
termination_by cs => cs.length

/-! ### What is not allowed where -/

/-- Controls and everything beyond ASCII are allowed nowhere. -/
def isControl (c : Char) : Bool :=
  c.toNat < 0x20 || 0x7e < c.toNat

/-- Not allowed in a fragment. -/
def notInFragment (c : Char) : Bool :=
  isControl c || " \"<>`".toList.contains c

/-- Not allowed in a path. -/
def notInPath (c : Char) : Bool :=
  notInFragment c || "#?\x7b\x7d".toList.contains c

/-- Not allowed in a name or a password. -/
def notInUser (c : Char) : Bool :=
  notInPath c || "/:;=@[\\]^|".toList.contains c

/-- Not allowed in a query; an apostrophe only in some. -/
def notInQuery (apostrophe : Bool) (c : Char) : Bool :=
  isControl c || " \"#<>".toList.contains c || (apostrophe && c == '\'')

end RunControl.Url
