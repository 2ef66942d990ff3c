/-
RunControl/Text/Quoted.lean

A text in quotation marks, for messages that repeat what a user wrote.  Quotation
marks and backslashes are escaped, and characters that cannot be seen are written
by their number, so that the message stays on one line.
-/
import RunControl.Text.Ascii

namespace RunControl.Text

/-- Whether nothing can be seen of a character: controls, marks of direction and
of layout, separators of lines, and private characters. -/
def isHidden (c : Char) : Bool :=
  let n := c.toNat
  n < 0x20 || (0x7F ≤ n && n ≤ 0xA0) || n = 0xAD || (0x2000 ≤ n && n ≤ 0x200F) ||
  (0x2028 ≤ n && n ≤ 0x202F) || (0x205F ≤ n && n ≤ 0x206F) || n = 0x3000 ||
  (0xE000 ≤ n && n ≤ 0xF8FF) || n = 0xFEFF || 0xE0000 ≤ n

/-- The digits of a number in base sixteen. -/
def hexadecimal (n : Nat) : List Char :=
  Nat.toDigits 16 n

/-- A character as it stands between quotation marks. -/
def quotedChar (c : Char) : List Char :=
  if c = '"' ∨ c = '\\' then ['\\', c]
  else if c = '\n' then ['\\', 'n']
  else if c = '\r' then ['\\', 'r']
  else if c = '\t' then ['\\', 't']
  else if c.toNat = 0 then ['\\', '0']
  else if isHidden c then ['\\', 'u', '\x7b'] ++ hexadecimal c.toNat ++ ['\x7d']
  else [c]

/-- A text in quotation marks. -/
def quoted (s : String) : String :=
  String.ofList ('"' :: s.toList.flatMap quotedChar ++ ['"'])

end RunControl.Text
