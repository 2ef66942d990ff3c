/-
RunControl/Toml/Scalar.lean

The values of TOML that hold no others: strings, numbers, truth values, dates
and times.  Each scan reads one of them from the front of a text.

Numbers may have single underscores between their digits.  A floating-point
number that is too great to be finite is refused, while one that is too small
in the same sense is negative infinity.
-/
import RunControl.Calendar
import RunControl.Text.Scan
import RunControl.Toml

namespace RunControl.Toml

open Text

/-! ### Characters -/

/-- Blanks and tabs. -/
def isSpace (c : Char) : Bool :=
  c == ' ' || c == '\t'

/-- The characters that may stand in a comment: all but the controls of ASCII,
the tab excepted. -/
def isText (c : Char) : Bool :=
  c == '\t' || (0x20 ≤ c.toNat && c.toNat != 0x7f)

/-- The end of a line. -/
def newline : Scan Unit
  | '\n' :: r => some ((), r)
  | '\r' :: '\n' :: r => some ((), r)
  | _ => none

/-- Blanks and tabs. -/
def spaces : Scan Unit := do
  let _ ← Scan.takeWhile isSpace

/-- A comment, up to the end of the line. -/
def comment : Scan Unit := do
  let _ ← Scan.one '#'
  let _ ← Scan.takeWhile isText

/-! ### Strings -/

/-- The value of `n` hexadecimal digits. -/
def hexadecimal : Nat → Nat → Scan Nat
  | 0, value => pure value
  | n + 1, value => do
    let c ← Scan.char fun c => (hexValue? c).isSome
    hexadecimal n (16 * value + (hexValue? c).getD 0)

/-- The character with a number. -/
def character (n : Nat) : Scan Char :=
  if n.isValidChar then pure (Char.ofNat n) else failure

/-- A character that is written with a backslash. -/
def escaped : Scan Char := do
  let _ ← Scan.one '\\'
  let c ← Scan.char fun _ => true
  match c with
  | 'b' => pure '\x08'
  | 't' => pure '\t'
  | 'n' => pure '\n'
  | 'f' => pure '\x0c'
  | 'r' => pure '\r'
  | '"' => pure '"'
  | '\\' => pure '\\'
  | 'u' => do character (← hexadecimal 4 0)
  | 'U' => do character (← hexadecimal 8 0)
  | _ => failure

/-- A character of a string that is enclosed by `quote`; in a literal string a
backslash stands for itself. -/
def plain (quote : Char) : Scan Char :=
  Scan.char fun c => isText c && c != quote && (quote == '\'' || c != '\\')

/-- A string on one line with escapes. -/
def basicString : Scan String := do
  let _ ← Scan.one '"'
  let cs ← Scan.many (plain '"' <|> escaped)
  let _ ← Scan.one '"'
  pure (String.ofList cs)

/-- A string on one line without escapes. -/
def literalString : Scan String := do
  let _ ← Scan.one '\''
  let cs ← Scan.takeWhile fun c => isText c && c != '\''
  let _ ← Scan.one '\''
  pure (String.ofList cs)

/-- One or two quotes inside a string of several lines. -/
def fewQuotes (quote : Char) : Scan (List Char) := do
  let run ← Scan.takeSome (· == quote)
  if run.length < 3 then pure run else failure

/-- The three quotes that end a string of several lines; up to two more before
them belong to the string. -/
def lastQuotes (quote : Char) : Scan (List Char) := do
  let run ← Scan.takeSome (· == quote)
  if 3 ≤ run.length ∧ run.length ≤ 5 then pure (run.drop 3) else failure

/-- A backslash at the end of a line, which joins it to the next text. -/
def continuation : Scan (List Char) := do
  let _ ← Scan.one '\\'
  spaces
  newline
  let _ ← Scan.many (newline <|> do let _ ← Scan.takeSome isSpace)
  pure []

/-- The end of a line inside a string. -/
def lineBreak : Scan (List Char) := do
  newline
  pure ['\n']

/-- A string of several lines; a line break right after the opening is dropped. -/
def longString (quote : Char) (part : Scan (List Char)) : Scan String := do
  Scan.word [quote, quote, quote]
  let _ ← Scan.maybe newline
  let parts ← Scan.many (fewQuotes quote <|> lineBreak <|> part)
  let rest ← lastQuotes quote
  pure (String.ofList (parts.flatten ++ rest))

/-- A string of several lines with escapes. -/
def longBasicString : Scan String :=
  longString '"' (continuation <|> List.singleton <$> (plain '"' <|> escaped))

/-- A string of several lines without escapes. -/
def longLiteralString : Scan String :=
  longString '\'' (List.singleton <$> plain '\'')

/-- A string. -/
def string : Scan String :=
  longBasicString <|> longLiteralString <|> basicString <|> literalString

/-! ### Numbers -/

/-- Digits that may have single underscores between them. -/
def digitRun (isDigit : Char → Bool) : Scan (List Char) := do
  let d ← Scan.char isDigit
  let ds ← Scan.many (Scan.char isDigit <|> do let _ ← Scan.one '_'; Scan.char isDigit)
  pure (d :: ds)

/-- A sign, which may be missing. -/
def sign : Scan Bool := do
  let c ← Scan.maybe (Scan.char fun c => c == '+' || c == '-')
  pure (c == some '-')

/-- The digits of a decimal number: a zero, or digits that start with none. -/
def wholeDigits : Scan (List Char) :=
  (do let _ ← Scan.one '0'; pure ['0']) <|> digitRun Char.isDigit

/-- The value of digits in a base. -/
def valueIn (base : Nat) (digits : List Char) : Nat :=
  digits.foldl (fun n c => base * n + (hexValue? c).getD 0) 0

/-- A number in base sixteen, eight or two. -/
def basedNumber : Scan Nat := do
  let _ ← Scan.one '0'
  let c ← Scan.char fun c => c == 'x' || c == 'o' || c == 'b'
  let base := if c == 'x' then 16 else if c == 'o' then 8 else 2
  let digits ← digitRun fun c =>
    match hexValue? c with
    | some v => v < base
    | none => false
  pure (valueIn base digits)

/-- An integer of 64 bits. -/
def integer : Scan Int := do
  let n ← (Int.ofNat <$> basedNumber) <|> do
    let negative ← sign
    let digits ← wholeDigits
    pure (if negative then -(ofDigits digits : Int) else ofDigits digits)
  if -(Nat.pow 2 63 : Int) ≤ n ∧ n < (Nat.pow 2 63 : Int) then pure n else failure

/-- The fraction of a floating-point number. -/
def fraction : Scan (List Char) := do
  let _ ← Scan.one '.'
  digitRun Char.isDigit

/-- The exponent of a floating-point number. -/
def exponent : Scan Int := do
  let _ ← Scan.char fun c => c == 'e' || c == 'E'
  let negative ← sign
  let digits ← digitRun Char.isDigit
  pure (if negative then -(ofDigits digits : Int) else ofDigits digits)

/-- A floating-point number in digits, with a fraction, an exponent or both. -/
def decimalFloat : Scan Binary64 := do
  let negative ← sign
  let whole ← wholeDigits
  let fraction ← Scan.maybe fraction
  let exponent ← Scan.maybe exponent
  if fraction.isNone && exponent.isNone then failure
  else
    let digits := whole ++ fraction.getD []
    let value := Binary64.ofDigits negative digits (whole.length + exponent.getD 0)
    if value = .infinite false then failure else pure value

/-- Infinity and `nan`. -/
def specialFloat : Scan Binary64 := do
  let negative ← sign
  (do Scan.word ['i', 'n', 'f']; pure (.infinite negative)) <|>
    (do Scan.word ['n', 'a', 'n']; pure .nan)

/-- A floating-point number. -/
def float : Scan Binary64 :=
  decimalFloat <|> specialFloat

/-- A truth value. -/
def boolean : Scan Bool :=
  (do Scan.word ['t', 'r', 'u', 'e']; pure true) <|>
    (do Scan.word ['f', 'a', 'l', 's', 'e']; pure false)

/-! ### Dates and times -/

/-- A date that the calendar has. -/
def localDate : Scan LocalDate := do
  let year ← Scan.number 4
  let _ ← Scan.one '-'
  let month ← Scan.number 2
  let _ ← Scan.one '-'
  let day ← Scan.number 2
  if (Calendar.Date.of? year month day).isSome then pure { year, month, day } else failure

/-- The fraction of a second in nanoseconds; nine of its digits count. -/
def secondFraction : Scan Nat := do
  let _ ← Scan.one '.'
  let digits ← Scan.takeSome Char.isDigit
  pure (ofDigits ((digits ++ List.replicate 9 '0').take 9))

/-- A time of day; a leap second has the number 60. -/
def localTime : Scan LocalTime := do
  let hour ← Scan.numberBelow 2 24
  let _ ← Scan.one ':'
  let minute ← Scan.numberBelow 2 60
  let _ ← Scan.one ':'
  let second ← Scan.numberBelow 2 61
  let nanos ← Scan.maybe secondFraction
  pure { hour, minute, second, nanos := nanos.getD 0 }

/-- The distance from UTC. -/
def offset : Scan Offset := do
  let c ← Scan.char fun c => c == 'Z' || c == 'z' || c == '+' || c == '-'
  if c == 'Z' || c == 'z' then pure .utc
  else
    let hour ← Scan.numberBelow 2 24
    let _ ← Scan.one ':'
    let minute ← Scan.numberBelow 2 60
    let minutes : Int := (60 * hour + minute : Nat)
    pure (.minutes (if c == '-' then -minutes else minutes))

/-- The time of day after a date, perhaps with a distance from UTC. -/
def timeAfterDate : Scan (LocalTime × Option Offset) := do
  let _ ← Scan.char fun c => c == 'T' || c == 't' || c == ' '
  let time ← localTime
  let offset ← Scan.maybe offset
  pure (time, offset)

/-- A date, a time of day, or both. -/
def datetime : Scan Datetime :=
  (do
    let date ← localDate
    match ← Scan.maybe timeAfterDate with
    | some (time, offset) => pure (.both date time offset)
    | none => pure (.date date)) <|>
  Datetime.time <$> localTime

end RunControl.Toml
