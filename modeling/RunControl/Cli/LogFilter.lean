/-
RunControl/Cli/LogFilter.lean

How much is logged is said by a list of directives with commas between them.  A
directive names a level, or a part of the program and a level for it, or a span
in brackets, which may hold fields in braces: `info`, `store=debug`,
`store[fetch]=trace`.  Nothing is logged here; what matters is whether a list is
well formed, since the program does not start otherwise.
-/
import RunControl.Text.Blank
import RunControl.Text.Quoted

namespace RunControl.Cli.LogFilter

open Text

/-- What is wrong with a directive. -/
inductive Flaw where
  /-- It does not have the form of a directive. -/
  | form
  /-- What stands after the equals sign is no level. -/
  | level
  deriving DecidableEq, Inhabited

/-- The text of a flaw. -/
def Flaw.text : Flaw → String
  | form => "invalid filter directive"
  | level =>
    let reason := "error parsing level filter: expected one of \"off\", \"error\", " ++
      "\"warn\", \"info\", \"debug\", \"trace\", or a number 0-5"
    reason ++ ": " ++ reason

/-- Whether a text names a level, by a word or by a number from 0 to 5. -/
def isLevel (cs : List Char) : Bool :=
  let digits :=
    match cs with
    | '+' :: ds => ds
    | _ => cs
  ["off", "error", "warn", "info", "debug", "trace"].any (alike (String.ofList cs)) ||
    (!digits.isEmpty && digits.all Char.isDigit && ofDigits digits ≤ 5)

/-- How far a directive has been read. -/
inductive Progress where
  | start
  | target
  | span
  /-- In a field, which has characters or has none yet. -/
  | field (isEmpty : Bool)
  | fields
  | afterSpan
  /-- After the equals sign; `rest` is what follows it. -/
  | level (rest : List Char)

/-- Whether a directive may start with a character. Characters beyond ASCII are
taken for letters. -/
def mayStart (c : Char) : Bool :=
  c = '-' || c = ':' || c = '_' || c.isAlphanum || 0x80 ≤ c.toNat

/-- Reads one character; `rest` is what follows it. -/
def step (rest : List Char) : Progress → Char → Option Progress
  | .start, '[' => some .span
  | .start, c => if mayStart c then some .target else none
  | .target, '=' => some (.level rest)
  | .target, '[' => some .span
  | .target, _ => some .target
  | .span, ']' => some .afterSpan
  | .span, '\x7b' => some (.field true)
  | .span, _ => some .span
  | .field isEmpty, '\x7d' => if isEmpty then none else some .fields
  | .field _, _ => some (.field false)
  | .fields, ']' => some .afterSpan
  | .fields, _ => none
  | .afterSpan, '=' => some (.level rest)
  | .afterSpan, _ => none
  | .level text, _ => some (.level text)

/-- Reads the characters `cs`. `raw` is the directive as it was written, from the
same place on, blanks around it included; a level is taken from there. -/
def progress : Progress → List Char → List Char → Option Progress
  | p, [], _ => some p
  | p, c :: cs, raw =>
    match step raw.tail p c with
    | some p => progress p cs raw.tail
    | none => none

/-- What is wrong with a directive, if anything is. -/
def flaw? (directive : List Char) : Option Flaw :=
  match progress .start (trimChars directive) directive with
  | some .target | some .afterSpan => none
  | some (.level text) => if text.isEmpty || isLevel text then none else some .level
  | _ => some .form

/-- The parts of a text between its commas. -/
def directives (s : String) : List (List Char) :=
  s.toList.splitOnP (· == ',')

/-- Refuses a list with a directive that is not well formed. -/
def check (s : String) : Except String Unit :=
  match ((directives s).filter (!·.isEmpty)).findSome? flaw? with
  | some flaw => .error ("parse log level " ++ quoted s ++ ": " ++ flaw.text)
  | none => .ok ()

end RunControl.Cli.LogFilter
