/-
RunControl/Text/Scan.lean

Reading a text from the front.  A scan takes what it needs off the front of the
characters that are left, or fails and takes nothing; `<|>` tries the next scan
at the same place.
-/
import RunControl.Text.Ascii

namespace RunControl.Text

/-- Reads something from the front of the characters that are left. -/
abbrev Scan :=
  StateT (List Char) Option

namespace Scan

variable {α β : Type}

/-- The next character, if it is one of those wanted. -/
def char (wanted : Char → Bool) : Scan Char
  | c :: r => if wanted c then some (c, r) else none
  | [] => none

/-- The given character. -/
def one (c : Char) : Scan Char :=
  char (· == c)

/-- The given characters. -/
def word : List Char → Scan Unit
  | [] => pure ()
  | c :: r => do
    let _ ← one c
    word r

/-- The wanted characters at the front, which may be none. -/
def takeWhile (wanted : Char → Bool) : Scan (List Char) := fun cs =>
  some (cs.takeWhile wanted, cs.dropWhile wanted)

/-- The wanted characters at the front, at least one. -/
def takeSome (wanted : Char → Bool) : Scan (List Char) := do
  let cs ← takeWhile wanted
  if cs.isEmpty then failure else pure cs

/-- The number that exactly `n` digits stand for. -/
def number (n : Nat) : Scan Nat := fun cs =>
  let digits := cs.take n
  if digits.length = n ∧ digits.all Char.isDigit then some (ofDigits digits, cs.drop n)
  else none

/-- The number that exactly `n` digits stand for, if it lies below `bound`. -/
def numberBelow (n bound : Nat) : Scan Nat := do
  let m ← number n
  if m < bound then pure m else failure

/-- Something that may be missing. -/
def maybe (s : Scan α) : Scan (Option α) := fun cs =>
  match s cs with
  | some (a, r) => some (some a, r)
  | none => some (none, cs)

/-- What a scan reads as often as it succeeds and takes something. -/
def manyFrom (s : Scan α) (cs : List Char) : List α × List Char :=
  match s cs with
  | some (a, r) =>
    if r.length < cs.length then
      let (as, r) := manyFrom s r
      (a :: as, r)
    else ([], cs)
  | none => ([], cs)
termination_by cs.length

/-- What a scan reads as often as it succeeds and takes something. -/
def many (s : Scan α) : Scan (List α) := fun cs =>
  some (manyFrom s cs)

/-- One or more with a separator between neighbours. -/
def sepBy (s : Scan α) (sep : Scan β) : Scan (List α) := do
  let a ← s
  let as ← many (do let _ ← sep; s)
  pure (a :: as)

/-- The end of the text. -/
def atEnd : Scan Unit
  | [] => some ((), [])
  | _ :: _ => none

/-- What a scan reads if it takes the whole text. -/
def whole? (s : Scan α) (cs : List Char) : Option α :=
  match s cs with
  | some (a, []) => some a
  | _ => none

end Scan

end RunControl.Text
