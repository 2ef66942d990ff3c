/-
RunControl/Timestamp.lean

Points in time as the backend writes them.  An instant is the number of
nanoseconds since the start of the year 0 in UTC.  Two notations are read: the
one of RFC 3339, which states its distance from UTC, and the plain one, a date
and a time of day in UTC with a blank between them.

A leap second cannot be told apart from the end of the second before it: it is
read as that second's last nanosecond, and only where one can be inserted, at
the end of a month in UTC.
-/
import RunControl.Calendar
import RunControl.Text.Blank
import RunControl.Text.Scan

namespace RunControl

open Calendar Text

/-! ### Times of day -/

/-- Hours and minutes. -/
structure HourMinute where
  hour : Nat
  minute : Nat
  deriving DecidableEq

namespace HourMinute

/-- The minutes of hours and minutes. -/
def minutes (t : HourMinute) : Nat :=
  60 * t.hour + t.minute

/-- Reads two digits for the hours, below 24, a colon, and two for the minutes,
below 60. -/
def scan : Scan HourMinute := do
  let hour ← Scan.numberBelow 2 24
  let _ ← Scan.one ':'
  let minute ← Scan.numberBelow 2 60
  pure { hour, minute }

end HourMinute

/-! ### Instants -/

/-- A point in time: the nanoseconds since the start of the year 0 in UTC. -/
abbrev Instant :=
  Int

namespace Timestamp

/-- The nanoseconds of a second. -/
def nanosPerSecond : Nat := 1000000000

/-- The instant of a date and a time of day, `offset` minutes ahead of UTC. -/
def instant (date : Date) (time : HourMinute) (second nanos : Nat) (offset : Int) : Instant :=
  ((date.dayNumber * 1440 + time.minutes - offset) * 60 + second) * nanosPerSecond + nanos

/-- Reads a date whose year, four digits, counts with this sign. -/
def scanDateOf (sign : Int) : Scan Date := do
  let year ← Scan.number 4
  let _ ← Scan.one '-'
  let month ← Scan.number 2
  let _ ← Scan.one '-'
  let day ← Scan.number 2
  Date.of? (sign * year) month day

/-- Reads a date whose year is four digits. -/
def scanDate : Scan Date :=
  scanDateOf 1

/-! ### The notation of RFC 3339 -/

/-- Nine digits are kept of the fraction of a second. -/
def fractionNanos (digits : List Char) : Nat :=
  Text.ofDigits ((digits ++ List.replicate 9 '0').take 9)

/-- Reads the fraction of a second: nothing, or a point and at least one digit. -/
def scanFraction : Scan Nat
  | '.' :: r => (fractionNanos <$> Scan.takeSome Char.isDigit) r
  | cs => some (0, cs)

/-- Reads the distance from UTC in minutes. -/
def scanOffset : Scan Int := do
  let c ← Scan.char fun c => c == 'Z' || c == 'z' || c == '+' || c == '-'
  if c == '+' then
    let t ← HourMinute.scan
    pure t.minutes
  else if c == '-' then
    let t ← HourMinute.scan
    pure (-t.minutes)
  else pure 0

/-- Whether a leap second can be inserted at the end of this minute: a month
ends with it in UTC. -/
def endsMonth (date : Date) (time : HourMinute) (offset : Int) : Bool :=
  let minute := date.dayNumber * 1440 + time.minutes - offset + 1
  minute == date.monthStart * 1440 || minute == date.nextMonthStart * 1440

/-- Reads an instant in the notation of RFC 3339. One character that is no digit
separates the date from the time. -/
def scanOffsetTime : Scan Instant := do
  let date ← scanDate
  let _ ← Scan.char fun c => c.toNat < 128 && !c.isDigit
  let time ← HourMinute.scan
  let _ ← Scan.one ':'
  let second ← Scan.numberBelow 2 61
  let nanos ← scanFraction
  let offset ← scanOffset
  if second < 60 then pure (instant date time second nanos offset)
  else if endsMonth date time offset then
    pure (instant date time 59 (nanosPerSecond - 1) offset)
  else failure

/-! ### The plain notation -/

/-- Reads a date whose year may have a sign. -/
def scanSignedDate : Scan Date
  | '+' :: r => scanDate r
  | '-' :: r => scanDateOf (-1) r
  | cs => scanDate cs

/-- Reads an instant in the plain notation. -/
def scanPlain : Scan Instant := do
  let date ← scanSignedDate
  let _ ← Scan.one ' '
  let time ← HourMinute.scan
  let _ ← Scan.one ':'
  let second ← Scan.numberBelow 2 60
  pure (instant date time second 0 0)

/-- Reads an instant in either notation; blanks around it do not count. -/
def parse? (s : String) : Option Instant :=
  let cs := trimChars s.toList
  Scan.whole? scanOffsetTime cs <|> Scan.whole? scanPlain cs

end Timestamp

/-! ### Elapsed time -/

/-- A length of time that is not negative. -/
structure Elapsed where
  seconds : Nat
  nanos : Nat
  deriving DecidableEq, Inhabited

namespace Elapsed

/-- The time from one instant to another that is not before it. -/
def between? (start finish : Instant) : Option Elapsed :=
  match finish - start with
  | .ofNat n =>
    some { seconds := n / Timestamp.nanosPerSecond, nanos := n % Timestamp.nanosPerSecond }
  | .negSucc _ => none

end Elapsed

end RunControl
