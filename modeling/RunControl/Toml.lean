/-
RunControl/Toml.lean

TOML values.  Dates and times are kept in the parts that are written: a date, a
time of day, or both, the latter perhaps with a distance from UTC.
-/
import RunControl.Json

namespace RunControl.Toml

/-! ### Dates and times -/

/-- A date. -/
structure LocalDate where
  year : Nat
  month : Nat
  day : Nat
  deriving DecidableEq, Inhabited

/-- A time of day. -/
structure LocalTime where
  hour : Nat
  minute : Nat
  second : Nat
  nanos : Nat
  deriving DecidableEq, Inhabited

/-- The distance from UTC. -/
inductive Offset where
  | utc
  | minutes (n : Int)
  deriving DecidableEq, Inhabited

/-- A date, a time of day, or both. -/
inductive Datetime where
  | date (date : LocalDate)
  | time (time : LocalTime)
  | both (date : LocalDate) (time : LocalTime) (offset : Option Offset)
  deriving DecidableEq, Inhabited

/-- A number with zeros in front so that it has at least `width` digits. -/
def padded (width n : Nat) : String :=
  let digits := Nat.toDigits 10 n
  String.ofList (List.replicate (width - digits.length) '0' ++ digits)

/-- The text of a date. -/
def LocalDate.text (d : LocalDate) : String :=
  padded 4 d.year ++ "-" ++ padded 2 d.month ++ "-" ++ padded 2 d.day

/-- The text of a time of day; zeros at the end of the fraction are left out. -/
def LocalTime.text (t : LocalTime) : String :=
  let fraction := ((padded 9 t.nanos).toList.reverse.dropWhile (· == '0')).reverse
  let clock := padded 2 t.hour ++ ":" ++ padded 2 t.minute ++ ":" ++ padded 2 t.second
  if fraction.isEmpty then clock else clock ++ "." ++ String.ofList fraction

/-- The text of a distance from UTC. -/
def Offset.text : Offset → String
  | utc => "Z"
  | minutes n =>
    (if n < 0 then "-" else "+") ++ padded 2 (n.natAbs / 60) ++ ":" ++ padded 2 (n.natAbs % 60)

/-- The text of a date and time; `T` stands between the two. -/
def Datetime.text : Datetime → String
  | date d => d.text
  | time t => t.text
  | both d t offset =>
    d.text ++ "T" ++ t.text ++
      match offset with
      | some o => o.text
      | none => ""

/-! ### Values -/

/-- A TOML value; the entries of a table stand in the order of the text. -/
inductive Value where
  | string (value : String)
  | integer (value : Int)
  | float (value : Binary64)
  | boolean (value : Bool)
  | datetime (value : Datetime)
  | array (items : List Value)
  | table (entries : List (String × Value))
  deriving Inhabited

namespace Value

/-- Floating-point numbers are written with an exponent from `1e16` on and below
`1e-4`, and the exponent has a sign only if it is negative. -/
def floatLayout : Binary64.Layout where
  leastPlain := -3
  greatestPlain := 16
  plus := false

/-- The key under which a date and time is written where there is no other form
for it. -/
def datetimeKey : String :=
  "$__toml_private_datetime"

mutual

/-- The JSON value of a value; a date and time is an object with one key. -/
def toJson : Value → Json
  | string s => .string s
  | integer i => .int i
  | float f => .double f
  | boolean b => .bool b
  | datetime d => .object [(datetimeKey, .string d.text)]
  | array items => .array (itemsToJson items)
  | table entries => .object (entriesToJson entries)

/-- The JSON values of items. -/
def itemsToJson : List Value → List Json
  | [] => []
  | v :: vs => v.toJson :: itemsToJson vs

/-- The JSON members of entries. -/
def entriesToJson : List (String × Value) → List (String × Json)
  | [] => []
  | (k, v) :: es => (k, v.toJson) :: entriesToJson es

end

end Value

end RunControl.Toml
