/-
RunControl/Json/Decode.lean

Reading typed values out of documents.  A decoder is given the number of levels
of arrays and objects that it may still open; a text may open
`levelLimit` of them, parts that are skipped not counted.

Records are read member by member: a record is written as an object or as the
array of its members in order, and a member that is missing has a default, is
optional, or makes the text wrong.  A repeated member that the record knows
makes the text wrong as well, while of a repeated key in a map the last value
counts.
-/
import RunControl.Json.Document

namespace RunControl.Json

/-- Reads a value of a type, given how many levels it may still open. -/
abbrev Decoder (α : Type) :=
  Nat → Document → Option α

/-- How many arrays and objects may stand inside each other in the parts of a
text that are read. -/
def levelLimit : Nat := 127

namespace Decode

/-- Reads a text. -/
def ofText? {α : Type} (d : Decoder α) (s : String) : Option α := do
  d levelLimit (← Document.ofText? s)

/-! ### Plain values -/

/-- Reads a string. -/
def string : Decoder String
  | _, .string s => s
  | _, _ => none

/-- Reads a truth value. -/
def bool : Decoder Bool
  | _, .bool b => some b
  | _, _ => none

/-- Reads a natural number below `bound`. -/
def below (bound : Nat) : Decoder Nat
  | _, .number n =>
    match n.toInt? with
    | some (.ofNat m) => if m < bound then some m else none
    | _ => none
  | _, _ => none

/-- Reads `null` as nothing. -/
def nullable {α : Type} (d : Decoder α) : Decoder (Option α)
  | _, .null => some none
  | n, doc => (d n doc).map some

/-- Reads an array. -/
def list {α : Type} (d : Decoder α) : Decoder (List α)
  | n + 1, .array items => items.mapM (d n)
  | _, _ => none

/-- The members of an object whose keys all have characters. -/
def keyed (members : List (Option String × Document)) : Option (List (String × Document)) :=
  members.mapM fun (k, d) => k.map fun k => (k, d)

/-- Reads an object as a map; of a repeated key the last value counts. -/
def dict {α : Type} (d : Decoder α) : Decoder (Dict α)
  | n + 1, .object members => do
    let members ← keyed members
    let entries ← members.mapM fun (k, doc) => (d n doc).map fun a => (k, a)
    pure (Dict.ofList entries)
  | _, _ => none

/-- Reads a name: a string, or an object whose only member has that key and the
value `null`. -/
def name : Decoder String
  | _, .string s => s
  | _ + 1, .object [(k, .null)] => k
  | _, _ => none

mutual

/-- Reads any value. -/
def any : Nat → Document → Option Json
  | _, .null => some .null
  | _, .bool b => some (.bool b)
  | _, .number n => n.toJson?
  | _, .string s => s.map .string
  | 0, .array _ => none
  | n + 1, .array items => (anyItems n items).map .array
  | 0, .object _ => none
  | n + 1, .object members => (anyMembers n members).map fun ms =>
      .object (ms.foldl (fun es (k, a) => Entries.insert k a es) [])

/-- Reads any values. -/
def anyItems : Nat → List Document → Option (List Json)
  | _, [] => some []
  | n, d :: ds => do
    let a ← any n d
    let as ← anyItems n ds
    pure (a :: as)

/-- Reads any members, in order. -/
def anyMembers : Nat → List (Option String × Document) → Option (List (String × Json))
  | _, [] => some []
  | _, (none, _) :: _ => none
  | n, (some k, d) :: ms => do
    let a ← any n d
    let as ← anyMembers n ms
    pure ((k, a) :: as)

end

/-! ### Records -/

/-- The members of a record: those that the record knows, each at most once,
the others in order, and the levels that the values may still open. -/
structure Members where
  known : List (String × Document)
  others : List (String × Document)
  levels : Nat

/-- Sorts the members of an object into those with a known key and the others. -/
def membersOf (known : List String) : Nat → Document → Option Members
  | levels + 1, .object members => do
    let members ← keyed members
    let (ours, others) := members.partition fun (k, _) => known.contains k
    if (ours.map (·.1)).Nodup then pure { known := ours, others, levels } else none
  | _, _ => none

/-- The members of a record that may also be written as an array of its members
in order, where those at the end may be left out. -/
def recordOf (known : List String) : Nat → Document → Option Members
  | levels + 1, .array items =>
    if items.length ≤ known.length then
      some { known := known.zip items, others := [], levels }
    else none
  | levels, doc => membersOf known levels doc

namespace Members

/-- A member that has to be there. -/
def required {α : Type} (m : Members) (key : String) (d : Decoder α) : Option α := do
  d m.levels (← m.known.lookup key)

/-- A member that stands for `fallback` when it is missing. -/
def withDefault {α : Type} (m : Members) (key : String) (d : Decoder α) (fallback : α) :
    Option α :=
  match m.known.lookup key with
  | none => some fallback
  | some doc => d m.levels doc

/-- A member that may be missing or `null`. -/
def optional {α : Type} (m : Members) (key : String) (d : Decoder α) : Option (Option α) :=
  m.withDefault key (nullable d) none

/-- The members that the record does not know, as a map. -/
def extra (m : Members) : Option (Dict Json) := do
  let entries ← m.others.mapM fun (k, doc) => (any m.levels doc).map fun a => (k, a)
  pure (Dict.ofList entries)

end Members

end Decode

end RunControl.Json
