/-
RunControl/Toml/Section.lean

TOML texts.  A text is a row of sections: entries up to the first header, and
then each header with the entries after it.  `Toml.parse?` reads the sections
and builds the table that they describe.

Keys have fewer than `depthLimit` parts, and fewer than `depthLimit` arrays and
inline tables may stand inside each other.
-/
import RunControl.Toml.Scalar
import RunControl.Toml.Tree

namespace RunControl.Toml

open Text

/-- The parts of a key, and the arrays and tables inside each other, stay below
this number. -/
def depthLimit : Nat := 80

/-! ### Keys -/

/-- The characters that a key may have without quotes. -/
def isBare (c : Char) : Bool :=
  c.isAlphanum || c == '-' || c == '_'

/-- One part of a key. -/
def keyPart : Scan String := do
  spaces
  let part ← basicString <|> literalString <|> String.ofList <$> Scan.takeSome isBare
  spaces
  pure part

/-- A key, its parts separated by points. -/
def key : Scan (List String) := do
  let parts ← Scan.sepBy keyPart (Scan.one '.')
  if parts.length < depthLimit then pure parts else failure

/-! ### Values -/

/-- White space, ends of lines and comments between the items of an array. -/
def arraySpace : Scan Unit := do
  let _ ← Scan.many
    ((do let _ ← Scan.takeSome isSpace) <|> newline <|> do comment; newline)

/-- An array of values. -/
def array (value : Scan Value) : Scan Value := do
  let _ ← Scan.one '['
  let item : Scan Value := do
    arraySpace
    let v ← value
    arraySpace
    pure v
  let items ← Scan.maybe do
    let items ← Scan.sepBy item (Scan.one ',')
    let _ ← Scan.maybe (Scan.one ',')
    pure items
  arraySpace
  let _ ← Scan.one ']'
  pure (.array (items.getD []))

/-- A table on one line. -/
def inlineTable (value : Scan Value) : Scan Value := do
  let _ ← Scan.one '\x7b'
  let entry : Scan (List String × Value) := do
    let path ← key
    let _ ← Scan.one '='
    spaces
    let v ← value
    spaces
    pure (path, v)
  let entries ← Scan.maybe (Scan.sepBy entry (Scan.one ','))
  spaces
  let _ ← Scan.one '\x7d'
  let nodes ← Nodes.defineAll (entries.getD []) []
  pure (.table (Nodes.finish nodes))

/-- A value that holds no others. -/
def scalar : Scan Value :=
  Value.string <$> string <|> Value.datetime <$> datetime <|> Value.float <$> float <|>
    Value.integer <$> integer <|> Value.boolean <$> boolean

/-- A value in which `depth` more arrays and tables may stand inside each other. -/
def value : Nat → Scan Value
  | 0 => scalar
  | depth + 1 => scalar <|> array (value depth) <|> inlineTable (value depth)

/-! ### Lines -/

/-- What a line of a text says. -/
inductive Line where
  | blank
  | entry (path : List String) (value : Value)
  | header (isItem : Bool) (path : List String)

/-- The end of a line, after white space and perhaps a comment. -/
def lineEnd : Scan Unit := do
  spaces
  let _ ← Scan.maybe comment
  newline <|> Scan.atEnd

/-- A line with an entry. -/
def entryLine : Scan Line := do
  let path ← key
  let _ ← Scan.one '='
  spaces
  let v ← value (depthLimit - 1)
  lineEnd
  pure (.entry path v)

/-- A line with the header of a table. -/
def tableHeader : Scan Line := do
  let _ ← Scan.one '['
  let path ← key
  let _ ← Scan.one ']'
  lineEnd
  pure (.header false path)

/-- A line with the header of one of several tables. -/
def itemHeader : Scan Line := do
  Scan.word ['[', '[']
  let path ← key
  Scan.word [']', ']']
  lineEnd
  pure (.header true path)

/-- A line. -/
def line : Scan Line := do
  spaces
  (do comment; newline <|> Scan.atEnd; pure Line.blank) <|>
    (do newline; pure Line.blank) <|> itemHeader <|> tableHeader <|> entryLine

/-- The lines of a text. -/
def lines : Scan (List Line) := do
  let _ ← Scan.maybe (Scan.one '\ufeff')
  let ls ← Scan.many line
  spaces
  pure ls

/-! ### Sections -/

/-- A header with the entries after it. -/
structure Section where
  isItem : Bool
  path : List String
  entries : List (List String × Value)

/-- The entries up to the first header, and the sections. -/
def sections : List Line → List (List String × Value) × List Section
  | [] => ([], [])
  | .blank :: ls => sections ls
  | .entry path v :: ls =>
    let (entries, rest) := sections ls
    ((path, v) :: entries, rest)
  | .header isItem path :: ls =>
    let (entries, rest) := sections ls
    ([], { isItem, path, entries } :: rest)

/-- Adds a section to a table. -/
def Section.addTo (s : Section) (es : Nodes) : Option Nodes :=
  if s.isItem then es.openItem s.path s.entries else es.openTable s.path s.entries

/-- The table that a text describes, by the entries of it. -/
def parse? (text : String) : Option (List (String × Value)) := do
  let (entries, rest) := sections (← Scan.whole? lines text.toList)
  let root ← Nodes.defineAll entries []
  let root ← rest.foldlM (fun es s => s.addTo es) root
  pure (Nodes.finish root)

end RunControl.Toml
