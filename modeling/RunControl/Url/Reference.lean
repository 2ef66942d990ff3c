/-
RunControl/Url/Reference.lean

References.  A text that is read beside an address is an address of its own, or
it starts with an authority, at the root of the host, or next to what the address
stands for, or it says no more than another query or another fragment.

What is next to something takes the place of the last segment of its path.  So it
comes after all segments of a path that ends with a slash, while what starts at
the root loses them.
-/
import RunControl.Url.Parse

namespace RunControl.Url

/-! ### Forms of references -/

/-- What a text says beside an address, with the characters that say it. -/
inductive Reference where
  /-- An address of its own. -/
  | absolute (cs : List Char)
  /-- Another authority, after two slashes. -/
  | network (cs : List Char)
  /-- A path from the root of the host, after one slash. -/
  | rooted (cs : List Char)
  /-- A path from next to what the address stands for. -/
  | beside (cs : List Char)
  /-- Nothing new, or a query with its mark. -/
  | same (cs : List Char)
  /-- A fragment, after its mark. -/
  | fragment (cs : List Char)
  deriving DecidableEq

namespace Reference

/-- What characters without a scheme say. -/
def relative (kind : Kind) : List Char → Reference
  | [] => same []
  | c :: r =>
    if c = '#' then fragment r
    else if c = '?' then same (c :: r)
    else if kind.isSlash c then
      if r.head?.any kind.isSlash then network (c :: r) else rooted r
    else beside (c :: r)

/-- What characters say beside an address with a scheme. A special scheme that is
only repeated says nothing. -/
def ofChars (scheme : String) (cs : List Char) : Reference :=
  let kind := Kind.ofScheme scheme
  match scheme? cs with
  | some (own, rest) => if own = scheme ∧ kind ≠ .plain then relative kind rest else absolute cs
  | none => relative kind cs

end Reference

/-! ### Following references -/

/-- Where a reference leads from an address. A reference to a file is read without
regard to drive letters. -/
def follow? (u : Url) (reference : Reference) : Except Error Url :=
  let kind := Kind.ofScheme u.scheme
  match reference, u.path with
  | .absolute cs, _ => parse (String.ofList cs)
  | .fragment cs, _ =>
    .ok { u with fragment := some (String.ofList (percentEncode notInFragment cs)) }
  | _, .opaqueText _ => .error .noHierarchy
  | .network cs, .segments _ => parse (u.scheme ++ ":" ++ String.ofList cs)
  | .rooted cs, .segments _ =>
    let (body, query, fragment) := splitTail kind cs
    .ok { u with path := .segments (pathFrom kind body), query, fragment }
  | .beside cs, .segments ss =>
    let (body, query, fragment) := splitTail kind cs
    let path := walk kind (dropLast kind ss) (splitWhere kind.isSlash body)
    .ok { u with path := .segments path, query, fragment }
  | .same cs, .segments _ =>
    let (_, query, fragment) := splitTail kind cs
    .ok { u with query := query <|> u.query, fragment }

/-- The address that a text stands for beside an address. -/
def join? (u : Url) (text : String) : Except Error Url :=
  u.follow? (.ofChars u.scheme (relevant text))

/-- The segments of a text, which slashes separate. -/
def segmentsOf (text : String) : List String :=
  (splitWhere (· == '/') text.toList).map String.ofList

end RunControl.Url
