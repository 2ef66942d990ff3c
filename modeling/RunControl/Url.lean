/-
RunControl/Url.lean

Addresses.  An address has a scheme and a path; most have a host, perhaps with a
port and the name and password of a user, and some a query and a fragment.  The
path is a row of segments, or a text that has no parts (`Path.opaqueText`).
-/
import RunControl.Url.Host

namespace RunControl

namespace Url

/-- Where an address leads to. -/
structure Authority where
  user : String := ""
  password : String := ""
  host : Host
  /-- The port, unless it is the default of the scheme. -/
  port : Option Nat := none
  deriving DecidableEq, Inhabited

/-- The path of an address. -/
inductive Path where
  | segments (segments : List String)
  | opaqueText (text : String)
  deriving DecidableEq, Inhabited

end Url

/-- An address. -/
structure Url where
  scheme : String
  authority : Option Url.Authority := none
  path : Url.Path
  query : Option String := none
  fragment : Option String := none
  deriving DecidableEq, Inhabited

namespace Url

/-! ### Texts -/

/-- The text of an authority. -/
def Authority.text (a : Authority) : String :=
  let password := if a.password.isEmpty then "" else ":" ++ a.password
  let user := if a.user.isEmpty && a.password.isEmpty then "" else a.user ++ password ++ "@"
  let port :=
    match a.port with
    | some p => ":" ++ Text.decimal p
    | none => ""
  user ++ a.host.text ++ port

/-- The text of a path. -/
def Path.text : Path → String
  | segments ss => String.join (ss.map ("/" ++ ·))
  | opaqueText t => t

/-- What stands before the path. A path that starts with two slashes is kept from
being read as an authority. -/
def front (u : Url) : String :=
  match u.authority, u.path with
  | some a, _ => u.scheme ++ "://" ++ a.text
  | none, .segments ("" :: _ :: _) => u.scheme ++ ":/."
  | none, _ => u.scheme ++ ":"

/-- The query with its mark. -/
def queryText (u : Url) : String :=
  match u.query with
  | some q => "?" ++ q
  | none => ""

/-- The text of an address. -/
def text (u : Url) : String :=
  let fragment :=
    match u.fragment with
    | some f => "#" ++ f
    | none => ""
  u.front ++ u.path.text ++ u.queryText ++ fragment

/-! ### Addresses that differ in a part -/

/-- A path that ends with a slash. -/
def Path.closed : Path → Path
  | segments ss => if ss.getLast? = some "" then segments ss else segments (ss ++ [""])
  | opaqueText t =>
    if t.isEmpty then opaqueText "%2F"
    else if t.toList.getLast? = some '/' then opaqueText t
    else opaqueText (t ++ "/")

/-- The address with a slash at the end of its path. -/
def closed (u : Url) : Url :=
  { u with path := u.path.closed }

/-- The address without the name and password of a user. -/
def withoutUser (u : Url) : Url :=
  { u with authority := u.authority.map fun a => { a with user := "", password := "" } }

end Url

end RunControl
