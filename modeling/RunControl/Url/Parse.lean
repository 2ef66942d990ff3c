/-
RunControl/Url/Parse.lean

Reading addresses.  Blanks and controls around an address do not count, nor do
tabs and line ends anywhere in it.  After the scheme come the authority, the
path, the query and the fragment.

Some schemes are special: their addresses always have a host, any number of
slashes may come before it, a backslash counts as a slash, and the port that is
the default for the scheme is left out.  `file` is special too, but its host may
be missing, and a drive letter is never removed from its path.
-/
import RunControl.Url

namespace RunControl.Url

open Text

/-! ### Schemes -/

/-- The port that an address with a special scheme has by default. -/
def defaultPort? : String → Option Nat
  | "http" => some 80
  | "https" => some 443
  | "ws" => some 80
  | "wss" => some 443
  | "ftp" => some 21
  | _ => none

/-- How the rest of an address is read. -/
inductive Kind where
  | plain
  | special
  | file
  deriving DecidableEq

/-- How the rest of an address with a scheme is read. -/
def Kind.ofScheme (scheme : String) : Kind :=
  if scheme = "file" then .file
  else if (defaultPort? scheme).isSome then .special
  else .plain

/-- Whether a character separates the segments of a path. -/
def Kind.isSlash (k : Kind) (c : Char) : Bool :=
  c == '/' || (k ≠ .plain && c == '\\')

/-- Whether a character ends an authority. -/
def Kind.endsAuthority (k : Kind) (c : Char) : Bool :=
  k.isSlash c || c == '?' || c == '#'

/-- The characters of an address that count. -/
def relevant (s : String) : List Char :=
  let isMargin (c : Char) : Bool := c.toNat ≤ 0x20
  let cs := (s.toList.dropWhile isMargin).reverse.dropWhile isMargin |>.reverse
  cs.filter fun c => c != '\t' && c != '\n' && c != '\r'

/-- The scheme, lowered, and what comes after its colon. -/
def scheme? (cs : List Char) : Option (String × List Char) :=
  let isPart (c : Char) : Bool := c.isAlphanum || c == '+' || c == '-' || c == '.'
  match cs.takeWhile isPart, cs.dropWhile isPart with
  | c :: r, ':' :: rest =>
    if c.isAlpha then some (lower (String.ofList (c :: r)), rest) else none
  | _, _ => none

/-! ### Authorities -/

/-- The characters before the last `@` and those after it. -/
def splitAtLastAt (cs : List Char) : Option (List Char × List Char) :=
  if cs.contains '@' then
    let after := (cs.reverse.takeWhile (· != '@')).reverse
    some (cs.take (cs.length - after.length - 1), after)
  else none

/-- The name and the password before the `@`. -/
def credentials (cs : List Char) : String × String :=
  let name := cs.takeWhile (· != ':')
  let password := (cs.dropWhile (· != ':')).drop 1
  (String.ofList (percentEncode notInUser name), String.ofList (percentEncode notInUser password))

/-- The characters of a host, up to a colon outside of brackets, and the rest. -/
def splitHost : Bool → List Char → List Char × List Char
  | _, [] => ([], [])
  | inside, c :: r =>
    if c = ':' ∧ inside = false then ([], c :: r)
    else
      let inside := if c = '[' then true else if c = ']' then false else inside
      let (host, rest) := splitHost inside r
      (c :: host, rest)

/-- The port after the colon; none if it is missing or the default. -/
def port? (scheme : String) (cs : List Char) : Except Error (Option Nat) :=
  if cs.all Char.isDigit then
    let n := ofDigits cs
    if cs.isEmpty then .ok none
    else if 65535 < n then .error .invalidPort
    else if defaultPort? scheme = some n then .ok none
    else .ok (some n)
  else .error .invalidPort

/-- The host and port in the characters after the user. -/
def hostAndPort? (scheme : String) (kind : Kind) (cs : List Char) :
    Except Error (Host × Option Nat) := do
  let (hostChars, rest) := splitHost false cs
  if kind = .special ∧ hostChars.isEmpty then throw .emptyHost
  let host ← if kind = .plain then Host.opaque? hostChars else Host.domain? hostChars
  if hostChars.isEmpty ∧ !rest.isEmpty then throw .emptyHost
  let port ← port? scheme (rest.drop 1)
  pure (host, port)

/-- The authority in the characters up to the path. -/
def authority? (scheme : String) (kind : Kind) (cs : List Char) : Except Error Authority := do
  match splitAtLastAt cs with
  | none =>
    let (host, port) ← hostAndPort? scheme kind cs
    pure { host, port }
  | some (before, after) =>
    if before.isEmpty ∧ after.isEmpty then throw .emptyHost
    let (user, password) := credentials before
    let (host, port) ← hostAndPort? scheme kind after
    if host = .name "" ∧ !(user.isEmpty && password.isEmpty) then throw .emptyHost
    pure { user, password, host, port }

/-! ### Paths -/

/-- Whether a segment is a letter with a colon or a bar after it. -/
def isDrive (segment : List Char) : Bool :=
  match segment with
  | [c, d] => c.isAlpha && (d == ':' || d == '|')
  | _ => false

/-- A segment with its dots written as such. -/
def plainDots (segment : List Char) : List Char :=
  match segment with
  | '%' :: '2' :: 'e' :: r => '.' :: plainDots r
  | '%' :: '2' :: 'E' :: r => '.' :: plainDots r
  | c :: r => c :: plainDots r
  | [] => []

/-- The path without its last segment; a drive letter stays. -/
def dropLast (kind : Kind) (ss : List String) : List String :=
  match kind, ss with
  | .file, [s] => if isDrive s.toList then [s] else []
  | _, ss => ss.dropLast

/-- Goes one segment further. Two dots lead back, and one leads nowhere; at the
end of a path they leave an empty segment behind. -/
def enter (kind : Kind) (ss : List String) (segment : List Char) (isLast : Bool) : List String :=
  let trail := if isLast then [""] else []
  if plainDots segment = ['.', '.'] then dropLast kind ss ++ trail
  else if plainDots segment = ['.'] then ss ++ trail
  else if kind = .file ∧ ss.isEmpty ∧ isDrive segment then
    [String.ofList (segment.take 1 ++ [':'])]
  else ss ++ [String.ofList (percentEncode notInPath segment)]

/-- Follows the segments of a path. -/
def walk (kind : Kind) : List String → List (List Char) → List String
  | ss, [] => ss
  | ss, [s] => enter kind ss s true
  | ss, s :: s' :: r => walk kind (enter kind ss s false) (s' :: r)

/-- The path in the characters after its first slash. -/
def pathFrom (kind : Kind) (cs : List Char) : List String :=
  let ss := walk kind [] (splitWhere kind.isSlash cs)
  if kind = .file ∧ 1 < ss.length then
    let kept := ss.dropWhile (·.isEmpty)
    if kept.isEmpty then [""] else kept
  else ss

/-- The path after an authority. -/
def pathAfter (kind : Kind) : List Char → List String
  | [] => if kind = .plain then [] else [""]
  | c :: r => if kind.isSlash c then pathFrom kind r else pathFrom kind (c :: r)

/-! ### Addresses -/

/-- The characters before the query and the fragment, the query, and the fragment. -/
def splitTail (kind : Kind) (cs : List Char) : List Char × Option String × Option String :=
  let body := cs.takeWhile (· != '#')
  let fragment :=
    match cs.dropWhile (· != '#') with
    | _ :: f => some (String.ofList (percentEncode notInFragment f))
    | [] => none
  let query :=
    match body.dropWhile (· != '?') with
    | _ :: q => some (String.ofList (percentEncode (notInQuery (kind ≠ .plain)) q))
    | [] => none
  (body.takeWhile (· != '?'), query, fragment)

/-- The authority and the path in characters that start with an authority. -/
def locate (scheme : String) (kind : Kind) (cs : List Char) :
    Except Error (Authority × List String) := do
  let isEnd (c : Char) : Bool := kind.endsAuthority c
  let authority ← authority? scheme kind (cs.takeWhile fun c => !isEnd c)
  pure (authority, pathAfter kind (cs.dropWhile fun c => !isEnd c))

/-- The host and the path of a file. -/
def locateFile (cs : List Char) : Except Error (Authority × List String) := do
  let isSlash := Kind.isSlash .file
  let noHost : Authority := { host := .name "" }
  match cs with
  | a :: b :: r =>
    if isSlash a && isSlash b then
      let hostChars := r.takeWhile fun c => !isSlash c
      if isDrive hostChars then pure (noHost, pathFrom .file r)
      else
        let host ← if hostChars.isEmpty then pure (.name "") else Host.domain? hostChars
        let host := if host = .name "localhost" then .name "" else host
        pure ({ host }, pathAfter .file (r.dropWhile fun c => !isSlash c))
    else pure (noHost, pathAfter .file cs)
  | cs => pure (noHost, pathAfter .file cs)

/-- The address that a text is. -/
def parse (s : String) : Except Error Url := do
  match scheme? (relevant s) with
  | none => throw .noScheme
  | some (scheme, rest) =>
    let kind := Kind.ofScheme scheme
    let (body, query, fragment) := splitTail kind rest
    match kind, body with
    | .special, body =>
      let (authority, path) ← locate scheme kind (body.dropWhile kind.isSlash)
      pure { scheme, authority, path := .segments path, query, fragment }
    | .file, body =>
      let (authority, path) ← locateFile body
      pure { scheme, authority, path := .segments path, query, fragment }
    | .plain, '/' :: '/' :: r =>
      let (authority, path) ← locate scheme kind r
      pure { scheme, authority, path := .segments path, query, fragment }
    | .plain, '/' :: r => pure { scheme, path := .segments (pathFrom kind r), query, fragment }
    | .plain, body =>
      pure { scheme, path := .opaqueText (String.ofList (percentEncode isControl body)),
             query, fragment }

end RunControl.Url
