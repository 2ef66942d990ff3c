/-
RunControl/Http.lean

Requests and responses of the protocol that the backend speaks, as far as they
matter here.  Some responses never have a body, whatever is sent after them
(`Response.text`).
-/
import RunControl.Json
import RunControl.Text.Utf8
import RunControl.Url

namespace RunControl.Http

/-- The methods that are used. -/
inductive Method where
  | get
  | post
  | delete
  deriving DecidableEq, Inhabited

/-- The name of a method. -/
def Method.name : Method → String
  | get => "GET"
  | post => "POST"
  | delete => "DELETE"

/-- A request. -/
structure Request where
  method : Method
  url : Url
  /-- The JSON value that is sent with it. -/
  body : Option Json := none
  deriving Inhabited

namespace Request

/-- The text of the body. -/
def content (q : Request) : String :=
  match q.body with
  | some j => j.compact
  | none => ""

/-- The type of the body, if there is one. -/
def contentType (q : Request) : Option String :=
  q.body.map fun _ => "application/json"

/-- What is asked for at the host. -/
def target (q : Request) : String :=
  q.url.path.text ++ q.url.queryText

end Request

/-- The type of answers that is asked for. -/
def accept : String :=
  "application/json"

/-- A response. -/
structure Response where
  status : Nat
  body : List UInt8 := []
  deriving DecidableEq, Inhabited

namespace Response

/-- Whether the request was carried out. -/
def isSuccess (r : Response) : Bool :=
  200 ≤ r.status && r.status < 300

/-- Whether a response with this status may have a body. -/
def mayHaveBody (status : Nat) : Bool :=
  200 ≤ status && status != 204 && status != 304

/-- The text of the body; bytes that are no text are replaced. -/
def text (r : Response) : String :=
  if mayHaveBody r.status then Text.Utf8.decodeLossy r.body else ""

end Response

end RunControl.Http
