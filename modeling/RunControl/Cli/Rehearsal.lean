/-
RunControl/Cli/Rehearsal.lean

The program in front of a backend whose responses are written down beforehand.
A route is a method and what is asked for at the host; its responses are given
one after another, and the last one again and again.  Where there is no route,
nothing is found.
-/
import RunControl.Cli.Program

namespace RunControl.Cli

/-- The responses of a route. A connection may be closed without one. -/
structure Route where
  method : Http.Method
  target : String
  responses : List (Option Http.Response)
  deriving Inhabited

namespace Route

/-- Whether a request takes a route. -/
def leads (r : Route) (q : Http.Request) : Bool :=
  q.method == r.method && q.target == r.target

/-- The response of a route after so many others. -/
def response (r : Route) (n : Nat) : Option Http.Response :=
  (r.responses[n]? <|> r.responses.getLast?).join

end Route

/-- How long the status takes, in milliseconds; every other response takes no
time. -/
def statusDelay : Nat := 50

/-- How long the response to a request takes, in milliseconds. -/
def delay (q : Http.Request) : Nat :=
  match q.method, q.url.path with
  | .get, .segments ss =>
    if (Url.segmentsOf Call.systemStatus.endpoint).isSuffixOf ss then statusDelay else 0
  | _, _ => 0

/-- The backend that responds as the routes say. -/
def backendOf (routes : List Route) : Session.Backend := fun timeout earlier q =>
  if q.url.scheme ≠ "http" ∨ timeout ≤ delay q then none
  else
    match routes.find? (·.leads q) with
    | some r => r.response (earlier.countP r.leads)
    | none => some { status := 404 }

/-- How the program ends in front of scripted responses, if the user interrupts it
after so many of them. A response leads to a few turns at most. -/
def rehearse (w : Surroundings) (routes : List Route) (interruptAfter : Option Nat) :
    Option Outcome :=
  let responses := routes.foldl (fun n r => n + r.responses.length) 0
  Program.run? w (backendOf routes) interruptAfter
    (64 * (responses + interruptAfter.getD 0 + 8))

end RunControl.Cli
