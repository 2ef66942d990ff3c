/-
RunControl/Cli/Session.lean

A command at work: its dialogue, the store that it talks to, and the client.
A session moves by itself as long as it can: first the command goes on, then the
store applies the next intent.  When neither can move, the session waits for the
answer to the oldest request that is under way or, without one, for the timer
(`Session.turn`).  Everything that comes from outside is handed to it
(`receive`, `wake`, `interrupt`), so that a session is plain data.

Standard output may refuse to take a line; the session ends with that.
-/
import RunControl.Cli.Commands
import RunControl.Cli.Watch
import RunControl.Client
import RunControl.Store

namespace RunControl.Cli

/-! ### Standard output -/

/-- What becomes of the lines on standard output. -/
inductive Output where
  | taken
  /-- There is no space for them. -/
  | full
  /-- Nobody reads them any more. -/
  | closed
  deriving DecidableEq, Inhabited

/-- Why a line is refused. -/
def Output.refusal? : Output → Option String
  | taken => none
  | full => some "No space left on device (os error 28)"
  | closed => some "Broken pipe (os error 32)"

/-! ### Sessions -/

/-- How a session ends. -/
inductive Ending where
  | completed
  | failed (message : String)
  /-- A line was refused. -/
  | refused (reason : String)
  deriving DecidableEq, Inhabited

/-- What the command does. -/
inductive Activity where
  | talking (d : Dialogue Unit)
  /-- Waits until the store has applied `ticket` intents and publishes a state
  that is wanted. -/
  | awaiting (ticket : Nat) (wanted : State → Bool) (next : State → Dialogue Unit)
  /-- Follows the published states; the one with the number `seen` was seen last. -/
  | watching (seen : Nat) (watch : Watch)
  | over (ending : Ending)
  deriving Inhabited

/-- A command at work. -/
structure Session where
  client : Client
  /-- How long an answer is awaited, in milliseconds. -/
  timeout : Nat
  store : Store
  output : Output
  activity : Activity
  /-- The lines on standard output, the newest first. -/
  printed : List String := []
  /-- The lines among the messages, the newest first. -/
  warned : List String := []
  /-- The requests that were sent, the newest first. -/
  requests : List Http.Request := []
  /-- How many requests were answered. -/
  answered : Nat := 0

namespace Session

/-! ### Moves of the command -/

/-- Prints a line and goes on. -/
def put (s : Session) (line : String) (activity : Activity) : Session :=
  match s.output.refusal? with
  | none => { s with printed := line :: s.printed, activity }
  | some reason => { s with activity := .over (.refused reason) }

/-- The next move of a dialogue. -/
def talk (s : Session) : Dialogue Unit → Session
  | .done () => { s with activity := .over .completed }
  | .fail message => { s with activity := .over (.failed message) }
  | .print line next => s.put line (.talking next)
  | .warn line next => { s with warned := line :: s.warned, activity := .talking next }
  | .send intent next => { s with store := s.store.send intent, activity := .talking next }
  | .await intents wanted next =>
    let store := s.store.sendAll intents
    let ticket := if intents.isEmpty then 0 else store.ticket
    { s with store, activity := .awaiting ticket wanted next }
  | .look next => { s with activity := .talking (next s.store.published) }

/-- A published state is seen by whoever watches. -/
def see (s : Session) (watch : Watch) : Session :=
  let seen := s.store.published
  let activity : Activity :=
    if Watch.isOver seen then
      match Watch.result seen with
      | .ok () => .over .completed
      | .error message => .over (.failed message)
    else .watching s.store.revision (watch.after seen)
  match watch.line? seen with
  | some line => s.put line activity
  | none => { s with activity }

/-- The command goes on, if it can. -/
def proceed? (s : Session) : Option Session :=
  match s.activity with
  | .talking d => some (s.talk d)
  | .awaiting ticket wanted next =>
    if ticket ≤ s.store.applied && wanted s.store.published then
      some { s with activity := .talking (next s.store.published) }
    else none
  | .watching seen watch => if s.store.revision = seen then none else some (s.see watch)
  | .over _ => none

/-! ### What comes from outside -/

/-- What came back for the request of a task, if anything did in time. -/
def receive (s : Session) (task : Task) (q : Http.Request) (r : Option Http.Response) : Session :=
  { s with
    store := (s.store.start task).finish task (Client.answer task.request.call q r)
    requests := q :: s.requests
    answered := if r.isSome then s.answered + 1 else s.answered }

/-- A task ends without a request having been sent. -/
def giveUp (s : Session) (task : Task) (fault : Fault) : Session :=
  { s with store := (s.store.start task).finish task (.error fault) }

/-- Time goes by until the next timer goes off. -/
def wake (s : Session) : Session :=
  let timers := s.store.timers
  let timers := timers.advance ((timers.nextDue?.getD timers.now) - timers.now)
  { s with store := timers.due.foldl Store.fire { s.store with timers } }

/-- The user ends the session; only a watch takes notice. -/
def interrupt (s : Session) : Session :=
  match s.activity with
  | .watching .. => { s with activity := .over .completed }
  | _ => s

/-! ### Turns -/

/-- What a session does next. -/
inductive Turn where
  /-- It has moved by itself. -/
  | moved (s : Session)
  /-- It waits for what comes back for a request. -/
  | exchange (task : Task) (q : Http.Request)
  /-- It waits for the timer, for so many milliseconds. -/
  | pause (ms : Nat)
  | ended (ending : Ending)
  /-- It waits for something that does not come. -/
  | stuck

/-- What a session does next. -/
def turn (s : Session) : Turn :=
  match s.activity, s.proceed?, s.store.queue, s.store.tasks with
  | .over ending, _, _, _ => .ended ending
  | _, some s', _, _ => .moved s'
  | _, none, _ :: _, _ => .moved { s with store := s.store.applyNext }
  | _, none, [], task :: _ =>
    match s.client.request? task.request.call with
    | .ok q => .exchange task q
    | .error fault => .moved (s.giveUp task fault)
  | _, none, [], [] =>
    match s.store.timers.nextDue? with
    | some due => .pause (due - s.store.timers.now)
    | none => .stuck

/-! ### A session in front of a backend -/

/-- A backend: what comes back for a request within a time, after earlier
requests, the newest of them first. -/
abbrev Backend :=
  (timeout : Nat) → (earlier : List Http.Request) → Http.Request → Option Http.Response

/-- Nothing ever comes back. -/
def Backend.unreachable : Backend :=
  fun _ _ _ => none

/-- Runs a session for so many turns at most. The user interrupts it when so many
requests have been answered and it waits for the timer. -/
def run (backend : Backend) (interruptAfter : Option Nat) : Nat → Session → Session
  | 0, s => s
  | turns + 1, s =>
    match s.turn with
    | .moved s' => run backend interruptAfter turns s'
    | .exchange task q =>
      run backend interruptAfter turns (s.receive task q (backend s.timeout s.requests q))
    | .pause _ =>
      if interruptAfter.any (· ≤ s.answered) then run backend interruptAfter turns s.interrupt
      else run backend interruptAfter turns s.wake
    | .ended _ | .stuck => s

end Session

end RunControl.Cli
