/-
RunControl/Store/Rehearsal.lean

The store in front of a scripted client, with a clock that stands still until it
is told to move.  The parties take turns in a fixed order: the store applies all
of its queue, then every request that was sent is started in order and answered
as the script says, and so on until nothing is left to do; only then does a
timer go off whose time has come.  The script can hold an answer back until it
is released.
-/
import RunControl.Store

namespace RunControl

/-- The answer to a call, which may be held back. -/
structure Scripted (r : Resource) where
  answer : r.Answer
  held : Bool := false

/-- The answers to the successive calls about each resource. -/
abbrev Script :=
  (r : Resource) → List (Scripted r)

/-- A request whose answer is held back. -/
structure Waiting where
  task : Task
  answer : task.request.call.Answer

/-- The store in front of a script. -/
structure Rehearsal where
  store : Store
  script : Script
  /-- How many calls there have been. -/
  calls : PerResource Nat := .const 0
  /-- The requests whose answers are held back, the oldest first. -/
  waiting : List Waiting := []

namespace Rehearsal

/-- What happens when the script has come to its end. -/
def exhausted : Fault :=
  .transport "script exhausted"

/-- What the script says about the next call. -/
def next (h : Rehearsal) (r : Resource) : Scripted r :=
  ((h.script r)[h.calls.get r]?).getD { answer := .error exhausted }

/-- Changes the store. -/
def onStore (h : Rehearsal) (f : Store → Store) : Rehearsal :=
  { h with store := f h.store }

/-! ### Taking turns -/

/-- The store applies all of its queue. -/
def applyAll (h : Rehearsal) : Rehearsal :=
  h.onStore fun s => s.queue.length.repeat Store.applyNext s

/-- A request is started, and answered unless its answer is held back. -/
def start (h : Rehearsal) (task : Task) : Rehearsal :=
  let r := task.request.call.resource
  let scripted := h.next r
  let h := { h with calls := h.calls.set r (h.calls.get r + 1) }
  let h := h.onStore (·.start task)
  if scripted.held then { h with waiting := h.waiting ++ [{ task, answer := scripted.answer }] }
  else h.onStore (·.finish task scripted.answer)

/-- Every request that was sent is started, in order. -/
def startAll (h : Rehearsal) : Rehearsal :=
  (h.store.tasks.filter fun t => !t.begun).foldl start h

/-- The store and its requests take turns until nothing is left to do. A command
is one request, what it comes to sends at most one more, and what that one comes
to sends none, so the third turn leaves nothing. -/
def turns (h : Rehearsal) : Rehearsal :=
  applyAll (Nat.repeat (fun h => startAll (applyAll h)) 3 h)

/-- The timers whose time has come go off. -/
def fireDue (h : Rehearsal) : Rehearsal :=
  h.store.timers.due.foldl (fun h alarm => h.onStore (·.fire alarm)) h

/-- Everything runs that can run at the present time. -/
def settle (h : Rehearsal) : Rehearsal :=
  h.turns.fireDue.turns

/-! ### Moves -/

/-- The clock jumps ahead. -/
def advance (h : Rehearsal) (ms : Nat) : Rehearsal :=
  h.onStore fun s => { s with timers := s.timers.advance ms }

/-- Lets the oldest answer about a resource go that is still awaited. -/
def release (h : Rehearsal) (r : Resource) : Rehearsal × Bool :=
  let isAwaited (w : Waiting) : Bool :=
    w.task.request.call.resource = r &&
      h.store.tasks.any fun t => t.number == w.task.number
  match h.waiting.find? isAwaited with
  | none => (h, false)
  | some w =>
    let waiting := h.waiting.filter fun v => v.task.number != w.task.number
    ({ h with waiting }.onStore (·.finish w.task w.answer), true)

/-- How a wait ends. -/
inductive Wait where
  | satisfied (state : State)
  | timedOut
  | closed

/-- Waits until the published state satisfies `wanted`. Whenever nothing can
run, the clock moves on to the next timer, or to the deadline if that comes
first or at the same time. -/
def waitUntil (wanted : State → Bool) (deadline : Nat) : Nat → Rehearsal → Rehearsal × Wait
  | 0, h => (h, .timedOut)
  | fuel + 1, h =>
    let h := h.settle
    if wanted h.store.published then (h, .satisfied h.store.published)
    else if h.store.isClosed then (h, .closed)
    else
      let now := h.store.timers.now
      match h.store.timers.nextDue? with
      | some due =>
        if due < deadline then waitUntil wanted deadline fuel (h.advance (due - now))
        else (h.advance (deadline - now), .timedOut)
      | none => (h.advance (deadline - now), .timedOut)

/-- Sends intents and waits until they have been applied and the published state
satisfies `wanted`, for `timeout` milliseconds at most. -/
def sendAndWait (h : Rehearsal) (is : List Intent) (wanted : State → Bool) (timeout : Nat) :
    Rehearsal × Wait :=
  if is.isEmpty && wanted h.store.published then (h, .satisfied h.store.published)
  else if h.store.isClosed then (h, .closed)
  else
    let h := h.onStore (·.sendAll is)
    if timeout = 0 then (h, .timedOut)
    else waitUntil wanted (h.store.timers.now + timeout) (timeout + 2) h

end Rehearsal

end RunControl
