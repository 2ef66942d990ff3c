/-
RunControl/Store.lean

The store at work: a state that changes by one intent at a time, a queue of
intents that are still to be applied, the requests that are under way and the
timer.  Each operation is one step of one of the parties:

* a caller puts an intent at the end of the queue (`send`);
* the store takes the first intent off the queue, applies it, publishes the
  state if it differs from the one published last, and does what has to be done
  (`applyNext`);
* a request is answered and puts the intents it comes to at the end of the queue
  (`finish`);
* the timer goes off and puts its intent at the end of the queue (`fire`).

The store keeps hold of the last timer it started and of the last status fetch
it sent, so as to stop the one and give up the other.  What it holds may have
gone off or been answered already; letting go of it does nothing then.
-/
import RunControl.Alarms
import RunControl.State.Effect

namespace RunControl

/-- A request that is under way. -/
structure Task where
  /-- The place in the order in which requests are sent. -/
  number : Nat
  request : Request
  /-- Whether the client has been called. -/
  begun : Bool := false
  deriving DecidableEq, Inhabited

/-- Something that can be seen from outside the store. -/
inductive Event where
  /-- The client is called. -/
  | called (call : Call)
  /-- The timer is started. -/
  | armed (ms : Nat)
  /-- The timer goes off. -/
  | fired
  /-- The store lets go of the timer. -/
  | released
  deriving DecidableEq, Inhabited

/-- The store at work. -/
structure Store where
  /-- The time between a status and the next fetch of it, in milliseconds. -/
  interval : Nat
  state : State := {}
  /-- The state that was published last. -/
  published : State := {}
  /-- How many states have been published. -/
  revision : Nat := 0
  /-- The intents that are still to be applied, the oldest first. -/
  queue : List Intent := []
  /-- How many intents have been applied. -/
  applied : Nat := 0
  /-- The requests that are under way, in the order in which they were sent. -/
  tasks : List Task := []
  /-- How many requests have been sent. -/
  sent : Nat := 0
  /-- The clock, and the timer that is running. -/
  timers : Alarms Cycle := {}
  /-- The timer that the store keeps hold of. -/
  heldTimer : Option Nat := none
  /-- The status fetch that the store keeps hold of. -/
  heldFetch : Option Nat := none
  /-- What could be seen from outside, the newest first. -/
  events : List Event := []
  /-- After the end no intent is taken any more. -/
  isClosed : Bool := false

namespace Store

/-- Notes what could be seen. -/
def note (s : Store) (e : Event) : Store :=
  { s with events := e :: s.events }

/-! ### Sending and publishing -/

/-- Puts an intent at the end of the queue. -/
def send (s : Store) (i : Intent) : Store :=
  if s.isClosed then s else { s with queue := s.queue ++ [i] }

/-- Puts intents at the end of the queue. -/
def sendAll (s : Store) (is : List Intent) : Store :=
  is.foldl send s

/-- How many intents will have been applied when the queue is empty. An intent
that was sent last has been applied as soon as `applied` gets there. -/
def ticket (s : Store) : Nat :=
  s.applied + s.queue.length

/-- Publishes the state, unless it is equal to the one published last. -/
def publish (s : Store) : Store :=
  if s.published == s.state then s
  else { s with published := s.state, revision := s.revision + 1 }

/-! ### Effects -/

/-- Lets go of the timer. -/
def releaseTimer (s : Store) : Store :=
  match s.heldTimer with
  | none => s
  | some n => { s with timers := s.timers.cancel n, heldTimer := none }.note .released

/-- Gives up the status fetch. -/
def releaseFetch (s : Store) : Store :=
  match s.heldFetch with
  | none => s
  | some n => { s with tasks := s.tasks.filter (·.number != n), heldFetch := none }

/-- Sends a request. -/
def issue (s : Store) (q : Request) : Store :=
  { s with
    tasks := s.tasks ++ [{ number := s.sent, request := q }]
    sent := s.sent + 1
    heldFetch := if q.cycle?.isSome then some s.sent else s.heldFetch }

/-- Starts the timer of a cycle; the store holds it instead of the one before. -/
def arm (s : Store) (cycle : Cycle) : Store :=
  let s' := (s.note (.armed s.interval)).releaseTimer
  { s' with
    timers := s'.timers.schedule s.interval cycle
    heldTimer := some s'.timers.count }

/-- Does what has to be done. -/
def carryOut (s : Store) : Effect → Store
  | .send q => s.issue q
  | .startTimer cycle => s.arm cycle
  | .stopTimer => s.releaseTimer
  | .abandonFetch => s.releaseFetch

/-! ### Steps -/

/-- Applies an intent. -/
def apply (s : Store) (i : Intent) : Store :=
  let next := s.state.after i
  (s.state.effects next i).foldl carryOut
    (publish { s with state := next, applied := s.applied + 1 })

/-- Takes the first intent off the queue and applies it. -/
def applyNext (s : Store) : Store :=
  match s.queue with
  | [] => s
  | i :: queue => { s with queue }.apply i

/-- The client is called for a request. -/
def start (s : Store) (task : Task) : Store :=
  let tasks := s.tasks.map fun (t : Task) =>
    if t.number = task.number then { t with begun := true } else t
  { s with tasks }.note (.called task.request.call)

/-- A request is answered. -/
def finish (s : Store) (task : Task) (answer : task.request.call.Answer) : Store :=
  { s with tasks := s.tasks.filter (·.number != task.number) }.sendAll
    (outcome task.request answer)

/-- A timer goes off. -/
def fire (s : Store) (alarm : Alarm Cycle) : Store :=
  { s with timers := s.timers.cancel alarm.number }.note .fired |>.send (.timerFired alarm.what)

/-- Ends the store: the timer and the status fetch are given up, and what is
still in the queue is never applied. -/
def close (s : Store) : Store :=
  if s.isClosed then s
  else { s.releaseTimer.releaseFetch with queue := [], isClosed := true }

/-! ### The parts that a step leaves alone -/

@[simp] theorem state_note (s : Store) (e : Event) : (s.note e).state = s.state := rfl

@[simp] theorem queue_note (s : Store) (e : Event) : (s.note e).queue = s.queue := rfl

@[simp] theorem state_releaseTimer (s : Store) : s.releaseTimer.state = s.state := by
  unfold releaseTimer; split <;> rfl

@[simp] theorem state_releaseFetch (s : Store) : s.releaseFetch.state = s.state := by
  unfold releaseFetch; split <;> rfl

@[simp] theorem state_carryOut (s : Store) (e : Effect) : (s.carryOut e).state = s.state := by
  cases e <;> simp [carryOut, issue, arm]

theorem state_foldl_carryOut (es : List Effect) (s : Store) :
    (es.foldl carryOut s).state = s.state := by
  induction es generalizing s with
  | nil => rfl
  | cons e es ih => rw [List.foldl_cons, ih, state_carryOut]

@[simp] theorem state_publish (s : Store) : s.publish.state = s.state := by
  unfold publish; split <;> rfl

/-- The store's state is changed by `State.after` and by nothing else. -/
@[simp] theorem state_apply (s : Store) (i : Intent) : (s.apply i).state = s.state.after i := by
  rw [apply, state_foldl_carryOut, state_publish]

end Store

end RunControl
