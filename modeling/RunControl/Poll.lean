/-
RunControl/Poll.lean

When the status of a run is fetched.  A cycle is one session of polling, from
its first fetch until it ends; within it a fetch and a wait for the timer take
turns.  A fetch that is still running when polling is stopped leaves a stale
answer behind, which has to be awaited or given up before the next cycle.

Cycles are numbered with 64 bits in the order in which they are opened; the
number after the last one is 0 again.  The open or stale cycle is the newest
(`Poll.Newest`), and every operation keeps it so.
-/

namespace RunControl

/-- One session of polling. -/
structure Cycle where
  number : UInt64
  deriving DecidableEq, Inhabited

namespace Cycle

/-- The text of a cycle. -/
def text (c : Cycle) : String :=
  "#" ++ toString c.number.toNat

end Cycle

/-- How polling stands. -/
inductive Phase where
  /-- There is nothing to wait for. -/
  | idle
  /-- The cycle is open; its fetch runs, or else its timer. -/
  | polling (cycle : Cycle) (fetching : Bool)
  /-- Polling was stopped while the fetch of a cycle ran; its answer is dropped. -/
  | stopping (stale : Cycle)
  deriving DecidableEq, Inhabited

/-- How polling stands, and how many cycles have been opened. -/
structure Poll where
  phase : Phase := .idle
  opened : UInt64 := 0
  deriving DecidableEq, Inhabited

namespace Poll

/-! ### Questions -/

/-- There is nothing to wait for. -/
def isIdle (p : Poll) : Bool :=
  match p.phase with
  | .idle => true
  | _ => false

/-- A cycle is open. -/
def isPolling (p : Poll) : Bool :=
  match p.phase with
  | .polling .. => true
  | _ => false

/-- A cycle is open and its fetch runs. -/
def isFetching (p : Poll) : Bool :=
  match p.phase with
  | .polling _ fetching => fetching
  | _ => false

/-- The cycle that is open. -/
def current? (p : Poll) : Option Cycle :=
  match p.phase with
  | .polling cycle _ => some cycle
  | _ => none

/-- Whether the answer of a cycle's fetch is wanted. -/
def accepts (p : Poll) (cycle : Cycle) : Bool :=
  p.phase == .polling cycle true

theorem accepts_iff {p : Poll} {cycle : Cycle} :
    p.accepts cycle = true ↔ p.phase = .polling cycle true := by
  simp [accepts]

/-! ### Operations -/

/-- Opens a new cycle with its first fetch. -/
def openCycle (p : Poll) : Poll where
  phase := .polling ⟨p.opened⟩ true
  opened := p.opened + 1

/-- Asks for a fetch: a new cycle if none is open, at once if the timer runs,
and none if a fetch runs already. -/
def request (p : Poll) : Poll :=
  match p.phase with
  | .idle | .stopping _ => p.openCycle
  | .polling cycle _ => { p with phase := .polling cycle true }

/-- The timer of a cycle has run off. -/
def tick (p : Poll) (cycle : Cycle) : Poll :=
  if p.phase = .polling cycle false then { p with phase := .polling cycle true } else p

/-- The fetch of a cycle was answered; the cycle ends if it is done, and waits
for its timer otherwise. -/
def complete (p : Poll) (cycle : Cycle) (done : Bool) : Poll :=
  if p.phase = .polling cycle true then
    { p with phase := if done then .idle else .polling cycle false }
  else if p.phase = .stopping cycle then { p with phase := .idle }
  else p

/-- Ends the open cycle; the answer of a running fetch becomes stale. -/
def stop (p : Poll) : Poll :=
  match p.phase with
  | .polling cycle true => { p with phase := .stopping cycle }
  | .polling _ false => { p with phase := .idle }
  | .idle | .stopping _ => p

/-! ### The newest cycle -/

/-- The open or stale cycle was opened last. -/
def Newest (p : Poll) : Prop :=
  match p.phase with
  | .idle => True
  | .polling cycle _ => cycle.number + 1 = p.opened
  | .stopping cycle => cycle.number + 1 = p.opened

theorem newest_default : Newest {} :=
  trivial

theorem Newest.request {p : Poll} (h : p.Newest) : p.request.Newest := by
  unfold Poll.request
  unfold Newest at h
  split <;> simp_all [openCycle, Newest]

theorem Newest.tick {p : Poll} (h : p.Newest) (cycle : Cycle) : (p.tick cycle).Newest := by
  unfold Poll.tick
  split <;> simp_all [Newest]

theorem Newest.complete {p : Poll} (h : p.Newest) (cycle : Cycle) (done : Bool) :
    (p.complete cycle done).Newest := by
  unfold Poll.complete
  split
  · cases done <;> simp_all [Newest]
  · split
    · trivial
    · exact h

theorem Newest.stop {p : Poll} (h : p.Newest) : p.stop.Newest := by
  unfold Poll.stop
  unfold Newest at h
  split <;> simp_all [Newest]

/-! ### What a change of phase asks for -/

/-- What has to be done about the fetch and the timer. -/
inductive Action where
  /-- Fetch the status for a cycle. -/
  | fetch (cycle : Cycle)
  /-- Give up the running fetch. -/
  | abandonFetch
  /-- Start the timer of a cycle. -/
  | startTimer (cycle : Cycle)
  /-- Stop the timer. -/
  | stopTimer
  deriving DecidableEq, Inhabited

/-- What has to be done when polling goes from `p` to `q`: a fetch runs for the
new phase if the phase says so, a timer likewise, and what ran for the old phase
and is not wanted any more is given up. -/
def actions (p q : Poll) : List Action :=
  if p.phase = q.phase then []
  else
    match p.phase, q.phase with
    | .stopping _, .polling cycle true => [.abandonFetch, .fetch cycle]
    | .polling _ false, .polling cycle true => [.stopTimer, .fetch cycle]
    | _, .polling cycle true => [.fetch cycle]
    | _, .polling cycle false => [.startTimer cycle]
    | .polling _ false, .idle => [.stopTimer]
    | .polling _ true, .stopping _ => [.stopTimer]
    | _, _ => []

@[simp] theorem actions_self (p : Poll) : actions p p = [] := by
  simp [actions]

end Poll

end RunControl
