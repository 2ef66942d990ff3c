/-
RunControl/Cli/Watch.lean

Following a run.  Whoever watches sees one published state after another and
prints the status whenever it is another one than was printed last.  Nothing is
printed before the first cycle of polling, and the watch ends with the cycle.
-/
import RunControl.Cli.Lines

namespace RunControl.Cli

/-- What is remembered while a run is followed. -/
structure Watch where
  /-- The status that was printed last. -/
  last : Option RunStatus := none
  deriving DecidableEq, Inhabited

namespace Watch

/-- Whether the status of a state is to be printed. -/
def isNews (w : Watch) (s : State) : Bool :=
  s.poll.opened != 0 && w.last != some s.status

/-- What is remembered after a state was seen. -/
def after (w : Watch) (s : State) : Watch :=
  if w.isNews s then { last := some s.status } else w

/-- The line that is printed when a state is seen. -/
def line? (w : Watch) (s : State) : Option String :=
  if w.isNews s then some (statusLine s.status) else none

/-- Whether polling has begun and come to its end. -/
def isOver (s : State) : Bool :=
  s.poll.opened != 0 && s.poll.isIdle

/-- How the watch ends at a state at which polling is over. -/
def result (s : State) : Except String Unit :=
  match s.errors.get .systemStatus with
  | some failure => .error ("fetch system status: " ++ failure.message)
  | none => .ok ()

/-- The statuses that are printed while states are seen one after another. -/
def shown : Watch → List State → List RunStatus
  | _, [] => []
  | w, s :: ss => if w.isNews s then s.status :: (w.after s).shown ss else (w.after s).shown ss

/-- What is remembered is what was printed. -/
theorem after_of_isNews {w : Watch} {s : State} (h : w.isNews s = true) :
    w.after s = { last := some s.status } := by
  simp [after, h]

end Watch

end RunControl.Cli
