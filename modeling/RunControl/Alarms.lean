/-
RunControl/Alarms.lean

A clock and the alarms that are set on it.  An alarm goes off at most once, when
its time has come, unless it is called off before; calling it off afterwards
does nothing.  Alarms are numbered in the order in which they are set.
-/

namespace RunControl

/-- An alarm that has been set, and what it is set for. -/
structure Alarm (α : Type) where
  number : Nat
  due : Nat
  what : α
  deriving DecidableEq, Inhabited

/-- A clock, in milliseconds, and the alarms that have not gone off. -/
structure Alarms (α : Type) where
  now : Nat := 0
  /-- How many alarms have been set so far; the number of the next one. -/
  count : Nat := 0
  pending : List (Alarm α) := []
  deriving DecidableEq, Inhabited

namespace Alarms

variable {α : Type}

/-- Sets an alarm that goes off in `ms` milliseconds. -/
def schedule (a : Alarms α) (ms : Nat) (what : α) : Alarms α :=
  { a with
    count := a.count + 1
    pending := a.pending ++ [{ number := a.count, due := a.now + ms, what }] }

/-- Calls an alarm off. -/
def cancel (a : Alarms α) (number : Nat) : Alarms α :=
  { a with pending := a.pending.filter fun alarm => alarm.number != number }

/-- The clock jumps ahead. -/
def advance (a : Alarms α) (ms : Nat) : Alarms α :=
  { a with now := a.now + ms }

/-- The alarms whose time has come, the earliest first. -/
def due (a : Alarms α) : List (Alarm α) :=
  (a.pending.filter fun alarm => alarm.due ≤ a.now).mergeSort fun x y => x.due ≤ y.due

/-- When the next alarm goes off. -/
def nextDue? (a : Alarms α) : Option Nat :=
  (a.pending.map (·.due)).min?

/-- Without the alarms whose time has come. -/
def afterDue (a : Alarms α) : Alarms α :=
  { a with pending := a.pending.filter fun alarm => a.now < alarm.due }

end Alarms

end RunControl
