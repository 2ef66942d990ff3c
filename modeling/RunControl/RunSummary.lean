/-
RunControl/RunSummary.lean

What the status of a run comes to: how many results there are of each sort, and
how long the run took.
-/
import RunControl.RunStatus
import RunControl.Timestamp

namespace RunControl

/-- How many tests there are, and how many results of each sort. -/
structure RunSummary where
  total : Nat
  completed : Nat
  compliant : Nat
  nonCompliant : Nat
  other : Nat
  deriving DecidableEq, Inhabited

namespace RunStatus

/-- Counts the results; blanks around a result do not count. -/
def summary (s : RunStatus) : RunSummary :=
  let results := s.tests.results.map fun r => Text.trim r.result
  let compliant := results.count "Compliant"
  let nonCompliant := results.count "Non-Compliant"
  { total := s.tests.total
    completed := results.length
    compliant
    nonCompliant
    other := results.length - compliant - nonCompliant }

/-- The time from the start of a run to its end, once both are known. -/
def elapsed? (s : RunStatus) : Option Elapsed := do
  let start ← Timestamp.parse? (← s.started)
  let finish ← Timestamp.parse? (← s.finished)
  Elapsed.between? start finish

end RunStatus

end RunControl
