/-
RunControl/RunStatus.lean

What the backend reports about the current run: its stage, the device under
test, when it started and finished, and the results so far.  At a terminal stage
(`Stage.isTerminal`) no further progress is to be expected; an unknown stage is
not terminal.
-/
import RunControl.Device

namespace RunControl

open Json

/-! ### Stages -/

/-- The stage of a run. -/
inductive Stage where
  | idle
  | starting
  | waitingForDevice
  | monitoring
  | inProgress
  | cancelling
  | stopping
  | cancelled
  | complete
  | compliant
  | nonCompliant
  | failed
  | error
  | unknown
  deriving DecidableEq, Inhabited

namespace Stage

/-- Every stage. -/
def all : List Stage :=
  [idle, starting, waitingForDevice, monitoring, inProgress, cancelling, stopping,
    cancelled, complete, compliant, nonCompliant, failed, error, unknown]

/-- The name of a stage. -/
def name : Stage → String
  | idle => "Idle"
  | starting => "Starting"
  | waitingForDevice => "Waiting for Device"
  | monitoring => "Monitoring"
  | inProgress => "In Progress"
  | cancelling => "Cancelling"
  | stopping => "Stopping"
  | cancelled => "Cancelled"
  | complete => "Complete"
  | compliant => "Compliant"
  | nonCompliant => "Non-Compliant"
  | failed => "Failed"
  | error => "Error"
  | unknown => "Unknown"

/-- The stage that a name stands for; a finished run has two names. -/
def ofName (s : String) : Stage :=
  if s = "Completed" then complete
  else (all.find? fun stage => stage.name == s).getD unknown

@[simp] theorem ofName_name (s : Stage) : ofName s.name = s := by
  cases s <;> decide

/-- Whether no further progress is to be expected. -/
def isTerminal : Stage → Bool
  | idle | cancelled | complete | compliant | nonCompliant | failed | error => true
  | _ => false

/-- Reads a stage. -/
def decode : Decoder Stage := fun n doc =>
  (Decode.name n doc).map ofName

/-- The JSON value of a stage. -/
def toJson (s : Stage) : Json :=
  .string s.name

end Stage

/-! ### Results -/

/-- The result of one test. -/
structure TestResult where
  name : String
  description : String := ""
  result : String := ""
  deriving DecidableEq, Inhabited

namespace TestResult

/-- Reads a result. -/
def decode : Decoder TestResult := fun n doc => do
  let m ← Decode.recordOf ["name", "description", "result"] n doc
  let name ← m.required "name" Decode.string
  let description ← m.withDefault "description" Decode.string ""
  let result ← m.withDefault "result" Decode.string ""
  pure { name, description, result }

/-- The JSON value of a result. -/
def toJson (r : TestResult) : Json :=
  .object [("name", .string r.name), ("description", .string r.description),
    ("result", .string r.result)]

end TestResult

/-- The results so far, and how many tests there are. -/
structure Tests where
  total : Nat := 0
  results : List TestResult := []
  deriving DecidableEq, Inhabited

namespace Tests

/-- Reads the results; the number of tests fits 32 bits. -/
def decode : Decoder Tests := fun n doc => do
  let m ← Decode.recordOf ["total", "results"] n doc
  let total ← m.withDefault "total" (Decode.below (Nat.pow 2 32)) 0
  let results ← m.withDefault "results" (Decode.list TestResult.decode) []
  pure { total, results }

/-- The JSON value of the results. -/
def toJson (t : Tests) : Json :=
  .object [("total", .int t.total), ("results", .array (t.results.map TestResult.toJson))]

end Tests

/-! ### The status of a run -/

/-- What the backend reports about the current run. -/
structure RunStatus where
  stage : Stage := .idle
  device : Option Device := none
  started : Option String := none
  finished : Option String := none
  tests : Tests := {}
  report : Option String := none
  deriving DecidableEq, Inhabited

namespace RunStatus

/-- Reads a status. -/
def decode : Decoder RunStatus := fun n doc => do
  let m ← Decode.recordOf ["status", "device", "started", "finished", "tests", "report"] n doc
  let stage ← m.withDefault "status" Stage.decode .idle
  let device ← m.optional "device" Device.decode
  let started ← m.optional "started" Decode.string
  let finished ← m.optional "finished" Decode.string
  let tests ← m.withDefault "tests" Tests.decode {}
  let report ← m.optional "report" Decode.string
  pure { stage, device, started, finished, tests, report }

/-- The JSON value of a status. -/
def toJson (s : RunStatus) : Json :=
  .object ([("status", s.stage.toJson)] ++ maybe "device" (s.device.map Device.toJson) ++
    maybe "started" (s.started.map .string) ++ maybe "finished" (s.finished.map .string) ++
    [("tests", s.tests.toJson)] ++ maybe "report" (s.report.map .string))

/-- The status that reports a stage and nothing else. -/
def ofStage (stage : Stage) : RunStatus where
  stage := stage

/-- Whether no further progress is to be expected. -/
def isTerminal (s : RunStatus) : Bool :=
  s.stage.isTerminal

end RunStatus

end RunControl
