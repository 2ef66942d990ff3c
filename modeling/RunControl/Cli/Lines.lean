/-
RunControl/Cli/Lines.lean

The lines that are printed about the things that the backend knows.  The fields
of a line are separated by tabs, and a hyphen stands for a field that is not
there.
-/
import RunControl.RunSummary
import RunControl.State

namespace RunControl.Cli

open Text (decimal joinWith)

/-- A line of fields. -/
def line (fields : List String) : String :=
  joinWith "\t" fields

/-- A field, or a hyphen. -/
def orHyphen (field : Option String) : String :=
  field.getD "-"

/-! ### Lines about one thing -/

/-- How many tests have been completed, and with what result. -/
def progress (s : RunSummary) : String :=
  decimal s.completed ++ "/" ++ decimal s.total ++ " tests" ++
    if s.completed = 0 then ""
    else " (" ++ decimal s.compliant ++ " compliant, " ++ decimal s.nonCompliant ++
      " non-compliant)"

/-- The line about the status of a run. -/
def statusLine (s : RunStatus) : String :=
  line ([s.stage.name, orHyphen (s.device.map Device.displayName), progress s.summary] ++
    (s.elapsed?.map fun e => decimal e.seconds ++ "s").toList)

/-- The line about a device. -/
def deviceLine (d : Device) : String :=
  line [d.address, d.displayName, orHyphen d.firmware, joinWith "," d.enabledModules]

/-- The line about a profile. -/
def profileLine (p : Profile) : String :=
  line [p.name, p.standing.name, orHyphen p.risk]

/-- The line about a role, and whether it can be used. -/
def roleLine (role : String) (name : Option String) (isUsable : Bool) : String :=
  line [role, orHyphen name, if isUsable then "ok" else "invalid"]

/-! ### Lists -/

/-- The lines about the devices. -/
def deviceLines (s : State) : List String :=
  if s.hasDevices then s.devices.map deviceLine else ["No devices"]

/-- The lines about the profiles. -/
def profileLines (s : State) : List String :=
  if s.hasProfiles then s.profiles.map profileLine else ["No risk profiles"]

/-- The lines about the interfaces of the host, and about the two roles. -/
def interfaceLines (s : State) : List String :=
  let host :=
    match s.host with
    | some host => host.entries.map fun e => line [e.1, e.2]
    | none => []
  host ++
    [roleLine "internet" s.roles.internet s.roleCheck.internet,
      roleLine "device" s.roles.device s.roleCheck.device]

/-- The lines about the version of the backend. -/
def versionLines (v : SystemVersion) : List String :=
  ("backend " ++ v.installed.getD "unknown") ::
    if v.updateAvailable then ["update available: " ++ v.latest.getD "unknown"] else []

end RunControl.Cli
