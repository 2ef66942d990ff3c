/-
RunControl/Intent.lean

Everything that can happen to the store: what a user wants, what a request
comes to, and what the timer says.  Intents are plain data; what each of them
means is decided in `RunControl.State.Step`.

`outcome` gives the intents that a request ends with, for every answer of the
client.
-/
import RunControl.Request

namespace RunControl

/-- A setting without which no run can be started is missing; a note is made
whether there are devices meanwhile. -/
structure MissingSetting where
  isMissing : Bool
  hasDevices : Bool
  deriving DecidableEq, Inhabited

/-- Something that can happen to the store. -/
inductive Intent where
  | toggleMenu
  | setFocusNavigation (focus : Bool)
  | setHasConnectionSettings (value : Bool)
  | setAddDeviceOpen (value : Bool)
  | setStopRun (value : Bool)
  | setWaitNoticeOpen (value : Bool)
  | setStartRunOpen (value : Bool)
  | setStatusText (value : Option String)
  | fetchInterfaces
  | rolesFetched (roles : Roles)
  | hostFetched (host : HostInterfaces)
  | setMissing (missing : Option MissingSetting)
  | fetchConfig
  | configFetched (config : SystemConfig)
  | fetchDevices
  | devicesFetched (devices : List Device)
  | setUnderTest (device : Option Device)
  | fetchProfiles
  | profilesFetched (profiles : List Profile)
  | fetchStatus
  | statusFetched (cycle : Cycle) (status : RunStatus)
  | statusFailed (cycle : Cycle) (failure : Failure)
  | setStatus (status : RunStatus)
  | timerFired (cycle : Cycle)
  | stopPolling
  | failed (resource : Resource) (failure : Failure)
  | fetchVersion
  | versionFetched (version : SystemVersion)
  | startRun (device : Device)
  | runStarted (device : Device) (status : RunStatus)
  | stopRun
  | runStopped
  | createDevice (device : Device)
  | deviceCreated (device : Device)
  | editDevice (address : String) (device : Device)
  | deviceEdited (address : String) (device : Device)
  | deleteDevice (device : Device)
  | deviceDeleted (address : String)
  deriving BEq, Inhabited

/-! ### What a request comes to -/

/-- The intents of a request that failed: a backend without configuration is
noted before the failure itself. -/
def failureIntents (resource : Resource) (fault : Fault) : List Intent :=
  let failure := Failure.ofFault fault
  if failure.isUnconfigured then
    [.setMissing (some { isMissing := true, hasDevices := false }), .failed resource failure]
  else [.failed resource failure]

/-- The intents that a request ends with. After a command that changed something
on the backend, the thing changed is fetched again. -/
def outcome : (q : Request) → q.call.Answer → List Intent
  | .interfaces, .ok host => [.hostFetched host]
  | .interfaces, .error e => failureIntents .interfaces e
  | .systemConfig, .ok config => [.configFetched config]
  | .systemConfig, .error e => failureIntents .systemConfig e
  | .devices, .ok devices => [.devicesFetched devices]
  | .devices, .error e => failureIntents .devices e
  | .riskProfiles, .ok profiles => [.profilesFetched profiles]
  | .riskProfiles, .error e => failureIntents .riskProfiles e
  | .systemVersion, .ok version => [.versionFetched version]
  | .systemVersion, .error e => failureIntents .systemVersion e
  | .systemStatus cycle, .ok status => [.statusFetched cycle status]
  | .systemStatus cycle, .error e => [.statusFailed cycle (Failure.ofFault e)]
  | .startRun device, .ok status => [.runStarted device status]
  | .startRun _, .error e => failureIntents .startRun e
  | .stopRun, .ok () => [.runStopped, .fetchStatus]
  | .stopRun, .error e => failureIntents .stopRun e
  | .createDevice device, .ok () => [.deviceCreated device, .fetchDevices]
  | .createDevice _, .error e => failureIntents .createDevice e
  | .editDevice address device, .ok () => [.deviceEdited address device, .fetchDevices]
  | .editDevice .., .error e => failureIntents .editDevice e
  | .deleteDevice device, .ok () => [.deviceDeleted device.address, .fetchDevices]
  | .deleteDevice _, .error e => failureIntents .deleteDevice e

end RunControl
