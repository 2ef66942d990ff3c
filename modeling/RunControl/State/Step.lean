/-
RunControl/State/Step.lean

What each intent does to the state.  `State.after` is total, and nothing else
changes a state; `State.replay` is the state after a list of intents.

The parts of a state that repeat others are written together with what they
repeat: `recheck` after the roles or the host's interfaces, `withDevices` for
the devices, `withMissing` for a missing setting.
-/
import RunControl.State

namespace RunControl.State

/-! ### Parts of the steps -/

/-- An answer is awaited from now on. -/
def await (s : State) (r : Resource) : State :=
  { s with loading := s.loading.set r true }

/-- The last attempt failed. -/
def withError (s : State) (r : Resource) (f : Failure) : State :=
  { s with errors := s.errors.set r (some f) }

/-- The last failure is forgotten. -/
def withoutError (s : State) (r : Resource) : State :=
  { s with errors := s.errors.set r none }

/-- An answer has arrived, and nothing is wrong with it. -/
def settle (s : State) (r : Resource) : State :=
  { s with loading := s.loading.set r false, errors := s.errors.set r none }

/-- Checks the roles against the host's interfaces once more. -/
def recheck (s : State) : State :=
  { s with roleCheck := RoleCheck.derive s.roles s.host }

/-- Replaces the devices. -/
def withDevices (s : State) (devices : List Device) : State :=
  let hasDevices := !devices.isEmpty
  { s with
    devices
    hasDevices
    missing := s.missing.map fun m => { m with hasDevices } }

/-- Notes a missing setting, or that none is missing. -/
def withMissing (s : State) (missing : Option MissingSetting) : State :=
  { s with missing := missing.map fun m => { m with hasDevices := s.hasDevices } }

/-- The note of a missing setting. -/
def settingMissing : MissingSetting where
  isMissing := true
  hasDevices := false

/-- Replaces the status; at a terminal stage no device is under test any more. -/
def withStatus (s : State) (status : RunStatus) : State :=
  { s with status, underTest := if status.isTerminal then none else s.underTest }

/-- The devices without those that have an address. -/
def dropAddress (devices : List Device) (address : String) : List Device :=
  devices.filter fun d => !d.hasAddress address

/-- The devices with the first one that has the address replaced; without one
the replacement comes last. -/
def replaceAddress (address : String) (device : Device) : List Device → List Device
  | [] => [device]
  | d :: ds => if d.hasAddress address then device :: ds else d :: replaceAddress address device ds

/-- The refusal to delete a device that is under test. -/
def busyDevice : Failure where
  kind := .rejected
  message := "device is under test; stop the testrun first"

/-! ### Steps -/

/-- The state with a change to what is open in the user interface. -/
def onInterface (s : State) (f : Interface → Interface) : State :=
  { s with interface := f s.interface }

/-- The state with a change to polling. -/
def onPoll (s : State) (f : Poll → Poll) : State :=
  { s with poll := f s.poll }

/-- The answer of a status fetch that is wanted. -/
def acceptStatus (s : State) (cycle : Cycle) (status : RunStatus) : State :=
  ((s.withStatus status).withoutError .systemStatus).onPoll
    (·.complete cycle status.isTerminal)

/-- The failure of a status fetch that is wanted: without configuration on the
backend it makes no sense to go on. -/
def acceptFailure (s : State) (cycle : Cycle) (failure : Failure) : State :=
  let s := if failure.isUnconfigured then s.withMissing (some settingMissing) else s
  (s.withError .systemStatus failure).onPoll (·.complete cycle failure.isUnconfigured)

/-- A configuration has been fetched. -/
def acceptConfig (s : State) (config : SystemConfig) : State :=
  let complete := config.hasConnectionSettings
  let s := s.onInterface ({ · with hasConnectionSettings := complete })
  let s := s.withMissing (if complete then none else some settingMissing)
  let s := recheck { s with roles := config.network.roles }
  settle { s with config := some config } .systemConfig

/-- The host's interfaces have been fetched; the roles are those of the
configuration if it is known. -/
def acceptHost (s : State) (host : HostInterfaces) : State :=
  let roles :=
    match s.config with
    | some config => config.network.roles
    | none => s.roles
  (recheck { s with host := some host, roles }).settle .interfaces

/-- Asks for a run, unless something speaks against it. -/
def startRun (s : State) : State :=
  match s.blocker? with
  | some blocker => s.withError .startRun { kind := .rejected, message := blocker.text }
  | none => (s.withoutError .startRun).await .startRun

/-- A run was started. -/
def runStarted (s : State) (device : Device) (status : RunStatus) : State :=
  let s := s.withStatus status
  let s := if status.isTerminal then s else { s with underTest := some device }
  let s := s.onInterface ({ · with startRunOpen := false })
  (s.settle .startRun).onPoll (·.request)

/-- A run was stopped. -/
def runStopped (s : State) : State :=
  let s := { s.onPoll (·.stop) with underTest := none }
  (s.onInterface ({ · with stopRun := false })).settle .stopRun

/-- A device was added; it takes the place of those with its address. -/
def deviceCreated (s : State) (device : Device) : State :=
  let s := s.withDevices (dropAddress s.devices device.address ++ [device])
  (s.onInterface ({ · with addDeviceOpen := false })).settle .createDevice

/-- A device was replaced. -/
def deviceEdited (s : State) (address : String) (device : Device) : State :=
  let s := s.withDevices (replaceAddress address device s.devices)
  (s.onInterface ({ · with addDeviceOpen := false })).settle .editDevice

/-- Asks for a device to be deleted, unless it is under test. -/
def deleteDevice (s : State) (device : Device) : State :=
  if s.isBusy device then s.withError .deleteDevice busyDevice
  else (s.withoutError .deleteDevice).await .deleteDevice

/-- A request failed. -/
def requestFailed (s : State) (r : Resource) (failure : Failure) : State :=
  let s := { s with loading := s.loading.set r false }
  let s := s.withError r failure
  if r = .stopRun then s.onInterface ({ · with stopRun := false }) else s

/-- The state after an intent. -/
def after (s : State) : Intent → State
  | .toggleMenu => s.onInterface fun i => { i with menuOpen := !i.menuOpen }
  | .setFocusNavigation focus => s.onInterface ({ · with focusNavigation := focus })
  | .setHasConnectionSettings value => s.onInterface ({ · with hasConnectionSettings := value })
  | .setAddDeviceOpen value => s.onInterface ({ · with addDeviceOpen := value })
  | .setStopRun value => s.onInterface ({ · with stopRun := value })
  | .setWaitNoticeOpen value => s.onInterface ({ · with waitNoticeOpen := value })
  | .setStartRunOpen value => s.onInterface ({ · with startRunOpen := value })
  | .setStatusText value => s.onInterface ({ · with statusText := value })
  | .fetchInterfaces => s.await .interfaces
  | .rolesFetched roles => (recheck { s with roles }).settle .interfaces
  | .hostFetched host => s.acceptHost host
  | .setMissing missing => s.withMissing missing
  | .fetchConfig => s.await .systemConfig
  | .configFetched config => s.acceptConfig config
  | .fetchDevices => s.await .devices
  | .devicesFetched devices => (s.withDevices devices).settle .devices
  | .setUnderTest device => { s with underTest := device }
  | .fetchProfiles => s.await .riskProfiles
  | .profilesFetched profiles =>
    settle { s with profiles, hasProfiles := !profiles.isEmpty } .riskProfiles
  | .fetchStatus => s.onPoll (·.request)
  | .statusFetched cycle status =>
    if s.poll.accepts cycle then s.acceptStatus cycle status
    else s.onPoll (·.complete cycle true)
  | .statusFailed cycle failure =>
    if s.poll.accepts cycle then s.acceptFailure cycle failure
    else s.onPoll (·.complete cycle true)
  | .setStatus status =>
    let s := s.withStatus status
    if !status.isTerminal && !s.poll.isPolling then s.onPoll (·.request) else s
  | .timerFired cycle => s.onPoll (·.tick cycle)
  | .stopPolling => s.onPoll (·.stop)
  | .failed r failure => s.requestFailed r failure
  | .fetchVersion => s.await .systemVersion
  | .versionFetched version => settle { s with version := some version } .systemVersion
  | .startRun _ => s.startRun
  | .runStarted device status => s.runStarted device status
  | .stopRun => (s.onInterface ({ · with stopRun := true })).await .stopRun
  | .runStopped => s.runStopped
  | .createDevice _ => s.await .createDevice
  | .deviceCreated device => s.deviceCreated device
  | .editDevice .. => s.await .editDevice
  | .deviceEdited address device => s.deviceEdited address device
  | .deleteDevice device => s.deleteDevice device
  | .deviceDeleted address =>
    (s.withDevices (dropAddress s.devices address)).settle .deleteDevice

/-- The state after a list of intents. -/
def replay (s : State) (is : List Intent) : State :=
  is.foldl after s

@[simp] theorem replay_nil (s : State) : s.replay [] = s := rfl

@[simp] theorem replay_cons (s : State) (i : Intent) (is : List Intent) :
    s.replay (i :: is) = (s.after i).replay is := rfl

theorem replay_append (s : State) (is js : List Intent) :
    s.replay (is ++ js) = (s.replay is).replay js :=
  List.foldl_append ..

end RunControl.State
