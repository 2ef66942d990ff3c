/-
RunControl/State.lean

The state of the store, and the questions that are asked of it.  Some parts
repeat what others say, so that they can be read off at once: whether there are
devices or profiles, which roles can be used, and whether there were devices
when a setting was found missing.

A run may be started when no setting is missing, both roles can be used, there
is a device and no run is active; `blocker?` names the first of these that does
not hold.
-/
import RunControl.Intent
import RunControl.RunSummary

namespace RunControl

/-- What is open or switched on in a user interface. -/
structure Interface where
  hasConnectionSettings : Bool := false
  addDeviceOpen : Bool := false
  stopRun : Bool := false
  waitNoticeOpen : Bool := false
  startRunOpen : Bool := false
  menuOpen : Bool := false
  focusNavigation : Bool := false
  statusText : Option String := none
  deriving DecidableEq, Inhabited

/-- The state of the store. -/
structure State where
  /-- The interfaces that play the two roles. -/
  roles : Roles := {}
  /-- The interfaces of the host, once they are known. -/
  host : Option HostInterfaces := none
  /-- Which of the roles can be used. -/
  roleCheck : RoleCheck := {}
  /-- Set when a setting is missing. -/
  missing : Option MissingSetting := none
  config : Option SystemConfig := none
  devices : List Device := []
  /-- Whether there are devices. -/
  hasDevices : Bool := false
  /-- The device that is under test. -/
  underTest : Option Device := none
  profiles : List Profile := []
  /-- Whether there are profiles. -/
  hasProfiles : Bool := false
  status : RunStatus := {}
  version : Option SystemVersion := none
  poll : Poll := {}
  /-- What has been asked for and not been answered. -/
  loading : PerResource Bool := .const false
  /-- How the last attempt failed, until one succeeds. -/
  errors : PerResource (Option Failure) := .const none
  interface : Interface := {}
  deriving BEq, Inhabited

/-- Why a run cannot be started. -/
inductive Blocker where
  | settingMissing
  | rolesUnusable
  | noDevices
  | runActive
  deriving DecidableEq, Inhabited

namespace Blocker

/-- The text of a blocker. -/
def text : Blocker → String
  | settingMissing => "connection settings are missing"
  | rolesUnusable => "network interfaces are not valid"
  | noDevices => "no devices configured"
  | runActive => "a testrun is already in progress"

end Blocker

namespace State

/-! ### Questions -/

/-- A run is active while its stage is not terminal, and while one is asked for. -/
def isRunActive (s : State) : Bool :=
  !s.status.isTerminal || s.loading.get .startRun

/-- Whether an answer is awaited. -/
def isLoading (s : State) (r : Resource) : Bool :=
  if r = .systemStatus then s.poll.isFetching else s.loading.get r

/-- The resources that an answer is awaited for, not counting the status. -/
def loadingList (s : State) : List Resource :=
  Resource.all.filter s.loading.get

/-- No answer is awaited. -/
def isSettled (s : State) : Bool :=
  s.loadingList.isEmpty && !s.poll.isFetching

/-- The failures, in the order of the resources. -/
def errorList (s : State) : List (Resource × Failure) :=
  Resource.all.filterMap fun r => (s.errors.get r).map fun f => (r, f)

/-- Whether a setting is missing. -/
def isSettingMissing (s : State) : Bool :=
  match s.missing with
  | some m => m.isMissing
  | none => false

/-- The first reason why a run cannot be started. -/
def blocker? (s : State) : Option Blocker :=
  if s.isSettingMissing then some .settingMissing
  else if !s.roleCheck.isValid then some .rolesUnusable
  else if !s.hasDevices then some .noDevices
  else if s.isRunActive then some .runActive
  else none

/-- Whether a run can be started. -/
def canStart (s : State) : Bool :=
  s.blocker?.isNone

/-- Whether a device has the address of the one under test while a run is active. -/
def isBusy (s : State) (device : Device) : Bool :=
  match s.underTest with
  | some d => d.hasAddress device.address && s.isRunActive
  | none => false

end State

end RunControl
