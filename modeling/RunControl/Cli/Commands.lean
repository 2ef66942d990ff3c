/-
RunControl/Cli/Commands.lean

The commands of the program as dialogues with the store.  A thing is fetched by
sending its intent and waiting until no answer about it is awaited any more; the
command fails if a failure has been noted then.

A run is started only after everything has been fetched that could speak against
it.  A device is changed or deleted as it is stored, whatever the spelling of the
address on the command line.
-/
import RunControl.Cli.Dialogue
import RunControl.Cli.Invocation
import RunControl.Cli.Lines

namespace RunControl.Cli

open Dialogue

/-! ### Fetching -/

/-- Sends an intent and waits for the answer about a resource. -/
def fetch (intent : Intent) (r : Resource) : Dialogue State := do
  let s ← ask [intent] fun s => !s.isLoading r
  refuse s r ("fetch " ++ r.name)
  pure s

/-- Whether the first status has been fetched, or the attempt has failed. -/
def hasStatus (s : State) : Bool :=
  s.poll.opened != 0 && !s.poll.isFetching

/-- Fetches the status once. -/
def fetchStatus : Dialogue State := do
  let s ← ask [.fetchStatus] hasStatus
  unless s.poll.isIdle do tell .stopPolling
  refuse s .systemStatus "fetch system status"
  pure s

/-- The first device with an address, up to ASCII case. -/
def find (devices : List Device) (address : String) : Dialogue Device :=
  match devices.find? (·.hasAddress address) with
  | some device => pure device
  | none => fail ("no device with mac address " ++ address)

/-- The device that is registered under an address. -/
def registered (address : String) : Dialogue Device := do
  let s ← fetch .fetchDevices .devices
  find s.devices address

/-! ### Commands -/

/-- Prints the status. -/
def showStatus : Dialogue Unit := do
  let s ← fetchStatus
  printAll [statusLine s.status]

/-- Starts a run. -/
def start (address : String) (firmware : Option String) : Dialogue Unit := do
  let _ ← fetch .fetchInterfaces .interfaces
  let _ ← fetch .fetchConfig .systemConfig
  let s ← fetch .fetchDevices .devices
  let _ ← fetchStatus
  let stored ← find s.devices address
  let device := { stored with firmware := firmware <|> stored.firmware }
  if let some blocker := (← present).blocker? then
    fail ("cannot start testrun: " ++ blocker.text)
  let s ← fetch (.startRun device) .startRun
  tell .stopPolling
  printAll ["started testrun for " ++ device.displayName, statusLine s.status]

/-- Stops the run, and fetches the status after it. -/
def stop : Dialogue Unit := do
  let s ← ask [.stopRun] fun s =>
    (s.errors.get .stopRun).isSome || (!s.isLoading .stopRun && hasStatus s)
  refuse s .stopRun "stop testrun"
  tell .stopPolling
  printAll ["testrun stopped", statusLine s.status]

/-- Prints the devices. -/
def showDevices : Dialogue Unit := do
  let s ← fetch .fetchDevices .devices
  printAll (deviceLines s)

/-- Registers a device. -/
def addDevice (device : Device) : Dialogue Unit := do
  let _ ← fetch (.createDevice device) .createDevice
  printAll ["added " ++ device.displayName]

/-- Changes a registered device. -/
def editDevice (address : String) (change : DeviceChange) : Dialogue Unit := do
  let stored ← registered address
  let device := change.applyTo stored
  let _ ← fetch (.editDevice stored.address device) .editDevice
  printAll ["updated " ++ device.displayName]

/-- Deletes a registered device. -/
def deleteDevice (address : String) : Dialogue Unit := do
  let device ← registered address
  let _ ← fetch (.deleteDevice device) .deleteDevice
  printAll ["deleted " ++ device.displayName]

/-- Prints the profiles. -/
def showProfiles : Dialogue Unit := do
  let s ← fetch .fetchProfiles .riskProfiles
  printAll (profileLines s)

/-- Prints the interfaces. Without a configuration the roles are not assigned. -/
def showInterfaces : Dialogue Unit := do
  let s ← ask [.fetchConfig, .fetchInterfaces] fun s =>
    !s.isLoading .systemConfig && !s.isLoading .interfaces
  refuse s .interfaces "fetch interfaces"
  printAll (interfaceLines s)

/-- Prints the configuration. -/
def showConfig : Dialogue Unit := do
  let s ← fetch .fetchConfig .systemConfig
  printAll (s.config.map fun c => c.toJson.pretty).toList
  if s.missing.isSome then warn "warning: connection settings are missing" (done ())

/-- The version of the program. -/
def programVersion : String :=
  "0.1.0"

/-- Prints the version of the program, and that of the backend. -/
def showVersions : Dialogue Unit := do
  printAll [programVersion]
  let s ← fetch .fetchVersion .systemVersion
  printAll ((s.version.map versionLines).getD [])

end RunControl.Cli
