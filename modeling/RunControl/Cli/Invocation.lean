/-
RunControl/Cli/Invocation.lean

What the program is asked to do: one order, and what overrides the settings.
`Invocation.read` gives it for every command line that is well formed.
-/
import RunControl.Cli.Arguments
import RunControl.Device

namespace RunControl.Cli

/-! ### Orders -/

/-- What is to be changed about a device. -/
structure DeviceChange where
  address : Option String := none
  manufacturer : Option String := none
  model : Option String := none
  /-- The test modules to switch on. -/
  enable : List String := []
  /-- The test modules to switch off, also when they are to be switched on. -/
  disable : List String := []
  deriving DecidableEq, Inhabited

namespace DeviceChange

/-- Switches test modules on or off. -/
def switch (enabled : Bool) (modules : Dict TestModule) (names : List String) : Dict TestModule :=
  names.foldl (fun m name => m.insert name { enabled }) modules

/-- The device with the changes. -/
def applyTo (c : DeviceChange) (d : Device) : Device where
  address := c.address.getD d.address
  manufacturer := c.manufacturer.getD d.manufacturer
  model := c.model.getD d.model
  firmware := d.firmware
  modules := switch false (switch true d.modules c.enable) c.disable

end DeviceChange

/-- A program that reads commands and can complete them. -/
inductive Shell where
  | bash
  | fish
  | powershell
  | zsh
  deriving DecidableEq, Inhabited

/-- What the program can be asked to do. -/
inductive Order where
  | status
  | watch
  | start (address : String) (firmware : Option String)
  | stop
  | devices
  | addDevice (device : Device)
  | editDevice (address : String) (change : DeviceChange)
  | deleteDevice (address : String)
  | profiles
  | interfaces
  | config
  | version (remote : Bool)
  | completion (shell : Shell)
  deriving DecidableEq, Inhabited

namespace Order

/-- The device that is to be added. -/
def newDevice? (a : Arguments) : Option Device := do
  let address ← a.value? "mac"
  let manufacturer ← a.value? "manufacturer"
  let model ← a.value? "model"
  let modules := DeviceChange.switch true .empty (a.values "module")
  pure { address, manufacturer, model, modules }

/-- What is to be changed about a device. -/
def change (a : Arguments) : DeviceChange where
  address := a.value? "new-mac"
  manufacturer := a.value? "manufacturer"
  model := a.value? "model"
  enable := a.values "enable"
  disable := a.values "disable"

/-- The order that a command line gives, if nothing is missing. -/
def of? (a : Arguments) : Option Order :=
  match a.path with
  | ["status"] => some .status
  | ["watch"] => some .watch
  | ["start"] => (a.value? "mac").map fun mac => .start mac (a.value? "firmware")
  | ["stop"] => some .stop
  | ["devices"] => some .devices
  | ["device", "add"] => (newDevice? a).map .addDevice
  | ["device", "edit"] => (a.value? "mac").map fun mac => .editDevice mac (change a)
  | ["device", "delete"] => (a.value? "mac").map .deleteDevice
  | ["profiles"] => some .profiles
  | ["interfaces"] => some .interfaces
  | ["config"] => some .config
  | ["version"] => some (.version (a.has "remote"))
  | ["completion", "bash"] => some (.completion .bash)
  | ["completion", "fish"] => some (.completion .fish)
  | ["completion", "powershell"] => some (.completion .powershell)
  | ["completion", "zsh"] => some (.completion .zsh)
  | _ => none

end Order

/-! ### Invocations -/

/-- What the program is asked to do, and what overrides the settings. -/
structure Invocation where
  order : Order
  apiUrl : Option String := none
  configFile : Option String := none
  programDir : Option String := none
  logLevel : Option String := none
  interval : Option Nat := none
  deriving DecidableEq, Inhabited

namespace Invocation

/-- What the command line asks for, given the environment. -/
def read (environment : String → Option String) (words : List String) :
    Except Halt Invocation := do
  let a ← Arguments.read .program environment words
  match Order.of? a with
  | none => throw .misuse
  | some order =>
    pure
      { order
        apiUrl := a.value? "api-url"
        configFile := a.value? "config"
        programDir := a.value? "trs-dir"
        logLevel := a.value? "log-level"
        interval := (a.value? "poll-interval-ms").bind natural? }

end Invocation

end RunControl.Cli
