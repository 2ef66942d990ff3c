/-
RunControl/SystemConfig.lean

The configuration of the backend's system.  Only the two interface names of its
network section mean something here; every other key, at the top and inside the
network section, is kept as it is.
-/
import RunControl.Interfaces

namespace RunControl

open Json

/-- The network section: the names of the two interfaces, and what else it holds. -/
structure Network where
  deviceInterface : String := ""
  internetInterface : String := ""
  extra : Dict Json := .empty
  deriving BEq, Inhabited

namespace Network

/-- Reads a network section. -/
def decode : Decoder Network := fun n doc => do
  let m ← Decode.membersOf ["device_intf", "internet_intf"] n doc
  let deviceInterface ← m.withDefault "device_intf" Decode.string ""
  let internetInterface ← m.withDefault "internet_intf" Decode.string ""
  let extra ← m.extra
  pure { deviceInterface, internetInterface, extra }

/-- The JSON value of a network section. -/
def toJson (c : Network) : Json :=
  .object ([("device_intf", .string c.deviceInterface),
    ("internet_intf", .string c.internetInterface)] ++ c.extra.entries)

/-- The roles that a network section assigns; a blank name assigns none. -/
def roles (c : Network) : Roles where
  internet := nameOf? c.internetInterface
  device := nameOf? c.deviceInterface

end Network

/-- The configuration of the backend's system. -/
structure SystemConfig where
  network : Network := {}
  extra : Dict Json := .empty
  deriving BEq, Inhabited

namespace SystemConfig

/-- Reads a configuration. -/
def decode : Decoder SystemConfig := fun n doc => do
  let m ← Decode.membersOf ["network"] n doc
  let network ← m.withDefault "network" Network.decode {}
  let extra ← m.extra
  pure { network, extra }

/-- The JSON value of a configuration. -/
def toJson (c : SystemConfig) : Json :=
  .object (("network", c.network.toJson) :: c.extra.entries)

/-- A run needs at least the interface on the side of the device. -/
def hasConnectionSettings (c : SystemConfig) : Bool :=
  (nameOf? c.network.deviceInterface).isSome

end SystemConfig

end RunControl
