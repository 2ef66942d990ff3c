/-
RunControl/Device.lean

Devices that can be put under test.  A device is known by its hardware address,
up to ASCII case (`Device.hasAddress`).
-/
import RunControl.Json.Decode
import RunControl.Text.Blank

namespace RunControl

open Json

/-- A module of the test suite, switched on or off for a device. -/
structure TestModule where
  enabled : Bool := false
  deriving DecidableEq, Inhabited

namespace TestModule

/-- Reads a test module. -/
def decode : Decoder TestModule := fun n doc => do
  let m ← Decode.recordOf ["enabled"] n doc
  pure { enabled := ← m.withDefault "enabled" Decode.bool false }

/-- The JSON value of a test module. -/
def toJson (m : TestModule) : Json :=
  .object [("enabled", .bool m.enabled)]

end TestModule

/-- A device that is registered with the backend. -/
structure Device where
  address : String
  manufacturer : String := ""
  model : String := ""
  firmware : Option String := none
  modules : Dict TestModule := .empty
  deriving DecidableEq, Inhabited

namespace Device

/-- Reads a device. -/
def decode : Decoder Device := fun n doc => do
  let m ← Decode.recordOf ["mac_addr", "manufacturer", "model", "firmware", "test_modules"] n doc
  let address ← m.required "mac_addr" Decode.string
  let manufacturer ← m.withDefault "manufacturer" Decode.string ""
  let model ← m.withDefault "model" Decode.string ""
  let firmware ← m.optional "firmware" Decode.string
  let modules ← m.withDefault "test_modules" (Decode.dict TestModule.decode) .empty
  pure { address, manufacturer, model, firmware, modules }

/-- The JSON value of a device. -/
def toJson (d : Device) : Json :=
  .object ([("mac_addr", .string d.address), ("manufacturer", .string d.manufacturer),
    ("model", .string d.model)] ++ maybe "firmware" (d.firmware.map .string) ++
    if d.modules.isEmpty then [] else [("test_modules", ofDict TestModule.toJson d.modules)])

/-- Manufacturer and model, or the address of a device that has neither. -/
def displayName (d : Device) : String :=
  let name := Text.trim (Text.trim d.manufacturer ++ " " ++ Text.trim d.model)
  if name.isEmpty then d.address else name

/-- The names of the modules that are switched on, in order. -/
def enabledModules (d : Device) : List String :=
  (d.modules.entries.filter fun e => e.2.enabled).map (·.1)

/-- Whether a device has an address, up to ASCII case. -/
def hasAddress (d : Device) (address : String) : Bool :=
  Text.alike d.address address

end Device

end RunControl
