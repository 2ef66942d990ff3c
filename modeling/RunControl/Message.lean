/-
RunControl/Message.lean

The bodies of requests and answers that are no values of the domain: the order
to start a run, the replacement of a device, the backend's versions, and its
plain answers.
-/
import RunControl.Device

namespace RunControl

open Json

/-! ### Versions -/

/-- The version that the backend runs, and the newest one it knows of. -/
structure SystemVersion where
  installed : Option String := none
  latest : Option String := none
  latestUrl : Option String := none
  updateAvailable : Bool := false
  deriving DecidableEq, Inhabited

namespace SystemVersion

/-- Reads the versions. -/
def decode : Decoder SystemVersion := fun n doc => do
  let m ← Decode.recordOf
    ["installed_version", "latest_version", "latest_version_url", "update_available"] n doc
  let installed ← m.optional "installed_version" Decode.string
  let latest ← m.optional "latest_version" Decode.string
  let latestUrl ← m.optional "latest_version_url" Decode.string
  let updateAvailable ← m.withDefault "update_available" Decode.bool false
  pure { installed, latest, latestUrl, updateAvailable }

/-- The JSON value of the versions. -/
def toJson (v : SystemVersion) : Json :=
  .object (maybe "installed_version" (v.installed.map .string) ++
    maybe "latest_version" (v.latest.map .string) ++
    maybe "latest_version_url" (v.latestUrl.map .string) ++
    [("update_available", .bool v.updateAvailable)])

end SystemVersion

/-! ### Orders -/

/-- What an order to start a run says about the device. -/
structure StartDevice where
  address : String
  firmware : Option String := none
  deriving DecidableEq, Inhabited

namespace StartDevice

/-- Reads what an order says about the device. -/
def decode : Decoder StartDevice := fun n doc => do
  let m ← Decode.recordOf ["mac_addr", "firmware"] n doc
  let address ← m.required "mac_addr" Decode.string
  let firmware ← m.optional "firmware" Decode.string
  pure { address, firmware }

/-- The JSON value of what an order says about the device. -/
def toJson (d : StartDevice) : Json :=
  .object ([("mac_addr", .string d.address)] ++ maybe "firmware" (d.firmware.map .string))

end StartDevice

/-- The order to start a run. -/
structure StartOrder where
  device : StartDevice
  deriving DecidableEq, Inhabited

namespace StartOrder

/-- Reads an order. -/
def decode : Decoder StartOrder := fun n doc => do
  let m ← Decode.recordOf ["device"] n doc
  pure { device := ← m.required "device" StartDevice.decode }

/-- The JSON value of an order. -/
def toJson (o : StartOrder) : Json :=
  .object [("device", o.device.toJson)]

/-- The order to start a run against a device. -/
def forDevice (d : Device) : StartOrder where
  device := { address := d.address, firmware := d.firmware }

end StartOrder

/-- The order to put a device in the place of the one stored under an address. -/
structure DeviceEdit where
  address : String
  device : Device
  deriving DecidableEq, Inhabited

namespace DeviceEdit

/-- Reads an order. -/
def decode : Decoder DeviceEdit := fun n doc => do
  let m ← Decode.recordOf ["mac_addr", "device"] n doc
  let address ← m.required "mac_addr" Decode.string
  let device ← m.required "device" Device.decode
  pure { address, device }

/-- The JSON value of an order. -/
def toJson (e : DeviceEdit) : Json :=
  .object [("mac_addr", .string e.address), ("device", e.device.toJson)]

end DeviceEdit

/-! ### Plain answers -/

/-- The answer that names what went wrong. -/
structure ErrorAnswer where
  error : String
  deriving DecidableEq, Inhabited

namespace ErrorAnswer

/-- Reads an answer. -/
def decode : Decoder ErrorAnswer := fun n doc => do
  let m ← Decode.recordOf ["error"] n doc
  pure { error := ← m.required "error" Decode.string }

/-- The JSON value of an answer. -/
def toJson (a : ErrorAnswer) : Json :=
  .object [("error", .string a.error)]

end ErrorAnswer

/-- The answer that confirms what was done. -/
structure SuccessAnswer where
  success : String
  deriving DecidableEq, Inhabited

namespace SuccessAnswer

/-- Reads an answer. -/
def decode : Decoder SuccessAnswer := fun n doc => do
  let m ← Decode.recordOf ["success"] n doc
  pure { success := ← m.required "success" Decode.string }

/-- The JSON value of an answer. -/
def toJson (a : SuccessAnswer) : Json :=
  .object [("success", .string a.success)]

end SuccessAnswer

end RunControl
