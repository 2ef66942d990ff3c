/-
RunControl/Interfaces.lean

Network interfaces: those that the backend's host has, and the two roles that
the configuration assigns to them.  `roles` says which interface plays which
role, and `RoleCheck` says which of the two assignments can be used.
-/
import RunControl.Json.Decode
import RunControl.Text.Blank

namespace RunControl

open Json

/-! ### Interfaces of the host -/

/-- The interfaces of the host by name, each with its address or label. -/
abbrev HostInterfaces :=
  Dict String

namespace HostInterfaces

/-- Reads the interfaces of a host. -/
def decode : Decoder HostInterfaces :=
  Decode.dict Decode.string

/-- The JSON value of the interfaces of a host. -/
def toJson (h : HostInterfaces) : Json :=
  ofDict .string h

end HostInterfaces

/-! ### Roles -/

/-- The interfaces that play the two roles, as far as they are assigned. -/
structure Roles where
  internet : Option String := none
  device : Option String := none
  deriving DecidableEq, Inhabited

/-- A name without the blanks around it; a blank name is no name. -/
def nameOf? (s : String) : Option String :=
  let name := Text.trim s
  if name.isEmpty then none else some name

namespace Roles

/-- Reads the roles. -/
def decode : Decoder Roles := fun n doc => do
  let m ← Decode.recordOf ["internet", "device"] n doc
  let internet ← m.optional "internet" Decode.string
  let device ← m.optional "device" Decode.string
  pure { internet, device }

/-- The JSON value of the roles. -/
def toJson (r : Roles) : Json :=
  .object (maybe "internet" (r.internet.map .string) ++ maybe "device" (r.device.map .string))

end Roles

/-! ### Which roles can be used -/

/-- Whether each of the two roles is assigned to an interface that can play it. -/
structure RoleCheck where
  internet : Bool := false
  device : Bool := false
  deriving DecidableEq, Inhabited

namespace RoleCheck

/-- The interface that a role names, if the host has it. A host whose
interfaces are not known is taken to have every one. -/
def candidate? (host : Option HostInterfaces) (role : Option String) : Option String := do
  let name ← nameOf? (← role)
  match host with
  | none => some name
  | some host => if host.contains name then some name else none

/-- A role can be used if it names an interface that the host has and that the
other role does not use as well. -/
def derive (roles : Roles) (host : Option HostInterfaces) : RoleCheck :=
  let internet := candidate? host roles.internet
  let device := candidate? host roles.device
  let shared := internet.isSome && internet == device
  { internet := internet.isSome && !shared, device := device.isSome && !shared }

/-- Whether both roles can be used. -/
def isValid (c : RoleCheck) : Bool :=
  c.internet && c.device

end RoleCheck

end RunControl
