/-
RunControl/Request.lean

Requests to the backend.  A `Call` is one operation that the client offers, and
`Resource.Reply` says what its answer holds when it succeeds.  A `Request` is a
call that the store has issued; the fetch of a status remembers its cycle.
-/
import RunControl.Failure
import RunControl.Message
import RunControl.Poll
import RunControl.Profile
import RunControl.Resource
import RunControl.RunStatus
import RunControl.SystemConfig

namespace RunControl

/-- An operation that the client offers. -/
inductive Call where
  | interfaces
  | systemConfig
  | systemStatus
  | devices
  | riskProfiles
  | version
  | startRun (device : Device)
  | stopRun
  | createDevice (device : Device)
  | editDevice (address : String) (device : Device)
  | deleteDevice (device : Device)
  deriving DecidableEq, Inhabited

namespace Call

/-- What a call is about. -/
def resource : Call → Resource
  | interfaces => .interfaces
  | systemConfig => .systemConfig
  | systemStatus => .systemStatus
  | devices => .devices
  | riskProfiles => .riskProfiles
  | version => .systemVersion
  | startRun _ => .startRun
  | stopRun => .stopRun
  | createDevice _ => .createDevice
  | editDevice .. => .editDevice
  | deleteDevice _ => .deleteDevice

end Call

/-- What a successful answer holds that is about a resource. -/
abbrev Resource.Reply : Resource → Type
  | .interfaces => HostInterfaces
  | .systemConfig => SystemConfig
  | .devices => List Device
  | .riskProfiles => List Profile
  | .systemVersion => SystemVersion
  | .systemStatus => RunStatus
  | .startRun => RunStatus
  | .stopRun => Unit
  | .createDevice => Unit
  | .editDevice => Unit
  | .deleteDevice => Unit

/-- An answer about a resource. -/
abbrev Resource.Answer (r : Resource) :=
  Except Fault r.Reply

namespace Call

/-- The answer to a call. -/
abbrev Answer (call : Call) :=
  call.resource.Answer

end Call

/-- A call that the store has issued. -/
inductive Request where
  | interfaces
  | systemConfig
  | devices
  | riskProfiles
  | systemVersion
  | systemStatus (cycle : Cycle)
  | startRun (device : Device)
  | stopRun
  | createDevice (device : Device)
  | editDevice (address : String) (device : Device)
  | deleteDevice (device : Device)
  deriving DecidableEq, Inhabited

namespace Request

/-- The call that a request makes. -/
def call : Request → Call
  | interfaces => .interfaces
  | systemConfig => .systemConfig
  | devices => .devices
  | riskProfiles => .riskProfiles
  | systemVersion => .version
  | systemStatus _ => .systemStatus
  | startRun device => .startRun device
  | stopRun => .stopRun
  | createDevice device => .createDevice device
  | editDevice address device => .editDevice address device
  | deleteDevice device => .deleteDevice device

/-- What a request is about. -/
def resource (q : Request) : Resource :=
  q.call.resource

/-- The cycle that a request fetches the status for. -/
def cycle? : Request → Option Cycle
  | systemStatus cycle => some cycle
  | _ => none

end Request

end RunControl
