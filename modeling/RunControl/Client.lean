/-
RunControl/Client.lean

The client of the backend.  Every call is one request to an endpoint below the
client's address (`Client.request?`), and `Call.read` says what a complete
response means for it: the reply, or the fault that the status stands for.

Main statement: a response with a success status is never taken for a refusal,
and one with another status never for a reply (`read_ok_iff`).
-/
import RunControl.Http
import RunControl.Request
import RunControl.Url.Reference

namespace RunControl

/-! ### Calls as requests -/

namespace Call

/-- The endpoint of a call, a reference beside the address of the backend. -/
def endpoint : Call → String
  | interfaces => "system/interfaces"
  | systemConfig => "system/config"
  | systemStatus => "system/status"
  | devices => "devices"
  | riskProfiles => "profiles"
  | version => "system/version"
  | startRun _ => "system/start"
  | stopRun => "system/stop"
  | createDevice _ => "device"
  | editDevice .. => "device/edit"
  | deleteDevice _ => "device/"

/-- The method of a call. -/
def method : Call → Http.Method
  | interfaces | systemConfig | systemStatus | devices | riskProfiles | version => .get
  | startRun _ | stopRun | createDevice _ | editDevice .. => .post
  | deleteDevice _ => .delete

/-- What is sent with a call. -/
def body : Call → Option Json
  | startRun device => some (StartOrder.forDevice device).toJson
  | createDevice device => some device.toJson
  | editDevice address device => some (DeviceEdit.toJson { address, device })
  | deleteDevice device => some device.toJson
  | _ => none

end Call

/-! ### Responses as answers -/

/-- The message of a response that is no success: the error that it names, or
else its text. -/
def errorMessage (text : String) : String :=
  match Json.Decode.ofText? ErrorAnswer.decode text with
  | some answer => answer.error
  | none => if (Text.trim text).isEmpty then "empty response" else Text.trim text

/-- Whether a message says that the backend has no usable configuration. -/
def mentionsConfiguration (message : String) : Bool :=
  let message := Text.lower message
  Text.mentions message "not configured" || Text.mentions message "configuration missing"

namespace Call

/-- The statuses with which the backend refuses a call. -/
def refusals : Call → List Nat
  | startRun _ => [400, 404, 409]
  | stopRun => [404]
  | createDevice _ | editDevice .. | deleteDevice _ => [400, 403, 404, 409]
  | _ => []

/-- The status with which a call says that the backend has no configuration. -/
def unconfiguredStatus? : Call → Option Nat
  | systemConfig => some 404
  | startRun _ => some 500
  | _ => none

/-- The fault that a response stands for which is no success. -/
def faultOf (call : Call) (status : Nat) (message : String) : Fault :=
  if call.refusals.contains status then .rejected status message
  else if call.unconfiguredStatus? = some status || mentionsConfiguration message then
    .unconfigured message
  else .backend status message

/-- What the reply to a call is called. -/
def replyName : Call → String
  | interfaces => "interfaces"
  | systemConfig => "system config"
  | systemStatus => "system status"
  | devices => "devices"
  | riskProfiles => "risk profiles"
  | version => "system version"
  | startRun _ => "start response"
  | _ => ""

/-- Reads the reply to a call; commands other than the start of a run have none. -/
def reply? : (call : Call) → String → Option call.resource.Reply
  | interfaces, text => Json.Decode.ofText? HostInterfaces.decode text
  | systemConfig, text => Json.Decode.ofText? SystemConfig.decode text
  | systemStatus, text => Json.Decode.ofText? RunStatus.decode text
  | devices, text => Json.Decode.ofText? (Json.Decode.list Device.decode) text
  | riskProfiles, text => Json.Decode.ofText? (Json.Decode.list Profile.decode) text
  | version, text => Json.Decode.ofText? SystemVersion.decode text
  | startRun _, text => Json.Decode.ofText? RunStatus.decode text
  | stopRun, _ => some ()
  | createDevice _, _ => some ()
  | editDevice .., _ => some ()
  | deleteDevice _, _ => some ()

/-- What a complete response to a call means. -/
def read (call : Call) (r : Http.Response) : call.Answer :=
  if r.isSuccess then
    match call.reply? r.text with
    | some reply => .ok reply
    | none => .error (.undecodable call.replyName "not valid")
  else .error (call.faultOf r.status (errorMessage r.text))

/-- A response is a reply exactly if its status is a success and its text can be
read. -/
theorem read_ok_iff {call : Call} {r : Http.Response} {reply : call.resource.Reply} :
    call.read r = .ok reply ↔ r.isSuccess = true ∧ call.reply? r.text = some reply := by
  unfold read
  split
  · next h => cases call.reply? r.text <;> simp [h]
  · next h => simp [h]

end Call

/-! ### Clients -/

/-- The client of a backend. -/
structure Client where
  /-- The address of the backend, which ends with a slash. -/
  base : Url
  deriving DecidableEq, Inhabited

namespace Client

/-- The name under which the client presents itself. -/
def agent : String :=
  "trs/0.1.0"

/-- The client of the backend at an address. -/
def of? (address : String) : Except String Client :=
  match Url.parse (Text.trim address) with
  | .ok url => .ok { base := url.closed }
  | .error e => .error ("parse api url: " ++ address ++ ": " ++ e.text)

/-- The request that a call is. -/
def request? (c : Client) (call : Call) : Except Fault Http.Request :=
  match c.base.join? call.endpoint with
  | .ok url =>
    if url.scheme = "http" ∨ url.scheme = "https" then
      .ok { method := call.method, url, body := call.body }
    else .error (.transport ("builder error for url (" ++ url.text ++ ")"))
  | .error e =>
    .error (.transport ("build url for " ++ call.endpoint ++ ": " ++ e.text))

/-- The fault of a request that no complete response came to. -/
def unanswered (q : Http.Request) : Fault :=
  .transport ("error sending request for url (" ++ q.url.withoutUser.text ++ ")")

/-- The answer to a call, given what came back for its request. -/
def answer (call : Call) (q : Http.Request) : Option Http.Response → call.Answer
  | some r => call.read r
  | none => .error (unanswered q)

end Client

end RunControl
