/-
RunControl/Failure.lean

What can go wrong with a request.  A `Fault` is what the client reports, with
its cause; a `Failure` is what is kept of it, a coarse kind and a message.
-/
import RunControl.Text.Ascii

namespace RunControl

/-! ### Faults of the client -/

/-- Why the client has no answer to give. -/
inductive Fault where
  /-- The backend has no usable configuration yet. -/
  | unconfigured (message : String)
  /-- The backend understood the request and refused it. -/
  | rejected (status : Nat) (message : String)
  /-- The backend answered with any other error. -/
  | backend (status : Nat) (message : String)
  /-- There was no complete answer. -/
  | transport (message : String)
  /-- The answer is not what was asked for. -/
  | undecodable (what : String) (message : String)
  deriving DecidableEq, Inhabited

namespace Fault

/-- The text of a fault. -/
def text : Fault → String
  | unconfigured message => "system configuration missing: " ++ message
  | rejected status message =>
    "request rejected (" ++ Text.decimal status ++ "): " ++ message
  | backend status message => "backend error (" ++ Text.decimal status ++ "): " ++ message
  | transport message => "transport error: " ++ message
  | undecodable what message => "decode " ++ what ++ ": " ++ message

end Fault

/-! ### Failures -/

/-- How a failure is treated. -/
inductive FailureKind where
  /-- The backend has to be configured first. -/
  | unconfigured
  /-- The request was refused. -/
  | rejected
  /-- Another attempt may succeed. -/
  | transient
  deriving DecidableEq, Inhabited

/-- Why a request failed. -/
structure Failure where
  kind : FailureKind
  message : String
  deriving DecidableEq, Inhabited

namespace Failure

/-- The failure that a fault of the client is. -/
def ofFault (fault : Fault) : Failure where
  kind :=
    match fault with
    | .unconfigured _ => .unconfigured
    | .rejected .. => .rejected
    | .backend .. | .transport _ | .undecodable .. => .transient
  message := fault.text

/-- Whether the backend has to be configured first. -/
def isUnconfigured (f : Failure) : Bool :=
  f.kind == .unconfigured

end Failure

end RunControl
