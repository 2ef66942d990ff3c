/-
RunControl/State/Effect.lean

What has to be done when an intent has changed the state.  A plain fetch sends
its request every time; a command sends one only if the intent is the one that
set its mark in `loading` (`State.begins`), so that a command that was refused,
or that is under way already, sends none.  The rest follows from the change of
phase alone.
-/
import RunControl.State.Step

namespace RunControl

/-- Something that has to be done outside the state. -/
inductive Effect where
  /-- Send a request and report what it comes to. -/
  | send (request : Request)
  /-- Start the timer of a cycle. -/
  | startTimer (cycle : Cycle)
  /-- Stop the timer. -/
  | stopTimer
  /-- Give up the running status fetch. -/
  | abandonFetch
  deriving DecidableEq, Inhabited

namespace Effect

/-- The effect of an action of polling. -/
def ofAction : Poll.Action → Effect
  | .fetch cycle => send (.systemStatus cycle)
  | .abandonFetch => abandonFetch
  | .startTimer cycle => startTimer cycle
  | .stopTimer => stopTimer

end Effect

namespace State

/-- Whether an answer is awaited in `t` that was not awaited in `s`. -/
def begins (s t : State) (r : Resource) : Bool :=
  !s.loading.get r && t.loading.get r

/-- The request that an intent sends of itself when it takes `s` to `t`. -/
def request? (s t : State) : Intent → Option Request
  | .fetchInterfaces => some .interfaces
  | .fetchConfig => some .systemConfig
  | .fetchDevices => some .devices
  | .fetchProfiles => some .riskProfiles
  | .fetchVersion => some .systemVersion
  | .startRun device => if s.begins t .startRun then some (.startRun device) else none
  | .stopRun => if s.begins t .stopRun then some .stopRun else none
  | .createDevice device => if s.begins t .createDevice then some (.createDevice device) else none
  | .editDevice address device =>
    if s.begins t .editDevice then some (.editDevice address device) else none
  | .deleteDevice device => if s.begins t .deleteDevice then some (.deleteDevice device) else none
  | _ => none

/-- What has to be done when an intent has taken `s` to `t`. -/
def effects (s t : State) (i : Intent) : List Effect :=
  ((s.request? t i).map Effect.send).toList ++
    (Poll.actions s.poll t.poll).map Effect.ofAction

end State

end RunControl
