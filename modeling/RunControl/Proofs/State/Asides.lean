/-
RunControl/Proofs/State/Asides.lean

Intents that come beside the plain requests of a command: the reports of polling, the note of a
missing setting, and the wishes about polling (`Intent.IsAside`).  They send no plain request, and
leave alone what plain requests are about: the marks, the failures, and what has been fetched
(`State.samePlain_after`).

A plain request comes to one intent that takes away the mark, and brings the reply
(`Request.settlement`) or notes the failure.  Beside it there are only asides and what is fetched
again after the reply (`Request.outcome_ok`, `Request.failureIntents_eq`).
-/
import RunControl.Proofs.State.Requests

namespace RunControl

namespace Intent

/-- An intent that comes by itself: polling reports, or a setting is found missing. -/
inductive IsReport : Intent → Prop
  | statusFetched (c : Cycle) (status : RunStatus) : IsReport (.statusFetched c status)
  | statusFailed (c : Cycle) (failure : Failure) : IsReport (.statusFailed c failure)
  | timerFired (c : Cycle) : IsReport (.timerFired c)
  | setMissing (missing : Option MissingSetting) : IsReport (.setMissing missing)

/-- A report, or a wish about polling. -/
inductive IsAside : Intent → Prop
  | report {i : Intent} (h : i.IsReport) : IsAside i
  | fetchStatus : IsAside .fetchStatus
  | stopPolling : IsAside .stopPolling

variable {i : Intent}

theorem IsAside.request? (h : i.IsAside) (s t : State) : s.request? t i = none := by
  cases h with
  | report h => cases h <;> rfl
  | fetchStatus | stopPolling => rfl

end Intent

/-- What has been fetched by plain requests. -/
structure Known where
  host : Option HostInterfaces := none
  config : Option SystemConfig := none
  roles : Roles := {}
  devices : List Device := []

namespace State

/-- What has been fetched by plain requests. -/
def known (s : State) : Known where
  host := s.host
  config := s.config
  roles := s.roles
  devices := s.devices

/-- Two states that differ in nothing that plain requests are about. -/
structure SamePlain (s t : State) : Prop where
  loading : t.loading = s.loading
  errors : ∀ r, r ≠ .systemStatus → t.errors.get r = s.errors.get r
  known : t.known = s.known

/-- An aside changes nothing that plain requests are about. -/
theorem samePlain_after (s : State) {i : Intent} (h : i.IsAside) : SamePlain s (s.after i) := by
  cases h with
  | report h =>
    cases h with
    | statusFetched c status =>
      simp only [after]
      split
      · exact ⟨rfl, fun r hr => PerResource.get_set_of_ne _ hr _, rfl⟩
      · exact ⟨rfl, fun _ _ => rfl, rfl⟩
    | statusFailed c failure =>
      simp only [after]
      split
      · unfold acceptFailure
        split <;> exact ⟨rfl, fun r hr => PerResource.get_set_of_ne _ hr _, rfl⟩
      · exact ⟨rfl, fun _ _ => rfl, rfl⟩
    | timerFired | setMissing => exact ⟨rfl, fun _ _ => rfl, rfl⟩
  | fetchStatus | stopPolling => exact ⟨rfl, fun _ _ => rfl, rfl⟩

/-! ### What plain requests bring -/

variable {s : State} {i : Intent} {r : Resource}

/-- What is asked for does not change what has been fetched. -/
theorem known_after_of_asks? (h : i.asks? = some r) : (s.after i).known = s.known := by
  cases i with
  | startRun device =>
    simp only [after, startRun]
    split <;> rfl
  | deleteDevice device =>
    simp only [after, deleteDevice]
    split <;> rfl
  | fetchInterfaces | fetchConfig | fetchDevices | fetchProfiles | fetchVersion | stopRun
  | createDevice _ | editDevice _ _ => rfl
  | _ => cases h

theorem errors_after_failed (s : State) (r : Resource) (f : Failure) :
    (s.after (.failed r f)).errors = s.errors.set r (some f) := by
  simp only [after, requestFailed]
  split <;> rfl

/-- What is brought without a failure leaves none behind. -/
theorem errors_after_of_settles? (h : i.settles? = some r) (hr : r ≠ .systemStatus)
    (hi : ∀ r f, i ≠ .failed r f) : (s.after i).errors = s.errors.set r none := by
  cases i with
  | rolesFetched _ | hostFetched _ | devicesFetched _ | profilesFetched _ | versionFetched _
  | runStopped | deviceCreated _ | deviceEdited _ _ | deviceDeleted _ =>
    cases h
    rfl
  | configFetched config =>
    cases h
    simp only [after, acceptConfig, settle, recheck, withMissing, onInterface]
  | statusFetched _ _ | statusFailed _ _ =>
    cases h
    exact absurd rfl hr
  | runStarted device status =>
    cases h
    simp only [after, runStarted]
    split <;> rfl
  | failed r' f => exact absurd rfl (hi r' f)
  | _ => cases h

end State

/-! ### What a request comes to -/

namespace Request

/-- The intent that brings the reply to a request. -/
def settlement : (q : Request) → q.call.resource.Reply → Intent
  | interfaces, host => .hostFetched host
  | systemConfig, config => .configFetched config
  | devices, list => .devicesFetched list
  | riskProfiles, profiles => .profilesFetched profiles
  | systemVersion, version => .versionFetched version
  | systemStatus cycle, status => .statusFetched cycle status
  | startRun device, status => .runStarted device status
  | stopRun, _ => .runStopped
  | createDevice device, _ => .deviceCreated device
  | editDevice address device, _ => .deviceEdited address device
  | deleteDevice device, _ => .deviceDeleted device.address

/-- What is asked for after a reply. -/
def followUp : Request → List Intent
  | stopRun => [.fetchStatus]
  | createDevice _ | editDevice .. | deleteDevice _ => [.fetchDevices]
  | _ => []

variable {q : Request}

theorem outcome_ok (q : Request) (reply : q.call.resource.Reply) :
    outcome q (.ok reply) = q.settlement reply :: q.followUp := by
  cases q <;> rfl

theorem outcome_error (hq : q.call.resource ≠ .systemStatus) (e : Fault) :
    outcome q (.error e) = failureIntents q.resource e := by
  cases q with
  | systemStatus c => exact absurd rfl hq
  | _ => rfl

theorem settles?_settlement (q : Request) (reply : q.call.resource.Reply) :
    (q.settlement reply).settles? = some q.resource := by
  cases q <;> rfl

theorem settlement_ne_failed (q : Request) (reply : q.call.resource.Reply) (r : Resource)
    (f : Failure) : q.settlement reply ≠ .failed r f := by
  cases q <;> nofun

theorem request?_settlement (q : Request) (reply : q.call.resource.Reply) (s t : State) :
    s.request? t (q.settlement reply) = none := by
  cases q <;> rfl

/-- Before the failure itself there may be a report. -/
theorem failureIntents_eq (r : Resource) (e : Fault) :
    ∃ pre, failureIntents r e = pre ++ [.failed r (Failure.ofFault e)] ∧ ∀ i ∈ pre, i.IsReport := by
  simp only [failureIntents]
  split
  · exact ⟨[_], rfl, List.forall_mem_singleton.mpr (.setMissing _)⟩
  · exact ⟨[], rfl, List.forall_mem_nil _⟩

end Request

end RunControl
