/-
RunControl/Proofs/State/Failures.lean

The failure that is kept of a resource.  An intent that is refused leaves its refusal behind
(`State.refusal?`); the last intent that a request comes to leaves nothing behind after a reply,
and the failure after a fault.  Whatever neither asks for the resource nor settles it leaves alone
what is kept of it (`State.get_errors_after`).

A fault is reported by one or two intents; it is settled by the last of them
(`Request.eq_nil_of_failed`).
-/
import RunControl.Proofs.State.Answered

namespace RunControl

namespace State

variable {s : State} {i : Intent} {r : Resource} {f : Failure}

/-- What is noted when an intent is refused. -/
def refusal? (s : State) : Intent → Option Failure
  | .startRun _ => s.blocker?.map fun b => { kind := .rejected, message := b.text }
  | .deleteDevice device => if s.isBusy device then some busyDevice else none
  | _ => none

theorem isSome_refusal? (s : State) (i : Intent) : (s.refusal? i).isSome = s.refuses i := by
  cases i with
  | startRun device => exact Option.isSome_map
  | deleteDevice device =>
    show (if s.isBusy device then some busyDevice else none).isSome = s.isBusy device
    cases s.isBusy device <;> rfl
  | _ => rfl

theorem errors_after_of_refusal? (ha : i.asks? = some r) (hf : s.refusal? i = some f) :
    (s.after i).errors.get r = some f := by
  cases i with
  | startRun device =>
    cases ha
    obtain ⟨b, hb, rfl⟩ := Option.map_eq_some_iff.mp hf
    simp only [after, startRun, hb]
    exact PerResource.get_set_self ..
  | deleteDevice device =>
    cases ha
    obtain ⟨hb, hf⟩ := Option.ite_none_right_eq_some.mp hf
    cases hf
    simp only [after, deleteDevice, hb, if_true]
    exact PerResource.get_set_self ..
  | _ => cases hf

/-- What is asked for is noted under its own name, if at all. -/
theorem get_errors_after_of_asks? {r' : Resource} (ha : i.asks? = some r') (hr : r ≠ r') :
    (s.after i).errors.get r = s.errors.get r := by
  cases i with
  | startRun device =>
    cases ha
    simp only [after, startRun]
    split <;> exact PerResource.get_set_of_ne _ hr _
  | deleteDevice device =>
    cases ha
    simp only [after, deleteDevice]
    split <;> exact PerResource.get_set_of_ne _ hr _
  | fetchInterfaces | fetchConfig | fetchDevices | fetchProfiles | fetchVersion | stopRun
  | createDevice _ | editDevice _ _ => rfl
  | _ => cases ha

/-- What settles something is noted under the name of what it settles. -/
theorem get_errors_after_of_settles? {r' : Resource} (hs : i.settles? = some r')
    (hr : r ≠ .systemStatus) (hne : r ≠ r') : (s.after i).errors.get r = s.errors.get r := by
  by_cases hr' : r' = .systemStatus
  · subst hr'
    cases i with
    | statusFetched c status => exact (samePlain_after s (.report (.statusFetched ..))).errors r hr
    | statusFailed c failure => exact (samePlain_after s (.report (.statusFailed ..))).errors r hr
    | failed r' f =>
      obtain ⟨hf, hf'⟩ := Option.ite_none_left_eq_some.mp hs
      exact absurd (Option.some.inj hf') hf
    | _ => cases hs
  · by_cases hf : ∃ r'' f, i = .failed r'' f
    · obtain ⟨r'', f, rfl⟩ := hf
      obtain ⟨-, hf⟩ := Option.ite_none_left_eq_some.mp hs
      rw [errors_after_failed, Option.some.inj hf]
      exact PerResource.get_set_of_ne _ hne _
    · rw [errors_after_of_settles? hs hr' fun r'' f h => hf ⟨r'', f, h⟩]
      exact PerResource.get_set_of_ne _ hne _

/-- What is kept of a resource is changed only by what asks for it or settles it. -/
theorem get_errors_after (hr : r ≠ .systemStatus) (ha : i.asks? ≠ some r)
    (hs : i.settles? ≠ some r) : (s.after i).errors.get r = s.errors.get r := by
  rcases hi : i.asks? with - | r'
  · rcases hj : i.settles? with - | r'
    · cases i with
      | failed r' f =>
        obtain rfl : r' = .systemStatus := by simpa [Intent.settles?] using hj
        rw [errors_after_failed]
        exact PerResource.get_set_of_ne _ hr _
      | setStatus status =>
        simp only [after]
        split <;> rfl
      | rolesFetched _ | hostFetched _ | configFetched _ | devicesFetched _ | profilesFetched _
      | versionFetched _ | statusFetched _ _ | statusFailed _ _ | runStarted _ _ | runStopped
      | deviceCreated _ | deviceEdited _ _ | deviceDeleted _ => cases hj
      | fetchInterfaces | fetchConfig | fetchDevices | fetchProfiles | fetchVersion | startRun _
      | stopRun | createDevice _ | editDevice _ _ | deleteDevice _ => cases hi
      | _ => rfl
    · exact get_errors_after_of_settles? hj hr fun h => hs (hj.trans (congrArg some h.symm))
  · exact get_errors_after_of_asks? hi fun h => ha (hi.trans (congrArg some h.symm))

end State

/-! ### The intent that settles a request -/

/-- A report settles a fetch of the status, or nothing. -/
theorem Intent.IsReport.settles?_ne {i : Intent} {r : Resource} (h : i.IsReport)
    (hr : r ≠ .systemStatus) : i.settles? ≠ some r := by
  cases h with
  | statusFetched _ _ | statusFailed _ _ => exact fun hs => hr (Option.some.inj hs).symm
  | timerFired _ | setMissing _ => exact nofun

namespace Request

variable {q : Request} {i : Intent} {e : Fault}

/-- Among the intents that a request comes to, what settles anything settles the request. -/
theorem resource_of_settles? {answer : q.call.Answer} {r : Resource} (hi : i ∈ outcome q answer)
    (hs : i.settles? = some r) : q.resource = r := by
  have hpos : 0 < (outcome q answer).countP (fun i => i.settles? = some r) :=
    List.countP_pos_iff.mpr ⟨i, hi, decide_eq_true hs⟩
  rw [countP_settles?_outcome] at hpos
  by_contra hne
  rw [if_neg hne] at hpos
  exact Nat.lt_irrefl 0 hpos

/-- Beside the intent that settles a request, nothing in its outcome does. -/
theorem settles?_ne_of_outcome {answer : q.call.Answer} {front rest : List Intent}
    (ho : outcome q answer = front ++ i :: rest) (hs : i.settles? = some q.resource) :
    ∀ j ∈ rest, j.settles? ≠ some q.resource := by
  have hc := countP_settles?_outcome q answer q.resource
  have hi := List.countP_cons_of_pos (p := fun i => i.settles? = some q.resource) (l := rest)
    (decide_eq_true hs)
  rw [if_pos rfl, ho, List.countP_append, hi] at hc
  have hrest : rest.countP (fun i => i.settles? = some q.resource) = 0 := by omega
  intro j hj hjs
  exact List.countP_eq_zero.mp hrest j hj (decide_eq_true hjs)

theorem eq_settlement_of_mem {reply : q.call.resource.Reply} (hi : i ∈ outcome q (.ok reply))
    (hs : i.settles? = some q.resource) : i = q.settlement reply := by
  have ho := q.outcome_ok reply
  rw [ho] at hi
  rcases List.mem_cons.mp hi with rfl | hi
  · rfl
  · have ho : outcome q (.ok reply) = [] ++ q.settlement reply :: q.followUp := ho
    exact absurd hs (settles?_ne_of_outcome ho (q.settles?_settlement reply) i hi)

/-- The intent that settles a failed request is the last that it comes to. -/
theorem eq_failed_of_outcome {front rest : List Intent} (hq : q.resource ≠ .systemStatus)
    (ho : outcome q (.error e) = front ++ i :: rest) (hs : i.settles? = some q.resource) :
    i = .failed q.resource (.ofFault e) ∧ rest = [] := by
  obtain ⟨pre, hpre, hreports⟩ := failureIntents_eq q.resource e
  rw [outcome_error hq, hpre] at ho
  rcases List.eq_nil_or_concat rest with rfl | ⟨rest, j, rfl⟩
  · obtain ⟨-, hi⟩ := List.append_inj' ho rfl
    exact ⟨(List.singleton_inj.mp hi).symm, rfl⟩
  · -- otherwise the intent would be a report, which settles no plain request
    rw [List.concat_eq_append, ← List.cons_append, ← List.append_assoc] at ho
    obtain ⟨rfl, -⟩ := List.append_inj' ho rfl
    exact absurd hs ((hreports i (by simp)).settles?_ne hq)

/-- A reply is told apart from a fault by what the request comes to. -/
theorem outcome_ok_ne_error (hq : q.resource ≠ .systemStatus) (reply : q.call.resource.Reply)
    (e : Fault) : outcome q (.ok reply) ≠ outcome q (.error e) := by
  intro ho
  have hfailed : outcome q (.error e) = [] ++ q.settlement reply :: q.followUp := by
    rw [← ho]
    exact q.outcome_ok reply
  obtain ⟨hsettlement, -⟩ := eq_failed_of_outcome hq hfailed (q.settles?_settlement reply)
  exact q.settlement_ne_failed reply _ _ hsettlement

/-- What a failed request comes to tells the fault by its text. -/
theorem text_eq_of_outcome_error {e' : Fault} (hq : q.resource ≠ .systemStatus)
    (ho : outcome q (.error e) = outcome q (.error e')) : e.text = e'.text := by
  obtain ⟨pre, hpre, -⟩ := failureIntents_eq q.resource e
  obtain ⟨pre', hpre', -⟩ := failureIntents_eq q.resource e'
  rw [outcome_error hq, outcome_error hq, hpre, hpre'] at ho
  obtain ⟨-, hf⟩ := List.append_inj' ho rfl
  obtain ⟨-, hf⟩ := Intent.failed.inj (List.singleton_inj.mp hf)
  exact congrArg Failure.message hf

end Request

end RunControl
