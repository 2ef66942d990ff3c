/-
RunControl/Proofs/State/Answered.lean

What becomes of a state when a request has been answered, that is, when the intents that it
comes to have all been applied.

Whatever the answer, the request is not awaited any more.  A reply leaves no failure behind.  A
fault changes what is said about the request itself and, if the backend turns out to have no
configuration, the note of a missing setting; the rest of the state is as it was
(`State.replay_outcome_error`).  The failure of a status fetch is noted only while it is
wanted, and besides that it moves polling alone (`State.after_statusFailed_eq`).

Main statement: all this holds in every state, for every request and every answer
(`State.outcome_closes_request`).
-/
import RunControl.Proofs.State.AnyOrder
import RunControl.Proofs.State.Asides
import RunControl.Proofs.State.Coherence

namespace RunControl

namespace State

variable {s : State} {q : Request}

/-! ### Faults -/

/-- What is said about a missing setting once a fault is known: a backend without
configuration is noted, and any other fault says nothing about it. -/
def missingAfter (s : State) : Fault → Option MissingSetting
  | .unconfigured _ => some { isMissing := true, hasDevices := s.hasDevices }
  | .rejected .. | .backend .. | .transport _ | .undecodable .. => s.missing

theorem find_ofFault (s : State) (e : Fault) :
    s.find (.ofFault e) = { s with missing := s.missingAfter e } := by
  cases e <;> rfl

/-- A request that failed is not awaited any more, and the failure is kept; a run that could
not be stopped goes on. -/
theorem requestFailed_eq (s : State) (r : Resource) (f : Failure) :
    s.requestFailed r f = { s with
      loading := s.loading.set r false
      errors := s.errors.set r (some f)
      interface := if r = .stopRun then { s.interface with stopRun := false }
        else s.interface } := by
  unfold requestFailed
  split <;> rfl

theorem resource_eq_systemStatus_iff : q.resource = .systemStatus ↔ q.cycle?.isSome = true := by
  cases q <;> simp [Request.resource, Request.call, Call.resource, Request.cycle?]

theorem resource_eq_stopRun_iff : q.resource = .stopRun ↔ q = .stopRun := by
  cases q <;> simp [Request.resource, Request.call, Call.resource]

/-- A request that came to a fault. -/
theorem replay_outcome_error (hq : q.resource ≠ .systemStatus) (e : Fault) :
    s.replay (outcome q (.error e)) = { s with
      missing := s.missingAfter e
      loading := s.loading.set q.resource false
      errors := s.errors.set q.resource (some (.ofFault e))
      interface := if q = .stopRun then { s.interface with stopRun := false }
        else s.interface } := by
  rw [Request.outcome_error hq, replay_failureIntents, find_ofFault, requestFailed_eq]
  simp only [resource_eq_stopRun_iff]

/-- The failure of a status fetch that is not wanted any more is forgotten. -/
theorem after_statusFailed_eq (s : State) (c : Cycle) (e : Fault) :
    s.after (.statusFailed c (.ofFault e)) = { s with
      missing := if s.poll.accepts c then s.missingAfter e else s.missing
      errors := if s.poll.accepts c then s.errors.set .systemStatus (some (.ofFault e))
        else s.errors
      poll := s.poll.complete c (Failure.ofFault e).isUnconfigured } := by
  simp only [after]
  cases h : s.poll.accepts c with
  | true =>
    simp only [if_true, acceptFailure_eq, find_ofFault]
    rfl
  | false =>
    -- a stale fetch ends the same way, whatever it came to
    rw [Poll.complete_of_not_accepts h _ true]
    rfl

/-! ### Replies -/

/-- What is fetched again after a command says nothing about the command itself. -/
theorem replay_followUp (s : State) (q : Request) :
    (s.replay q.followUp).loading.get q.resource = s.loading.get q.resource ∧
      (s.replay q.followUp).errors = s.errors := by
  cases q with
  | createDevice _ | editDevice _ _ | deleteDevice _ =>
    exact ⟨PerResource.get_set_of_ne _ (by rintro ⟨⟩) _, rfl⟩
  | _ => exact ⟨rfl, rfl⟩

/-- A reply leaves neither a mark nor a failure behind. -/
theorem replay_outcome_ok (hq : q.resource ≠ .systemStatus) (reply : q.call.resource.Reply) :
    (s.replay (outcome q (.ok reply))).loading.get q.resource = false ∧
      (s.replay (outcome q (.ok reply))).errors.get q.resource = none := by
  have hs := q.settles?_settlement reply
  obtain ⟨hl, he⟩ := replay_followUp (s.after (q.settlement reply)) q
  rw [Request.outcome_ok, replay_cons, hl, he, loading_after_of_settles? hs hq,
    errors_after_of_settles? hs hq (q.settlement_ne_failed reply)]
  exact ⟨PerResource.get_set_self .., PerResource.get_set_self ..⟩

/-! ### Answers -/

theorem loading_replay_outcome (hq : q.resource ≠ .systemStatus) (answer : q.call.Answer) :
    (s.replay (outcome q answer)).loading.get q.resource = false := by
  cases answer with
  | ok reply => exact (replay_outcome_ok hq reply).1
  | error e =>
    rw [replay_outcome_error hq]
    exact PerResource.get_set_self ..

/-- Every request is closed by its answer, and a failure changes nothing else.  A request that
is no status fetch is not awaited any more; a reply leaves no failure behind; a fault is kept as
the failure of what was asked for, with a note of a missing setting exactly if the backend has
no configuration, it ends the wish to stop a run if that is what failed, and all else stays as
it was.  The fault of a status fetch is kept, and the missing setting noted, only if the cycle
is still waiting for the answer, and apart from that only polling changes.  So in every state
that intents can reach, no request is awaited once it has been answered. -/
theorem outcome_closes_request (s : State) (q : Request) (answer : q.call.Answer) :
    let t := s.replay (outcome q answer)
    (q.cycle? = none →
      t.loading.get q.resource = false ∧
      (∀ reply, answer = .ok reply → t.errors.get q.resource = none) ∧
      ∀ e, answer = .error e → t = { s with
        missing := s.missingAfter e
        loading := s.loading.set q.resource false
        errors := s.errors.set q.resource (some (.ofFault e))
        interface := if q = .stopRun then { s.interface with stopRun := false }
          else s.interface }) ∧
    (∀ c e, q.cycle? = some c → answer = .error e → t = { s with
        missing := if s.poll.accepts c then s.missingAfter e else s.missing
        errors := if s.poll.accepts c then s.errors.set .systemStatus (some (.ofFault e))
          else s.errors
        poll := s.poll.complete c (Failure.ofFault e).isUnconfigured }) ∧
    ∀ is, s = State.replay {} is → t.loading.get q.resource = false := by
  intro t
  have plain : q.cycle? = none → q.resource ≠ .systemStatus := by
    intro hq hr
    rw [resource_eq_systemStatus_iff, hq] at hr
    cases hr
  refine ⟨fun hq => ⟨loading_replay_outcome (plain hq) answer, ?_, ?_⟩, ?_, ?_⟩
  · -- a reply
    rintro reply rfl
    exact (replay_outcome_ok (plain hq) reply).2
  · -- a fault
    rintro e rfl
    exact replay_outcome_error (plain hq) e
  · -- a fault of a status fetch
    intro c e hq h
    cases q with
    | systemStatus c' =>
      obtain rfl : c' = c := Option.some.inj hq
      subst h
      exact after_statusFailed_eq s c' e
    | _ => cases hq
  · rintro is rfl
    cases hq : q.cycle? with
    | none => exact loading_replay_outcome (plain hq) answer
    | some c =>
      -- the status is awaited by polling, and never by way of a mark
      have ht : t.Coherent := (coherent_initial.replay is).replay _
      rw [resource_eq_systemStatus_iff.mpr (by rw [hq]; rfl)]
      exact ht.loading

end State

end RunControl
