/-
RunControl/Proofs/State/Requests.lean

What intents have to do with requests.  An intent asks for something
(`Intent.asks?`), or it says that what was asked for has come or has failed
(`Intent.settles?`), or neither.  From these two and from what the state refuses
follows all that happens to requests:

* the marks in `loading` are set by what is asked for and not refused, and taken
  away by what is settled (`State.get_loading_after`);
* a fetch sends a request each time, a command only when it sets its mark
  (`State.sends?_eq_some_iff`);
* every request comes to exactly one intent that settles it, and that one is
  about the same resource (`countP_settles?_outcome`).
-/
import RunControl.Proofs.Polling

namespace RunControl

/-- Whether a request about a resource is a command, which changes something on the
backend. -/
def Resource.isCommand : Resource → Bool
  | startRun | stopRun | createDevice | editDevice | deleteDevice => true
  | interfaces | systemConfig | devices | riskProfiles | systemVersion | systemStatus => false

namespace Intent

/-- What an intent asks for. The status is fetched by polling, which decides for
itself when. -/
def asks? : Intent → Option Resource
  | .fetchInterfaces => some .interfaces
  | .fetchConfig => some .systemConfig
  | .fetchDevices => some .devices
  | .fetchProfiles => some .riskProfiles
  | .fetchVersion => some .systemVersion
  | .startRun _ => some .startRun
  | .stopRun => some .stopRun
  | .createDevice _ => some .createDevice
  | .editDevice .. => some .editDevice
  | .deleteDevice _ => some .deleteDevice
  | _ => none

/-- What an intent brings, or says to have failed. The failure of a status fetch is
reported together with its cycle, and by no other intent. -/
def settles? : Intent → Option Resource
  | .rolesFetched _ => some .interfaces
  | .hostFetched _ => some .interfaces
  | .configFetched _ => some .systemConfig
  | .devicesFetched _ => some .devices
  | .profilesFetched _ => some .riskProfiles
  | .versionFetched _ => some .systemVersion
  | .statusFetched .. => some .systemStatus
  | .statusFailed .. => some .systemStatus
  | .runStarted .. => some .startRun
  | .runStopped => some .stopRun
  | .deviceCreated _ => some .createDevice
  | .deviceEdited .. => some .editDevice
  | .deviceDeleted _ => some .deleteDevice
  | .failed r _ => if r = .systemStatus then none else some r
  | _ => none

/-- An answer to a status fetch settles it, and nothing else does. -/
theorem settles?_eq_systemStatus_iff {i : Intent} :
    i.settles? = some .systemStatus ↔ i.answers?.isSome = true := by
  cases i with
  | failed r f =>
    simp only [settles?, answers?]
    split <;> simp_all
  | _ => simp [settles?, answers?]

/-- What an intent settles it does not ask for. -/
theorem asks?_of_settles? {i : Intent} {r : Resource} (h : i.settles? = some r) :
    i.asks? = none := by
  cases i <;> first | rfl | cases h

theorem ne_systemStatus_of_asks? {i : Intent} {r : Resource} (h : i.asks? = some r) :
    r ≠ .systemStatus := by
  rintro rfl
  cases i <;> cases h

theorem settles?_of_asks? {i : Intent} {r : Resource} (h : i.asks? = some r) :
    i.settles? = none := by
  rcases hs : i.settles? with - | r'
  · rfl
  · rw [asks?_of_settles? hs] at h
    cases h

end Intent

/-! ### What requests come to -/

section
open Intent

variable {r r' : Resource} {i j : Intent}

theorem countP_settles?_singleton (hi : i.settles? = some r') :
    [i].countP (fun i => i.settles? = some r) = if r' = r then 1 else 0 := by
  by_cases h : r' = r <;> simp [hi, h]

theorem countP_settles?_pair (hi : i.settles? = some r') (hj : j.settles? = none) :
    [i, j].countP (fun i => i.settles? = some r) = if r' = r then 1 else 0 := by
  by_cases h : r' = r <;> simp [hi, hj, h]

/-- Before a failure there may be the note of a missing setting, which settles nothing. -/
theorem countP_settles?_failureIntents (h : r' ≠ .systemStatus) (e : Fault) :
    (failureIntents r' e).countP (fun i => i.settles? = some r) = if r' = r then 1 else 0 := by
  have hs : (Intent.failed r' (Failure.ofFault e)).settles? = some r' := if_neg h
  simp only [failureIntents]
  split
  · rw [List.countP_cons_of_neg (by simp [settles?])]
    exact countP_settles?_singleton hs
  · exact countP_settles?_singleton hs

/-- A request comes to exactly one intent that settles it, whatever the answer, and to
none that settles anything else. -/
theorem countP_settles?_outcome (q : Request) (answer : q.call.Answer) (r : Resource) :
    (outcome q answer).countP (fun i => i.settles? = some r) = if q.resource = r then 1 else 0 := by
  cases q with
  | systemStatus c => cases answer <;> exact countP_settles?_singleton rfl
  | interfaces | systemConfig | devices | riskProfiles | systemVersion | startRun _ =>
    cases answer with
    | ok a => exact countP_settles?_singleton rfl
    | error e => exact countP_settles?_failureIntents (by decide) e
  | stopRun | createDevice _ | editDevice _ _ | deleteDevice _ =>
    -- what the command has changed is fetched once more, which settles nothing
    cases answer with
    | ok a => exact countP_settles?_pair rfl rfl
    | error e => exact countP_settles?_failureIntents (by decide) e

/-- Among the intents that a request comes to is one that settles it. -/
theorem exists_settles_outcome (q : Request) (answer : q.call.Answer) :
    ∃ (n : Nat) (i : Intent), (outcome q answer)[n]? = some i ∧
      i.settles? = some q.resource := by
  have hc := countP_settles?_outcome q answer q.resource
  rw [if_pos rfl] at hc
  obtain ⟨i, hi, hs⟩ := List.countP_pos_iff.mp (hc ▸ Nat.one_pos)
  obtain ⟨n, hn⟩ := List.getElem?_of_mem hi
  exact ⟨n, i, hn, of_decide_eq_true hs⟩

/-- Besides the intent that settles it, a request may come to the note of a missing setting,
or ask for what it has changed to be fetched once more. -/
theorem mem_outcome_cases {q : Request} {answer : q.call.Answer} (h : i ∈ outcome q answer) :
    i.settles? = some q.resource ∨ (∃ m, i = .setMissing m) ∨ i = .fetchStatus ∨
      i = .fetchDevices := by
  -- a fault: the failure itself, behind the note of the setting if it was that
  have failed : ∀ r e, r ≠ .systemStatus → i ∈ failureIntents r e →
      i.settles? = some r ∨ ∃ m, i = .setMissing m := by
    intro r e hr hi
    simp only [failureIntents] at hi
    split at hi
    · rcases List.mem_cons.mp hi with rfl | hi
      · exact .inr ⟨_, rfl⟩
      · rw [List.mem_singleton.mp hi]
        exact .inl (if_neg hr)
    · rw [List.mem_singleton.mp hi]
      exact .inl (if_neg hr)
  cases q with
  | systemStatus c =>
    left
    cases answer <;> rw [List.mem_singleton.mp h] <;> rfl
  | interfaces | systemConfig | devices | riskProfiles | systemVersion | startRun _ =>
    cases answer with
    | ok a =>
      rw [List.mem_singleton.mp h]
      exact .inl rfl
    | error e => exact (failed _ e (by decide) h).imp_right .inl
  | stopRun | createDevice _ | editDevice _ _ | deleteDevice _ =>
    cases answer with
    | ok a =>
      -- the answer, and then the wish to see what the command has changed
      rcases List.mem_cons.mp h with rfl | h
      · exact .inl rfl
      · rw [List.mem_singleton.mp h]
        simp
    | error e => exact (failed _ e (by decide) h).imp_right .inl

end

namespace State

/-! ### What is awaited -/

/-- Whether a state refuses what an intent asks for. -/
def refuses (s : State) : Intent → Bool
  | .startRun _ => s.blocker?.isSome
  | .deleteDevice device => s.isBusy device
  | _ => false

section
variable {s : State} {i : Intent} {r : Resource}

/-- Whatever settles a request takes its mark away, and no other. -/
theorem loading_after_of_settles? (h : i.settles? = some r) (hr : r ≠ .systemStatus) :
    (s.after i).loading = s.loading.set r false := by
  cases i with
  | rolesFetched _ | hostFetched _ | devicesFetched _ | profilesFetched _ | versionFetched _
  | runStopped | deviceCreated _ | deviceEdited _ _ | deviceDeleted _ =>
    cases h
    rfl
  | configFetched config =>
    cases h
    simp only [after, acceptConfig, settle, recheck, withMissing, onInterface]
  | statusFetched _ _ | statusFailed _ _ =>
    cases h
    exact absurd rfl hr
  | runStarted device status =>
    cases h
    simp only [after, runStarted]
    split <;> rfl
  | failed r' f =>
    obtain ⟨-, hr'⟩ := Option.ite_none_left_eq_some.mp h
    cases hr'
    simp only [after, requestFailed]
    split <;> rfl
  | _ => cases h

/-- Whatever asks for a request sets its mark, unless it is refused. -/
theorem loading_after_of_asks? (h : i.asks? = some r) (hf : s.refuses i = false) :
    (s.after i).loading = s.loading.set r true := by
  cases i with
  | fetchInterfaces | fetchConfig | fetchDevices | fetchProfiles | fetchVersion | stopRun
  | createDevice _ | editDevice _ _ =>
    cases h
    rfl
  | startRun device =>
    cases h
    have hb : s.blocker? = none := by simpa [refuses] using hf
    simp only [after, startRun, hb]
    rfl
  | deleteDevice device =>
    cases h
    have hb : s.isBusy device = false := hf
    simp only [after, deleteDevice, hb]
    rfl
  | _ => cases h

theorem loading_after_of_refuses (hf : s.refuses i = true) : (s.after i).loading = s.loading := by
  cases i with
  | startRun device =>
    obtain ⟨b, hb⟩ := Option.isSome_iff_exists.mp hf
    simp only [after, startRun, hb]
    rfl
  | deleteDevice device =>
    have hb : s.isBusy device = true := hf
    simp only [after, deleteDevice, hb]
    rfl
  | _ => cases hf

theorem loading_after_of_status (h : i.settles? = some .systemStatus) :
    (s.after i).loading = s.loading := by
  cases i with
  | statusFetched c status =>
    simp only [after]
    split <;> rfl
  | statusFailed c failure =>
    simp only [after, acceptFailure]
    split
    · split <;> rfl
    · rfl
  | failed r f =>
    obtain ⟨hr, hr'⟩ := Option.ite_none_left_eq_some.mp h
    cases hr'
    exact absurd rfl hr
  | _ => cases h

/-- An intent that neither asks for anything nor settles it may at most take away the mark
of the status, which is never set. -/
theorem get_loading_after_of_none (ha : i.asks? = none) (hs : i.settles? = none)
    (hr : r ≠ .systemStatus) : (s.after i).loading.get r = s.loading.get r := by
  cases i with
  | failed r' f =>
    obtain rfl : r' = .systemStatus := by simpa [Intent.settles?] using hs
    exact PerResource.get_set_of_ne _ hr _
  | setStatus status =>
    simp only [after]
    split <;> rfl
  | rolesFetched _ | hostFetched _ | configFetched _ | devicesFetched _ | profilesFetched _
  | versionFetched _ | statusFetched _ _ | statusFailed _ _ | runStarted _ _ | runStopped
  | deviceCreated _ | deviceEdited _ _ | deviceDeleted _ => cases hs
  | fetchInterfaces | fetchConfig | fetchDevices | fetchProfiles | fetchVersion | startRun _
  | stopRun | createDevice _ | editDevice _ _ | deleteDevice _ => cases ha
  | _ => rfl

/-- A mark is taken away by what settles it and set by what asks for it, if that is not
refused; nothing else changes it. -/
theorem get_loading_after (s : State) (i : Intent) (hr : r ≠ .systemStatus) :
    (s.after i).loading.get r =
      if i.settles? = some r then false
      else if i.asks? = some r ∧ s.refuses i = false then true
      else s.loading.get r := by
  rcases hs : i.settles? with - | r'
  · rcases ha : i.asks? with - | r'
    · simp [get_loading_after_of_none ha hs hr]
    · cases hf : s.refuses i with
      | false => simp [loading_after_of_asks? ha hf, PerResource.get_set, eq_comm]
      | true => simp [loading_after_of_refuses hf]
  · have ha := Intent.asks?_of_settles? hs
    by_cases hr' : r' = .systemStatus
    · subst hr'
      simp [ha, hr.symm, loading_after_of_status hs]
    · rw [loading_after_of_settles? hs hr', PerResource.get_set]
      by_cases h : r' = r
      · simp [h]
      · simp [ha, h, Ne.symm h]

/-! ### What is sent -/

/-- Whatever is not a status fetch is sent by the intent itself. -/
theorem send_mem_effects_iff {t : State} {q : Request} (hq : q.cycle? = none) :
    .send q ∈ s.effects t i ↔ s.request? t i = some q := by
  rw [effects, List.mem_append, List.mem_map]
  constructor
  · rintro (h | ⟨a, -, ha⟩)
    · simpa using h
    · -- what polling sends is a status fetch
      cases a <;> cases ha
      cases hq
  · intro h
    simp [h]

/-- What an intent asks for comes down to one request.  A command is sent only if it is
the one that sets its mark. -/
theorem request?_of_asks? (h : i.asks? = some r) :
    ∃ q : Request, q.resource = r ∧
      ∀ s t : State, s.request? t i = if r.isCommand && !s.begins t r then none else some q := by
  have command : ∀ (b : Bool) (q : Request),
      (if b = true then some q else none) = if true && !b then none else some q := by
    intro b q
    cases b <;> rfl
  cases i with
  | fetchInterfaces => cases h; exact ⟨.interfaces, rfl, fun _ _ => rfl⟩
  | fetchConfig => cases h; exact ⟨.systemConfig, rfl, fun _ _ => rfl⟩
  | fetchDevices => cases h; exact ⟨.devices, rfl, fun _ _ => rfl⟩
  | fetchProfiles => cases h; exact ⟨.riskProfiles, rfl, fun _ _ => rfl⟩
  | fetchVersion => cases h; exact ⟨.systemVersion, rfl, fun _ _ => rfl⟩
  | startRun d => cases h; exact ⟨.startRun d, rfl, fun _ _ => command ..⟩
  | stopRun => cases h; exact ⟨.stopRun, rfl, fun _ _ => command ..⟩
  | createDevice d => cases h; exact ⟨.createDevice d, rfl, fun _ _ => command ..⟩
  | editDevice a d => cases h; exact ⟨.editDevice a d, rfl, fun _ _ => command ..⟩
  | deleteDevice d => cases h; exact ⟨.deleteDevice d, rfl, fun _ _ => command ..⟩
  | _ => cases h

theorem request?_of_asks?_eq_none (h : i.asks? = none) (s t : State) : s.request? t i = none := by
  cases i <;> first | rfl | cases h

/-- Only commands are refused. -/
theorem refuses_of_fetch (h : i.asks? = some r) (hr : r.isCommand = false) :
    s.refuses i = false := by
  cases i <;> first | rfl | (cases h; cases hr)

/-- A mark is set for the first time by what is not refused. -/
theorem begins_after (h : i.asks? = some r) :
    s.begins (s.after i) r = (!s.loading.get r && !s.refuses i) := by
  unfold begins
  cases hf : s.refuses i with
  | false => simp [loading_after_of_asks? h hf]
  | true => simp [loading_after_of_refuses hf]

/-- When something is refused, nothing is to be done. -/
theorem effects_of_refuses (hf : s.refuses i = true) : s.effects (s.after i) i = [] := by
  have hq : s.request? (s.after i) i = none := by
    rcases ha : i.asks? with - | r
    · exact request?_of_asks?_eq_none ha ..
    · have hr : r.isCommand = true := by
        refine Bool.ne_false_iff.mp fun hr => ?_
        rw [refuses_of_fetch ha hr] at hf
        cases hf
      obtain ⟨q, -, hq⟩ := request?_of_asks? ha
      rw [hq, begins_after ha, hf, hr]
      simp
  have hp : (s.after i).poll = s.poll := by
    rw [poll_after]
    cases i <;> first | rfl | cases hf
  rw [effects, hq, hp, Poll.actions_self]
  rfl

/-- What the request is about that an intent sends of itself. -/
def sends? (s : State) (i : Intent) : Option Resource :=
  (s.request? (s.after i) i).map Request.resource

/-- A request is sent for what is asked for and not refused, except for a command that is
under way already. -/
theorem sends?_eq_some_iff :
    s.sends? i = some r ↔
      i.asks? = some r ∧ s.refuses i = false ∧ (r.isCommand = true → s.loading.get r = false) := by
  rcases ha : i.asks? with - | r'
  · simp [sends?, request?_of_asks?_eq_none ha]
  · obtain ⟨q, rfl, hq⟩ := request?_of_asks? ha
    have hs : s.sends? i = some r ↔
        (q.resource.isCommand = true → s.begins (s.after i) q.resource = true) ∧
          q.resource = r := by
      rw [sends?, hq]
      cases q.resource.isCommand <;> cases s.begins (s.after i) q.resource <;> simp
    rw [hs, begins_after ha, Bool.and_eq_true, Bool.not_eq_true', Bool.not_eq_true']
    constructor
    · rintro ⟨hb, rfl⟩
      refine ⟨rfl, ?_, fun hc => (hb hc).1⟩
      cases hc : q.resource.isCommand with
      | false => exact refuses_of_fetch ha hc
      | true => exact (hb hc).2
    · rintro ⟨hr, hf, hl⟩
      cases hr
      exact ⟨fun hc => ⟨hl hc, hf⟩, rfl⟩

/-- A mark that is set after an intent was set before it, or a request is sent with it. -/
theorem loading_or_sends?_of_after (hr : r ≠ .systemStatus)
    (hl : (s.after i).loading.get r = true) :
    i.settles? ≠ some r ∧ (s.loading.get r = true ∨ s.sends? i = some r) := by
  rw [get_loading_after s i hr] at hl
  split at hl
  · cases hl
  · next hs =>
    refine ⟨hs, ?_⟩
    split at hl
    · next ha =>
      rcases Bool.eq_false_or_eq_true (s.loading.get r) with hb | hb
      · exact .inl hb
      · exact .inr (sends?_eq_some_iff.mpr ⟨ha.1, ha.2, fun _ => hb⟩)
    · exact .inl hl

/-- A mark that is not set is set by what is sent alone. -/
theorem loading_after_of_sends?_ne (hr : r ≠ .systemStatus) (hl : s.loading.get r = false)
    (hs : s.sends? i ≠ some r) : (s.after i).loading.get r = false := by
  refine Bool.eq_false_iff.mpr fun ht => ?_
  rcases (loading_or_sends?_of_after hr ht).2 with h | h
  · rw [hl] at h
    cases h
  · exact hs h

/-- A mark that is set stays until it is settled. -/
theorem loading_after_of_settles?_ne (hr : r ≠ .systemStatus) (hl : s.loading.get r = true)
    (hs : i.settles? ≠ some r) : (s.after i).loading.get r = true := by
  rw [get_loading_after s i hr, if_neg hs, hl]
  exact ite_self _

end

end State

end RunControl
