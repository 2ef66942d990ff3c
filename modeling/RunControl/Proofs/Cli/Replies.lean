/-
RunControl/Proofs/Cli/Replies.lean

What a session shows comes from the backend.  A reply has come back for a call when a response
to it can be read as this reply (`Replied`), and a status was reported when it is the reply to a
fetch of the status or to the start of a run (`Reported`).

`Sound` ties what has happened in a session to its store: the store has applied the intents that
are listed, it publishes what they have come to, every status that is still in the queue was
reported, and so was the one in the state, unless it is the one at the beginning.  Every move
behind a command keeps it so (`Sound.move`), and so does a command that only sends wishes
(`Sound.sendAll`).
-/
import RunControl.Proofs.Cli.Moves
import RunControl.Proofs.Cli.Outline
import RunControl.Proofs.State.Reports

namespace RunControl

/-- The status that an intent brings. -/
def Intent.status? : Intent → Option RunStatus
  | .setStatus status => some status
  | .runStarted _ status => some status
  | .statusFetched _ status => some status
  | _ => none

/-- What is reported to a state is what the intent brings. -/
theorem State.status?_of_reported? {s : State} {i : Intent} {status : RunStatus}
    (h : s.reported? i = some status) : i.status? = some status := by
  cases i with
  | statusFetched c st =>
    simp only [reported?, Option.ite_none_right_eq_some] at h
    exact h.2
  | setStatus _ | runStarted _ _ => exact h
  | _ => cases h

namespace Cli

/-! ### Replies -/

/-- A reply has come back for a call. -/
def Replied (hs : List Happening) (call : Call) (reply : call.resource.Reply) : Prop :=
  ∃ r, .answered call (some r) ∈ hs ∧ call.read r = .ok reply

/-- The backend has returned a status. -/
def Reported (hs : List Happening) (status : RunStatus) : Prop :=
  Replied hs .systemStatus status ∨ ∃ device, Replied hs (.startRun device) status

/-- Every status that an intent brings was reported. -/
def Backed (hs : List Happening) (i : Intent) : Prop :=
  ∀ status, i.status? = some status → Reported hs status

variable {hs hs' : List Happening} {c : Client} {x : Scene}

theorem Replied.mono {call : Call} {reply : call.resource.Reply} (h : Replied hs call reply)
    (hsub : hs ⊆ hs') : Replied hs' call reply := by
  obtain ⟨r, hm, hr⟩ := h
  exact ⟨r, hsub hm, hr⟩

theorem Reported.mono {status : RunStatus} (h : Reported hs status) (hsub : hs ⊆ hs') :
    Reported hs' status :=
  h.imp (·.mono hsub) fun ⟨device, hd⟩ => ⟨device, hd.mono hsub⟩

theorem Backed.mono {i : Intent} (h : Backed hs i) (hsub : hs ⊆ hs') : Backed hs' i :=
  fun status hi => (h status hi).mono hsub

theorem Reported.append_right {status : RunStatus} (h : Reported hs status)
    (hs' : List Happening) : Reported (hs ++ hs') status :=
  h.mono (List.subset_append_left ..)

/-- A request that fails brings no status. -/
theorem status?_of_mem_outcome_error {q : Request} {fault : Fault} {i : Intent}
    (hi : i ∈ outcome q (.error fault)) : i.status? = none := by
  have failed : ∀ s e, i ∈ failureIntents s e → i.status? = none := by
    intro s e h
    simp only [failureIntents] at h
    split at h
    · rcases List.mem_cons.mp h with rfl | h
      · rfl
      · rw [List.mem_singleton.mp h]
        rfl
    · rw [List.mem_singleton.mp h]
      rfl
  cases q with
  | systemStatus c =>
    rw [List.mem_singleton.mp hi]
    rfl
  | _ => exact failed _ _ hi

/-- An intent that brings a status comes from the reply that the status is. -/
theorem backed_of_mem_outcome {q : Request} {http : Http.Request} {r : Option Http.Response}
    {i : Intent} (hm : .answered q.call r ∈ hs)
    (hi : i ∈ outcome q (Client.answer q.call http r)) : Backed hs i := by
  intro status hst
  rcases ha : Client.answer q.call http r with e | reply
  · -- a fault brings no status
    rw [ha] at hi
    rw [status?_of_mem_outcome_error hi] at hst
    cases hst
  · rw [ha] at hi
    rcases r with - | r
    · cases ha
    · -- of the replies, two are statuses
      have hr : Replied hs q.call reply := ⟨r, hm, ha⟩
      cases q with
      | systemStatus c =>
        rw [List.mem_singleton.mp hi] at hst
        cases hst
        exact .inl hr
      | startRun device =>
        rw [List.mem_singleton.mp hi] at hst
        cases hst
        exact .inr ⟨device, hr⟩
      | interfaces | systemConfig | devices | riskProfiles | systemVersion =>
        rw [List.mem_singleton.mp hi] at hst
        cases hst
      | stopRun | createDevice _ | editDevice _ _ | deleteDevice _ =>
        rcases List.mem_cons.mp hi with rfl | hi
        · cases hst
        · rw [List.mem_singleton.mp hi] at hst
          cases hst

/-! ### Sessions that show what was reported -/

/-- What has happened in a session and its store belong together. -/
structure Sound (x : Scene) : Prop where
  run : ∃ interval, Store.Run (fun _ => True) (.initial interval) (intentsOf x.happened) x.store
  publishes : x.store.Publishes (intentsOf x.happened)
  queue : ∀ i ∈ x.store.queue, Backed x.happened i
  status : x.store.state.status = {} ∨ Reported x.happened x.store.state.status

namespace Sound

theorem held (h : Sound x) : x.store.Held := by
  obtain ⟨interval, hrun⟩ := h.run
  exact hrun.held

theorem coherent (h : Sound x) : x.store.state.Coherent := by
  rw [h.publishes.state]
  exact State.coherent_initial.replay _

/-- A move that applies no intent. -/
theorem still {store : Store} (h : Sound x) (hm : Move c x.store hs store)
    (hstate : store.state = x.store.state)
    (hqueue : ∀ i ∈ store.queue, i ∈ x.store.queue ∨ Backed (x.happened ++ hs) i) :
    Sound (x.moved hs store) where
  run := by
    obtain ⟨interval, hrun⟩ := h.run
    refine ⟨interval, ?_⟩
    show Store.Run _ _ (intentsOf (x.happened ++ hs)) store
    rw [intentsOf_append]
    exact hrun.trans hm.run
  publishes := by
    show store.Publishes (intentsOf (x.happened ++ hs))
    rw [intentsOf_append]
    exact hm.publishes h.publishes
  queue i hi := (hqueue i hi).elim
    (fun hi => (h.queue i hi).mono (List.subset_append_left ..)) id
  status := by
    show store.state.status = {} ∨ Reported _ store.state.status
    rw [hstate]
    exact h.status.imp_right (·.append_right hs)

/-- Applying an intent: the status it may bring was reported when the intent was put into the
queue. -/
theorem apply {i : Intent} {queue : List Intent} (h : Sound x)
    (hq : x.store.queue = i :: queue) : Sound (x.moved [.applied i] x.store.applyNext) where
  run := by
    obtain ⟨interval, hrun⟩ := h.run
    refine ⟨interval, ?_⟩
    show Store.Run _ _ (intentsOf (x.happened ++ [.applied i])) _
    rw [intentsOf_append]
    exact hrun.tail (.apply hq)
  publishes := by
    show x.store.applyNext.Publishes (intentsOf (x.happened ++ [.applied i]))
    rw [intentsOf_append]
    exact h.publishes.applyNext hq
  queue j hj := by
    change j ∈ x.store.applyNext.queue at hj
    rw [Store.queue_applyNext hq] at hj
    exact (h.queue j (hq ▸ List.mem_cons_of_mem _ hj)).mono (List.subset_append_left ..)
  status := by
    show x.store.applyNext.state.status = {} ∨ Reported _ x.store.applyNext.state.status
    rw [Store.applyNext_of_queue hq, Store.state_apply, State.status_after]
    rcases hr : x.store.state.reported? i with - | status
    · exact h.status.imp_right (·.append_right _)
    · right
      have hi : Backed x.happened i := h.queue i (hq ▸ List.mem_cons_self)
      exact (hi status (State.status?_of_reported? hr)).append_right _

/-- Every move behind a command keeps to what was reported. -/
theorem move : Firm c Sound := by
  intro x hs store h hm
  have ho := h.held.isOpen
  cases hm with
  | apply hq => exact h.apply hq
  | @call task q hmem hb hq => exact h.still (.call hmem hb hq) rfl fun i hi => .inl hi
  | @answer task q hmem hb hq r =>
    refine h.still (.answer hmem hb hq r) (Store.state_finish ..) fun i hi => ?_
    rw [Store.queue_finish ho] at hi
    refine (List.mem_append.mp hi).imp_right fun hi => backed_of_mem_outcome ?_ hi
    exact List.mem_append_right _ (List.mem_singleton_self _)
  | @giveUp task fault hmem hb hq =>
    refine h.still (.giveUp hmem hb hq) (Store.state_finish ..) fun i hi => ?_
    rw [Store.queue_finish (s := x.store.start task) ho] at hi
    refine (List.mem_append.mp hi).imp_right fun hi status hst => ?_
    rw [status?_of_mem_outcome_error hi] at hst
    cases hst
  | @fire alarm hmem =>
    refine h.still (c := c) (.fire hmem) (Store.state_send _ _) fun i hi => ?_
    refine (Store.mem_queue_send hi).imp_right fun he status hst => ?_
    rw [he] at hst
    cases hst
  | advance ms => exact h.still (c := c) (.advance ms) rfl fun i hi => .inl hi

/-- So does a command that sends intents which bring no status. -/
theorem sendAll {is : List Intent} (h : Sound x) (hi : ∀ i ∈ is, i.status? = none) :
    Sound (x.sendAll is) where
  run := by
    obtain ⟨interval, hrun⟩ := h.run
    have hsend : Store.Run (fun _ => True) x.store [] (x.store.sendAll is) :=
      Store.Run.sendAll fun _ _ => trivial
    refine ⟨interval, ?_⟩
    show Store.Run _ _ (intentsOf x.happened) (x.store.sendAll is)
    simpa using hrun.trans hsend
  publishes := h.publishes.of_front (Store.state_sendAll _ _) (Store.front_sendAll _ _)
  queue j hj := by
    rcases Store.mem_queue_sendAll hj with hj | hj
    · exact h.queue j hj
    · intro status hst
      rw [hi j hj] at hst
      cases hst
  status := by
    show (x.store.sendAll is).state.status = {} ∨ Reported _ (x.store.sendAll is).state.status
    rw [Store.state_sendAll]
    exact h.status

/-- A line that is printed changes nothing else. -/
theorem print (h : Sound x) (line : String) : Sound (x.print line) :=
  ⟨h.run, h.publishes, h.queue, h.status⟩

/-- What a session publishes says the same as its state. -/
theorem published (h : Sound x) :
    { x.store.published with
      config := x.store.state.config, profiles := x.store.state.profiles } = x.store.state :=
  h.publishes.published.eq_but_kept

theorem errors_published (h : Sound x) : x.store.published.errors = x.store.state.errors := by
  conv_rhs => rw [← h.published]

theorem loading_published (h : Sound x) : x.store.published.loading = x.store.state.loading := by
  conv_rhs => rw [← h.published]

theorem poll_published (h : Sound x) : x.store.published.poll = x.store.state.poll := by
  conv_rhs => rw [← h.published]

theorem status_published (h : Sound x) : x.store.published.status = x.store.state.status := by
  conv_rhs => rw [← h.published]

end Sound

/-- A session at which nothing has happened yet. -/
theorem sound_initial (interval : Nat) (printed : List String) :
    Sound { happened := [], store := .initial interval, printed } where
  run := ⟨interval, .refl⟩
  publishes := ⟨rfl, .inl rfl, rfl⟩
  queue := List.forall_mem_nil _
  status := .inl rfl

end Cli

end RunControl
