/-
RunControl/Proofs/State/OpenCycle.lean

What opens a cycle and what closes it.  Of all intents,

* `Intent.Opens` lists those that want the status to be fetched from now on.  They open
  the cycle that the counter names if none is open, and leave an open one as it is;
* `Poll.Closes` lists those that end the open cycle: the wish to stop, and an answer that
  is wanted and says that nothing more is to come.

Whatever else happens leaves the open cycle open, or none (`Poll.current?_after_of_neither`).
So polling ends for no other reason, in particular not because a fetch failed that may
succeed the next time (`State.current?_changes_iff`).

Each operation of polling has one equation here that says which cycle is open after it;
the theorems about intents are put together from these.
-/
import RunControl.Proofs.Cycles

namespace RunControl

/-! ### What each operation does to the open cycle -/

namespace Poll

variable {p : Poll} {c d : Cycle} {i : Intent}

theorem current?_eq_none_iff :
    p.current? = none ↔ p.phase = .idle ∨ ∃ stale, p.phase = .stopping stale := by
  unfold current?
  cases p.phase <;> simp

theorem current?_of_accepts (h : p.accepts c = true) : p.current? = some c :=
  current?_eq_some_iff.mpr ⟨true, accepts_iff.mp h⟩

theorem current?_request (p : Poll) : p.request.current? = some (p.current?.getD ⟨p.opened⟩) := by
  unfold request
  rcases h : p.phase with - | ⟨c, fetching⟩ | c
  · simp [current?, openCycle, h]
  · simp [current?, h]
  · simp [current?, openCycle, h]

theorem current?_tick (p : Poll) (d : Cycle) : (p.tick d).current? = p.current? := by
  unfold tick
  split
  · next h => simp [current?, h]
  · rfl

theorem current?_stop (p : Poll) : p.stop.current? = none := by
  unfold stop
  rcases h : p.phase with - | ⟨c, - | -⟩ | c <;> simp [current?, h]

/-- An answer that is not wanted, or not the last one, leaves the open cycle open. -/
theorem current?_complete_of_not {done : Bool} (h : p.accepts d = true → done = false) :
    (p.complete d done).current? = p.current? := by
  unfold complete
  split
  · next hp =>
    obtain rfl := h (accepts_iff.mpr hp)
    simp [current?, hp]
  · split
    · next hp => simp [current?, hp]
    · rfl

theorem current?_complete_done (h : p.accepts d = true) : (p.complete d true).current? = none := by
  rw [complete, if_pos (accepts_iff.mp h)]
  rfl

end Poll

/-! ### What opens a cycle, and what closes it -/

/-- The intents that want the status to be fetched from now on. -/
inductive Intent.Opens : Intent → Prop
  | fetchStatus : Opens .fetchStatus
  | runStarted (device : Device) (status : RunStatus) : Opens (.runStarted device status)
  | setStatus {status : RunStatus} (running : status.isTerminal = false) :
      Opens (.setStatus status)

namespace Poll

/-- The intents that end the cycle `c`: the wish to stop, and an answer of `c` that is wanted
and is the last one. -/
inductive Closes (p : Poll) (c : Cycle) : Intent → Prop
  | stopPolling : Closes p c .stopPolling
  | runStopped : Closes p c .runStopped
  | statusFetched {status : RunStatus} (wanted : p.accepts c = true)
      (terminal : status.isTerminal = true) : Closes p c (.statusFetched c status)
  | statusFailed {failure : Failure} (wanted : p.accepts c = true)
      (unconfigured : failure.kind = .unconfigured) : Closes p c (.statusFailed c failure)

variable {p : Poll} {c : Cycle} {i : Intent}

theorem current?_after_of_closes (h : p.Closes c i) : (p.after i).current? = none := by
  cases h with
  | stopPolling | runStopped => exact current?_stop p
  | @statusFetched status wanted terminal =>
    show (p.complete c status.isTerminal).current? = none
    rw [terminal]
    exact current?_complete_done wanted
  | @statusFailed failure wanted unconfigured =>
    have hd : failure.isUnconfigured = true := beq_iff_eq.mpr unconfigured
    show (p.complete c failure.isUnconfigured).current? = none
    rw [hd]
    exact current?_complete_done wanted

theorem current?_after_of_opens (h : i.Opens) :
    (p.after i).current? = some (p.current?.getD ⟨p.opened⟩) := by
  cases h with
  | fetchStatus => exact current?_request p
  | runStarted device status => exact current?_request p
  | @setStatus status running =>
    have ha : p.after (.setStatus status) = if p.isPolling then p else p.request := by
      simp only [after, running, Bool.false_or]
    rw [ha]
    split
    · next hp =>
      -- the cycle is open already
      unfold isPolling at hp
      rcases h : p.phase with - | ⟨c, fetching⟩ | c
      · simp [h] at hp
      · simp [current?, h]
      · simp [h] at hp
    · exact current?_request p

/-- An intent that is in neither list leaves the open cycle open, or none. -/
theorem current?_after_of_neither (hc : ∀ c, ¬p.Closes c i) (ho : ¬i.Opens) :
    (p.after i).current? = p.current? := by
  cases i with
  | fetchStatus => exact absurd .fetchStatus ho
  | runStarted device status => exact absurd (.runStarted device status) ho
  | setStatus status =>
    have ht : status.isTerminal = true := Bool.not_eq_false _ ▸ fun h => ho (.setStatus h)
    simp only [after, ht, Bool.true_or, if_true]
  | statusFetched d status =>
    refine current?_complete_of_not fun hw => ?_
    exact Bool.eq_false_iff.mpr fun ht => hc d (.statusFetched hw ht)
  | statusFailed d failure =>
    refine current?_complete_of_not fun hw => ?_
    exact Bool.eq_false_iff.mpr fun hd => hc d (.statusFailed hw (beq_iff_eq.mp hd))
  | timerFired d => exact current?_tick p d
  | stopPolling => exact absurd .stopPolling (hc default)
  | runStopped => exact absurd .runStopped (hc default)
  | _ => rfl

/-- The open cycle is closed by the intents of the one list, and by no others. -/
theorem current?_after_ne_iff (h : p.current? = some c) :
    (p.after i).current? ≠ some c ↔ p.Closes c i := by
  constructor
  · intro hne
    by_contra hc
    refine hne ?_
    by_cases ho : i.Opens
    · rw [current?_after_of_opens ho, h]
      rfl
    · refine (current?_after_of_neither (fun d hd => hc ?_) ho).trans h
      -- only an answer of the open cycle is wanted
      cases hd with
      | stopPolling => exact .stopPolling
      | runStopped => exact .runStopped
      | statusFetched wanted terminal =>
        obtain rfl := Option.some.inj (h.symm.trans (current?_of_accepts wanted))
        exact .statusFetched wanted terminal
      | statusFailed wanted unconfigured =>
        obtain rfl := Option.some.inj (h.symm.trans (current?_of_accepts wanted))
        exact .statusFailed wanted unconfigured
  · intro hc
    rw [current?_after_of_closes hc]
    nofun

/-- A cycle is opened by the intents of the other list, if none is open, and it is the one
that the counter names. -/
theorem current?_after_iff_of_ne (h : p.current? ≠ some c) :
    (p.after i).current? = some c ↔ p.current? = none ∧ c = ⟨p.opened⟩ ∧ i.Opens := by
  constructor
  · intro hc
    by_cases ho : i.Opens
    · rw [current?_after_of_opens ho] at hc
      rcases hp : p.current? with - | d
      · rw [hp] at hc
        exact ⟨rfl, (Option.some.inj hc).symm, ho⟩
      · rw [hp] at hc
        exact absurd (hp.trans hc) h
    · by_cases hcl : ∃ d, p.Closes d i
      · obtain ⟨d, hd⟩ := hcl
        rw [current?_after_of_closes hd] at hc
        cases hc
      · rw [current?_after_of_neither (not_exists.mp hcl) ho] at hc
        exact absurd hc h
  · rintro ⟨hp, rfl, ho⟩
    rw [current?_after_of_opens ho, hp]
    rfl

end Poll

/-! ### Polling that goes on -/

/-- The reports that polling lives on: answers after which more is to come, and the timer. -/
inductive Intent.GoesOn : Intent → Prop
  | statusFetched (c : Cycle) {status : RunStatus} (running : status.isTerminal = false) :
      GoesOn (.statusFetched c status)
  | statusFailed (c : Cycle) {failure : Failure}
      (passing : failure.kind = .transient ∨ failure.kind = .rejected) :
      GoesOn (.statusFailed c failure)
  | timerFired (c : Cycle) : GoesOn (.timerFired c)

theorem Intent.GoesOn.not_closes {i : Intent} (h : i.GoesOn) (p : Poll) (c : Cycle) :
    ¬p.Closes c i := by
  intro hc
  cases h with
  | statusFetched d running =>
    cases hc with | statusFetched wanted terminal =>
    rw [running] at terminal
    cases terminal
  | statusFailed d passing =>
    cases hc with | statusFailed wanted unconfigured =>
    rw [unconfigured] at passing
    simp at passing
  | timerFired d => cases hc

namespace State

variable {s : State} {c : Cycle} {js : List Intent}

/-- Reports that polling lives on leave the open cycle open, however many there are. -/
theorem current?_replay_of_goesOn (h : s.poll.current? = some c) (hj : ∀ j ∈ js, j.GoesOn) :
    (s.replay js).poll.current? = some c := by
  induction js generalizing s with
  | nil => exact h
  | cons j js ih =>
    rw [List.forall_mem_cons] at hj
    refine ih ?_ hj.2
    by_contra hne
    rw [poll_after] at hne
    exact hj.1.not_closes _ _ ((Poll.current?_after_ne_iff h).mp hne)

/-- The open cycle is closed by the intents that `Poll.Closes` lists, and by no others; a
cycle is opened by those that `Intent.Opens` lists, if none is open, and it is the one that
the counter names.  So once the status is fetched, the same cycle stays open as long as
nothing but answers come after which more is to come, and reports of the timer. -/
theorem current?_changes_iff (s : State) (i : Intent) :
    (∀ c, s.poll.current? = some c →
      ((s.after i).poll.current? ≠ some c ↔ s.poll.Closes c i)) ∧
    (∀ c, s.poll.current? ≠ some c →
      ((s.after i).poll.current? = some c ↔
        (s.poll.phase = .idle ∨ ∃ stale, s.poll.phase = .stopping stale) ∧
          c = ⟨s.poll.opened⟩ ∧ i.Opens)) ∧
    ∃ c, ∀ js : List Intent, (∀ j ∈ js, j.GoesOn) →
      (s.replay (.fetchStatus :: js)).poll.current? = some c := by
  refine ⟨?_, ?_, ?_⟩
  · intro c hc
    rw [poll_after]
    exact Poll.current?_after_ne_iff hc
  · intro c hc
    rw [poll_after, ← Poll.current?_eq_none_iff]
    exact Poll.current?_after_iff_of_ne hc
  · refine ⟨s.poll.current?.getD ⟨s.poll.opened⟩, fun js hj => ?_⟩
    rw [replay_cons]
    refine current?_replay_of_goesOn ?_ hj
    rw [poll_after]
    exact Poll.current?_after_of_opens .fetchStatus

/-- A run that is over already when its start is answered opens a cycle while a stale fetch
runs; that cycle outlives a failure and a wait, and a backend without configuration ends it. -/
theorem current?_changes_once_stopped :
    let s := State.replay {} [.fetchStatus, .stopPolling]
    let t := s.after (.runStarted { address := "aa:01" } {})
    let u := t.replay [.fetchStatus, .statusFailed ⟨1⟩ ⟨.transient, "timeout"⟩, .timerFired ⟨1⟩]
    t.poll.current? = some ⟨1⟩ ∧ u.poll.current? = some ⟨1⟩ ∧
      (u.after (.statusFailed ⟨1⟩ ⟨.unconfigured, "no configuration"⟩)).poll.current?
        ≠ some ⟨1⟩ := by
  intro s t u
  have hs : s.poll.phase = .stopping ⟨0⟩ := rfl
  have hne : s.poll.current? ≠ some ⟨1⟩ := nofun
  have ht : t.poll.current? = some ⟨1⟩ :=
    ((current?_changes_iff s (.runStarted { address := "aa:01" } {})).2.1 ⟨1⟩ hne).mpr
      ⟨.inr ⟨⟨0⟩, hs⟩, rfl, .runStarted _ _⟩
  obtain ⟨c, hc⟩ := (current?_changes_iff t .fetchStatus).2.2
  -- nothing has come yet: so the cycle that stays open is the one that was open before
  obtain rfl : (⟨1⟩ : Cycle) = c := Option.some.inj (hc [] (List.forall_mem_nil _))
  have hu : u.poll.current? = some ⟨1⟩ := by
    refine hc [.statusFailed ⟨1⟩ ⟨.transient, "timeout"⟩, .timerFired ⟨1⟩] ?_
    exact List.forall_mem_cons.mpr
      ⟨.statusFailed _ (.inl rfl), List.forall_mem_singleton.mpr (.timerFired _)⟩
  refine ⟨ht, hu, ?_⟩
  exact ((current?_changes_iff u _).1 ⟨1⟩ hu).mpr (.statusFailed rfl rfl)

end State

end RunControl
