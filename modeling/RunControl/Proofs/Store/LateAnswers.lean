/-
RunControl/Proofs/Store/LateAnswers.lean

Status answers that come after a run was started, to fetches that were sent before.
When the start is applied, polling either opens a new cycle or goes on with the one that
is open.

* If the phase was not waiting for the answer of `c`, no answer of `c` changes anything
  from then on, whatever else happens (`Run.late_answer`): the phase names the cycle that
  was opened last, and this is never `c` again (`State.cycle?_replay_ne`).
* If the phase was waiting for it, it goes on waiting, as if the status had been asked for
  after the start.  So what the backend said of the time before the run takes the place of
  the status that came with the start: no device is under test any more, and polling ends
  (`start_undone_by_late_answer`).
-/
import RunControl.Proofs.State.Reports
import RunControl.Proofs.Store.Outstanding
import RunControl.Proofs.Store.Quiet

namespace RunControl

/-- A fetch that is asked for is one of the open cycle, or else of a new one. -/
theorem Poll.request_phase (p : Poll) :
    ∃ c, p.request.phase = .polling c true ∧
      ((∃ fetching, p.phase = .polling c fetching) ∨ c = ⟨p.opened⟩) := by
  unfold Poll.request
  cases p.phase with
  | idle | stopping _ => exact ⟨_, rfl, .inr rfl⟩
  | polling c fetching => exact ⟨c, rfl, .inl ⟨fetching, rfl⟩⟩

namespace State

/-- A cycle that was opened, but not last, is never named by the phase again. -/
theorem cycle?_replay_ne {c : Cycle} {is js : List Intent}
    (h : (State.cycles {} (is ++ js)).length < UInt64.size) (hc : c ∈ State.cycles {} is)
    (hne : (State.cycles {} is).getLast? ≠ some c) :
    (State.replay {} (is ++ js)).poll.phase.cycle? ≠ some c := by
  intro hp
  have hl := getLast?_cycles hp
  have hd := nodup_cycles h
  rw [cycles_append] at hl hd
  rw [List.getLast?_append] at hl
  rcases hb : ((State.replay {} is).cycles js).getLast? with - | d
  · rw [hb] at hl
    exact hne hl
  · -- a cycle that was opened later is another one
    rw [hb] at hl
    cases hl
    exact (List.nodup_append.mp hd).2.2 c hc c (List.mem_of_getLast? hb) rfl

/-- An answer of a cycle that the phase does not name changes nothing. -/
theorem after_answer_of_cycle?_ne {s : State} {i : Intent} {c : Cycle}
    (hi : i.answers? = some c) (hc : s.poll.phase.cycle? ≠ some c) : s.after i = s := by
  have hcur : s.poll.current? ≠ some c := by
    intro h
    obtain ⟨fetching, hp⟩ := Poll.current?_eq_some_iff.mp h
    rw [hp] at hc
    exact hc rfl
  obtain ⟨q, hq, rfl | ⟨hs, -⟩⟩ := after_answer_of_current?_ne hi hcur
  · exact hq
  · rw [hs] at hc
    exact absurd rfl hc

/-- When a run has been started and the phase was not waiting for the answer of a cycle,
that cycle is not the last one any more. -/
theorem getLast?_cycles_runStarted_ne {c : Cycle} {is : List Intent} (device : Device)
    (status : RunStatus) (hc : c.number < (State.replay {} is).poll.opened)
    (hp : ∀ fetching, (State.replay {} is).poll.phase ≠ .polling c fetching) :
    (State.cycles {} (is ++ [.runStarted device status])).getLast? ≠ some c := by
  obtain ⟨d, hd, hor⟩ := (State.replay {} is).poll.request_phase
  have hne : d ≠ c := by
    rintro rfl
    rcases hor with ⟨fetching, h⟩ | rfl
    · exact hp fetching h
    · exact UInt64.lt_irrefl _ hc
  have hafter : (State.replay {} (is ++ [.runStarted device status])).poll.phase.cycle?
      = some d := by
    rw [replay_append, replay_cons, replay_nil, poll_after]
    exact congrArg Phase.cycle? hd
  rw [getLast?_cycles hafter]
  simpa using hne

/-- An answer that the phase waits for takes the place of the status, and ends polling if
it is the last one. -/
theorem after_statusFetched_of_accepts {s : State} {c : Cycle}
    (h : s.poll.phase = .polling c true) (status : RunStatus) :
    (s.after (.statusFetched c status)).status = status ∧
      (status.isTerminal = true → (s.after (.statusFetched c status)).underTest = none ∧
        (s.after (.statusFetched c status)).poll.phase = .idle) := by
  have ha : s.poll.accepts c = true := Poll.accepts_iff.mpr h
  have hs : s.after (.statusFetched c status) = s.acceptStatus c status := if_pos ha
  rw [hs]
  refine ⟨rfl, fun ht => ⟨if_pos ht, ?_⟩⟩
  show (s.poll.complete c status.isTerminal).phase = .idle
  rw [Poll.complete, if_pos h, ht]
  rfl

end State

namespace Store

open PollSide

variable {s t : Store} {is js : List Intent} {interval : Nat} {c : Cycle}

/-- The fetch of a cycle was sent, and its answer has not been applied yet. -/
def AnswerToCome (s : Store) (c : Cycle) : Prop :=
  (∃ t ∈ s.tasks, t.request.cycle? = some c) ∨ ∃ i ∈ s.queue, i.answers? = some c

/-- Answers come of cycles that have been opened. -/
theorem AnswerToCome.lt_opened (h : s.AnswerToCome c) (hs : s.Sound) :
    c.number < s.state.poll.opened := by
  rcases h with ⟨t, ht, hc⟩ | ⟨i, hi, hc⟩
  · have hm := mem_fetches_iff.mpr ⟨t, ht, rfl, hc⟩
    obtain ⟨hp, -⟩ := hs.polling.fits.answer (i := .statusFetched c {}) hm rfl
    exact hs.polling.current c hp
  · exact hs.polling.answered i hi c hc

/-- While the phase waits for the timer, no answer is to come. -/
theorem AnswerToCome.phase_ne (h : s.AnswerToCome c) (hs : s.Sound)
    (hq : Quiet s.queue s.state.poll.phase) (d : Cycle) :
    s.state.poll.phase ≠ .polling d false := by
  intro hp
  have hf := hs.polling.fits
  rw [hp] at hf hq
  cases hf with | waiting fetches =>
  cases hq with | waiting noAnswer =>
  rcases h with ⟨t, ht, hc⟩ | ⟨i, hi, hc⟩
  · have hm := mem_fetches_iff.mpr ⟨t, ht, rfl, hc⟩
    rw [fetches] at hm
    cases hm
  · rw [noAnswer i hi] at hc
    cases hc

/-- A start is applied while the answer of `c` is still to come.  If the phase does not wait
for that answer, no answer of `c` changes the state from then on.  If it does, the answer
that comes next is taken for the status of the run. -/
theorem Run.late_answer (h : Run Intent.IsPlain (initial interval) is s) {device : Device}
    {status : RunStatus} {queue : List Intent} (hq : s.queue = .runStarted device status :: queue)
    (hc : s.AnswerToCome c) :
    (s.state.poll.phase ≠ .polling c true →
      ∀ js t, Run Intent.IsPlain s.applyNext js t →
        (State.cycles {} (is ++ .runStarted device status :: js)).length < UInt64.size →
        ∀ i : Intent, i.answers? = some c → t.state.after i = t.state) ∧
    (s.state.poll.phase = .polling c true → ∀ status' : RunStatus,
      let u := s.applyNext.state.after (.statusFetched c status')
      u.status = status' ∧
        (status'.isTerminal = true → u.underTest = none ∧ u.poll.phase = .idle)) := by
  have hstate : s.state = State.replay {} is := h.state_eq
  refine ⟨?_, ?_⟩
  · -- `c` is an older cycle than the one that polls after the start, and no cycle comes back
    intro hp js t ht hn i hi
    have hn' := State.length_cycles_lt_of_append hn
    have hlt := hc.lt_opened (h.sound hn')
    have hphase : ∀ fetching, s.state.poll.phase ≠ .polling c fetching := by
      rintro (- | -)
      · exact hc.phase_ne (h.sound hn') (h.quiet hn') c
      · exact hp
    rw [hstate] at hlt hphase
    have hmem : c ∈ State.cycles {} (is ++ [.runStarted device status]) := by
      rw [State.cycles_append]
      exact List.mem_append_left _ ((State.mem_cycles_iff hn').mpr hlt)
    have hrun := (h.tail (.apply hq)).trans ht
    have hreplay : t.state = State.replay {} (is ++ [.runStarted device status] ++ js) :=
      hrun.state_eq
    rw [List.append_cons] at hn
    rw [hreplay]
    refine State.after_answer_of_cycle?_ne hi (State.cycle?_replay_ne hn hmem ?_)
    exact State.getLast?_cycles_runStarted_ne device status hlt hphase
  · -- a start asks for no fetch while one runs, so the one that runs is still the wanted one
    intro hp status' u
    refine State.after_statusFetched_of_accepts ?_ status'
    rw [applyNext_of_queue hq, state_apply, State.poll_after]
    show s.state.poll.request.phase = _
    simp only [Poll.request, hp]

/-- A run is started while a fetch that was stopped runs on: its answer comes to nothing. -/
theorem late_answer_once_stopped :
    let device : Device := { address := "aa:01" }
    let stopped := (((initial 5).send .fetchStatus).applyNext.send .stopPolling).applyNext
    let t := (stopped.send (.runStarted device { stage := .inProgress })).applyNext
    t.state.after (.statusFetched ⟨0⟩ {}) = t.state := by
  intro device stopped t
  have hr : Run Intent.IsPlain (initial 5) [.fetchStatus, .stopPolling]
      (stopped.send (.runStarted device { stage := .inProgress })) :=
    ((((Run.refl.tail (.send ⟨rfl, rfl⟩)).tail (.apply rfl)).tail (.send ⟨rfl, rfl⟩)).tail
      (.apply rfl)).tail (.send ⟨rfl, rfl⟩)
  have hc : (stopped.send (.runStarted device { stage := .inProgress })).AnswerToCome ⟨0⟩ :=
    .inl ⟨_, List.mem_cons_self, rfl⟩
  exact (hr.late_answer rfl hc).1 nofun [] t .refl (by decide) _ rfl

/-- The status is fetched before the run is asked for, and that fetch is answered after the
start: the device is under test no longer, and polling has ended. -/
theorem start_undone_by_late_answer :
    let device : Device := { address := "aa:01" }
    let prepare : List Intent := [.devicesFetched [device],
      .rolesFetched { internet := some "eth0", device := some "eth1" }, .fetchStatus,
      .startRun device]
    let fetch : Task := { number := 0, request := .systemStatus ⟨0⟩ }
    let start : Task := { number := 1, request := .startRun device }
    let asked := ((initial 5).sendAll prepare).applyNext.applyNext.applyNext.applyNext
    let begun := (asked.finish start (.ok { stage := .inProgress })).applyNext
    let undone := (begun.finish fetch (.ok {})).applyNext
    Run (· ∈ prepare) (initial 5)
        (prepare ++ [.runStarted device { stage := .inProgress }, .statusFetched ⟨0⟩ {}]) undone ∧
      (begun.state.status.stage = .inProgress ∧ begun.state.underTest = some device ∧
        begun.state.poll.isPolling = true) ∧
      (undone.state.status.stage = .idle ∧ undone.state.underTest = none ∧
        undone.state.poll.isPolling = false) := by
  intro device prepare fetch start asked begun undone
  have hasked : Run (· ∈ prepare) (initial 5) prepare asked :=
    ((((Run.sendAll fun i hi => hi).tail (.apply rfl)).tail (.apply (queue_applyNext rfl))).tail
      (.apply (queue_applyNext (queue_applyNext rfl)))).tail
      (.apply (queue_applyNext (queue_applyNext (queue_applyNext rfl))))
  have hq : asked.queue = [] :=
    queue_applyNext (queue_applyNext (queue_applyNext (queue_applyNext rfl)))
  -- the start is answered first, although its request was sent last
  have hstart : start ∈ asked.tasks := by decide +kernel
  have hqstart : (asked.finish start (.ok { stage := .inProgress })).queue
      = [.runStarted device { stage := .inProgress }] := by
    rw [queue_finish hasked.held.isOpen, hq]
    rfl
  have hbegun := (hasked.tail (.finish hstart _)).tail (.apply hqstart)
  have hfetch : fetch ∈ begun.tasks := by decide +kernel
  have hqfetch : (begun.finish fetch (.ok {})).queue = [.statusFetched ⟨0⟩ {}] := by
    rw [queue_finish hbegun.held.isOpen, queue_applyNext hqstart]
    rfl
  have hundone := (hbegun.tail (.finish hfetch _)).tail (.apply hqfetch)
  exact ⟨hundone, by decide +kernel, by decide +kernel⟩

end Store

end RunControl
