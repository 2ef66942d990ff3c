/-
RunControl/Proofs/Store/Cadence.lean

What polling is worth to its users: in every run in which fewer than 2 ^ 64
cycles are opened,

* at most one status fetch runs, and when the phase waits for an answer there is
  exactly one to come (`Run.one_answer`);
* when the phase waits for the timer there is exactly one report of it to come,
  and no timer runs otherwise (`Run.one_wakeup`).

So polling never comes to a halt while a cycle is open, and it never runs twice
as fast as it should.  A report of the timer that is in the queue when a fetch
comes early, or when polling is stopped, is old when its turn comes: between the
two the phase cannot come to wait for the timer of that cycle again, because the
answer it would need is behind the report (`Run.phase_ne`).
-/
import RunControl.Proofs.Store.Waits

namespace RunControl

/-! ### Counting -/

namespace PollSide

open Intent

variable {w : PollSide} {c : Cycle} {phase : Phase}

theorem Answering.count (h : w.Answering c) :
    w.fetches.countP (fun f => f.2 = c) + countReports answers? w.queue c = 1 := by
  rcases h with ⟨⟨n, hf, -⟩, ha⟩ | ⟨hf, ha⟩
  · rw [hf, ha]
    simp
  · rw [hf, ha]
    rfl

theorem Answering.cycle_eq (h : w.Answering c) {f : Nat × Cycle} (hm : f ∈ w.fetches) :
    f.2 = c := by
  rcases h with ⟨⟨n, hf, -⟩, -⟩ | ⟨hf, -⟩
  · rw [hf, List.mem_singleton] at hm
    rw [hm]
  · rw [hf] at hm
    cases hm

theorem Answering.length_fetches_le (h : w.Answering c) : w.fetches.length ≤ 1 := by
  rcases h with ⟨⟨n, hf, -⟩, -⟩ | ⟨hf, -⟩ <;> simp [hf]

theorem Waking.count (h : w.Waking c) :
    w.alarms.countP (fun a => a.what = c) + countReports tick? w.queue c = 1 := by
  rcases h with ⟨⟨a, hr, hc, -⟩, ht⟩ | ⟨hr, ht⟩
  · rw [hr, ht]
    simp [hc]
  · rw [hr, ht]
    rfl

theorem Waking.what_eq (h : w.Waking c) {a : Alarm Cycle} (hm : a ∈ w.alarms) : a.what = c := by
  rcases h with ⟨⟨b, hr, hc, -⟩, -⟩ | ⟨hr, -⟩
  · rw [hr, List.mem_singleton] at hm
    rw [hm, hc]
  · rw [hr] at hm
    cases hm

theorem Fits.length_fetches_le (h : w.Fits phase) : w.fetches.length ≤ 1 := by
  cases h with
  | idle fetches | waiting fetches => simp [fetches]
  | fetching answering | stopping answering => exact answering.length_fetches_le

theorem Fits.answering (h : w.Fits phase) (hp : phase = .polling c true ∨ phase = .stopping c) :
    w.Answering c := by
  rcases hp with rfl | rfl
  · cases h with | fetching answering => exact answering
  · cases h with | stopping answering => exact answering

theorem Fits.waking (h : w.Fits phase) (hp : phase = .polling c false) : w.Waking c := by
  rw [hp] at h
  cases h with | waiting _ _ waking => exact waking

theorem Fits.fetches_eq_nil (h : w.Fits phase)
    (hp : phase = .idle ∨ ∃ c, phase = .polling c false) : w.fetches = [] := by
  rcases hp with rfl | ⟨c, rfl⟩
  · cases h with | idle fetches => exact fetches
  · cases h with | waiting fetches => exact fetches

theorem Fits.alarms_eq_nil (h : w.Fits phase) (hp : ∀ c, phase ≠ .polling c false) :
    w.alarms = [] := by
  cases h with
  | idle _ alarms | fetching _ alarms | stopping _ alarms => exact alarms
  | waiting => exact absurd rfl (hp _)

end PollSide

namespace Store

variable {s t u : Store} {is js : List Intent} {interval : Nat}

theorem countP_fetching (s : Store) :
    s.tasks.countP (fun t => t.request.cycle?.isSome) = s.pollSide.fetches.length := by
  simp only [pollSide, List.length_filterMap_eq_countP, fetchOf?, Option.isSome_map]

theorem countP_fetching_cycle (s : Store) (c : Cycle) :
    s.tasks.countP (fun t => t.request.cycle? = some c)
      = s.pollSide.fetches.countP (fun f => f.2 = c) := by
  simp only [pollSide, List.countP_filterMap]
  refine List.countP_congr fun t _ => ?_
  unfold fetchOf?
  cases t.request.cycle? <;> simp

/-! ### Answers -/

/-- At most one status fetch runs.  If the phase waits for an answer, either the
fetch runs or the answer is in the queue, and no other fetch runs; if the phase
waits for none, no fetch runs. -/
theorem Run.one_answer (h : Run Intent.IsPlain (initial interval) is s)
    (hn : (State.cycles {} is).length < UInt64.size) :
    s.tasks.countP (fun t => t.request.cycle?.isSome) ≤ 1 ∧
    (∀ c, s.state.poll.phase = .polling c true ∨ s.state.poll.phase = .stopping c →
      s.tasks.countP (fun t => t.request.cycle? = some c)
          + s.queue.countP (fun i => i.answers? = some c) = 1 ∧
        ∀ t ∈ s.tasks, ∀ d, t.request.cycle? = some d → d = c) ∧
    (s.state.poll.phase = .idle ∨ (∃ c, s.state.poll.phase = .polling c false) →
      ∀ t ∈ s.tasks, t.request.cycle? = none) := by
  have hf := (h.sound hn).polling.fits
  refine ⟨?_, ?_, ?_⟩
  · rw [countP_fetching]
    exact hf.length_fetches_le
  · intro c hp
    have ha := hf.answering hp
    refine ⟨?_, ?_⟩
    · rw [countP_fetching_cycle]
      exact ha.count
    · intro t ht d hd
      exact ha.cycle_eq (mem_fetches_iff.mpr ⟨t, ht, rfl, hd⟩)
  · intro hp t ht
    have hnil := hf.fetches_eq_nil hp
    refine Option.eq_none_iff_forall_ne_some.mpr fun c hc => ?_
    have hm := mem_fetches_iff.mpr ⟨t, ht, rfl, hc⟩
    rw [hnil] at hm
    cases hm

/-- A fetch that runs on when polling is stopped. -/
theorem one_answer_once_stopped :
    let s := (((initial 5).send .fetchStatus).applyNext.send .stopPolling).applyNext
    s.state.poll.phase = .stopping ⟨0⟩ ∧
      s.tasks.countP (fun t => t.request.cycle? = some ⟨0⟩)
        + s.queue.countP (fun i => i.answers? = some ⟨0⟩) = 1 := by
  intro s
  have hr : Run Intent.IsPlain (initial 5) [.fetchStatus, .stopPolling] s :=
    (((Run.refl.tail (.send ⟨rfl, rfl⟩)).tail (.apply rfl)).tail (.send ⟨rfl, rfl⟩)).tail
      (.apply rfl)
  have hp : s.state.poll.phase = .stopping ⟨0⟩ := rfl
  exact ⟨hp, ((Run.one_answer hr (by decide)).2.1 _ (.inr hp)).1⟩

/-! ### Wake-ups -/

/-- While a report of the timer of `c` is in the queue, polling does not come to
wait for that timer. -/
theorem phase_ne_of_turn {w : PollSide} {p q : Poll} {i : Intent} {queue : List Intent}
    {as : List Poll.Action} {c : Cycle} (h : w.Fits p.phase) (hq : w.queue = i :: queue)
    (hm : .timerFired c ∈ queue) (hp : p.phase ≠ .polling c false) (ht : Poll.Turn p i q as) :
    q.phase ≠ .polling c false := by
  cases ht with
  | keep => exact hp
  | opened | superseded | refetched | ended | stopped | halted | dropped => nofun
  | answered phase answer =>
    rintro ⟨⟩
    rw [phase] at h
    cases h with | fetching answering alarms first =>
    -- the answer is in front of the report, which the phase rules out
    rw [hq] at first
    exact Intent.countReports_eq_zero.mp (first.noTick_tail answer) _ hm rfl

theorem Step.phase_ne {c : Cycle} {n : Nat} (h : Step Intent.IsPlain s is t) (hs : s.Sound)
    (hm : s.queue[is.length + n]? = some (.timerFired c))
    (hp : s.state.poll.phase ≠ .polling c false) : t.state.poll.phase ≠ .polling c false := by
  rw [h.state_eq]
  cases h with
  | @apply i queue hq =>
    have hm' : .timerFired c ∈ queue := by
      rw [hq, List.length_singleton, Nat.add_comm, List.getElem?_cons_succ] at hm
      exact List.mem_of_getElem? hm
    rw [State.replay_cons, State.replay_nil, State.poll_after]
    exact phase_ne_of_turn hs.polling.fits hq hm' hp (Poll.turn _ _)
  | _ => exact hp

/-- A report of the timer that is not waited for is not waited for when its turn
comes either. -/
theorem Run.phase_ne {c : Cycle} {n : Nat} (h : Run Intent.IsPlain (initial interval) is s)
    (h' : Run Intent.IsPlain s js t) (hn : (State.cycles {} (is ++ js)).length < UInt64.size)
    (hm : s.queue[js.length + n]? = some (.timerFired c))
    (hp : s.state.poll.phase ≠ .polling c false) : t.state.poll.phase ≠ .polling c false := by
  induction h' generalizing n with
  | refl => exact hp
  | @tail js ks t u hr hs ih =>
    rw [← List.append_assoc] at hn
    have hn' := State.length_cycles_lt_of_append hn
    rw [List.length_append, Nat.add_assoc] at hm
    -- the report has not come to the front before this step
    exact hs.phase_ne ((h.trans hr).sound hn') (hr.getElem?_queue hm) (ih hn' hm)

/-- A report of the timer that is not waited for has no effect but to be counted. -/
theorem applyNext_of_stale {c : Cycle} {queue : List Intent}
    (hq : s.queue = .timerFired c :: queue) (hp : s.state.poll.phase ≠ .polling c false) :
    s.applyNext = publish { s with queue, applied := s.applied + 1 } := by
  have hst : s.state.after (.timerFired c) = s.state := by
    have ht : s.state.poll.tick c = s.state.poll := if_neg hp
    show { s.state with poll := s.state.poll.tick c } = s.state
    rw [ht]
  have he : s.state.effects s.state (.timerFired c) = [] := by
    unfold State.effects
    rw [Poll.actions_self]
    rfl
  rw [applyNext_of_queue hq, apply, hst, he]
  rfl

/-- If the phase waits for the timer of `c`, either that timer runs or its report
is in the queue, and no other timer runs; otherwise no timer runs.  So a report
that is not waited for, though the timer of its cycle was once, asks for no
request when its turn comes, and leaves the state as it is. -/
theorem Run.one_wakeup (h : Run Intent.IsPlain (initial interval) is s)
    (hn : (State.cycles {} is).length < UInt64.size) :
    (∀ c, s.state.poll.phase = .polling c false →
      s.timers.pending.countP (fun a => a.what = c)
          + s.queue.countP (fun i => i.tick? = some c) = 1 ∧
        ∀ a ∈ s.timers.pending, a.what = c) ∧
    ((∀ c, s.state.poll.phase ≠ .polling c false) → s.timers.pending = []) ∧
    ∀ c js t, Run Intent.IsPlain s js t → (State.cycles {} (is ++ js)).length < UInt64.size →
      s.queue[js.length]? = some (.timerFired c) → s.state.poll.phase ≠ .polling c false →
      t.queue.head? = some (.timerFired c) ∧ t.applyNext.state = t.state ∧
        t.applyNext.tasks = t.tasks ∧ t.applyNext.sent = t.sent := by
  have hf := (h.sound hn).polling.fits
  refine ⟨?_, ?_, ?_⟩
  · intro c hp
    have hw := hf.waking hp
    exact ⟨hw.count, fun a => hw.what_eq⟩
  · exact hf.alarms_eq_nil
  · intro c js t hr hn' hm hp
    -- the report has come to the front, and is still not waited for
    have hq : t.queue[0]? = some (.timerFired c) := hr.getElem?_queue hm
    have hpt := h.phase_ne (n := 0) hr hn' hm hp
    rw [← List.head?_eq_getElem?] at hq
    obtain ⟨queue, hq'⟩ := List.head?_eq_some_iff.mp hq
    rw [applyNext_of_stale hq' hpt]
    refine ⟨hq, ?_, ?_, ?_⟩
    · exact state_publish _
    · unfold publish; split <;> rfl
    · unfold publish; split <;> rfl

/-- A report of the timer with an early fetch in front of it. -/
theorem one_wakeup_of_early_fetch :
    let polled := ((initial 5).send .fetchStatus).applyNext
    let task : Task := { number := 0, request := .systemStatus ⟨0⟩ }
    let waiting := (polled.finish task (.ok { stage := .inProgress })).applyNext
    let alarm : Alarm Cycle := { number := 0, due := 5, what := ⟨0⟩ }
    let s := ((waiting.send .fetchStatus).fire alarm).applyNext
    s.queue = [.timerFired ⟨0⟩] ∧ s.timers.pending = [] ∧ s.applyNext.sent = s.sent := by
  intro polled task waiting alarm s
  have hf : Step Intent.IsPlain polled [] (polled.finish task (.ok { stage := .inProgress })) :=
    .finish (List.mem_singleton_self task) _
  have ha : Step Intent.IsPlain (waiting.send .fetchStatus) []
      ((waiting.send .fetchStatus).fire alarm) :=
    .fire (List.mem_singleton_self alarm)
  have hw : Run Intent.IsPlain (initial 5)
      [.fetchStatus, .statusFetched ⟨0⟩ { stage := .inProgress }] waiting :=
    (((Run.refl.tail (.send ⟨rfl, rfl⟩)).tail (.apply rfl)).tail hf).tail (.apply rfl)
  have hs : Run Intent.IsPlain waiting [.fetchStatus] s :=
    ((Run.refl.tail (.send ⟨rfl, rfl⟩)).tail ha).tail (.apply rfl)
  have hq : s.queue = [.timerFired ⟨0⟩] := by
    show (applyNext _).queue = _
    rw [applyNext_of_queue rfl, queue_apply]
    rfl
  have hp : s.state.poll.phase = .polling ⟨0⟩ true := by
    rw [(hw.trans hs).state_eq]
    rfl
  have hne : ∀ c, s.state.poll.phase ≠ .polling c false := by
    intro c hc
    rw [hp] at hc
    cases hc
  have h := Run.one_wakeup (hw.trans hs) (by decide)
  refine ⟨hq, h.2.1 hne, ?_⟩
  exact (h.2.2 ⟨0⟩ [] s .refl (by decide) (by rw [hq]; rfl) (hne _)).2.2.2

end Store

end RunControl
