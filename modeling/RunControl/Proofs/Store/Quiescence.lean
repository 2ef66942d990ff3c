/-
RunControl/Proofs/Store/Quiescence.lean

A store that has come to rest awaits nothing.  Whoever sends what, be it an outcome
that a caller has made up, and however often the counter of cycles has come round:

* a resource is marked in `loading` only while a request about it is unsettled
  (`Run.unsettled_of_loading`): the request is under way, or it was answered and the
  intent that settles it has not been applied (`Unsettled`);
* what the phase waits for is on its way (`PollSide.Served`): a fetch of the cycle or
  its answer, or the timer of the cycle or its report.

So when no request is under way, no timer runs and the queue is empty, nothing is
marked and polling is at rest (`Run.nothing_awaited_at_rest`).

`Served` is less than `PollSide.Fits`: it says that something is on its way, but not
that nothing else is.  For that it needs no promise of the callers and no bound on the
number of cycles.  A request is told apart from an outcome that was made up by its own
place in the queue, so `Unsettled` speaks of the run and not of the store alone.
-/
import RunControl.Proofs.State.Coherence
import RunControl.Proofs.Store.Outstanding

namespace RunControl

/-! ### What the phase waits for -/

namespace PollSide

/-- A fetch of `c` is under way, or an answer of `c` is in the queue. -/
def Answerable (w : PollSide) (c : Cycle) : Prop :=
  (∃ number, (number, c) ∈ w.fetches) ∨ ∃ i ∈ w.queue, i.answers? = some c

/-- A timer of `c` runs, or a report of it is in the queue. -/
def Wakeable (w : PollSide) (c : Cycle) : Prop :=
  (∃ a ∈ w.alarms, a.what = c) ∨ ∃ i ∈ w.queue, i.tick? = some c

/-- What the phase waits for is on its way. -/
inductive Served (w : PollSide) : Phase → Prop
  | idle : Served w .idle
  | fetching {c : Cycle} (answer : w.Answerable c) : Served w (.polling c true)
  | waiting {c : Cycle} (wakeup : w.Wakeable c) : Served w (.polling c false)
  | stopping {c : Cycle} (answer : w.Answerable c) : Served w (.stopping c)

/-- No timer runs but the one that the store keeps hold of. -/
def OneTimer (w : PollSide) : Prop :=
  w.alarms = [] ∨ ∃ a, w.alarms = [a] ∧ w.heldTimer = some a.number

variable {w w' : PollSide} {c : Cycle} {i : Intent} {queue is : List Intent} {phase : Phase}

/-! ### Operations -/

theorem OneTimer.release (h : w.OneTimer) : w.release.alarms = [] := by
  rcases h with ha | ⟨a, ha, hh⟩
  · simp [PollSide.release, ha]
  · simp [PollSide.release, ha, hh]

theorem OneTimer.fire (h : w.OneTimer) {a : Alarm Cycle} (ha : a ∈ w.alarms) :
    w.alarms = [a] ∧ (w.fire a).OneTimer := by
  rcases h with hn | ⟨b, hb, -⟩
  · rw [hn] at ha
    cases ha
  · rw [hb, List.mem_singleton] at ha
    subst ha
    refine ⟨hb, .inl ?_⟩
    simp [PollSide.fire, hb]

theorem OneTimer.act {action : Poll.Action} (h : w.OneTimer) (ha : w.Act action w') :
    w'.OneTimer := by
  cases ha with
  | fetch number c => exact h
  | abandonFetch => exact h
  | startTimer a =>
    refine .inr ⟨a, ?_, rfl⟩
    show w.release.alarms ++ [a] = [a]
    rw [h.release, List.nil_append]
  | stopTimer => exact .inl h.release

theorem OneTimer.acts {actions : List Poll.Action} (h : w.OneTimer) (hw : Acts w actions w') :
    w'.OneTimer := by
  induction hw with
  | nil => exact h
  | cons ha _ ih => exact ih (h.act ha)

theorem Answerable.mono (h : w.Answerable c) (hf : w.fetches ⊆ w'.fetches)
    (hq : ∀ i ∈ w.queue, i.answers? = some c → i ∈ w'.queue) : w'.Answerable c := by
  rcases h with ⟨number, hm⟩ | ⟨i, hm, hi⟩
  · exact .inl ⟨number, hf hm⟩
  · exact .inr ⟨i, hq i hm hi, hi⟩

theorem Wakeable.mono (h : w.Wakeable c) (ha : w.alarms ⊆ w'.alarms)
    (hq : ∀ i ∈ w.queue, i.tick? = some c → i ∈ w'.queue) : w'.Wakeable c := by
  rcases h with ⟨a, hm, hc⟩ | ⟨i, hm, hi⟩
  · exact .inl ⟨a, ha hm, hc⟩
  · exact .inr ⟨i, hq i hm hi, hi⟩

/-- More may be on its way than before, and what leaves the queue may be of no use. -/
theorem Served.mono (h : w.Served phase) (hf : w.fetches ⊆ w'.fetches)
    (ha : w.alarms ⊆ w'.alarms)
    (hanswer : ∀ c, phase = .polling c true ∨ phase = .stopping c →
      ∀ i ∈ w.queue, i.answers? = some c → i ∈ w'.queue)
    (htick : ∀ c, phase = .polling c false →
      ∀ i ∈ w.queue, i.tick? = some c → i ∈ w'.queue) : w'.Served phase := by
  cases h with
  | idle => exact .idle
  | fetching answer => exact .fetching (answer.mono hf (hanswer _ (.inl rfl)))
  | waiting wakeup => exact .waiting (wakeup.mono ha (htick _ rfl))
  | stopping answer => exact .stopping (answer.mono hf (hanswer _ (.inr rfl)))

theorem Served.enqueue (h : w.Served phase) (is : List Intent) : (w.enqueue is).Served phase :=
  h.mono (List.Subset.refl _) (List.Subset.refl _)
    (fun _ _ _ hm _ => List.mem_append_left _ hm) (fun _ _ _ hm _ => List.mem_append_left _ hm)

/-- A fetch that is answered leaves, and its answer comes to the queue in its place. -/
theorem Served.answer {number : Nat} (h : w.Served phase)
    (hu : ∀ d, (number, d) ∈ w.fetches → d = c) (hi : i.answers? = some c) :
    (w.answer number i).Served phase := by
  have answered : ∀ d, w.Answerable d → (w.answer number i).Answerable d := by
    rintro d (⟨n, hm⟩ | ⟨j, hm, hj⟩)
    · by_cases hn : n = number
      · subst hn
        obtain rfl := hu d hm
        exact .inr ⟨i, by simp [PollSide.answer], hi⟩
      · exact .inl ⟨n, List.mem_filter.mpr ⟨hm, by simpa using hn⟩⟩
    · exact .inr ⟨j, List.mem_append_left _ hm, hj⟩
  cases h with
  | idle => exact .idle
  | fetching answer => exact .fetching (answered _ answer)
  | waiting wakeup =>
    exact .waiting (wakeup.mono (List.Subset.refl _) fun _ hm _ => List.mem_append_left _ hm)
  | stopping answer => exact .stopping (answered _ answer)

/-- A timer that goes off leaves, and its report comes to the queue in its place. -/
theorem Served.fire {a : Alarm Cycle} (h : w.Served phase) (ha : w.alarms = [a]) :
    (w.fire a).Served phase := by
  have queued : ∀ j ∈ w.queue, j ∈ (w.fire a).queue := fun _ hm => List.mem_append_left _ hm
  cases h with
  | idle => exact .idle
  | fetching answer =>
    exact .fetching (answer.mono (List.Subset.refl _) fun j hm _ => queued j hm)
  | waiting wakeup =>
    refine .waiting (.inr ?_)
    rcases wakeup with ⟨b, hm, rfl⟩ | ⟨j, hm, hj⟩
    · rw [ha, List.mem_singleton] at hm
      subst hm
      exact ⟨.timerFired b.what, by simp [PollSide.fire], rfl⟩
    · exact ⟨j, queued j hm, hj⟩
  | stopping answer =>
    exact .stopping (answer.mono (List.Subset.refl _) fun j hm _ => queued j hm)

theorem answerable_fetch (w : PollSide) (number : Nat) (c : Cycle) :
    (w.fetch number c).Answerable c :=
  .inl ⟨number, by simp [fetch]⟩

theorem wakeable_arm (w : PollSide) (a : Alarm Cycle) : (w.arm a).Wakeable a.what :=
  .inl ⟨a, by simp [arm], rfl⟩

/-- Polling takes a turn: it asks for what it waits for from then on, or it waits for what
it has waited for before. -/
theorem Served.turn {p q : Poll} {actions : List Poll.Action} (h : w.Served p.phase)
    (hq : w.queue = i :: queue) (ht : Poll.Turn p i q actions)
    (hw : Acts { w with queue } actions w') : w'.Served q.phase := by
  have rest : ∀ j ∈ w.queue, j ≠ i → j ∈ queue := by
    intro j hj hne
    rw [hq] at hj
    exact (List.mem_cons.mp hj).resolve_left hne
  cases ht with
  | keep answer tick =>
    -- what was applied is not what is waited for, so that is still on its way
    cases hw
    refine h.mono (List.Subset.refl _) (List.Subset.refl _) ?_ ?_
    · rintro c hp j hj hc
      refine rest j hj ?_
      rintro rfl
      exact hp.elim (answer c hc).1 (answer c hc).2
    · rintro c hp j hj hc
      refine rest j hj ?_
      rintro rfl
      exact tick c hc hp
  | opened phase plain =>
    cases hw.one with | fetch number =>
    exact .fetching (answerable_fetch ..)
  | superseded phase plain =>
    obtain ⟨v, -, hw⟩ := hw.two
    cases hw with | fetch number =>
    exact .fetching (answerable_fetch ..)
  | refetched phase noAnswer tick =>
    obtain ⟨v, -, hw⟩ := hw.two
    cases hw with | fetch number =>
    exact .fetching (answerable_fetch ..)
  | answered phase answer =>
    cases hw.one with | startTimer a =>
    exact .waiting (wakeable_arm ..)
  | stopped phase stop =>
    rw [phase] at h
    cases h with | fetching answer =>
    cases hw.one
    -- the fetch that was under way is stale now, but it is not given up
    refine .stopping (answer.mono (List.Subset.refl _) fun j hj hc => rest j hj ?_)
    rintro rfl
    rw [stop.isPlain.1] at hc
    cases hc
  | ended | halted | dropped => exact .idle

end PollSide

namespace Store

open PollSide

variable {admits : Intent → Prop} {s t : Store} {is js : List Intent} {interval : Nat}
  {r : Resource} {i : Intent}

/-- What polling waits for is on its way. -/
structure Served (s : Store) : Prop where
  numbered : s.Numbered
  oneTimer : s.pollSide.OneTimer
  phase : s.pollSide.Served s.state.poll.phase

/-- Every step of every party leaves on its way what polling waits for. -/
theorem Served.step (h : s.Served) (hs : Step admits s is t) : t.Served := by
  have ho := h.numbered.isOpen
  have hone := h.oneTimer
  have hp := h.phase
  suffices ht : t.pollSide.OneTimer ∧ t.pollSide.Served t.state.poll.phase from
    ⟨h.numbered.step hs, ht.1, ht.2⟩
  rw [hs.state_eq]
  cases hs with
  | send hi =>
    rw [pollSide_send ho]
    exact ⟨hone, hp.enqueue _⟩
  | start hm =>
    rw [pollSide_start]
    exact ⟨hone, hp⟩
  | @finish task hm answer =>
    rcases hc : task.request.cycle? with - | c
    · -- the answer has nothing to do with polling
      obtain ⟨js, -, hf⟩ := pollSide_finish_plain h.numbered hm hc answer
      rw [hf]
      exact ⟨hone, hp.enqueue _⟩
    · obtain ⟨i, hi, hf⟩ := pollSide_finish_status ho hc answer
      rw [hf]
      refine ⟨hone, hp.answer ?_ hi⟩
      -- no other fetch has the number of the task
      intro d hd
      obtain ⟨u, hu, hn, hcu⟩ := mem_fetches_iff.mp hd
      rw [h.numbered.task_eq hu hm hn, hc] at hcu
      exact (Option.some.inj hcu).symm
  | fire hm =>
    obtain ⟨ha, hone'⟩ := hone.fire hm
    rw [pollSide_fire ho]
    exact ⟨hone', hp.fire ha⟩
  | advance ms => exact ⟨hone, hp⟩
  | @apply i queue hq =>
    have ha := acts_applyNext hq
    rw [State.replay_cons, State.replay_nil, State.poll_after]
    rw [State.poll_after] at ha
    have hone' : ({ s.pollSide with queue } : PollSide).OneTimer := hone
    exact ⟨hone'.acts ha, hp.turn hq (Poll.turn _ _) ha⟩

theorem Run.served (h : Run admits (initial interval) is s) : s.Served := by
  induction h with
  | refl => exact ⟨numbered_initial interval, .inl rfl, .idle⟩
  | tail _ hstep ih => exact ih.step hstep

/-! ### What is marked -/

/-- A request about `r` that was sent in a run has not been settled: it is under way, or it
was answered and the intent that settles it has not been applied.  That intent was put into
the queue at place `u.queue.length + n`, and `js` have been applied since. -/
inductive Unsettled (admits : Intent → Prop) (interval : Nat) (r : Resource) :
    List Intent → Store → Prop
  | underWay {is : List Intent} {s : Store} {task : Task} (mem : task ∈ s.tasks)
      (about : task.request.resource = r) : Unsettled admits interval r is s
  | answered {before js : List Intent} {u s : Store} {task : Task}
      {answer : task.request.call.Answer} {n : Nat} {i : Intent}
      (sent : Run admits (initial interval) before u) (mem : task ∈ u.tasks)
      (about : task.request.resource = r)
      (since : Run admits (u.finish task answer) js s)
      (intent : (outcome task.request answer)[n]? = some i) (settles : i.settles? = some r)
      (notApplied : js.length ≤ u.queue.length + n) :
      Unsettled admits interval r (before ++ js) s

/-- The intent of an answer is in the queue until it is applied. -/
theorem getElem?_queue_of_answered {u : Store} {task : Task} {answer : task.request.call.Answer}
    {n : Nat} (hu : u.isClosed = false) (since : Run admits (u.finish task answer) js s)
    (intent : (outcome task.request answer)[n]? = some i)
    (notApplied : js.length ≤ u.queue.length + n) :
    s.queue[u.queue.length + n - js.length]? = some i := by
  refine since.getElem?_queue ?_
  rw [queue_finish hu, Nat.add_sub_of_le notApplied,
    List.getElem?_append_right (Nat.le_add_right _ _), Nat.add_sub_cancel_left]
  exact intent

/-- Requests that are under way stay so while an intent is applied, but for status fetches. -/
theorem countP_tasks_applyNext {queue : List Intent} (h : s.Held) (hr : r ≠ .systemStatus)
    (hq : s.queue = i :: queue) :
    s.applyNext.tasks.countP (fun t => t.request.resource = r)
      = s.tasks.countP (fun t => t.request.resource = r)
        + if s.state.sends? i = some r then 1 else 0 := by
  have ha := outstanding_apply (h.update s.state queue s.applied) hr i
  have hqueue := queue_apply { s with queue } i
  rw [applyNext_of_queue hq]
  unfold outstanding at ha
  rw [hqueue] at ha
  simp only at ha
  omega

/-- A request stays unsettled until an intent is applied that settles what it is about. -/
theorem Unsettled.step (h : Unsettled admits interval r is s)
    (hrun : Run admits (initial interval) is s) (hstep : Step admits s js t)
    (hr : r ≠ .systemStatus) (hjs : ∀ i ∈ js, i.settles? ≠ some r) :
    Unsettled admits interval r (is ++ js) t := by
  cases h with
  | @answered before ks u _ task answer n i sent mem about since intent settles notApplied =>
    rw [List.append_assoc]
    refine .answered sent mem about (since.tail hstep) intent settles ?_
    rw [List.length_append]
    -- the intent was not at the front of the queue, because it is not what was applied
    have hi := getElem?_queue_of_answered sent.held.isOpen since intent notApplied
    cases hstep with
    | @apply j queue hq =>
      rcases Nat.lt_or_eq_of_le notApplied with hlt | heq
      · exact hlt
      · rw [heq, Nat.sub_self, hq, List.getElem?_cons_zero] at hi
        cases hi
        exact absurd settles (hjs i (List.mem_singleton_self i))
    | _ => exact notApplied
  | @underWay _ _ task mem about =>
    cases hstep with
    | send _ => exact .underWay ((sameRequests_send s _).tasks ▸ mem) about
    | @start task' _ =>
      have hm : (if task.number = task'.number then { task with begun := true } else task)
          ∈ (s.start task').tasks := List.mem_map_of_mem mem
      refine .underWay hm ?_
      split <;> exact about
    | @finish task' mem' answer =>
      by_cases hn : task.number = task'.number
      · -- the request is answered in this very step
        obtain rfl := hrun.held.task_eq mem mem' hn
        obtain ⟨n, i, hi, hs⟩ := exists_settles_outcome task.request answer
        have hs' : i.settles? = some r := hs.trans (congrArg some about)
        exact .answered hrun mem about .refl hi hs' (Nat.zero_le _)
      · refine .underWay ?_ about
        rw [show (s.finish task' answer).tasks = _ from (sameRequests_sendAll _ _).tasks]
        exact List.mem_filter.mpr ⟨mem, by simpa using hn⟩
    | @fire alarm _ =>
      let s' : Store := { s with timers := s.timers.cancel alarm.number }
      have hs' := sameRequests_send (s'.note .fired) (.timerFired alarm.what)
      exact .underWay (hs'.tasks ▸ mem) about
    | advance ms => exact .underWay mem about
    | apply hq =>
      -- of the requests about the resource none is given up
      have hpos : 0 < s.applyNext.tasks.countP (fun t => t.request.resource = r) := by
        rw [countP_tasks_applyNext hrun.held hr hq]
        exact Nat.add_pos_left (List.countP_pos_iff.mpr ⟨task, mem, decide_eq_true about⟩) _
      obtain ⟨v, hv, hvr⟩ := List.countP_pos_iff.mp hpos
      exact .underWay hv (of_decide_eq_true hvr)

/-- A resource is marked only while a request about it is unsettled. -/
theorem Run.unsettled_of_loading (h : Run admits (initial interval) is s)
    (hl : s.state.loading.get r = true) : Unsettled admits interval r is s := by
  induction h with
  | refl =>
    rw [show (initial interval).state.loading.get r = false from PerResource.get_const ..] at hl
    cases hl
  | @tail is js t u hrun hstep ih =>
    have hr : r ≠ .systemStatus := by
      rintro rfl
      rw [(hrun.tail hstep).state_eq] at hl
      exact absurd hl (Bool.eq_false_iff.mp (State.coherent_initial.replay _).loading)
    rw [hstep.state_eq] at hl
    cases hstep with
    | @apply i queue hq =>
      -- the mark was there before, or the intent sets it
      obtain ⟨hs, hl | hsend⟩ := State.loading_or_sends?_of_after hr hl
      · exact (ih hl).step hrun (.apply hq) hr (List.forall_mem_singleton.mpr hs)
      · -- the request of this very intent
        have hpos : 0 < t.applyNext.tasks.countP (fun t => t.request.resource = r) := by
          rw [countP_tasks_applyNext hrun.held hr hq, if_pos hsend]
          exact Nat.succ_pos _
        obtain ⟨v, hv, hvr⟩ := List.countP_pos_iff.mp hpos
        exact .underWay hv (of_decide_eq_true hvr)
    | send hi => exact (ih hl).step hrun (.send hi) hr (List.forall_mem_nil _)
    | start hm => exact (ih hl).step hrun (.start hm) hr (List.forall_mem_nil _)
    | finish hm answer => exact (ih hl).step hrun (.finish hm answer) hr (List.forall_mem_nil _)
    | fire hm => exact (ih hl).step hrun (.fire hm) hr (List.forall_mem_nil _)
    | advance ms => exact (ih hl).step hrun (.advance ms) hr (List.forall_mem_nil _)

/-! ### At rest -/

theorem Unsettled.tasks_or_queue (h : Unsettled admits interval r is s) :
    s.tasks ≠ [] ∨ s.queue ≠ [] := by
  cases h with
  | underWay mem => exact .inl (List.ne_nil_of_mem mem)
  | answered sent _ _ since intent _ notApplied =>
    have hi := getElem?_queue_of_answered sent.held.isOpen since intent notApplied
    exact .inr (List.ne_nil_of_mem (List.mem_of_getElem? hi))

theorem Served.phase_eq_idle (h : s.Served) (ht : s.tasks = []) (ha : s.timers.pending = [])
    (hq : s.queue = []) : s.state.poll.phase = .idle := by
  have hp := h.phase
  have answerable : ∀ c, ¬s.pollSide.Answerable c := by
    rintro c (⟨number, hm⟩ | ⟨i, hm, -⟩)
    · obtain ⟨u, hu, -⟩ := mem_fetches_iff.mp hm
      exact List.ne_nil_of_mem hu ht
    · exact List.ne_nil_of_mem hm hq
  generalize s.state.poll.phase = phase at hp ⊢
  cases hp with
  | idle => rfl
  | fetching answer => exact absurd answer (answerable _)
  | stopping answer => exact absurd answer (answerable _)
  | waiting wakeup =>
    rcases wakeup with ⟨a, hm, -⟩ | ⟨i, hm, -⟩
    · exact absurd ha (List.ne_nil_of_mem hm)
    · exact absurd hq (List.ne_nil_of_mem hm)

/-- In every run, a resource is marked only while a request about it is unsettled.  So when
no request is under way, no timer runs and the queue is empty, nothing is marked, and polling
waits for nothing. -/
theorem Run.nothing_awaited_at_rest (h : Run admits (initial interval) is s) :
    (∀ r, s.state.loading.get r = true → Unsettled admits interval r is s) ∧
    (s.tasks = [] → s.timers.pending = [] → s.queue = [] →
      (∀ r, s.state.loading.get r = false) ∧ s.state.poll.phase = .idle) := by
  refine ⟨fun r hl => h.unsettled_of_loading hl, ?_⟩
  intro ht ha hq
  refine ⟨fun r => Bool.eq_false_iff.mpr fun hl => ?_, h.served.phase_eq_idle ht ha hq⟩
  rcases (h.unsettled_of_loading hl).tasks_or_queue with hne | hne
  · exact hne ht
  · exact hne hq

/-- With an empty queue, an intent that is sent is the next one that is applied. -/
theorem Run.send_applyNext (h : Run admits (initial interval) is s) (hq : s.queue = [])
    (hi : admits i) :
    Run admits (initial interval) (is ++ [i]) (s.send i).applyNext ∧
      (s.send i).applyNext.queue = [] := by
  have hs : (s.send i).queue = [i] := by
    rw [show (s.send i).queue = s.queue ++ [i] from
      congrArg PollSide.queue (pollSide_send h.held.isOpen i), hq]
    rfl
  refine ⟨?_, queue_applyNext hs⟩
  simpa using (h.tail (.send hi)).tail (.apply hs)

/-- With an empty queue, an answer that comes to one intent is the next one that is applied. -/
theorem Run.finish_applyNext (h : Run admits (initial interval) is s) (hq : s.queue = [])
    (task : Task) (answer : task.request.call.Answer) (hm : task ∈ s.tasks)
    (ho : outcome task.request answer = [i]) :
    Run admits (initial interval) (is ++ [i]) (s.finish task answer).applyNext ∧
      (s.finish task answer).applyNext.queue = [] := by
  have hs : (s.finish task answer).queue = [i] := by
    rw [queue_finish h.held.isOpen, hq, ho]
    rfl
  refine ⟨?_, queue_applyNext hs⟩
  simpa using (h.tail (.finish hm answer)).tail (.apply hs)

/-- Polling is stopped during a fetch, and a caller makes up the answer of a request that is
under way: the devices are fetched once more, so there is a mark again, and the store comes
to rest when all three requests have been answered. -/
theorem nothing_awaited_once_answered :
    let status : Task := { number := 0, request := .systemStatus ⟨0⟩ }
    let devices (number : Nat) : Task := { number, request := .devices }
    let wishes : List Intent :=
      [.fetchStatus, .stopPolling, .fetchDevices, .devicesFetched [], .fetchDevices]
    let stopped := (((initial 5).send .fetchStatus).applyNext.send .stopPolling).applyNext
    let forged := ((stopped.send .fetchDevices).applyNext.send (.devicesFetched [])).applyNext
    let asked := (forged.send .fetchDevices).applyNext
    let settled := (asked.finish (devices 1) (.ok [])).applyNext
    let resting :=
      ((settled.finish status (.ok {})).applyNext.finish (devices 2) (.ok [])).applyNext
    (asked.state.loading.get .devices = true ∧ Unsettled (· ∈ wishes) 5 .devices wishes asked) ∧
      (∀ r, resting.state.loading.get r = false) ∧ resting.state.poll.phase = .idle := by
  intro status devices wishes stopped forged asked settled resting
  -- each intent is applied before the next one is sent, so the queue is empty in between
  have start : Run (· ∈ wishes) (initial 5) [] (initial 5) := .refl
  obtain ⟨h, hq⟩ := start.send_applyNext (i := .fetchStatus) rfl (by simp [wishes])
  obtain ⟨h, hq⟩ := h.send_applyNext (i := .stopPolling) hq (by simp [wishes])
  obtain ⟨h, hq⟩ := h.send_applyNext (i := .fetchDevices) hq (by simp [wishes])
  obtain ⟨h, hq⟩ := h.send_applyNext (i := .devicesFetched []) hq (by simp [wishes])
  obtain ⟨hasked, hq⟩ := h.send_applyNext (i := .fetchDevices) hq (by simp [wishes])
  obtain ⟨h, hq⟩ := hasked.finish_applyNext hq (devices 1) (.ok []) (by decide +kernel) rfl
  obtain ⟨h, hq⟩ := h.finish_applyNext hq status (.ok {}) (by decide +kernel) rfl
  obtain ⟨hresting, hq⟩ := h.finish_applyNext hq (devices 2) (.ok []) (by decide +kernel) rfl
  have hl : asked.state.loading.get .devices = true := by decide +kernel
  have hu := (Run.nothing_awaited_at_rest (s := asked) hasked).1 .devices hl
  have ht : resting.tasks = [] := by decide +kernel
  have ha : resting.timers.pending = [] := by decide +kernel
  exact ⟨⟨hl, hu⟩, (Run.nothing_awaited_at_rest (s := resting) hresting).2 ht ha hq⟩

end Store

end RunControl
