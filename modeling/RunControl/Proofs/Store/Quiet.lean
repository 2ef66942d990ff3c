/-
RunControl/Proofs/Store/Quiet.lean

No answer of a status fetch is left behind.  The queue is first in, first out, and a
fetch is sent only when no other one runs; so behind the answer that the phase waits for
there is no answer of an older cycle, and when it is applied no answer at all is left
(`PollSide.Quiet`).  In a phase that waits for no answer the queue holds none
(`Run.quiet`).
-/
import RunControl.Proofs.Store.Waits

namespace RunControl

namespace PollSide

open Intent

/-- No answer is left in the queue when the phase waits for none; and when it waits for
one, no other answer will come behind that. -/
inductive Quiet (queue : List Intent) : Phase → Prop
  | idle (noAnswer : ∀ i ∈ queue, i.answers? = none) : Quiet queue .idle
  | waiting {c : Cycle} (noAnswer : ∀ i ∈ queue, i.answers? = none) :
      Quiet queue (.polling c false)
  | fetching {c : Cycle} (last : BehindAnswer (·.answers? = none) queue c) :
      Quiet queue (.polling c true)
  | stopping {c : Cycle} (last : BehindAnswer (·.answers? = none) queue c) :
      Quiet queue (.stopping c)

variable {w : PollSide} {phase : Phase} {p q : Poll} {i : Intent} {queue is : List Intent}
  {c : Cycle}

theorem Quiet.append (h : Quiet queue phase) (hi : ∀ i ∈ is, i.answers? = none) :
    Quiet (queue ++ is) phase := by
  cases h with
  | idle noAnswer => exact .idle (List.forall_mem_append.mpr ⟨noAnswer, hi⟩)
  | waiting noAnswer => exact .waiting (List.forall_mem_append.mpr ⟨noAnswer, hi⟩)
  | fetching last => exact .fetching (last.append hi)
  | stopping last => exact .stopping (last.append hi)

theorem Quiet.tail (h : Quiet (i :: queue) phase) : Quiet queue phase := by
  cases h with
  | idle noAnswer => exact .idle (List.forall_mem_cons.mp noAnswer).2
  | waiting noAnswer => exact .waiting (List.forall_mem_cons.mp noAnswer).2
  | fetching last => exact .fetching last.tail
  | stopping last => exact .stopping last.tail

theorem Answering.noAnswer (h : w.Answering c) {f : Nat × Cycle} (hm : f ∈ w.fetches) :
    countReports answers? w.queue c = 0 := by
  rcases h with ⟨-, ha⟩ | ⟨hf, -⟩
  · exact ha
  · rw [hf] at hm
    cases hm

/-- The answer of the fetch that runs is the first one of its cycle. -/
theorem Quiet.answer {f : Nat × Cycle} (h : w.Fits phase) (hm : f ∈ w.fetches) (i : Intent) :
    Quiet (w.queue ++ [i]) phase := by
  have last : ∀ c, w.Answering c →
      BehindAnswer (·.answers? = none) (w.queue ++ [i]) c := by
    intro c ha
    have hn := ha.noAnswer hm
    refine List.pairwise_append.mpr ⟨BehindAnswer.of_noAnswer hn, List.pairwise_singleton _ _, ?_⟩
    exact fun j hj _ _ hc => absurd hc (countReports_eq_zero.mp hn j hj)
  cases h with
  | idle fetches | waiting fetches =>
    rw [fetches] at hm
    cases hm
  | fetching answering => exact .fetching (last _ answering)
  | stopping answering => exact .stopping (last _ answering)

/-- Polling takes a turn. -/
theorem Quiet.turn {as : List Poll.Action} (h : Quiet (i :: queue) p.phase)
    (hfresh : countReports answers? (i :: queue) ⟨p.opened⟩ = 0) (ht : Poll.Turn p i q as) :
    Quiet queue q.phase := by
  -- a cycle that is opened now has no answer in the queue yet
  have hnew : BehindAnswer (·.answers? = none) queue ⟨p.opened⟩ :=
    .of_noAnswer (countReports_tail hfresh)
  cases ht with
  | keep => exact h.tail
  | opened | superseded => exact .fetching hnew
  | refetched phase =>
    rw [phase] at h
    cases h with | waiting noAnswer =>
    refine .fetching (.of_noAnswer (countReports_eq_zero.mpr fun j hj => ?_))
    simp [noAnswer j (List.mem_cons_of_mem _ hj)]
  | answered phase answer =>
    rw [phase] at h
    cases h with | fetching last => exact .waiting (last.forall_tail answer)
  | ended phase answer =>
    rw [phase] at h
    cases h with | fetching last => exact .idle (last.forall_tail answer)
  | stopped phase =>
    rw [phase] at h
    cases h with | fetching last => exact .stopping last.tail
  | halted phase =>
    rw [phase] at h
    cases h with | waiting noAnswer => exact .idle (List.forall_mem_cons.mp noAnswer).2
  | dropped phase answer =>
    rw [phase] at h
    cases h with | stopping last => exact .idle (last.forall_tail answer)

end PollSide

namespace Store

open PollSide

variable {s t : Store} {is : List Intent} {interval : Nat}

/-- Each step keeps the queue quiet: callers and alarms send no answers, and the answer of a status
fetch is sent only while the poll waits for it. -/
theorem Step.quiet (h : Step Intent.IsPlain s is t) (hs : s.Sound)
    (hq : Quiet s.queue s.state.poll.phase) : Quiet t.queue t.state.poll.phase := by
  have ho := hs.numbered.isOpen
  rw [h.state_eq]
  cases h with
  | @send i hi =>
    have hp : (s.send i).queue = s.queue ++ [i] := congrArg PollSide.queue (pollSide_send ho i)
    rw [hp]
    exact hq.append (List.forall_mem_singleton.mpr hi.1)
  | start _ => exact hq
  | @finish task hm answer =>
    rcases hc : task.request.cycle? with - | c
    · -- a request that is not about the status answers with nothing that the poll looks at
      obtain ⟨js, hj, hf⟩ := pollSide_finish_plain hs.numbered hm hc answer
      have hp : (s.finish task answer).queue = s.queue ++ js := congrArg PollSide.queue hf
      rw [hp]
      exact hq.append fun j hj' => (hj j hj').1
    · -- the one fetch in flight puts its answer last
      obtain ⟨i, -, hf⟩ := pollSide_finish_status ho hc answer
      have hp : (s.finish task answer).queue = s.queue ++ [i] := congrArg PollSide.queue hf
      rw [hp]
      exact .answer hs.polling.fits (mem_fetches_iff.mpr ⟨task, hm, rfl, hc⟩) i
  | @fire alarm _ =>
    have hp : (s.fire alarm).queue = s.queue ++ [.timerFired alarm.what] :=
      congrArg PollSide.queue (pollSide_fire ho alarm)
    rw [hp]
    exact hq.append (List.forall_mem_singleton.mpr rfl)
  | advance ms => exact hq
  | @apply i queue hi =>
    -- what is left of the queue holds no answer to the fetch that the intent may begin
    have hfresh := hs.polling.fresh
    change Intent.countReports _ s.queue _ = 0 at hfresh
    rw [hi] at hq hfresh
    rw [queue_applyNext hi, State.replay_cons, State.replay_nil, State.poll_after]
    exact hq.turn hfresh (Poll.turn _ _)

theorem Run.quiet (h : Run Intent.IsPlain (initial interval) is s)
    (hn : (State.cycles {} is).length < UInt64.size) : Quiet s.queue s.state.poll.phase := by
  induction h with
  | refl => exact .idle (List.forall_mem_nil _)
  | tail hr hs ih =>
    have hn' := State.length_cycles_lt_of_append hn
    exact hs.quiet (hr.sound hn') (ih hn')

end Store

end RunControl
