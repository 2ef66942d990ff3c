/-
RunControl/Proofs/Store/PollSide.lean

The part of a store that polling works on: the queue, the status fetches that
are under way, the timers that run, and what the store keeps hold of
(`Store.pollSide`).  Every operation of a store is one of few on this part, or
leaves it alone, so statements about polling are proved over `PollSide` and need
not look into a store.

What polling asks for when an intent is applied is carried out by
`PollSide.Acts`; `Store.acts_applyNext` says so for the whole of `applyNext`.
The numbers that fetches and timers get are left open there; it is enough that
the store holds on to the newest.
-/
import RunControl.Proofs.Store.Numbered

namespace RunControl

/-- The part of a store that polling works on. -/
@[ext]
structure PollSide where
  queue : List Intent
  /-- The numbers and the cycles of the status fetches that are under way. -/
  fetches : List (Nat × Cycle)
  heldFetch : Option Nat
  alarms : List (Alarm Cycle)
  heldTimer : Option Nat

namespace PollSide

/-! ### Operations -/

/-- Intents come to the end of the queue. -/
def enqueue (w : PollSide) (is : List Intent) : PollSide :=
  { w with queue := w.queue ++ is }

/-- A status fetch is sent; the store keeps hold of it. -/
def fetch (w : PollSide) (number : Nat) (c : Cycle) : PollSide :=
  { w with fetches := w.fetches ++ [(number, c)], heldFetch := some number }

/-- The held status fetch is given up. -/
def abandon (w : PollSide) : PollSide :=
  { w with
    fetches := w.fetches.filter fun f => some f.1 != w.heldFetch
    heldFetch := none }

/-- The held timer is stopped. -/
def release (w : PollSide) : PollSide :=
  { w with
    alarms := w.alarms.filter fun a => some a.number != w.heldTimer
    heldTimer := none }

/-- A timer is started in place of the held one. -/
def arm (w : PollSide) (a : Alarm Cycle) : PollSide :=
  { w.release with
    alarms := w.release.alarms ++ [a]
    heldTimer := some a.number }

/-- A status fetch is answered. -/
def answer (w : PollSide) (number : Nat) (i : Intent) : PollSide :=
  { w with
    queue := w.queue ++ [i]
    fetches := w.fetches.filter fun f => f.1 != number }

/-- A timer goes off. -/
def fire (w : PollSide) (a : Alarm Cycle) : PollSide :=
  { w with
    queue := w.queue ++ [.timerFired a.what]
    alarms := w.alarms.filter fun b => b.number != a.number }

/-- What an action of polling makes of `w`, whatever number comes next. -/
inductive Act (w : PollSide) : Poll.Action → PollSide → Prop
  | fetch (number : Nat) (c : Cycle) : Act w (.fetch c) (w.fetch number c)
  | abandonFetch : Act w .abandonFetch w.abandon
  | startTimer (a : Alarm Cycle) : Act w (.startTimer a.what) (w.arm a)
  | stopTimer : Act w .stopTimer w.release

/-- What a list of actions makes of `w`. -/
inductive Acts : PollSide → List Poll.Action → PollSide → Prop
  | nil (w : PollSide) : Acts w [] w
  | cons {w w' w'' : PollSide} {a : Poll.Action} {as : List Poll.Action} :
      Act w a w' → Acts w' as w'' → Acts w (a :: as) w''

variable {w w' : PollSide}

theorem Acts.one {a : Poll.Action} (h : Acts w [a] w') : Act w a w' := by
  cases h with | cons h hn =>
  cases hn
  exact h

theorem Acts.two {a b : Poll.Action} (h : Acts w [a, b] w') : ∃ v, Act w a v ∧ Act v b w' := by
  cases h with | cons h hb =>
  exact ⟨_, h, hb.one⟩

/-- Actions put nothing into the queue and take nothing off it. -/
theorem Acts.queue_eq {as : List Poll.Action} (h : Acts w as w') : w'.queue = w.queue := by
  induction h with
  | nil w => rfl
  | cons h _ ih =>
    rw [ih]
    cases h <;> rfl

end PollSide

namespace Store

/-- The number and the cycle of a task that is a status fetch. -/
def fetchOf? (t : Task) : Option (Nat × Cycle) :=
  t.request.cycle?.map fun c => (t.number, c)

/-- The part of a store that polling works on. -/
def pollSide (s : Store) : PollSide where
  queue := s.queue
  fetches := s.tasks.filterMap fetchOf?
  heldFetch := s.heldFetch
  alarms := s.timers.pending
  heldTimer := s.heldTimer

theorem mem_fetches_iff {s : Store} {number : Nat} {c : Cycle} :
    (number, c) ∈ s.pollSide.fetches ↔
      ∃ t ∈ s.tasks, t.number = number ∧ t.request.cycle? = some c := by
  simp only [pollSide, List.mem_filterMap, fetchOf?, Option.map_eq_some_iff, Prod.mk.injEq]
  constructor
  · rintro ⟨t, ht, c', hc, rfl, rfl⟩
    exact ⟨t, ht, rfl, hc⟩
  · rintro ⟨t, ht, rfl, hc⟩
    exact ⟨t, ht, c, hc, rfl, rfl⟩

/-! ### Operations that leave polling alone -/

@[simp] theorem pollSide_publish (s : Store) : s.publish.pollSide = s.pollSide := by
  unfold publish; split <;> rfl

@[simp] theorem pollSide_start (s : Store) (task : Task) :
    (s.start task).pollSide = s.pollSide := by
  -- a task that has begun keeps its number and its request
  have hf : (fetchOf? ∘ fun t : Task =>
      if t.number = task.number then { t with begun := true } else t) = fetchOf? := by
    funext t
    simp only [Function.comp_apply]
    split <;> rfl
  unfold start pollSide
  simp only [note, List.filterMap_map, hf]

theorem pollSide_issue_of_cycle?_eq_none (s : Store) {q : Request} (h : q.cycle? = none) :
    (s.issue q).pollSide = s.pollSide := by
  unfold issue pollSide
  simp [fetchOf?, h]

/-! ### Operations of polling -/

theorem pollSide_issue_systemStatus (s : Store) (c : Cycle) :
    (s.issue (.systemStatus c)).pollSide = s.pollSide.fetch s.sent c := by
  unfold issue pollSide PollSide.fetch
  simp [fetchOf?, Request.cycle?]

/-- Tasks may be dropped by their numbers before or after the fetches are picked. -/
theorem filterMap_fetchOf?_filter (p : Nat → Bool) (ts : List Task) :
    (ts.filter fun t => p t.number).filterMap fetchOf?
      = (ts.filterMap fetchOf?).filter fun f => p f.1 := by
  induction ts with
  | nil => rfl
  | cons t ts ih =>
    rcases hc : t.request.cycle? with - | c <;> cases hp : p t.number <;>
      simp [fetchOf?, hc, hp, ← ih]

theorem pollSide_releaseFetch (s : Store) : s.releaseFetch.pollSide = s.pollSide.abandon := by
  unfold releaseFetch PollSide.abandon
  split
  · next h =>
    have hn : ∀ m : Nat, (some m != none) = true := fun _ => rfl
    simp only [pollSide, h, hn, List.filter_true]
  · next n h =>
    have hf := filterMap_fetchOf?_filter (· != n) s.tasks
    simp only [pollSide, hf, h]
    rfl

theorem pollSide_releaseTimer (s : Store) : s.releaseTimer.pollSide = s.pollSide.release := by
  unfold releaseTimer PollSide.release
  split
  · next h =>
    have hn : ∀ m : Nat, (some m != none) = true := fun _ => rfl
    simp only [pollSide, h, hn, List.filter_true]
  · next n h =>
    simp only [pollSide, note, Alarms.cancel, h]
    rfl

theorem pollSide_arm (s : Store) (c : Cycle) :
    ∃ a, a.what = c ∧ (s.arm c).pollSide = s.pollSide.arm a := by
  have hr := pollSide_releaseTimer (s.note (.armed s.interval))
  generalize hs : (s.note (.armed s.interval)).releaseTimer = s' at hr
  let a : Alarm Cycle := { number := s'.timers.count, due := s'.timers.now + s.interval, what := c }
  refine ⟨a, rfl, ?_⟩
  calc (s.arm c).pollSide
      = { s'.pollSide with
          alarms := s'.pollSide.alarms ++ [a], heldTimer := some a.number } := by
        rw [arm, hs]
        rfl
    _ = s.pollSide.arm a := by
        rw [hr]
        rfl

theorem pollSide_send {s : Store} (h : s.isClosed = false) (i : Intent) :
    (s.send i).pollSide = s.pollSide.enqueue [i] := by
  simp only [send, h, Bool.false_eq_true, if_false]
  rfl

theorem pollSide_sendAll {s : Store} (h : s.isClosed = false) (is : List Intent) :
    (s.sendAll is).pollSide = s.pollSide.enqueue is := by
  induction is generalizing s with
  | nil => simp [sendAll, PollSide.enqueue]
  | cons i is ih =>
    have hs : (s.send i).isClosed = false := by rw [isClosed_send, h]
    calc (s.sendAll (i :: is)).pollSide
        = (s.send i).pollSide.enqueue is := ih hs
      _ = s.pollSide.enqueue (i :: is) := by
          rw [pollSide_send h]
          simp [PollSide.enqueue]

theorem pollSide_fire {s : Store} (h : s.isClosed = false) (a : Alarm Cycle) :
    (s.fire a).pollSide = s.pollSide.fire a := by
  let s' : Store := { s with timers := s.timers.cancel a.number }
  have hs : (s'.note .fired).isClosed = false := h
  exact pollSide_send hs (.timerFired a.what)

/-- A task that is answered leaves, and the intents it comes to are sent. -/
theorem pollSide_finish {s : Store} (h : s.isClosed = false) (task : Task)
    (answer : task.request.call.Answer) :
    (s.finish task answer).pollSide
      = { s.pollSide with
          fetches := s.pollSide.fetches.filter fun f => f.1 != task.number }.enqueue
        (outcome task.request answer) := by
  have hf := filterMap_fetchOf?_filter (· != task.number) s.tasks
  unfold finish
  rw [pollSide_sendAll (s := { s with tasks := s.tasks.filter (·.number != task.number) }) h]
  simp only [pollSide, hf]

theorem queue_finish {s : Store} (h : s.isClosed = false) (task : Task)
    (answer : task.request.call.Answer) :
    (s.finish task answer).queue = s.queue ++ outcome task.request answer :=
  congrArg PollSide.queue (pollSide_finish h task answer)

/-- The answer of a status fetch. -/
theorem pollSide_finish_status {s : Store} (h : s.isClosed = false) {task : Task} {c : Cycle}
    (hc : task.request.cycle? = some c) (answer : task.request.call.Answer) :
    ∃ i, i.answers? = some c ∧
      (s.finish task answer).pollSide = s.pollSide.answer task.number i := by
  have ho : ∃ i, i.answers? = some c ∧ outcome task.request answer = [i] := by
    obtain ⟨number, request, begun⟩ := task
    cases request with
    | systemStatus c' =>
      obtain rfl : c' = c := Option.some.inj hc
      cases answer with
      | ok status => exact ⟨.statusFetched c' status, rfl, rfl⟩
      | error e => exact ⟨.statusFailed c' (.ofFault e), rfl, rfl⟩
    | _ => cases hc
  obtain ⟨i, hi, ho⟩ := ho
  refine ⟨i, hi, ?_⟩
  rw [pollSide_finish h, ho]
  rfl

/-- A request other than a status fetch comes to intents that are no reports to
polling. -/
theorem isPlain_of_mem_outcome {q : Request} (hq : q.cycle? = none) (answer : q.call.Answer) :
    ∀ i ∈ outcome q answer, i.IsPlain := by
  have one : ∀ i : Intent, i.IsPlain → ∀ k ∈ [i], k.IsPlain := by simp
  have two : ∀ i j : Intent, i.IsPlain → j.IsPlain → ∀ k ∈ [i, j], k.IsPlain := by simp +contextual
  have failed : ∀ r e, ∀ k ∈ failureIntents r e, k.IsPlain := by
    intro r e
    simp only [failureIntents]
    split
    · exact two _ _ ⟨rfl, rfl⟩ ⟨rfl, rfl⟩
    · exact one _ ⟨rfl, rfl⟩
  cases q with
  | systemStatus c => cases hq
  | interfaces | systemConfig | devices | riskProfiles | systemVersion | startRun _ =>
    cases answer with
    | ok a => exact one _ ⟨rfl, rfl⟩
    | error e => exact failed _ e
  | stopRun | createDevice _ | editDevice _ _ | deleteDevice _ =>
    cases answer with
    | ok a => exact two _ _ ⟨rfl, rfl⟩ ⟨rfl, rfl⟩
    | error e => exact failed _ e

/-- The answer of a request other than a status fetch. -/
theorem pollSide_finish_plain {s : Store} (h : s.Numbered) {task : Task} (ht : task ∈ s.tasks)
    (hc : task.request.cycle? = none) (answer : task.request.call.Answer) :
    ∃ is : List Intent, (∀ i ∈ is, i.IsPlain) ∧
      (s.finish task answer).pollSide = s.pollSide.enqueue is := by
  refine ⟨_, isPlain_of_mem_outcome hc answer, ?_⟩
  rw [pollSide_finish h.isOpen]
  -- no fetch has the number of the task that leaves
  have hf : (s.pollSide.fetches.filter fun f => f.1 != task.number) = s.pollSide.fetches := by
    refine List.filter_eq_self.mpr ?_
    rintro ⟨number, c⟩ hm
    obtain ⟨u, hu, rfl, hcu⟩ := mem_fetches_iff.mp hm
    rw [bne_iff_ne]
    intro hn
    rw [h.task_eq hu ht hn, hc] at hcu
    cases hcu
  rw [hf]

/-! ### Applying an intent -/

/-- What polling asks for is carried out on its side of the store alone. -/
theorem act_carryOut (s : Store) (a : Poll.Action) :
    s.pollSide.Act a (s.carryOut (.ofAction a)).pollSide := by
  cases a with
  | fetch c =>
    have h : (s.carryOut (.ofAction (.fetch c))).pollSide = s.pollSide.fetch s.sent c :=
      pollSide_issue_systemStatus s c
    exact h ▸ .fetch s.sent c
  | abandonFetch =>
    have h : (s.carryOut (.ofAction .abandonFetch)).pollSide = s.pollSide.abandon :=
      pollSide_releaseFetch s
    exact h ▸ .abandonFetch
  | startTimer c =>
    obtain ⟨a, rfl, h⟩ := pollSide_arm s c
    change s.pollSide.Act _ (s.arm a.what).pollSide
    exact h ▸ .startTimer a
  | stopTimer =>
    have h : (s.carryOut (.ofAction .stopTimer)).pollSide = s.pollSide.release :=
      pollSide_releaseTimer s
    exact h ▸ .stopTimer

theorem acts_foldl_carryOut (s : Store) (as : List Poll.Action) :
    PollSide.Acts s.pollSide as ((as.map Effect.ofAction).foldl carryOut s).pollSide := by
  induction as generalizing s with
  | nil => exact .nil _
  | cons a as ih => exact .cons (act_carryOut s a) (ih _)

/-- When an intent is applied, it leaves the queue and what polling asks for is
carried out; nothing else happens to polling. -/
theorem acts_applyNext {s : Store} {i : Intent} {queue : List Intent} (h : s.queue = i :: queue) :
    PollSide.Acts { s.pollSide with queue }
      (Poll.actions s.state.poll (s.state.after i).poll) s.applyNext.pollSide := by
  rw [applyNext_of_queue h]
  unfold apply State.effects
  rw [List.foldl_append]
  generalize hs : publish { s with queue, state := s.state.after i, applied := s.applied + 1 } = t
  have ht : t.pollSide = { s.pollSide with queue } := by
    rw [← hs, pollSide_publish]
    rfl
  have hr : (((s.state.request? (s.state.after i) i).map Effect.send).toList.foldl
      carryOut t).pollSide = t.pollSide := by
    cases hq : s.state.request? (s.state.after i) i with
    | none => rfl
    | some q => exact pollSide_issue_of_cycle?_eq_none t (State.cycle?_of_request? hq)
  rw [← ht, ← hr]
  exact acts_foldl_carryOut _ _

end Store

end RunControl
