/-
RunControl/Proofs/Store/Run.lean

The store among its parties.  A `Step` is one operation of one of them: a caller
sends an intent, the client is called or answers, the timer goes off, time goes
by, or the store applies the first intent of its queue.  The parties take turns
in any order: requests may be answered in any order, and a timer may go off at
any time, early or late.  What holds of every run here therefore holds of the
runs of a real clock as well.

Callers send the intents that `admits` allows; what requests and timers put into
the queue is up to the store alone.  A `Run` keeps the list of the intents that
were applied in it, and `Run.state_eq` says that nothing else than these intents
has changed the state.
-/
import RunControl.Proofs.Cycles
import RunControl.Store

namespace RunControl

namespace Store

/-- A store at which nothing has happened yet. -/
def initial (interval : Nat) : Store where
  interval := interval

/-- One operation of one of the parties, with the intents that are applied in it. -/
inductive Step (admits : Intent → Prop) (s : Store) : List Intent → Store → Prop
  /-- A caller sends an intent. -/
  | send {i : Intent} (h : admits i) : Step admits s [] (s.send i)
  /-- The client is called for a request. -/
  | start {task : Task} (h : task ∈ s.tasks) : Step admits s [] (s.start task)
  /-- A request is answered. -/
  | finish {task : Task} (h : task ∈ s.tasks) (answer : task.request.call.Answer) :
      Step admits s [] (s.finish task answer)
  /-- A timer goes off. -/
  | fire {alarm : Alarm Cycle} (h : alarm ∈ s.timers.pending) : Step admits s [] (s.fire alarm)
  /-- Time goes by. -/
  | advance (ms : Nat) : Step admits s [] { s with timers := s.timers.advance ms }
  /-- The store applies the first intent of its queue. -/
  | apply {i : Intent} {queue : List Intent} (h : s.queue = i :: queue) :
      Step admits s [i] s.applyNext

/-- A run, with the intents that are applied in it. -/
inductive Run (admits : Intent → Prop) (s : Store) : List Intent → Store → Prop
  | refl : Run admits s [] s
  | tail {is js : List Intent} {t u : Store} :
      Run admits s is t → Step admits t js u → Run admits s (is ++ js) u

variable {admits : Intent → Prop} {s t u : Store} {is js : List Intent}

theorem Run.trans (h : Run admits s is t) (h' : Run admits t js u) :
    Run admits s (is ++ js) u := by
  induction h' with
  | refl => simpa using h
  | tail _ hstep ih =>
    rw [← List.append_assoc]
    exact ih.tail hstep

theorem Run.mono {admits' : Intent → Prop} (ha : ∀ i, admits i → admits' i)
    (h : Run admits s is t) : Run admits' s is t := by
  induction h with
  | refl => exact .refl
  | tail _ hstep ih =>
    refine ih.tail ?_
    cases hstep with
    | send hi => exact .send (ha _ hi)
    | start ht => exact .start ht
    | finish ht answer => exact .finish ht answer
    | fire hm => exact .fire hm
    | advance ms => exact .advance ms
    | apply hq => exact .apply hq

theorem Run.sendAll (h : ∀ i ∈ is, admits i) : Run admits s [] (s.sendAll is) := by
  induction is generalizing s with
  | nil => exact .refl
  | cons i is ih =>
    rw [List.forall_mem_cons] at h
    exact (Run.refl.tail (.send h.1)).trans (ih h.2)

/-! ### The state follows the intents that are applied -/

@[simp] theorem state_send (s : Store) (i : Intent) : (s.send i).state = s.state := by
  unfold send; split <;> rfl

theorem isClosed_send (s : Store) (i : Intent) : (s.send i).isClosed = s.isClosed := by
  unfold send; split <;> rfl

theorem isClosed_sendAll (s : Store) (is : List Intent) :
    (s.sendAll is).isClosed = s.isClosed := by
  induction is generalizing s with
  | nil => rfl
  | cons i is ih => exact (ih (s.send i)).trans (isClosed_send s i)

@[simp] theorem state_sendAll (s : Store) (is : List Intent) : (s.sendAll is).state = s.state := by
  induction is generalizing s with
  | nil => rfl
  | cons i is ih => exact (ih (s.send i)).trans (state_send s i)

@[simp] theorem state_finish (s : Store) (task : Task) (answer : task.request.call.Answer) :
    (s.finish task answer).state = s.state :=
  state_sendAll ..

theorem applyNext_of_queue {i : Intent} {queue : List Intent} (h : s.queue = i :: queue) :
    s.applyNext = { s with queue }.apply i := by
  rw [applyNext, h]

theorem Step.state_eq (h : Step admits s is t) : t.state = s.state.replay is := by
  cases h with
  | send h => exact state_send ..
  | start h => rfl
  | finish h answer => exact state_finish ..
  | fire h => exact state_send ..
  | advance ms => rfl
  | apply h => rw [applyNext_of_queue h, state_apply, State.replay_cons, State.replay_nil]

/-- The state of a run is what the applied intents make of the first one. -/
theorem Run.state_eq (h : Run admits s is t) : t.state = s.state.replay is := by
  induction h with
  | refl => rfl
  | tail _ hstep ih => rw [hstep.state_eq, ih, State.replay_append]

/-! ### The queue is first in, first out -/

theorem queue_send (s : Store) (i : Intent) : ∃ ks, (s.send i).queue = s.queue ++ ks := by
  unfold send
  split
  · exact ⟨[], (List.append_nil _).symm⟩
  · exact ⟨[i], rfl⟩

theorem queue_sendAll (s : Store) (is : List Intent) :
    ∃ ks, (s.sendAll is).queue = s.queue ++ ks := by
  induction is generalizing s with
  | nil => exact ⟨[], (List.append_nil _).symm⟩
  | cons i is ih =>
    obtain ⟨ks, hk⟩ := queue_send s i
    obtain ⟨ls, hl⟩ := ih (s.send i)
    refine ⟨ks ++ ls, ?_⟩
    show ((s.send i).sendAll is).queue = _
    rw [hl, hk, List.append_assoc]

theorem queue_releaseTimer (s : Store) : s.releaseTimer.queue = s.queue := by
  unfold releaseTimer; split <;> rfl

theorem queue_releaseFetch (s : Store) : s.releaseFetch.queue = s.queue := by
  unfold releaseFetch; split <;> rfl

theorem queue_foldl_carryOut (es : List Effect) (s : Store) :
    (es.foldl carryOut s).queue = s.queue := by
  induction es generalizing s with
  | nil => rfl
  | cons e es ih =>
    rw [List.foldl_cons, ih]
    cases e with
    | send q => rfl
    | startTimer c => exact queue_releaseTimer (s.note (.armed s.interval))
    | stopTimer => exact queue_releaseTimer s
    | abandonFetch => exact queue_releaseFetch s

theorem queue_apply (s : Store) (i : Intent) : (s.apply i).queue = s.queue := by
  unfold apply
  rw [queue_foldl_carryOut]
  unfold publish; split <;> rfl

theorem queue_applyNext {i : Intent} {queue : List Intent} (h : s.queue = i :: queue) :
    s.applyNext.queue = queue := by
  rw [applyNext_of_queue h, queue_apply]

/-- The intents that are applied leave at the front of the queue, and whatever is
new comes to its end. -/
theorem Step.queue_eq (h : Step admits s is t) :
    ∃ ks, t.queue = s.queue.drop is.length ++ ks := by
  cases h with
  | send h => exact queue_send ..
  | start h => exact ⟨[], (List.append_nil _).symm⟩
  | finish h answer => exact queue_sendAll ..
  | fire h => exact queue_send ..
  | advance ms => exact ⟨[], (List.append_nil _).symm⟩
  | apply h =>
    refine ⟨[], ?_⟩
    rw [queue_applyNext h, h]
    simp

theorem Run.queue_eq (h : Run admits s is t) : ∃ ks, t.queue = s.queue.drop is.length ++ ks := by
  induction h with
  | refl => exact ⟨[], (List.append_nil _).symm⟩
  | @tail is js t u _ hstep ih =>
    obtain ⟨ks, hk⟩ := ih
    obtain ⟨ls, hl⟩ := hstep.queue_eq
    rw [hk, List.drop_append, List.drop_drop, List.append_assoc] at hl
    exact ⟨_, by rw [hl, List.length_append]⟩

/-- An intent moves to the front by one place for each that is applied. -/
theorem Run.getElem?_queue {i : Intent} {n : Nat} (h : Run admits s is t)
    (hi : s.queue[is.length + n]? = some i) : t.queue[n]? = some i := by
  obtain ⟨ks, hk⟩ := h.queue_eq
  rw [hk, List.getElem?_append_left, List.getElem?_drop, hi]
  rw [List.length_drop]
  have hlt := (List.getElem?_eq_some_iff.mp hi).1
  omega

/-! ### Where intents come from -/

theorem mem_queue_send {i j : Intent} (h : j ∈ (s.send i).queue) : j ∈ s.queue ∨ j = i := by
  unfold send at h
  split at h
  · exact .inl h
  · simpa using h

theorem mem_queue_sendAll {j : Intent} (h : j ∈ (s.sendAll is).queue) : j ∈ s.queue ∨ j ∈ is := by
  induction is generalizing s with
  | nil => exact .inl h
  | cons i is ih =>
    rcases ih (s := s.send i) h with h | h
    · rcases mem_queue_send h with h | rfl
      · exact .inl h
      · exact .inr List.mem_cons_self
    · exact .inr (List.mem_cons_of_mem _ h)

/-- All intents come from callers, from requests or from the timer. -/
theorem Run.forall_intents {P : Intent → Prop} (h : Run admits s is t)
    (hadmits : ∀ i, admits i → P i) (houtcome : ∀ q answer, ∀ i ∈ outcome q answer, P i)
    (htick : ∀ c, P (.timerFired c)) (hs : ∀ i ∈ s.queue, P i) :
    (∀ i ∈ is, P i) ∧ ∀ i ∈ t.queue, P i := by
  induction h with
  | refl => exact ⟨List.forall_mem_nil _, hs⟩
  | tail _ hstep ih =>
    obtain ⟨his, hq⟩ := ih
    cases hstep with
    | send hi =>
      refine ⟨by simpa using his, fun j hj => ?_⟩
      rcases mem_queue_send hj with hj | rfl
      · exact hq j hj
      · exact hadmits _ hi
    | start _ => exact ⟨by simpa using his, hq⟩
    | finish _ answer =>
      refine ⟨by simpa using his, fun j hj => ?_⟩
      rcases mem_queue_sendAll hj with hj | hj
      · exact hq j hj
      · exact houtcome _ _ j hj
    | fire _ =>
      refine ⟨by simpa using his, fun j hj => ?_⟩
      rcases mem_queue_send hj with hj | rfl
      · exact hq j hj
      · exact htick _
    | advance ms => exact ⟨by simpa using his, hq⟩
    | apply hi =>
      -- what is applied was in the queue
      rw [hi] at hq
      refine ⟨List.forall_mem_append.mpr ⟨his, ?_⟩, ?_⟩
      · exact List.forall_mem_singleton.mpr (hq _ List.mem_cons_self)
      · intro j hj
        rw [queue_applyNext hi] at hj
        exact hq j (List.mem_cons_of_mem _ hj)

end Store

end RunControl
