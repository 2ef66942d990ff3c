/-
RunControl/Proofs/Polling.lean

How intents act on polling.  Of the whole state an intent reads no more than
`poll` to change `poll`: polling is a machine of its own (`Poll.after`), and the
state carries it along unchanged (`State.poll_after`).

`Poll.Turn` lists everything that this machine can do in one step, with the
actions that follow from it.  Statements about polling are proved by cases on
`Poll.turn`, so that no other proof opens an operation of `Poll`:

* an intent opens a cycle only when none is open, and the cycle is `⟨p.opened⟩`;
* a fetch is asked for exactly when the phase comes to be `.polling c true`;
* the phase leaves `.polling c true` by an answer of `c`, or because it is stopped.
-/
import RunControl.State.Effect

namespace RunControl

/-! ### Intents that report to polling -/

namespace Intent

/-- The cycle whose fetch an intent answers. -/
def answers? : Intent → Option Cycle
  | .statusFetched cycle _ => some cycle
  | .statusFailed cycle _ => some cycle
  | _ => none

/-- The cycle whose timer an intent reports. -/
def tick? : Intent → Option Cycle
  | .timerFired cycle => some cycle
  | _ => none

/-- Neither the answer of a status fetch nor a report of the timer.  These two
come from the requests and the timer of the store itself. -/
def IsPlain (i : Intent) : Prop :=
  i.answers? = none ∧ i.tick? = none

instance (i : Intent) : Decidable i.IsPlain :=
  inferInstanceAs (Decidable (_ ∧ _))

/-- An intent that ends polling. -/
def Stops (i : Intent) : Prop :=
  i = .stopPolling ∨ i = .runStopped

theorem Stops.isPlain {i : Intent} (h : i.Stops) : i.IsPlain := by
  rcases h with rfl | rfl <;> exact ⟨rfl, rfl⟩

theorem not_stops_of_answers? {i : Intent} {c : Cycle} (h : i.answers? = some c) : ¬i.Stops := by
  intro hs
  rw [hs.isPlain.1] at h
  cases h

theorem not_stops_of_tick? {i : Intent} {c : Cycle} (h : i.tick? = some c) : ¬i.Stops := by
  intro hs
  rw [hs.isPlain.2] at h
  cases h

/-- No intent is an answer and a report of the timer at once. -/
theorem tick?_of_answers? {i : Intent} {c : Cycle} (h : i.answers? = some c) :
    i.tick? = none := by
  cases i <;> simp_all [answers?, tick?]

end Intent

/-! ### Polling as a machine of its own -/

/-- The cycle that a phase names. -/
def Phase.cycle? : Phase → Option Cycle
  | .idle => none
  | .polling c _ => some c
  | .stopping c => some c

namespace Poll

/-- What becomes of polling with an intent. -/
def after (p : Poll) : Intent → Poll
  | .fetchStatus => p.request
  | .runStarted .. => p.request
  | .statusFetched cycle status => p.complete cycle status.isTerminal
  | .statusFailed cycle failure => p.complete cycle failure.isUnconfigured
  | .setStatus status => if status.isTerminal || p.isPolling then p else p.request
  | .timerFired cycle => p.tick cycle
  | .stopPolling => p.stop
  | .runStopped => p.stop
  | _ => p

/-- An answer that is not wanted ends nothing but a stale fetch, whatever it says. -/
theorem complete_of_not_accepts {p : Poll} {c : Cycle} (h : p.accepts c = false)
    (done done' : Bool) : p.complete c done = p.complete c done' := by
  have hc : p.phase ≠ .polling c true := by
    intro hp
    rw [accepts_iff.mpr hp] at h
    cases h
  simp only [complete, if_neg hc]

end Poll

namespace State

/-- The state carries polling along: `poll` after an intent depends on nothing
but `poll` before. -/
theorem poll_after (s : State) (i : Intent) : (s.after i).poll = s.poll.after i := by
  -- the status has a say in it by whether it ends a run; what the other cases write is elsewhere
  cases i with
  | statusFetched c status =>
    by_cases h : s.poll.accepts c
    · simp only [after, if_pos h]
      rfl
    · -- an answer that is not wanted is dropped as if it were the last one
      simp only [after, if_neg h]
      exact Poll.complete_of_not_accepts (Bool.eq_false_iff.mpr h) ..
  | statusFailed c failure =>
    by_cases h : s.poll.accepts c
    · simp only [after, if_pos h, acceptFailure]
      split <;> rfl
    · simp only [after, if_neg h]
      exact Poll.complete_of_not_accepts (Bool.eq_false_iff.mpr h) ..
  | setStatus status =>
    have hp : (s.withStatus status).poll.isPolling = s.poll.isPolling := rfl
    simp only [after, Poll.after, hp]
    cases status.isTerminal <;> cases s.poll.isPolling <;> rfl
  | configFetched config =>
    simp only [after, acceptConfig, settle, recheck, withMissing, onInterface]
    rfl
  | runStarted device status =>
    simp only [after, runStarted]
    split <;> rfl
  | failed r failure =>
    simp only [after, requestFailed]
    split <;> rfl
  | startRun device =>
    simp only [after, startRun]
    split <;> rfl
  | deleteDevice device =>
    simp only [after, deleteDevice]
    split <;> rfl
  | _ => rfl

/-- The request that an intent sends of itself is never a status fetch. -/
theorem cycle?_of_request? {s t : State} {i : Intent} {q : Request}
    (h : s.request? t i = some q) : q.cycle? = none := by
  cases i <;> simp only [request?, Option.ite_none_right_eq_some, Option.some.injEq,
    reduceCtorEq] at h
  all_goals first
    | exact h ▸ rfl
    | exact h.2 ▸ rfl

/-- A status fetch is sent when polling asks for it, and only then. -/
theorem send_systemStatus_mem_effects {s t : State} {i : Intent} {c : Cycle} :
    .send (.systemStatus c) ∈ s.effects t i ↔ .fetch c ∈ Poll.actions s.poll t.poll := by
  unfold effects
  rw [List.mem_append, List.mem_map]
  constructor
  · rintro (h | ⟨a, ha, hc⟩)
    · obtain ⟨q, hq, hc⟩ := Option.map_eq_some_iff.mp (Option.mem_toList.mp h)
      cases hc
      have hn := cycle?_of_request? hq
      cases hn
    · cases a <;> cases hc
      exact ha
  · intro h
    exact .inr ⟨_, h, rfl⟩

end State

/-! ### Everything that polling can do -/

namespace Poll

/-- Everything that polling can do with an intent, and the actions it asks for. -/
inductive Turn (p : Poll) (i : Intent) : Poll → List Action → Prop
  /-- Nothing happens; so the intent is no report that the phase waits for, and it
  finds no open cycle to end. -/
  | keep (answer : ∀ c, i.answers? = some c → p.phase ≠ .polling c true ∧ p.phase ≠ .stopping c)
      (tick : ∀ c, i.tick? = some c → p.phase ≠ .polling c false)
      (stop : i.Stops → p.current? = none) : Turn p i p []
  /-- A cycle is opened. -/
  | opened (phase : p.phase = .idle) (plain : i.IsPlain) :
      Turn p i p.openCycle [.fetch ⟨p.opened⟩]
  /-- A cycle is opened while the fetch of an older one is stale. -/
  | superseded {c} (phase : p.phase = .stopping c) (plain : i.IsPlain) :
      Turn p i p.openCycle [.abandonFetch, .fetch ⟨p.opened⟩]
  /-- The status is fetched once more, because the timer says so or at once. -/
  | refetched {c} (phase : p.phase = .polling c false) (noAnswer : i.answers? = none)
      (tick : ∀ c', i.tick? = some c' → c' = c) (noStop : ¬i.Stops) :
      Turn p i { p with phase := .polling c true } [.stopTimer, .fetch c]
  /-- The fetch was answered, and the next one waits for the timer. -/
  | answered {c} (phase : p.phase = .polling c true) (answer : i.answers? = some c) :
      Turn p i { p with phase := .polling c false } [.startTimer c]
  /-- The fetch was answered for the last time. -/
  | ended {c} (phase : p.phase = .polling c true) (answer : i.answers? = some c) :
      Turn p i { p with phase := .idle } []
  /-- Polling is stopped while the fetch runs. -/
  | stopped {c} (phase : p.phase = .polling c true) (stop : i.Stops) :
      Turn p i { p with phase := .stopping c } [.stopTimer]
  /-- Polling is stopped while the timer runs. -/
  | halted {c} (phase : p.phase = .polling c false) (stop : i.Stops) :
      Turn p i { p with phase := .idle } [.stopTimer]
  /-- The stale fetch was answered. -/
  | dropped {c} (phase : p.phase = .stopping c) (answer : i.answers? = some c) :
      Turn p i { p with phase := .idle } []

variable {p : Poll} {i : Intent}

/-- An intent that is no report and does nothing. -/
theorem Turn.keep_of_isPlain (h : i.IsPlain) (hs : i.Stops → p.current? = none) :
    Turn p i p (actions p p) := by
  rw [actions_self]
  exact .keep (by simp [h.1]) (by simp [h.2]) hs

/-- A fetch after a wait: the timer is of no use any more. -/
theorem actions_refetch {c : Cycle} (h : p.phase = .polling c false) :
    actions p { p with phase := .polling c true } = [.stopTimer, .fetch c] := by
  simp [actions, h]

theorem turn_request (h : i.IsPlain) (hs : ¬i.Stops) :
    Turn p i p.request (actions p p.request) := by
  rcases hp : p.phase with - | ⟨c, - | -⟩ | c
  · -- idle: a cycle is opened
    have hr : p.request = p.openCycle := by simp only [request, hp]
    have ha : actions p p.openCycle = [.fetch ⟨p.opened⟩] := by simp [actions, hp, openCycle]
    rw [hr, ha]
    exact .opened hp h
  · -- the timer runs: the fetch comes early
    have hr : p.request = { p with phase := .polling c true } := by simp only [request, hp]
    rw [hr, actions_refetch hp]
    exact .refetched hp h.1 (by simp [h.2]) hs
  · -- a fetch runs already
    have hr : p.request = p := by simp only [request, hp]; rw [← hp]
    rw [hr]
    exact Turn.keep_of_isPlain h fun h => absurd h hs
  · -- a stale fetch gives way to a new cycle
    have hr : p.request = p.openCycle := by simp only [request, hp]
    have ha : actions p p.openCycle = [.abandonFetch, .fetch ⟨p.opened⟩] := by
      simp [actions, hp, openCycle]
    rw [hr, ha]
    exact .superseded hp h

theorem turn_stop (h : i.Stops) : Turn p i p.stop (actions p p.stop) := by
  rcases hp : p.phase with - | ⟨c, - | -⟩ | c
  · have hr : p.stop = p := by simp only [stop, hp]
    rw [hr]
    exact Turn.keep_of_isPlain h.isPlain fun _ => by simp only [current?, hp]
  · have hr : p.stop = { p with phase := .idle } := by simp only [stop, hp]
    have ha : actions p { p with phase := .idle } = [.stopTimer] := by simp [actions, hp]
    rw [hr, ha]
    exact .halted hp h
  · have hr : p.stop = { p with phase := .stopping c } := by simp only [stop, hp]
    have ha : actions p { p with phase := .stopping c } = [.stopTimer] := by simp [actions, hp]
    rw [hr, ha]
    exact .stopped hp h
  · have hr : p.stop = p := by simp only [stop, hp]
    rw [hr]
    exact Turn.keep_of_isPlain h.isPlain fun _ => by simp only [current?, hp]

theorem turn_tick {c : Cycle} (h : i.answers? = none) (ht : i.tick? = some c) :
    Turn p i (p.tick c) (actions p (p.tick c)) := by
  by_cases hp : p.phase = .polling c false
  · rw [tick, if_pos hp, actions_refetch hp]
    exact .refetched hp h (by simp [ht]) (Intent.not_stops_of_tick? ht)
  · rw [tick, if_neg hp, actions_self]
    refine .keep (by simp [h]) ?_ fun hs => absurd hs (Intent.not_stops_of_tick? ht)
    intro c' hc'
    obtain rfl : c = c' := Option.some.inj (ht.symm.trans hc')
    exact hp

/-- An answer is that of the open cycle, or of the stale one, or of none that polling knows. -/
theorem turn_complete {c : Cycle} (h : i.answers? = some c) (done : Bool) :
    Turn p i (p.complete c done) (actions p (p.complete c done)) := by
  by_cases hp : p.phase = .polling c true
  · rw [complete, if_pos hp]
    cases done with
    | false =>
      have ha : actions p { p with phase := .polling c false } = [.startTimer c] := by
        simp [actions, hp]
      simp only [Bool.false_eq_true, if_false, ha]
      exact .answered hp h
    | true =>
      have ha : actions p { p with phase := .idle } = [] := by simp [actions, hp]
      simp only [if_true, ha]
      exact .ended hp h
  · by_cases hs : p.phase = .stopping c
    · have ha : actions p { p with phase := .idle } = [] := by simp [actions, hs]
      rw [complete, if_neg hp, if_pos hs, ha]
      exact .dropped hs h
    · rw [complete, if_neg hp, if_neg hs, actions_self]
      refine .keep ?_ (by simp [Intent.tick?_of_answers? h])
        fun hs => absurd hs (Intent.not_stops_of_answers? h)
      intro c' hc'
      obtain rfl : c = c' := Option.some.inj (h.symm.trans hc')
      exact ⟨hp, hs⟩

/-- Every step of polling is one of the list. -/
theorem turn (p : Poll) (i : Intent) : Turn p i (p.after i) (actions p (p.after i)) := by
  cases i with
  | fetchStatus => exact turn_request ⟨rfl, rfl⟩ nofun
  | runStarted device status => exact turn_request ⟨rfl, rfl⟩ nofun
  | statusFetched c status => exact turn_complete rfl _
  | statusFailed c failure => exact turn_complete rfl _
  | setStatus status =>
    simp only [after]
    split
    · exact Turn.keep_of_isPlain ⟨rfl, rfl⟩ nofun
    · exact turn_request ⟨rfl, rfl⟩ nofun
  | timerFired c => exact turn_tick rfl rfl
  | stopPolling => exact turn_stop (.inl rfl)
  | runStopped => exact turn_stop (.inr rfl)
  | _ => exact Turn.keep_of_isPlain ⟨rfl, rfl⟩ nofun

/-- The cycle that the phase names after a turn is the one before, or it is new. -/
theorem Turn.cycle? {q : Poll} {as : List Action} {c : Cycle} (h : Turn p i q as)
    (hc : q.phase.cycle? = some c) :
    p.phase.cycle? = some c ∨ (c = ⟨p.opened⟩ ∧ q = p.openCycle) := by
  cases h with
  | keep => exact .inl hc
  | opened | superseded => exact .inr ⟨(Option.some.inj hc).symm, rfl⟩
  | refetched phase | answered phase | stopped phase =>
    left
    rw [phase]
    exact hc
  | ended | halted | dropped => cases hc

end Poll

end RunControl
