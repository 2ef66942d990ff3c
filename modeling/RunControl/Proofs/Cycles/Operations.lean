/-
RunControl/Proofs/Cycles/Operations.lean

The operations of polling by themselves.  They may come in any order and with any arguments, so
that a cycle may be named that is over, or that was never opened; no state decides here whether
an operation makes sense.

Each of them does to polling what some intent does (`Operation.intent`), and a list of operations
what the list of these intents does (`poll_replay_intents`).  So what is known of the cycles of
all intents holds of the operations as well:

* the live cycle, which is the open or the stale one, is the newest, also when the counter has
  come back to 0;
* the counter goes up by one with each cycle that is opened, and by nothing else;
* at most one cycle's answer is wanted, and it is the newest cycle's;
* fewer than 2 ^ 64 cycles all have numbers of their own.
-/
import RunControl.Proofs.Cycles

namespace RunControl

namespace Poll

/-! ### Operations -/

/-- An operation of polling. Nobody vouches for its arguments. -/
inductive Operation where
  | request
  | tick (cycle : Cycle)
  | complete (cycle : Cycle) (done : Bool)
  | stop
  deriving DecidableEq

/-- Polling after an operation. -/
def perform (p : Poll) : Operation → Poll
  | .request => p.request
  | .tick cycle => p.tick cycle
  | .complete cycle done => p.complete cycle done
  | .stop => p.stop

/-- Polling after operations. -/
def performAll (p : Poll) (os : List Operation) : Poll :=
  os.foldl perform p

/-- The cycle that an operation opens: one that is open after it while none was before. -/
def opening? (p : Poll) (o : Operation) : Option Cycle :=
  if p.isPolling then none else (p.perform o).current?

/-- The cycles that operations open, in order. -/
def openings (p : Poll) : List Operation → List Cycle
  | [] => []
  | o :: os => (p.opening? o).toList ++ (p.perform o).openings os

/-! ### Operations as intents -/

/-- An intent that does the same to polling. A status ends its cycle if it is terminal. -/
def Operation.intent : Operation → Intent
  | request => .fetchStatus
  | tick cycle => .timerFired cycle
  | complete cycle true => .statusFetched cycle { stage := .complete }
  | complete cycle false => .statusFetched cycle { stage := .inProgress }
  | stop => .stopPolling

theorem after_intent (p : Poll) (o : Operation) : p.after o.intent = p.perform o := by
  rcases o with - | cycle | ⟨cycle, - | -⟩ | -
  · rfl
  · rfl
  · rfl
  · rfl
  · rfl

variable {p : Poll} {o : Operation} {c : Cycle}

theorem poll_after_intent (s : State) (o : Operation) :
    (s.after o.intent).poll = s.poll.perform o := by
  rw [State.poll_after, after_intent]

theorem opened?_intent (s : State) (o : Operation) :
    s.opened? o.intent = s.poll.opening? o := by
  rw [State.opened?, opening?, poll_after_intent]

theorem poll_replay_intents (s : State) (os : List Operation) :
    (s.replay (os.map Operation.intent)).poll = s.poll.performAll os := by
  induction os generalizing s with
  | nil => rfl
  | cons o os ih =>
    show ((s.after o.intent).replay (os.map Operation.intent)).poll
      = (s.poll.perform o).performAll os
    rw [ih, poll_after_intent]

theorem cycles_intents (s : State) (os : List Operation) :
    s.cycles (os.map Operation.intent) = s.poll.openings os := by
  induction os generalizing s with
  | nil => rfl
  | cons o os ih =>
    show (s.opened? o.intent).toList ++ (s.after o.intent).cycles (os.map Operation.intent)
      = (s.poll.opening? o).toList ++ (s.poll.perform o).openings os
    rw [ih, opened?_intent, poll_after_intent]

/-! ### What an operation opens -/

/-- Only a request opens a cycle, if none is open, and it is the one that the counter names. -/
theorem opening?_eq_some_iff :
    p.opening? o = some c ↔ o = .request ∧ p.current? = none ∧ c = ⟨p.opened⟩ := by
  unfold opening?
  rcases hp : p.phase with - | ⟨d, fetching⟩ | d
  · -- idle: nothing but a request does anything
    have hn : p.isPolling = false := by simp only [isPolling, hp]
    rw [hn, if_neg Bool.false_ne_true]
    cases o <;>
      simp [perform, request, tick, complete, stop, openCycle, current?, hp, eq_comm]
  · -- a cycle is open already
    have hn : p.isPolling = true := by simp only [isPolling, hp]
    have hc : p.current? = some d := by simp only [current?, hp]
    simp [hn, hc]
  · -- a stale answer may be dropped, and it may give way
    have hn : p.isPolling = false := by simp only [isPolling, hp]
    rw [hn, if_neg Bool.false_ne_true]
    cases o with
    | complete e done =>
      have hf : (p.complete e done).current? = none := by
        unfold complete
        split
        · next h => simp [hp] at h
        · split <;> simp [current?, hp]
      simp [perform, hf]
    | request | tick _ | stop =>
      simp [perform, request, tick, stop, openCycle, current?, hp, eq_comm]

/-- The counter goes up by one when a cycle is opened, and otherwise stays as it is. -/
theorem opened_perform (p : Poll) (o : Operation) :
    (p.perform o).opened = if (p.opening? o).isSome then p.opened + 1 else p.opened := by
  let s : State := { poll := p }
  rw [← opened?_intent s, show p.perform o = (s.after o.intent).poll from
    (poll_after_intent s o).symm]
  obtain ⟨ho, hp⟩ | ⟨ho, hp, -⟩ := s.opened?_cases o.intent
  · rw [ho, hp]
    rfl
  · rw [ho, hp]
    rfl

/-! ### The live cycle -/

/-- The open or stale cycle is the newest, whatever operations have been performed: its number is
the one before the counter, modulo 2 ^ 64.  The counter goes up by one with each cycle that is
opened, and by nothing else.  No more than one cycle's answer is wanted, the newest one's.  As
long as fewer than 2 ^ 64 cycles have been opened, no two of them have the same number. -/
theorem live_cycle_newest (os : List Operation) :
    let p := performAll {} os
    (∀ c, (∃ fetching, p.phase = .polling c fetching) ∨ p.phase = .stopping c →
      c.number + 1 = p.opened ∧ (openings {} os).getLast? = some c) ∧
    (∀ o, (p.perform o).opened = if (p.opening? o).isSome then p.opened + 1 else p.opened) ∧
    (∀ o c, p.opening? o = some c ↔ o = .request ∧ p.current? = none ∧ c = ⟨p.opened⟩) ∧
    p.opened = UInt64.ofNat (openings {} os).length ∧
    (∀ c, p.accepts c = true →
      (openings {} os).getLast? = some c ∧ ∀ d, p.accepts d = true → d = c) ∧
    ((openings {} os).length < UInt64.size → (openings {} os).Nodup) := by
  intro p
  -- operations are what intents do to the poll, and of intents all this is known
  have hpoll : (State.replay {} (os.map Operation.intent)).poll = p := poll_replay_intents {} os
  have hcycles : State.cycles {} (os.map Operation.intent) = openings {} os := cycles_intents {} os
  have hnewest : p.Newest := hpoll ▸ State.newest_replay newest_default _
  have hlast : ∀ c, p.phase.cycle? = some c → (openings {} os).getLast? = some c := by
    intro c hc
    rw [← hcycles]
    apply State.getLast?_cycles
    rwa [hpoll]
  refine ⟨?_, opened_perform p, fun o c => opening?_eq_some_iff, ?_, ?_, ?_⟩
  · -- an open cycle, and then a stale one
    rintro c (⟨fetching, hp⟩ | hp)
    · refine ⟨?_, hlast c (by rw [hp]; rfl)⟩
      simpa only [Newest, hp] using hnewest
    · refine ⟨?_, hlast c (by rw [hp]; rfl)⟩
      simpa only [Newest, hp] using hnewest
  · -- the count starts from zero
    have hopened := State.opened_replay {} (os.map Operation.intent)
    rw [hpoll, hcycles] at hopened
    rw [hopened]
    exact UInt64.zero_add _
  · -- an answer is wanted only by the phase, and the phase names one cycle
    intro c hc
    have hp : p.phase = .polling c true := accepts_iff.mp hc
    refine ⟨hlast c (by rw [hp]; rfl), fun d hd => ?_⟩
    have hd : p.phase = .polling d true := accepts_iff.mp hd
    rw [hp] at hd
    cases hd
    rfl
  · intro h
    rw [← hcycles] at h ⊢
    exact State.nodup_cycles h

/-- A request while a stale fetch runs opens the next cycle; the answer that is late then, and one
of a cycle that was never opened, change nothing. -/
example :
    let p := performAll {} [.request, .stop, .request]
    p.phase = .polling ⟨1⟩ true ∧
      p.performAll [.complete ⟨0⟩ true, .complete ⟨7⟩ false, .tick ⟨1⟩] = p := by
  decide

end Poll

end RunControl
