/-
RunControl/Proofs/State/Accounting.lean

What polling asks for, and what it gets.  `State.trail` collects all that is to be done
while a list of intents is applied, and `State.countSteps` counts the steps of a certain
kind.  For every cycle,

* the timer is started as often as an answer is heard after which the cycle goes on
  (`count_startTimer`);
* every fetch is answered and heard, or polling is stopped while it runs, or it is still
  waited for (`count_fetch`).

Both are equations about one turn of polling (`Poll.Turn`), added up.  Neither needs the
cycles to be told apart.  That a cycle is stopped at most once, and that it asks for
nothing when it is over, does: there the counter of cycles must not come round
(`polling_accounts`).
-/
import Mathlib.Data.List.Count
import RunControl.Proofs.State.Reports

namespace RunControl

namespace Intent

/-- Whether an intent ends polling. -/
def isStop : Intent → Bool
  | .stopPolling | .runStopped => true
  | _ => false

theorem isStop_iff {i : Intent} : i.isStop = true ↔ i.Stops := by
  cases i <;> simp [isStop, Stops]

instance (i : Intent) : Decidable i.Stops :=
  decidable_of_iff (i.isStop = true) isStop_iff

end Intent

/-! ### One turn of polling -/

namespace Poll

variable {p q : Poll} {i : Intent} {as : List Action} {c : Cycle}

/-- In one turn the timer of a cycle is started if its answer is heard and it goes on. -/
theorem Turn.count_startTimer (h : Turn p i q as) (c : Cycle) :
    as.count (.startTimer c)
      = if (i.answers? = some c ∧ p.phase = .polling c true) ∧ q.current? = some c
        then 1 else 0 := by
  cases h with
  | keep answer => simp +contextual [answer c]
  | opened phase | superseded phase | refetched phase => simp [phase]
  | @answered d phase answer => by_cases hd : d = c <;> simp [current?, phase, answer, hd]
  | ended | stopped | halted | dropped => simp [current?]

/-- In one turn a fetch is begun, heard or stopped, or it goes on. -/
theorem Turn.count_fetch (h : Turn p i q as) (c : Cycle) :
    as.count (.fetch c) + (if p.phase = .polling c true then 1 else 0)
      = (if i.answers? = some c ∧ p.phase = .polling c true then 1 else 0)
        + (if i.Stops ∧ p.phase = .polling c true then 1 else 0)
        + (if q.phase = .polling c true then 1 else 0) := by
  cases h with
  | keep answer tick stop =>
    by_cases hp : p.phase = .polling c true
    · -- neither is the answer heard that the phase waits for, nor is the open cycle stopped
      have ha : i.answers? ≠ some c := fun h => (answer c h).1 hp
      have hs : ¬i.Stops := by
        intro h
        have hc := stop h
        simp [current?, hp] at hc
      simp [ha, hs]
    · simp [hp]
  | opened phase | superseded phase =>
    simp [phase, openCycle, List.count_cons, beq_iff_eq]
  | refetched phase => simp [phase, List.count_cons, beq_iff_eq]
  | answered phase answer | ended phase answer =>
    simp [phase, answer, Intent.not_stops_of_answers? answer]
  | stopped phase stop => simp [phase, stop, stop.isPlain.1]
  | halted phase | dropped phase => simp [phase]

/-- Whatever polling asks for in one turn, it asks for the cycle that is open then. -/
theorem Turn.current?_of_mem (h : Turn p i q as) (ha : .fetch c ∈ as ∨ .startTimer c ∈ as) :
    q.current? = some c := by
  cases h <;> simp_all [current?, openCycle]

end Poll

namespace State

/-! ### Adding up -/

/-- All that is to be done while intents are applied, in order. -/
def trail (s : State) : List Intent → List Effect
  | [] => []
  | i :: is => s.effects (s.after i) i ++ (s.after i).trail is

/-- At how many intents of a list `P` holds of the state before the intent and of the
intent. -/
def countSteps (P : State → Intent → Prop) [∀ s i, Decidable (P s i)] (s : State) :
    List Intent → Nat
  | [] => 0
  | i :: is => (if P s i then 1 else 0) + (s.after i).countSteps P is

variable {s : State} {is : List Intent} {i : Intent} {c : Cycle} {P : State → Intent → Prop}
  [∀ s i, Decidable (P s i)]

theorem mem_trail_iff {e : Effect} :
    e ∈ s.trail is ↔ ∃ before i after, is = before ++ i :: after ∧
      e ∈ (s.replay before).effects ((s.replay before).after i) i := by
  induction is generalizing s with
  | nil => simp [trail]
  | cons i is ih =>
    rw [trail, List.mem_append, ih]
    constructor
    · rintro (h | ⟨before, j, after, rfl, h⟩)
      · exact ⟨[], i, is, rfl, h⟩
      · exact ⟨i :: before, j, after, rfl, h⟩
    · rintro ⟨before, j, after, hl, h⟩
      rcases List.cons_eq_append_iff.mp hl with ⟨rfl, hl⟩ | ⟨before, rfl, rfl⟩
      · cases hl
        exact .inl h
      · exact .inr ⟨before, j, after, rfl, h⟩

theorem countSteps_concat (P : State → Intent → Prop) [∀ s i, Decidable (P s i)] (s : State)
    (is : List Intent) (i : Intent) :
    s.countSteps P (is ++ [i]) = s.countSteps P is + if P (s.replay is) i then 1 else 0 := by
  induction is generalizing s with
  | nil => exact Nat.add_comm _ 0
  | cons j is ih => rw [List.cons_append, countSteps, countSteps, ih, Nat.add_assoc, replay_cons]

theorem countSteps_pos_iff :
    0 < s.countSteps P is ↔
      ∃ before i after, is = before ++ i :: after ∧ P (s.replay before) i := by
  induction is using List.reverseRecOn with
  | nil => simp [countSteps]
  | append_singleton is i ih =>
    have hi : (0 < if P (s.replay is) i then 1 else 0) ↔ P (s.replay is) i := by
      split <;> simp_all
    rw [countSteps_concat, Nat.add_pos_iff_pos_or_pos, ih, hi]
    constructor
    · rintro (⟨before, j, after, rfl, h⟩ | h)
      · exact ⟨before, j, after ++ [i], by simp, h⟩
      · exact ⟨is, i, [], rfl, h⟩
    · rintro ⟨before, j, after, hl, h⟩
      rcases concat_eq_append_cons_iff.mp hl with ⟨rfl, rfl, -⟩ | ⟨rest, -, rfl⟩
      · exact .inr h
      · exact .inl ⟨before, j, rest, rfl, h⟩

/-- What polling asks for comes up among all that is to be done, as often as it is asked for. -/
theorem count_effects (s t : State) (i : Intent) (a : Poll.Action) :
    (s.effects t i).count (.ofAction a) = (Poll.actions s.poll t.poll).count a := by
  have hinj : Function.Injective Effect.ofAction := by
    intro a b h
    cases a <;> cases b <;> simp_all [Effect.ofAction]
  have hq : (((s.request? t i).map Effect.send).toList).count (.ofAction a) = 0 := by
    refine List.count_eq_zero.mpr fun hm => ?_
    obtain ⟨q, hq, he⟩ := Option.map_eq_some_iff.mp (Option.mem_toList.mp hm)
    have hc := cycle?_of_request? hq
    cases a with
    | fetch d =>
      cases he
      cases hc
    | _ => cases he
  rw [effects, List.count_append, hq, Nat.zero_add, List.count_map_of_injective _ _ hinj]

/-! ### Answers that are heard -/

/-- An intent is an answer of `c` that is wanted. -/
def Hears (c : Cycle) (s : State) (i : Intent) : Prop :=
  i.answers? = some c ∧ s.poll.phase = .polling c true

/-- An intent is an answer of `c` that is wanted, and leaves the cycle open. -/
def HearsOn (c : Cycle) (s : State) (i : Intent) : Prop :=
  s.Hears c i ∧ (s.after i).poll.current? = some c

/-- An intent stops polling while a fetch of `c` runs. -/
def StopsFetch (c : Cycle) (s : State) (i : Intent) : Prop :=
  i.Stops ∧ s.poll.phase = .polling c true

instance (c : Cycle) (s : State) (i : Intent) : Decidable (s.Hears c i) :=
  inferInstanceAs (Decidable (_ ∧ _))

instance (c : Cycle) (s : State) (i : Intent) : Decidable (s.HearsOn c i) :=
  inferInstanceAs (Decidable (_ ∧ _))

instance (c : Cycle) (s : State) (i : Intent) : Decidable (s.StopsFetch c i) :=
  inferInstanceAs (Decidable (_ ∧ _))

/-- The timer of a cycle is started once for each answer that is heard and leaves the cycle
open. -/
theorem count_startTimer (s : State) (is : List Intent) (c : Cycle) :
    (s.trail is).count (.startTimer c) = s.countSteps (HearsOn c) is := by
  induction is generalizing s with
  | nil => rfl
  | cons i is ih =>
    have hstep : (s.effects (s.after i) i).count (.startTimer c)
        = if s.HearsOn c i then 1 else 0 := by
      have he := count_effects s (s.after i) i (.startTimer c)
      rw [poll_after, (Poll.turn s.poll i).count_startTimer c, ← poll_after] at he
      exact he
    rw [trail, countSteps, List.count_append, hstep, ih]

/-- Every fetch of a cycle is heard, or stopped, or it is still waited for. -/
theorem count_fetch (s : State) (is : List Intent) (c : Cycle) :
    (s.trail is).count (.send (.systemStatus c)) + (if s.poll.phase = .polling c true then 1 else 0)
      = s.countSteps (Hears c) is + s.countSteps (StopsFetch c) is
        + if (s.replay is).poll.phase = .polling c true then 1 else 0 := by
  induction is generalizing s with
  | nil => rfl
  | cons i is ih =>
    have hstep : (s.effects (s.after i) i).count (.send (.systemStatus c))
          + (if s.poll.phase = .polling c true then 1 else 0)
        = (if s.Hears c i then 1 else 0) + (if s.StopsFetch c i then 1 else 0)
          + if (s.after i).poll.phase = .polling c true then 1 else 0 := by
      have he := count_effects s (s.after i) i (.fetch c)
      have ht := (Poll.turn s.poll i).count_fetch c
      rw [← poll_after, ← he] at ht
      exact ht
    have hrest := ih (s.after i)
    rw [trail, countSteps, countSteps, List.count_append, replay_cons]
    omega

/-! ### Cycles that are over -/

/-- Polling was stopped while a fetch of `c` ran. -/
def StoppedFetching (is : List Intent) (c : Cycle) : Prop :=
  ∃ before i after, is = before ++ i :: after ∧ (State.replay {} before).StopsFetch c i

theorem StoppedFetching.stopped (h : StoppedFetching is c) : Stopped is c := by
  obtain ⟨before, i, after, hl, hs, hp⟩ := h
  exact ⟨before, i, after, hl, hs, Poll.current?_eq_some_iff.mpr ⟨_, hp⟩⟩

/-- While a fetch is waited for, its cycle has not been stopped. -/
theorem not_stopped_of_fetching (hn : (State.cycles {} is).length < UInt64.size)
    (h : (State.replay {} is).poll.phase = .polling c true) : ¬Stopped is c :=
  ((accepts_iff_awaited hn).mp (Poll.accepts_iff.mpr h)).notStopped

/-- A cycle is stopped during a fetch once at most. -/
theorem countSteps_stopsFetch_le (hn : (State.cycles {} is).length < UInt64.size) (c : Cycle) :
    State.countSteps (StopsFetch c) {} is ≤ 1 := by
  induction is using List.reverseRecOn with
  | nil => exact Nat.zero_le 1
  | append_singleton is i ih =>
    have hn' := length_cycles_lt_of_append hn
    rw [countSteps_concat]
    split
    · next h =>
      -- it has not been stopped before, because its fetch is waited for
      have h0 : ¬0 < State.countSteps (StopsFetch c) {} is := by
        intro hpos
        have hs : StoppedFetching is c := countSteps_pos_iff.mp hpos
        exact not_stopped_of_fetching hn' h.2 hs.stopped
      omega
    · exact ih hn'

/-- When a cycle that was open is open no longer, nothing is asked for on its behalf any
more. -/
theorem forall_mem_trail_of_closed {earlier later after : List Intent}
    (hn : (State.cycles {} (earlier ++ later ++ after)).length < UInt64.size)
    (hopen : (State.replay {} earlier).poll.current? = some c)
    (hclosed : (State.replay {} (earlier ++ later)).poll.current? ≠ some c) :
    ∀ e ∈ (State.replay {} (earlier ++ later)).trail after,
      e ≠ .startTimer c ∧ e ≠ .send (.systemStatus c) := by
  have hm : c ∈ State.cycles {} (earlier ++ later) := by
    rw [cycles_append]
    exact List.mem_append_left _ (List.mem_of_getLast? (getLast?_cycles_of_current? hopen))
  intro e he
  obtain ⟨before, i, rest, rfl, hi⟩ := mem_trail_iff.mp he
  have hne : (State.replay {} (earlier ++ later ++ (before ++ [i]))).poll.current? ≠ some c := by
    rw [List.append_cons, ← List.append_assoc] at hn
    exact current?_replay_ne (length_cycles_lt_of_append hn) hm hclosed
  rw [replay_append, replay_append] at hne
  generalize (State.replay {} (earlier ++ later)).replay before = s at hi hne
  rw [replay_cons, replay_nil, poll_after] at hne
  -- after a step that asks for something, the cycle that it asks for is open
  have asked : ∀ a : Poll.Action, Effect.ofAction a ∈ s.effects (s.after i) i →
      a ∈ Poll.actions s.poll (s.poll.after i) := by
    intro a ha
    have hpos := List.count_pos_iff.mpr ha
    rw [count_effects, poll_after] at hpos
    exact List.count_pos_iff.mp hpos
  have ht := Poll.turn s.poll i
  constructor
  · rintro rfl
    exact hne (ht.current?_of_mem (.inr (asked (.startTimer c) hi)))
  · rintro rfl
    exact hne (ht.current?_of_mem (.inl (asked (.fetch c) hi)))

/-- Of every cycle, the timer is started as often as an answer is heard after which the cycle
goes on.  The status is fetched as often as an answer is heard, and once more exactly if a
fetch is waited for or polling was stopped while one ran.  When the cycle is over, nothing is
asked for on its behalf any more. -/
theorem polling_accounts (is : List Intent) (c : Cycle)
    (hn : (State.cycles {} is).length < UInt64.size) :
    (State.trail {} is).count (.startTimer c) = State.countSteps (HearsOn c) {} is ∧
    (let asked := (State.trail {} is).count (.send (.systemStatus c))
     let heard := State.countSteps (Hears c) {} is
     (asked = heard ∨ asked = heard + 1) ∧
      (asked = heard + 1 ↔
        (State.replay {} is).poll.phase = .polling c true ∨ StoppedFetching is c)) ∧
    ∀ earlier later after, is = earlier ++ later ++ after →
      (State.replay {} earlier).poll.current? = some c →
      (State.replay {} (earlier ++ later)).poll.current? ≠ some c →
      ∀ e ∈ (State.replay {} (earlier ++ later)).trail after,
        e ≠ .startTimer c ∧ e ≠ .send (.systemStatus c) := by
  refine ⟨count_startTimer {} is c, ?_, ?_⟩
  · intro asked heard
    have hbalance : asked = heard + State.countSteps (StopsFetch c) {} is
        + if (State.replay {} is).poll.phase = .polling c true then 1 else 0 :=
      count_fetch {} is c
    have hle := countSteps_stopsFetch_le hn c
    have hpos : 0 < State.countSteps (StopsFetch c) {} is ↔ StoppedFetching is c :=
      countSteps_pos_iff
    by_cases hp : (State.replay {} is).poll.phase = .polling c true
    · -- a cycle that waits for a fetch has never been stopped during one
      have hs : ¬StoppedFetching is c := fun hs => not_stopped_of_fetching hn hp hs.stopped
      rw [← hpos] at hs
      rw [if_pos hp] at hbalance
      simp only [hp, true_or, iff_true]
      omega
    · rw [if_neg hp] at hbalance
      simp only [hp, false_or, ← hpos]
      omega
  · rintro earlier later after rfl hopen hclosed
    exact forall_mem_trail_of_closed hn hopen hclosed

/-- Two answers say that the run goes on, the third that it is complete: the timer is started
twice.  What comes late, and the cycle that is opened next, starts it for the first cycle no
more. -/
theorem polling_accounts_once_complete :
    let running : RunStatus := { stage := .inProgress }
    let polled : List Intent := [.fetchStatus, .statusFetched ⟨0⟩ running, .timerFired ⟨0⟩,
      .statusFetched ⟨0⟩ running, .timerFired ⟨0⟩, .statusFetched ⟨0⟩ { stage := .complete }]
    let late : List Intent := [.timerFired ⟨0⟩, .statusFetched ⟨0⟩ running, .fetchStatus,
      .statusFetched ⟨1⟩ running]
    (State.trail {} (polled ++ late)).count (.startTimer ⟨0⟩) = 2 ∧
      (State.trail {} (polled ++ late)).count (.send (.systemStatus ⟨0⟩)) = 3 ∧
      ∀ e ∈ (State.replay {} polled).trail late,
        e ≠ .startTimer ⟨0⟩ ∧ e ≠ .send (.systemStatus ⟨0⟩) := by
  intro running polled late
  obtain ⟨htimer, hfetch, hover⟩ := polling_accounts (polled ++ late) ⟨0⟩ (by decide)
  have hheard : State.countSteps (Hears ⟨0⟩) {} (polled ++ late) = 3 := by decide
  refine ⟨htimer.trans (by decide), ?_, ?_⟩
  · -- no fetch is waited for, and none was stopped
    have hstops : ¬StoppedFetching (polled ++ late) ⟨0⟩ := by
      have h0 : State.countSteps (StopsFetch ⟨0⟩) {} (polled ++ late) = 0 := by decide
      exact fun hs => Nat.ne_of_gt (countSteps_pos_iff.mpr hs) h0
    have hphase : (State.replay {} (polled ++ late)).poll.phase ≠ .polling ⟨0⟩ true := by decide
    refine (hfetch.1.resolve_right fun h => ?_).trans hheard
    exact (hfetch.2.mp h).elim hphase hstops
  · exact hover [.fetchStatus] polled.tail late rfl rfl (by decide)

end State

end RunControl
