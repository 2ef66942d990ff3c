/-
RunControl/Proofs/State/Reports.lean

Which answers of status fetches are heard.  A state does not remember what has
been applied to it, but its phase tells enough of it (`Tells`): the answer of a
cycle is accepted exactly when the cycle was opened last, has not been stopped,
and has been fetched without an answer since (`accepts_iff_awaited`).  So the
status is the one that was reported last, and an answer that comes after its
cycle is over changes nothing, however late it comes.

All this is about the past as a list of intents.  `Stopped`, `Unanswered`,
`Awaited` and `Over` say in terms of that list what has happened to a cycle;
each has a lemma for one more intent at the end.
-/
import RunControl.Proofs.Cycles

namespace RunControl

namespace State

/-! ### What has happened to a cycle -/

/-- An intent sends the status fetch of a cycle. -/
def Asks (s : State) (i : Intent) (c : Cycle) : Prop :=
  .send (.systemStatus c) ∈ s.effects (s.after i) i

/-- Polling was stopped while a cycle was open. -/
def Stopped (is : List Intent) (c : Cycle) : Prop :=
  ∃ before i after, is = before ++ i :: after ∧ i.Stops ∧
    (State.replay {} before).poll.current? = some c

/-- The status was fetched for a cycle, and no answer has come since. -/
def Unanswered (is : List Intent) (c : Cycle) : Prop :=
  ∃ before i after, is = before ++ i :: after ∧ (State.replay {} before).Asks i c ∧
    ∀ j ∈ after, j.answers? ≠ some c

/-- An answer is awaited for a cycle: it was opened last, polling has not been
stopped since, and its fetch has not been answered. -/
structure Awaited (is : List Intent) (c : Cycle) : Prop where
  newest : (State.cycles {} is).getLast? = some c
  notStopped : ¬Stopped is c
  unanswered : Unanswered is c

/-- A list with one more element at the end, cut before an element: either the
cut is before that last element, or the list was cut before. -/
theorem concat_eq_append_cons_iff {α : Type} {l before after : List α} {a x : α} :
    l ++ [a] = before ++ x :: after ↔
      (before = l ∧ x = a ∧ after = []) ∨
        ∃ rest, after = rest ++ [a] ∧ l = before ++ x :: rest := by
  constructor
  · intro h
    rcases List.eq_nil_or_concat' after with rfl | ⟨rest, b, rfl⟩
    · obtain ⟨rfl, rfl⟩ := List.append_singleton_inj.mp h
      exact .inl ⟨rfl, rfl, rfl⟩
    · rw [← List.cons_append, ← List.append_assoc, List.append_singleton_inj] at h
      obtain ⟨rfl, rfl⟩ := h
      exact .inr ⟨rest, rfl, rfl⟩
  · rintro (⟨rfl, rfl, rfl⟩ | ⟨rest, rfl, rfl⟩)
    · rfl
    · rw [List.append_assoc, List.cons_append]

section
variable {is : List Intent} {i : Intent} {c : Cycle}

theorem stopped_concat :
    Stopped (is ++ [i]) c ↔
      Stopped is c ∨ (i.Stops ∧ (State.replay {} is).poll.current? = some c) := by
  unfold Stopped
  constructor
  · rintro ⟨before, j, after, hl, hs, hc⟩
    rcases concat_eq_append_cons_iff.mp hl with ⟨rfl, rfl, -⟩ | ⟨rest, -, hl⟩
    · exact .inr ⟨hs, hc⟩
    · exact .inl ⟨before, j, rest, hl, hs, hc⟩
  · rintro (⟨before, j, after, rfl, hs, hc⟩ | ⟨hs, hc⟩)
    · exact ⟨before, j, after ++ [i], by simp, hs, hc⟩
    · exact ⟨is, i, [], rfl, hs, hc⟩

/-- A fetch is unanswered after one more intent if that asks for it, or if it was unanswered and
this is not its answer. -/
theorem unanswered_concat :
    Unanswered (is ++ [i]) c ↔
      (State.replay {} is).Asks i c ∨ (Unanswered is c ∧ i.answers? ≠ some c) := by
  unfold Unanswered
  constructor
  · rintro ⟨before, j, after, hl, ha, hn⟩
    rcases concat_eq_append_cons_iff.mp hl with ⟨rfl, rfl, -⟩ | ⟨rest, rfl, hl'⟩
    · exact .inl ha
    · refine .inr ⟨⟨before, j, rest, hl', ha, fun k hk => hn k ?_⟩, hn i ?_⟩
      · exact List.mem_append_left _ hk
      · simp
  · rintro (ha | ⟨⟨before, j, after, rfl, ha, hn⟩, hi⟩)
    · exact ⟨is, i, [], rfl, ha, by simp⟩
    · refine ⟨before, j, after ++ [i], by simp, ha, ?_⟩
      intro k hk
      rcases List.mem_append.mp hk with hk | hk
      · exact hn k hk
      · rwa [List.mem_singleton.mp hk]

/-- Only a cycle that has been opened can have been stopped. -/
theorem Stopped.mem_cycles (h : Stopped is c) : c ∈ State.cycles {} is := by
  obtain ⟨before, i, after, rfl, -, hc⟩ := h
  rw [cycles_append]
  exact List.mem_append_left _ (List.mem_of_getLast? (getLast?_cycles_of_current? hc))

/-- Only a cycle that is open can be stopped. -/
theorem stopped_concat_of_closed (h : i.Stops → (State.replay {} is).poll.current? = none) :
    Stopped (is ++ [i]) c ↔ Stopped is c := by
  rw [stopped_concat]
  refine ⟨?_, .inl⟩
  rintro (hc | ⟨hs, hc⟩)
  · exact hc
  · rw [h hs] at hc
    cases hc

theorem not_unanswered_concat (ha : ¬(State.replay {} is).Asks i c)
    (h : ¬Unanswered is c ∨ i.answers? = some c) : ¬Unanswered (is ++ [i]) c := by
  rw [unanswered_concat]
  rintro (hc | ⟨hu, hi⟩)
  · exact ha hc
  · exact h.elim (fun h => h hu) hi

/-- Nothing is opened by an intent after which polling is at rest. -/
theorem cycles_concat_of_idle (h : (State.replay {} (is ++ [i])).poll.phase = .idle) :
    State.cycles {} (is ++ [i]) = State.cycles {} is := by
  have ho : (State.replay {} is).opened? i = none := by
    rw [replay_append] at h
    unfold opened?
    split
    · rfl
    · exact Option.eq_none_iff_forall_ne_some.mpr fun c hc => by
        obtain ⟨fetching, hp⟩ := Poll.current?_eq_some_iff.mp hc
        cases hp.symm.trans h
  rw [cycles_concat, ho]
  simp

/-! ### What the phase tells of the past -/

/-- What a phase tells of the cycles it names; at rest, of the one opened last. -/
inductive Tells (is : List Intent) : Phase → Prop
  | idle (closed : ∀ c, (State.cycles {} is).getLast? = some c → Stopped is c ∨ ¬Unanswered is c) :
      Tells is .idle
  | fetching {c : Cycle} (notStopped : ¬Stopped is c) (unanswered : Unanswered is c) :
      Tells is (.polling c true)
  | waiting {c : Cycle} (notStopped : ¬Stopped is c) (answered : ¬Unanswered is c) :
      Tells is (.polling c false)
  | stopping {c : Cycle} (stopped : Stopped is c) : Tells is (.stopping c)

/-- An intent that does nothing leaves the past as it is, as far as the phase tells. -/
theorem Tells.keep {phase : Phase} (h : Tells is phase)
    (hasks : ∀ c, ¬(State.replay {} is).Asks i c)
    (hans : ∀ c, i.answers? = some c → phase ≠ .polling c true)
    (hstop : i.Stops → (State.replay {} is).poll.current? = none)
    (hidle : phase = .idle → State.cycles {} (is ++ [i]) = State.cycles {} is) :
    Tells (is ++ [i]) phase := by
  cases h with
  | idle closed =>
    refine .idle fun c hc => ?_
    rw [hidle rfl] at hc
    rcases closed c hc with hs | hu
    · exact .inl ((stopped_concat_of_closed hstop).mpr hs)
    · exact .inr (not_unanswered_concat (hasks c) (.inl hu))
  | fetching notStopped unanswered =>
    refine .fetching ?_ ?_
    · rwa [stopped_concat_of_closed hstop]
    · exact unanswered_concat.mpr (.inr ⟨unanswered, fun ha => hans _ ha rfl⟩)
  | waiting notStopped answered =>
    refine .waiting ?_ (not_unanswered_concat (hasks _) (.inl answered))
    rwa [stopped_concat_of_closed hstop]
  | stopping stopped => exact .stopping ((stopped_concat_of_closed hstop).mpr stopped)

/-- A cycle that is opened now has not been stopped before. -/
theorem not_stopped_opened (hn : (State.cycles {} is).length < UInt64.size) :
    ¬Stopped is ⟨(State.replay {} is).poll.opened⟩ := by
  intro hs
  have hlt := (mem_cycles_iff hn).mp hs.mem_cycles
  exact UInt64.lt_irrefl _ hlt

/-- One more intent, by the turn that polling takes with it. -/
theorem Tells.concat (hn : (State.cycles {} is).length < UInt64.size)
    (h : Tells is (State.replay {} is).poll.phase) (i : Intent) :
    Tells (is ++ [i]) (State.replay {} (is ++ [i])).poll.phase := by
  have hp : (State.replay {} (is ++ [i])).poll = (State.replay {} is).poll.after i := by
    rw [replay_append]
    exact poll_after _ i
  have hidle : (State.replay {} (is ++ [i])).poll.phase = .idle →
      State.cycles {} (is ++ [i]) = State.cycles {} is := cycles_concat_of_idle
  have hasks : ∀ c, (State.replay {} is).Asks i c ↔
      .fetch c ∈ Poll.actions (State.replay {} is).poll ((State.replay {} is).poll.after i) := by
    intro c
    unfold Asks
    rw [send_systemStatus_mem_effects, poll_after]
  have hnew := not_stopped_opened hn
  -- when polling comes to rest, the cycle opened last is the one the phase named
  have hlast : ∀ c, (State.replay {} is).poll.phase.cycle? = some c →
      ∀ d, (State.cycles {} is).getLast? = some d → d = c := by
    intro c hc d hd
    rw [getLast?_cycles hc] at hd
    exact (Option.some.inj hd).symm
  have ht := Poll.turn (State.replay {} is).poll i
  rw [hp] at hidle ⊢
  generalize Poll.actions (State.replay {} is).poll ((State.replay {} is).poll.after i) = as
    at ht hasks
  generalize (State.replay {} is).poll.after i = q at ht hidle ⊢
  cases ht with
  | keep answer tick stop =>
    exact h.keep (by simp [hasks]) (fun c hc => (answer c hc).1) stop hidle
  | opened phase plain | superseded phase plain =>
    -- the new cycle has a number of its own, so it has not been stopped before
    refine .fetching ?_ (unanswered_concat.mpr (.inl ?_))
    · rwa [stopped_concat_of_closed fun _ => by simp only [Poll.current?, phase]]
    · simp [hasks]
  | refetched phase noAnswer tick noStop =>
    rw [phase] at h
    cases h with | waiting notStopped answered =>
    refine .fetching ?_ (unanswered_concat.mpr (.inl ?_))
    · rwa [stopped_concat_of_closed fun hs => absurd hs noStop]
    · simp [hasks]
  | answered phase answer =>
    -- the awaited answer came, and the timer is waited for
    rw [phase] at h
    cases h with | fetching notStopped unanswered =>
    have hs := Intent.not_stops_of_answers? answer
    refine .waiting ?_ (not_unanswered_concat (by simp [hasks]) (.inr answer))
    rwa [stopped_concat_of_closed fun h => absurd h hs]
  | ended phase answer =>
    -- the awaited answer came, so the cycle opened last awaits none
    refine .idle fun d hd => .inr ?_
    rw [hidle rfl] at hd
    obtain rfl := hlast _ (by rw [phase]; rfl) d hd
    exact not_unanswered_concat (by simp [hasks]) (.inr answer)
  | stopped phase stop =>
    refine .stopping (stopped_concat.mpr (.inr ⟨stop, ?_⟩))
    simp only [Poll.current?, phase]
  | halted phase stop =>
    -- the cycle opened last was stopped
    refine .idle fun d hd => .inl ?_
    rw [hidle rfl] at hd
    obtain rfl := hlast _ (by rw [phase]; rfl) d hd
    refine stopped_concat.mpr (.inr ⟨stop, ?_⟩)
    simp only [Poll.current?, phase]
  | dropped phase answer =>
    -- it was stopped before, and its answer changes nothing about that
    refine .idle fun d hd => .inl ?_
    rw [hidle rfl] at hd
    obtain rfl := hlast _ (by rw [phase]; rfl) d hd
    rw [phase] at h
    cases h with | stopping stopped =>
    exact stopped_concat.mpr (.inl stopped)

theorem tells_replay (hn : (State.cycles {} is).length < UInt64.size) :
    Tells is (State.replay {} is).poll.phase := by
  induction is using List.reverseRecOn with
  | nil => exact .idle nofun
  | append_singleton is i ih =>
    have hn' := length_cycles_lt_of_append hn
    exact (ih hn').concat hn' i

/-- An answer is accepted exactly when it is awaited. -/
theorem accepts_iff_awaited (hn : (State.cycles {} is).length < UInt64.size) :
    (State.replay {} is).poll.accepts c = true ↔ Awaited is c := by
  have ht := tells_replay hn
  rw [Poll.accepts_iff]
  constructor
  · intro hp
    have hl : (State.cycles {} is).getLast? = some c := getLast?_cycles (by rw [hp]; rfl)
    rw [hp] at ht
    cases ht with | fetching notStopped unanswered =>
    exact ⟨hl, notStopped, unanswered⟩
  · rintro ⟨hl, hs, hu⟩
    -- every phase but the one that waits for this answer tells the contrary
    have hlast : ∀ d, (State.replay {} is).poll.phase.cycle? = some d → d = c := by
      intro d hd
      rw [getLast?_cycles hd] at hl
      exact Option.some.inj hl
    rcases hp : (State.replay {} is).poll.phase with - | ⟨d, - | -⟩ | d <;>
      rw [hp] at ht hlast
    · cases ht with | idle closed =>
      rcases closed c hl with h | h
      · exact absurd h hs
      · exact absurd hu h
    · obtain rfl := hlast d rfl
      cases ht with | waiting _ answered =>
      exact absurd hu answered
    · rw [hlast d rfl]
    · obtain rfl := hlast d rfl
      cases ht with | stopping stopped =>
      exact absurd stopped hs

end

/-! ### The status that was reported last -/

/-- What an intent reports after a list of others: the status that it brings,
which an answer does only if it is awaited. -/
inductive Reports (before : List Intent) : Intent → RunStatus → Prop
  | setStatus (status : RunStatus) : Reports before (.setStatus status) status
  | runStarted (device : Device) (status : RunStatus) :
      Reports before (.runStarted device status) status
  | statusFetched {c : Cycle} (awaited : Awaited before c) (status : RunStatus) :
      Reports before (.statusFetched c status) status

/-- Nothing is reported by the intents that come after others. -/
def Silent (before after : List Intent) : Prop :=
  ∀ pre i post status, after = pre ++ i :: post → ¬Reports (before ++ pre) i status

variable {is before after : List Intent} {i : Intent} {c : Cycle}

theorem silent_nil : Silent before [] := by
  intro pre i post status h
  exact absurd h (by simp)

theorem Silent.concat (h : Silent before after)
    (hi : ∀ status, ¬Reports (before ++ after) i status) : Silent before (after ++ [i]) := by
  intro pre j post status hl
  rcases concat_eq_append_cons_iff.mp hl with ⟨rfl, rfl, -⟩ | ⟨rest, -, hl'⟩
  · exact hi status
  · exact h pre j rest status hl'

/-- The status that an intent reports to a state. -/
def reported? (s : State) : Intent → Option RunStatus
  | .setStatus status => some status
  | .runStarted _ status => some status
  | .statusFetched c status => if s.poll.accepts c then some status else none
  | _ => none

/-- The status after an intent is the one that it reports, or the one before. -/
theorem status_after (s : State) (i : Intent) :
    (s.after i).status = (s.reported? i).getD s.status := by
  -- no part of a step but `withStatus` writes the status
  cases i with
  | statusFetched c status =>
    simp only [State.after, reported?]
    split <;> rfl
  | statusFailed c failure =>
    simp only [State.after, acceptFailure]
    split
    · split <;> rfl
    · rfl
  | setStatus status =>
    simp only [State.after]
    split <;> rfl
  | configFetched config =>
    simp only [State.after, acceptConfig, settle, recheck, withMissing, onInterface]
    rfl
  | runStarted device status =>
    simp only [State.after, runStarted]
    split <;> rfl
  | failed r failure =>
    simp only [State.after, requestFailed]
    split <;> rfl
  | startRun device =>
    simp only [State.after, startRun]
    split <;> rfl
  | deleteDevice device =>
    simp only [State.after, deleteDevice]
    split <;> rfl
  | _ => rfl

/-- What is reported by the history is what the state takes for a report. -/
theorem reports_iff (hn : (State.cycles {} is).length < UInt64.size) {status : RunStatus} :
    Reports is i status ↔ (State.replay {} is).reported? i = some status := by
  constructor
  · rintro (_ | _ | ⟨awaited, _⟩)
    · rfl
    · rfl
    · exact if_pos ((accepts_iff_awaited hn).mpr awaited)
  · intro h
    cases i with
    | setStatus st =>
      cases h
      exact .setStatus _
    | runStarted device st =>
      cases h
      exact .runStarted _ _
    | statusFetched c st =>
      obtain ⟨ha, hs⟩ := Option.ite_none_right_eq_some.mp h
      cases hs
      exact .statusFetched ((accepts_iff_awaited hn).mp ha) _
    | _ => cases h

/-- The status is the one that was reported last. -/
theorem status_replay (hn : (State.cycles {} is).length < UInt64.size) :
    (Silent [] is ∧ (State.replay {} is).status = {}) ∨
      ∃ before i after status, is = before ++ i :: after ∧ Reports before i status ∧
        Silent (before ++ [i]) after ∧ (State.replay {} is).status = status := by
  induction is using List.reverseRecOn with
  | nil => exact .inl ⟨silent_nil, rfl⟩
  | append_singleton is i ih =>
    have hn' := length_cycles_lt_of_append hn
    have hs : (State.replay {} (is ++ [i])).status
        = ((State.replay {} is).reported? i).getD (State.replay {} is).status := by
      rw [replay_append]
      exact status_after _ i
    rcases hr : (State.replay {} is).reported? i with - | status
    · -- nothing is reported: the status stays, and so does the last report
      have hi : ∀ status, ¬Reports is i status := by
        intro status h
        rw [reports_iff hn', hr] at h
        cases h
      rw [hs, hr]
      rcases ih hn' with ⟨hq, he⟩ | ⟨before, j, after, status, rfl, hj, hq, he⟩
      · exact .inl ⟨hq.concat hi, he⟩
      · refine .inr ⟨before, j, after ++ [i], status, by simp, hj, hq.concat ?_, he⟩
        simpa using hi
    · -- this is the last report
      rw [hs, hr]
      exact .inr ⟨is, i, [], status, rfl, (reports_iff hn').mpr hr, silent_nil, rfl⟩

/-! ### Answers that come too late -/

/-- The open cycle came to its end with an answer. -/
def Ended (is : List Intent) (c : Cycle) : Prop :=
  ∃ before i after, is = before ++ i :: after ∧ i.answers? = some c ∧
    (State.replay {} before).poll.current? = some c ∧
    (State.replay {} (before ++ [i])).poll.current? = none

/-- A cycle is over: it was stopped, or a newer one has been opened, or it came to
its end. -/
inductive Over (is : List Intent) (c : Cycle) : Prop
  | stopped (h : Stopped is c)
  | superseded (h : c ∈ (State.cycles {} is).dropLast)
  | ended (h : Ended is c)

theorem current?_after_stop {s : State} (h : i.Stops) : (s.after i).poll.current? = none := by
  have hs : s.poll.stop.current? = none := by
    rcases hp : s.poll.phase with - | ⟨c, - | -⟩ | c <;> simp [Poll.stop, Poll.current?, hp]
  rcases h with rfl | rfl <;> exact hs

/-- A cycle that was open and then was not is not open any more. -/
theorem current?_ne_of_closed (hn : (State.cycles {} (before ++ i :: after)).length < UInt64.size)
    (hc : (State.replay {} before).poll.current? = some c)
    (hi : (State.replay {} (before ++ [i])).poll.current? = none) :
    c ∈ State.cycles {} (before ++ i :: after) ∧
      (State.replay {} (before ++ i :: after)).poll.current? ≠ some c := by
  have hm : c ∈ State.cycles {} (before ++ [i]) := by
    rw [cycles_append]
    exact List.mem_append_left _ (List.mem_of_getLast? (getLast?_cycles_of_current? hc))
  rw [List.append_cons] at hn ⊢
  refine ⟨?_, current?_replay_ne hn hm (by simp [hi])⟩
  rw [cycles_append]
  exact List.mem_append_left _ hm

theorem Over.current?_ne (hn : (State.cycles {} is).length < UInt64.size) (h : Over is c) :
    c ∈ State.cycles {} is ∧ (State.replay {} is).poll.current? ≠ some c := by
  cases h with
  | stopped h =>
    obtain ⟨before, i, after, rfl, hs, hc⟩ := h
    refine current?_ne_of_closed hn hc ?_
    rw [replay_append]
    exact current?_after_stop hs
  | superseded h =>
    refine ⟨(List.dropLast_subset _) h, fun hc => ?_⟩
    -- the open cycle is the last, and no cycle is opened twice
    have hl := getLast?_cycles_of_current? hc
    have hnd := nodup_cycles hn
    rw [← List.dropLast_append_getLast? c hl, List.nodup_append] at hnd
    exact hnd.2.2 c h c (List.mem_singleton_self c) rfl
  | ended h =>
    obtain ⟨before, i, after, rfl, -, hc, hi⟩ := h
    exact current?_ne_of_closed hn hc hi

/-- The answer of a cycle that is not open ends its stale fetch at most. -/
theorem after_answer_of_current?_ne {s : State} (hi : i.answers? = some c)
    (hc : s.poll.current? ≠ some c) :
    ∃ q, s.after i = { s with poll := q } ∧
      (q = s.poll ∨ (s.poll.phase = .stopping c ∧ q = { s.poll with phase := .idle })) := by
  have hp : s.poll.phase ≠ .polling c true := fun h => hc (Poll.current?_eq_some_iff.mpr ⟨_, h⟩)
  have ha : ¬s.poll.accepts c = true := fun h => hp (Poll.accepts_iff.mp h)
  have hs : s.after i = { s with poll := s.poll.complete c true } := by
    cases i with
    | statusFetched d status | statusFailed d failure =>
      obtain rfl : d = c := Option.some.inj hi
      exact if_neg ha
    | _ => cases hi
  refine ⟨_, hs, ?_⟩
  unfold Poll.complete
  rw [if_neg hp]
  split
  · next h => exact .inr ⟨h, rfl⟩
  · exact .inl rfl

/-- The status is the one that was reported last.  From the moment a cycle is over,
its answers leave the state as it is, but for the stale fetch that they end. -/
theorem last_report_stands (is : List Intent) (hn : (State.cycles {} is).length < UInt64.size) :
    ((Silent [] is ∧ (State.replay {} is).status = {}) ∨
      ∃ before i after status, is = before ++ i :: after ∧ Reports before i status ∧
        Silent (before ++ [i]) after ∧ (State.replay {} is).status = status) ∧
    ∀ before after c i, is = before ++ after → Over before c → i.answers? = some c →
      ∃ q, (State.replay {} is).after i = { State.replay {} is with poll := q } ∧
        (q = (State.replay {} is).poll ∨
          ((State.replay {} is).poll.phase = .stopping c ∧
            q = { (State.replay {} is).poll with phase := .idle })) := by
  refine ⟨status_replay hn, ?_⟩
  rintro before after c i rfl ho hi
  have hn' := length_cycles_lt_of_append hn
  obtain ⟨hm, hc⟩ := ho.current?_ne hn'
  exact after_answer_of_current?_ne hi (current?_replay_ne hn hm hc)

/-- An answer that comes when its cycle has been stopped and a newer one is open. -/
theorem last_report_stands_once_reopened :
    let s := State.replay {} [.fetchStatus, .stopPolling, .fetchStatus]
    s.poll.phase = .polling ⟨1⟩ true ∧
      s.after (.statusFetched ⟨0⟩ { stage := .inProgress }) = s := by
  intro s
  have hs : Stopped [.fetchStatus, .stopPolling] ⟨0⟩ :=
    ⟨[.fetchStatus], .stopPolling, [], rfl, .inl rfl, rfl⟩
  have hp : s.poll.phase = .polling ⟨1⟩ true := rfl
  refine ⟨hp, ?_⟩
  have h := last_report_stands [.fetchStatus, .stopPolling, .fetchStatus] (by decide)
  obtain ⟨q, hq, rfl | ⟨hst, -⟩⟩ :=
    h.2 [.fetchStatus, .stopPolling] [.fetchStatus] ⟨0⟩
      (.statusFetched ⟨0⟩ { stage := .inProgress }) rfl (.stopped hs) rfl
  · exact hq
  · cases hp.symm.trans hst

end State

end RunControl
