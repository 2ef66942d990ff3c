/-
RunControl/Proofs/State/UnderTest.lean

Which device is under test.  A start that is answered puts its device under test, unless
the run is over already; `State.Ends` lists what ends a run: it was stopped, or a terminal
status is reported, which the answer of a status fetch does only if it is wanted.  Nothing
else touches the device (`State.underTest_after_of_neither`), so it can be read off the past:
it is the one of the last run that was started, as long as nothing has ended that run
(`State.RunOf`).  While a device is under test, the status says that its run goes on.

A caller may name a device under test by hand (`Intent.setUnderTest`); histories in which
that happens are left out.
-/
import RunControl.Proofs.State.Reports

namespace RunControl

namespace State

/-! ### What ends a run -/

/-- The intents that end a run. -/
inductive Ends (s : State) : Intent → Prop
  | runStopped : Ends s .runStopped
  | runStarted (device : Device) {status : RunStatus} (terminal : status.isTerminal = true) :
      Ends s (.runStarted device status)
  | setStatus {status : RunStatus} (terminal : status.isTerminal = true) :
      Ends s (.setStatus status)
  | statusFetched {c : Cycle} {status : RunStatus} (wanted : s.poll.accepts c = true)
      (terminal : status.isTerminal = true) : Ends s (.statusFetched c status)

variable {s : State} {i : Intent} {d : Device}

/-- At a terminal status no device is under test. -/
theorem underTest_withStatus (s : State) {status : RunStatus} (h : status.isTerminal = true) :
    (s.withStatus status).underTest = none :=
  if_pos h

theorem underTest_withStatus_of_running (s : State) {status : RunStatus}
    (h : status.isTerminal = false) : (s.withStatus status).underTest = s.underTest := by
  show (if status.isTerminal then none else s.underTest) = s.underTest
  rw [h]
  rfl

theorem underTest_after_of_ends (h : s.Ends i) : (s.after i).underTest = none := by
  cases h with
  | runStopped => rfl
  | runStarted device terminal =>
    simp only [after, runStarted, terminal, if_true]
    exact underTest_withStatus s terminal
  | setStatus terminal =>
    simp only [after, terminal, Bool.not_true, Bool.false_and, Bool.false_eq_true, if_false]
    exact underTest_withStatus s terminal
  | statusFetched wanted terminal =>
    simp only [after, wanted, if_true]
    exact underTest_withStatus s terminal

/-- A start whose run goes on puts its device under test. -/
theorem underTest_after_runStarted (s : State) (d : Device) {status : RunStatus}
    (h : status.isTerminal = false) : (s.after (.runStarted d status)).underTest = some d := by
  simp only [after, runStarted, h]
  rfl

/-- What neither starts a run nor ends one leaves the device alone. -/
theorem underTest_after_of_neither (hu : ∀ device, i ≠ .setUnderTest device)
    (hr : ∀ device status, i ≠ .runStarted device status) (he : ¬s.Ends i) :
    (s.after i).underTest = s.underTest := by
  cases i with
  | setUnderTest device => exact absurd rfl (hu device)
  | runStarted device status => exact absurd rfl (hr device status)
  | runStopped => exact absurd .runStopped he
  | setStatus status =>
    -- a status that does not end the run says that it goes on
    have ht : status.isTerminal = false := Bool.eq_false_iff.mpr fun ht => he (.setStatus ht)
    simp only [after]
    split
    · exact underTest_withStatus_of_running s ht
    · exact underTest_withStatus_of_running s ht
  | statusFetched c status =>
    simp only [after]
    split
    · next hw =>
      have ht : status.isTerminal = false :=
        Bool.eq_false_iff.mpr fun ht => he (.statusFetched hw ht)
      exact underTest_withStatus_of_running s ht
    · -- an answer that is not wanted is dropped
      rfl
  | statusFailed c failure =>
    simp only [after, acceptFailure]
    split
    · split <;> rfl
    · rfl
  | configFetched config =>
    simp only [after, acceptConfig, settle, recheck, withMissing, onInterface]
  | failed r failure =>
    simp only [after, requestFailed]
    split <;> rfl
  | startRun device =>
    simp only [after, startRun]
    split <;> rfl
  | deleteDevice device =>
    simp only [after, deleteDevice]
    split <;> rfl
  | _ => rfl

/-! ### The run that goes on -/

/-- A run of a device was started, and nothing has ended it since, nor started another. -/
def RunOf (is : List Intent) (d : Device) : Prop :=
  ∃ before status after, is = before ++ .runStarted d status :: after ∧
    status.isTerminal = false ∧ ∀ pre j post, after = pre ++ j :: post →
      (∀ device status', j ≠ .runStarted device status') ∧
        ¬(State.replay {} (before ++ .runStarted d status :: pre)).Ends j

variable {is : List Intent}

theorem not_runOf_nil : ¬RunOf [] d := by
  rintro ⟨before, status, after, h, -⟩
  exact absurd h (by simp)

/-- A run goes on after one more intent if it was just started, or if it went on before and the
intent neither starts another one nor ends it. -/
theorem runOf_concat :
    RunOf (is ++ [i]) d ↔
      (∃ status, i = .runStarted d status ∧ status.isTerminal = false) ∨
        (RunOf is d ∧ (∀ device status, i ≠ .runStarted device status) ∧
          ¬(State.replay {} is).Ends i) := by
  constructor
  · rintro ⟨before, status, after, hl, ht, hn⟩
    rcases concat_eq_append_cons_iff.mp hl with ⟨-, hi, -⟩ | ⟨rest, rfl, rfl⟩
    · exact .inl ⟨status, hi.symm, ht⟩
    · refine .inr ⟨⟨before, status, rest, rfl, ht, fun pre j post hr => ?_⟩, hn rest i [] rfl⟩
      exact hn pre j (post ++ [i]) (by simp [hr])
  · rintro (⟨status, rfl, ht⟩ | ⟨⟨before, status, after, rfl, ht, hn⟩, hr, he⟩)
    · exact ⟨is, status, [], rfl, ht, by simp⟩
    · refine ⟨before, status, after ++ [i], by simp, ht, fun pre j post hl => ?_⟩
      rcases concat_eq_append_cons_iff.mp hl with ⟨rfl, rfl, -⟩ | ⟨rest, -, hl'⟩
      · exact ⟨hr, he⟩
      · exact hn pre j rest hl'

/-- The device under test is the one whose run goes on. -/
theorem underTest_replay (h : ∀ device, .setUnderTest device ∉ is) :
    (State.replay {} is).underTest = some d ↔ RunOf is d := by
  induction is using List.reverseRecOn with
  | nil => exact iff_of_false nofun not_runOf_nil
  | append_singleton is i ih =>
    have ih := ih fun device hm => h device (List.mem_append_left _ hm)
    have hu : ∀ device, i ≠ .setUnderTest device := by
      rintro device rfl
      exact h device (by simp)
    rw [replay_append, runOf_concat, replay_cons, replay_nil]
    by_cases he : (State.replay {} is).Ends i
    · -- the run is over, also if this is the answer to a start
      rw [underTest_after_of_ends he]
      refine iff_of_false nofun ?_
      rintro (⟨status, rfl, ht⟩ | ⟨-, -, hn⟩)
      · cases he with | runStarted _ terminal =>
        rw [ht] at terminal
        cases terminal
      · exact hn he
    · by_cases hr : ∃ device status, i = .runStarted device status
      · -- the answer to a start: its device replaces whichever was there
        obtain ⟨device, status, rfl⟩ := hr
        have ht : status.isTerminal = false :=
          Bool.eq_false_iff.mpr fun ht => he (.runStarted device ht)
        rw [underTest_after_runStarted _ device ht]
        constructor
        · rintro ⟨⟩
          exact .inl ⟨status, rfl, ht⟩
        · rintro (⟨status', hi, -⟩ | ⟨-, hn, -⟩)
          · cases hi
            rfl
          · exact absurd rfl (hn device status)
      · -- anything else leaves both sides as they were
        have hr' : ∀ device status, i ≠ .runStarted device status :=
          fun device status hi => hr ⟨device, status, hi⟩
        rw [underTest_after_of_neither hu hr' he, ih]
        constructor
        · intro hrun
          exact .inr ⟨hrun, hr', he⟩
        · rintro (⟨status, hi, -⟩ | ⟨hrun, -, -⟩)
          · exact absurd hi (hr' d status)
          · exact hrun

/-! ### The status while a device is under test -/

/-- A report that does not end a run says that it goes on. -/
theorem isTerminal_eq_false_of_reported? {status : RunStatus} (h : s.reported? i = some status)
    (he : ¬s.Ends i) : status.isTerminal = false := by
  refine Bool.eq_false_iff.mpr fun ht => he ?_
  cases i with
  | setStatus status' =>
    cases h
    exact .setStatus ht
  | runStarted device status' =>
    cases h
    exact .runStarted device ht
  | statusFetched c status' =>
    obtain ⟨hw, hs⟩ := Option.ite_none_right_eq_some.mp h
    cases hs
    exact .statusFetched hw ht
  | _ => cases h

/-- While a run goes on, the status does not say that it is over. -/
theorem RunOf.running (h : RunOf is d) : (State.replay {} is).status.isTerminal = false := by
  induction is using List.reverseRecOn with
  | nil => exact absurd h not_runOf_nil
  | append_singleton is i ih =>
    rw [replay_append, replay_cons, replay_nil, status_after]
    rcases runOf_concat.mp h with ⟨status, rfl, ht⟩ | ⟨hrun, -, he⟩
    · exact ht
    · rcases hr : (State.replay {} is).reported? i with - | status
      · exact ih hrun
      · exact isTerminal_eq_false_of_reported? hr he

/-- A device is under test exactly while a run of it goes on that was started and that nothing
has ended; and then the status is not terminal. -/
theorem underTest_iff_runOf (is : List Intent) (h : ∀ device, .setUnderTest device ∉ is) :
    (∀ d, (State.replay {} is).underTest = some d ↔ RunOf is d) ∧
      ((State.replay {} is).underTest ≠ none →
        (State.replay {} is).status.isTerminal = false) := by
  refine ⟨fun d => underTest_replay h, fun hne => ?_⟩
  obtain ⟨d, hd⟩ := Option.ne_none_iff_exists'.mp hne
  exact ((underTest_replay h).mp hd).running

/-- Polling is stopped while a run goes on: the terminal status that is still answered is not
wanted any more, and the device stays under test. -/
theorem underTest_once_stopped :
    let d : Device := { address := "aa:01" }
    let is : List Intent := [.runStarted d { stage := .inProgress }, .stopPolling,
      .statusFetched ⟨0⟩ { stage := .complete }]
    (∀ device, .setUnderTest device ∉ is) ∧ (State.replay {} is).underTest = some d ∧
      (State.replay {} is).status.isTerminal = false := by
  intro d is
  have hu : ∀ device, .setUnderTest device ∉ is := by simp [is]
  have started : RunOf [.runStarted d { stage := .inProgress }] d := ⟨[], _, [], rfl, rfl, by simp⟩
  have stop : ∀ s : State, ¬s.Ends .stopPolling := by
    intro s he
    cases he
  have stopped : RunOf ([.runStarted d { stage := .inProgress }] ++ [.stopPolling]) d :=
    runOf_concat.mpr (.inr ⟨started, fun _ _ => nofun, stop _⟩)
  -- the answer of a cycle that was stopped is not wanted
  have late : ∀ s : State, s.poll.accepts ⟨0⟩ = false →
      ¬s.Ends (.statusFetched ⟨0⟩ { stage := .complete }) := by
    rintro s hw (_ | _ | _ | ⟨wanted, -⟩)
    rw [hw] at wanted
    cases wanted
  have answered : RunOf (([.runStarted d { stage := .inProgress }] ++ [.stopPolling])
      ++ [.statusFetched ⟨0⟩ { stage := .complete }]) d :=
    runOf_concat.mpr (.inr ⟨stopped, fun _ _ => nofun, late _ rfl⟩)
  have hd : (State.replay {} is).underTest = some d :=
    ((underTest_iff_runOf is hu).1 d).mpr answered
  have hne : (State.replay {} is).underTest ≠ none := by rw [hd]; exact Option.some_ne_none d
  exact ⟨hu, hd, (underTest_iff_runOf is hu).2 hne⟩

end State

end RunControl
