/-
RunControl/Proofs/State/SoleCycle.lean

A cycle that is opened once and never again.  The first intent asks for the status, and all that
come after it are reports.  Then the cycle stays open until an answer ends it, which is either a
status at a terminal stage or a failure that says that the backend has no configuration; from
then on nothing changes what that answer left behind (`SoleCycle.concat`).  So at the end of such a
cycle an error tells a failure from a status (`Leaves`), and no other failure ends it.

The proof goes along the intents: on polling each report is one of few things
(`Poll.reported_cases`), and after the end it is nothing at all (`after_of_idle`).
-/
import RunControl.Proofs.State.Asides
import RunControl.Proofs.State.OpenCycle
import RunControl.Proofs.State.Reports

namespace RunControl

/-! ### Reports to polling -/

namespace Poll

/-- Polling with the first cycle open. -/
def first (fetching : Bool) : Poll where
  phase := .polling ⟨0⟩ fetching
  opened := 1

/-- Polling once the first cycle is over. -/
def firstOver : Poll where
  phase := .idle
  opened := 1

variable {i : Intent} {c : Cycle} {fetching : Bool}

/-- An answer is wanted by the first cycle only, while its fetch runs. -/
theorem accepts_first : (first fetching).accepts c = true ↔ c = ⟨0⟩ ∧ fetching = true := by
  rw [accepts_iff, first, Phase.polling.injEq]
  exact and_congr_left' eq_comm

theorem not_accepts_firstOver (c : Cycle) : firstOver.accepts c = false :=
  rfl

/-- An answer in the first cycle: it is dropped, or it is the last one, or there are more. -/
theorem complete_first (fetching : Bool) (c : Cycle) (done : Bool) :
    ((first fetching).accepts c = true ∧ done = true ∧ c = ⟨0⟩ ∧
        (first fetching).complete c done = firstOver) ∨
      (((first fetching).accepts c = true → done = false) ∧
        ∃ fetching', (first fetching).complete c done = first fetching') := by
  by_cases hw : (first fetching).accepts c = true
  · obtain ⟨rfl, rfl⟩ := accepts_first.mp hw
    cases done with
    | true => exact .inl ⟨hw, rfl, rfl, rfl⟩
    | false => exact .inr ⟨fun _ => rfl, false, rfl⟩
  · refine .inr ⟨fun h => absurd h hw, fetching, ?_⟩
    have hphase : (first fetching).phase ≠ .polling c true := fun h => hw (accepts_iff.mpr h)
    have hopen : (first fetching).phase ≠ .stopping c := by
      intro h
      cases h
    rw [complete, if_neg hphase, if_neg hopen]

/-- A report ends the first cycle, or it leaves it open. -/
theorem reported_cases (hi : i.IsReport) (fetching : Bool) :
    ((first fetching).Closes ⟨0⟩ i ∧ (first fetching).after i = firstOver) ∨
      ((∀ c, ¬(first fetching).Closes c i) ∧
        ∃ fetching', (first fetching).after i = first fetching') := by
  cases hi with
  | statusFetched c status =>
    -- the last answer of the cycle is a terminal status
    rcases complete_first fetching c status.isTerminal with ⟨hw, ht, rfl, hp⟩ | ⟨hw, hp⟩
    · exact .inl ⟨.statusFetched hw ht, hp⟩
    · refine .inr ⟨?_, hp⟩
      rintro d (- | - | ⟨wanted, terminal⟩)
      rw [hw wanted] at terminal
      cases terminal
  | statusFailed c failure =>
    -- or a failure that says that there is no configuration
    rcases complete_first fetching c failure.isUnconfigured with ⟨hw, hu, rfl, hp⟩ | ⟨hw, hp⟩
    · exact .inl ⟨.statusFailed hw (beq_iff_eq.mp hu), hp⟩
    · refine .inr ⟨?_, hp⟩
      rintro d (- | - | - | ⟨wanted, unconfigured⟩)
      have hu : failure.isUnconfigured = false := hw wanted
      rw [Failure.isUnconfigured, unconfigured] at hu
      cases hu
  | timerFired c =>
    refine .inr ⟨nofun, ?_⟩
    -- a tick makes the next request, if none is under way
    show ∃ fetching', (first fetching).tick c = first fetching'
    unfold tick
    split
    · next h =>
      obtain ⟨rfl, -⟩ : ⟨0⟩ = c ∧ fetching = false := by simpa [first] using h
      exact ⟨true, rfl⟩
    · exact ⟨fetching, rfl⟩
  | setMissing missing => exact .inr ⟨nofun, fetching, rfl⟩

end Poll

/-! ### Reports to the state -/

namespace State

variable {s : State} {is : List Intent} {i j : Intent} {c : Cycle}

/-- What the answer that ends a cycle leaves behind. -/
def Leaves (s : State) : Intent → Prop
  | .statusFetched _ status => s.status = status ∧ s.errors.get .systemStatus = none
  | .statusFailed _ failure => s.errors.get .systemStatus = some failure
  | _ => False

theorem leaves_after_of_closes (hi : i.IsReport) (h : s.poll.Closes c i) :
    (s.after i).Leaves i := by
  cases h with
  | stopPolling | runStopped => cases hi
  | @statusFetched status wanted terminal =>
    show (s.after (.statusFetched c status)).status = status ∧ _
    simp only [after, if_pos wanted]
    exact ⟨rfl, PerResource.get_set_self ..⟩
  | @statusFailed failure wanted unconfigured =>
    show (s.after (.statusFailed c failure)).errors.get .systemStatus = some failure
    simp only [after, if_pos wanted]
    exact PerResource.get_set_self ..

/-- What a report changes when nothing is polled has nothing to do with the status. -/
structure Rests (s t : State) : Prop where
  poll : t.poll = s.poll
  status : t.status = s.status
  errors : t.errors = s.errors

theorem Rests.leaves {t : State} (h : Rests s t) (hj : s.Leaves j) : t.Leaves j := by
  cases j with
  | statusFetched _ _ => exact ⟨h.status.trans hj.1, h.errors ▸ hj.2⟩
  | statusFailed _ failure =>
    show t.errors.get .systemStatus = some failure
    rw [h.errors]
    exact hj
  | _ => cases hj

/-- No report is about a cycle any more once the first one is over. -/
theorem after_of_idle (hp : s.poll = Poll.firstOver) (hi : i.IsReport) : Rests s (s.after i) := by
  have hwanted : ∀ c, s.poll.accepts c = false := fun c => by
    rw [hp]
    exact Poll.not_accepts_firstOver c
  have hpoll : (s.after i).poll = s.poll := by
    rw [poll_after, hp]
    cases hi <;> rfl
  refine ⟨hpoll, ?_, ?_⟩
  · cases hi with
    | statusFetched c status | statusFailed c failure =>
      simp only [after, hwanted, Bool.false_eq_true, if_false]
      rfl
    | timerFired c | setMissing missing => rfl
  · cases hi with
    | statusFetched c status | statusFailed c failure =>
      simp only [after, hwanted, Bool.false_eq_true, if_false]
      rfl
    | timerFired c | setMissing missing => rfl

/-! ### The end of a cycle -/

/-- One of the intents ends the cycle `c` when it is applied. -/
def EndedBy (is : List Intent) (c : Cycle) (i : Intent) : Prop :=
  ∃ before after, is = before ++ i :: after ∧ (replay {} before).poll.Closes c i

theorem endedBy_concat :
    EndedBy (is ++ [j]) c i ↔ EndedBy is c i ∨ i = j ∧ (replay {} is).poll.Closes c j := by
  constructor
  · rintro ⟨before, after, hl, hc⟩
    rcases concat_eq_append_cons_iff.mp hl with ⟨rfl, rfl, -⟩ | ⟨rest, -, hl'⟩
    · exact .inr ⟨rfl, hc⟩
    · exact .inl ⟨before, rest, hl', hc⟩
  · rintro (⟨before, rest, rfl, hc⟩ | ⟨rfl, hc⟩)
    · exact ⟨before, rest ++ [j], by simp, hc⟩
    · exact ⟨is, [], rfl, hc⟩

theorem EndedBy.mem (h : EndedBy is c i) : i ∈ is := by
  obtain ⟨before, after, rfl, -⟩ := h
  exact List.mem_append_right _ List.mem_cons_self

theorem EndedBy.append (h : EndedBy is c i) (js : List Intent) : EndedBy (is ++ js) c i := by
  obtain ⟨before, after, rfl, hc⟩ := h
  exact ⟨before, after ++ js, by simp, hc⟩

/-- How a cycle stands that was opened once and never again: it is open, or one answer has ended
it and what that answer left is there still. -/
inductive SoleCycle (is : List Intent) : Prop
  | running (fetching : Bool) (hp : (replay {} is).poll = Poll.first fetching)
    (hnone : ∀ c i, ¬EndedBy is c i)
  | ended (i : Intent) (hp : (replay {} is).poll = Poll.firstOver) (hi : EndedBy is ⟨0⟩ i)
    (hreport : i.IsReport) (hsole : ∀ c j, EndedBy is c j → j = i)
    (hleft : (replay {} is).Leaves i)

theorem soleCycle_fetchStatus : SoleCycle [.fetchStatus] := by
  refine .running true rfl ?_
  rintro c i ⟨before, after, hl, hc⟩
  rcases before with - | ⟨j, before⟩
  · cases hl
    cases hc
  · simp at hl

/-- A report ends a cycle, or leaves it as it stands. -/
theorem SoleCycle.concat (h : SoleCycle is) (hi : i.IsReport) : SoleCycle (is ++ [i]) := by
  have hreplay : replay {} (is ++ [i]) = (replay {} is).after i := by
    rw [replay_append]
    rfl
  cases h with
  | running fetching hp hnone =>
    -- the report is the first that may end the cycle
    have hpoll : (replay {} (is ++ [i])).poll = (Poll.first fetching).after i := by
      rw [hreplay, poll_after, hp]
    rcases Poll.reported_cases hi fetching with ⟨hcloses, hover⟩ | ⟨hkept, fetching', hopen⟩
    · -- it does
      rw [← hp] at hcloses
      refine .ended i (hpoll.trans hover) (endedBy_concat.mpr (.inr ⟨rfl, hcloses⟩)) hi ?_ ?_
      · intro c j hj
        rcases endedBy_concat.mp hj with hj | ⟨rfl, -⟩
        · exact absurd hj (hnone c j)
        · rfl
      · rw [hreplay]
        exact leaves_after_of_closes hi hcloses
    · -- it does not, and none did before
      refine .running fetching' (hpoll.trans hopen) ?_
      intro c j hj
      rcases endedBy_concat.mp hj with hj | ⟨-, hcloses⟩
      · exact hnone c j hj
      · rw [hp] at hcloses
        exact hkept c hcloses
  | ended j hp hj hreport hsole hleft =>
    -- the report changes nothing, so what was left is there still
    have hrests := after_of_idle hp hi
    refine .ended j ?_ (hj.append [i]) hreport ?_ ?_
    · rw [hreplay, hrests.poll, hp]
    · intro c k hk
      rcases endedBy_concat.mp hk with hk | ⟨-, hcloses⟩
      · exact hsole c k hk
      · -- nothing is wanted any more
        rw [hp] at hcloses
        cases hcloses with
        | stopPolling | runStopped => cases hi
        | statusFetched wanted _ | statusFailed wanted _ =>
          rw [Poll.not_accepts_firstOver] at wanted
          cases wanted
    · rw [hreplay]
      exact hrests.leaves hleft

theorem SoleCycle.append {js : List Intent} (h : SoleCycle is) (hjs : ∀ j ∈ js, j.IsReport) :
    SoleCycle (is ++ js) := by
  induction js generalizing is with
  | nil => rwa [List.append_nil]
  | cons j js ih =>
    rw [List.forall_mem_cons] at hjs
    rw [List.append_cons]
    exact ih (h.concat hjs.1) hjs.2

/-- The counter stays at one. -/
theorem SoleCycle.opened (h : SoleCycle is) : (replay {} is).poll.opened = 1 := by
  cases h with
  | running _ hp _ | ended _ hp _ _ _ _ =>
    rw [hp]
    rfl

end State

end RunControl
