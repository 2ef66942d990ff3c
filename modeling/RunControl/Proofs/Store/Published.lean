/-
RunControl/Proofs/Store/Published.lean

What the store publishes.  A state is published unless it compares equal to the one that was
published last.  The values of a configuration or of a profile that are kept as they are
compare number by number, and the two zeros are equal as numbers; so what is published is the
state of the store, or a state that the program does not tell apart from it (`State.Alike`).
States that are alike agree in everything else (`State.Alike.eq_but_kept`).

Nothing but `publish` changes what is published, and the effects of an intent leave alone
whatever a caller can tell of the store (`Store.Front`).
-/
import RunControl.Proofs.Store.Run

namespace RunControl

namespace State

/-- The program does not tell the states apart. -/
def Alike (s t : State) : Prop :=
  s = t ∨ (s == t) = true

/-- States that are alike differ at most in values that are kept as they are. -/
theorem Alike.eq_but_kept {s t : State} (h : s.Alike t) :
    { s with config := t.config, profiles := t.profiles } = t := by
  rcases h with rfl | h
  · rfl
  · change instBEqState.beq s t = true at h
    unfold instBEqState.beq at h
    simp only [Bool.and_eq_true, beq_iff_eq] at h
    -- the two conditions left out compare the configuration and the profiles
    obtain ⟨hroles, hhost, hcheck, hmissing, -, hdevices, hhas, htest, -, hprofiles, hstatus,
      hversion, hpoll, hloading, herrors, hinterface⟩ := h
    cases s
    cases t
    simp_all

theorem Alike.loading_eq {s t : State} (h : s.Alike t) : s.loading = t.loading := by
  rw [← h.eq_but_kept]

theorem Alike.errors_eq {s t : State} (h : s.Alike t) : s.errors = t.errors := by
  rw [← h.eq_but_kept]

end State

/-- What a caller can tell of the store without waiting. -/
structure Front where
  published : State
  applied : Nat
  isClosed : Bool

namespace Store

/-- What a caller can tell of a store. -/
def front (s : Store) : Front where
  published := s.published
  applied := s.applied
  isClosed := s.isClosed

theorem front_releaseTimer (s : Store) : s.releaseTimer.front = s.front := by
  unfold releaseTimer; split <;> rfl

theorem front_releaseFetch (s : Store) : s.releaseFetch.front = s.front := by
  unfold releaseFetch; split <;> rfl

theorem front_foldl_carryOut (es : List Effect) (s : Store) :
    (es.foldl carryOut s).front = s.front := by
  induction es generalizing s with
  | nil => rfl
  | cons e es ih =>
    rw [List.foldl_cons, ih]
    cases e with
    | send q => rfl
    | startTimer c => exact front_releaseTimer (s.note (.armed s.interval))
    | stopTimer => exact front_releaseTimer s
    | abandonFetch => exact front_releaseFetch s

theorem front_send (s : Store) (i : Intent) : (s.send i).front = s.front := by
  unfold send; split <;> rfl

theorem front_sendAll (s : Store) (is : List Intent) : (s.sendAll is).front = s.front := by
  induction is generalizing s with
  | nil => rfl
  | cons i is ih => exact (ih (s.send i)).trans (front_send s i)

theorem front_finish (s : Store) (task : Task) (answer : task.request.call.Answer) :
    (s.finish task answer).front = s.front :=
  front_sendAll ..

theorem alike_publish (s : Store) : s.publish.published.Alike s.state := by
  unfold publish
  split
  · next h => exact .inr h
  · exact .inl rfl

/-- After an intent, what is published is the state of the store. -/
theorem alike_apply (s : Store) (i : Intent) : (s.apply i).published.Alike (s.apply i).state := by
  have hp : (s.apply i).published
      = (publish { s with state := s.state.after i, applied := s.applied + 1 }).published :=
    congrArg Front.published (front_foldl_carryOut _ _)
  rw [hp, state_apply]
  exact alike_publish { s with state := s.state.after i, applied := s.applied + 1 }

theorem applied_apply (s : Store) (i : Intent) : (s.apply i).applied = s.applied + 1 := by
  refine (congrArg Front.applied (front_foldl_carryOut _ _)).trans ?_
  unfold publish; split <;> rfl

theorem isClosed_applyNext (s : Store) : s.applyNext.isClosed = s.isClosed := by
  unfold applyNext
  split
  · rfl
  · refine (congrArg Front.isClosed (front_foldl_carryOut _ _)).trans ?_
    unfold publish; split <;> rfl

theorem isClosed_eq_of_front {s t : Store} (h : t.front = s.front) : t.isClosed = s.isClosed :=
  congrArg Front.isClosed h

theorem state_close (s : Store) : s.close.state = s.state := by
  unfold close
  split
  · rfl
  · exact (state_releaseFetch _).trans (state_releaseTimer _)

/-- The end of the store changes nothing else that a caller can tell. -/
theorem front_close (s : Store) : s.close.front = { s.front with isClosed := true } := by
  have hreleased : s.releaseTimer.releaseFetch.front = s.front :=
    (front_releaseFetch _).trans (front_releaseTimer _)
  unfold close
  split
  · next hclosed =>
    rw [← hclosed]
    rfl
  · rw [← hreleased]
    rfl

theorem isClosed_close (s : Store) : s.close.isClosed = true :=
  congrArg Front.isClosed s.front_close

theorem not_isOpen_close (s : Store) : s.close.isClosed ≠ false :=
  ne_of_eq_of_ne s.isClosed_close (by decide)

/-- The store has applied a list of intents, and publishes what they have come to. -/
structure Publishes (s : Store) (is : List Intent) : Prop where
  state : s.state = State.replay {} is
  published : s.published.Alike s.state
  applied : s.applied = is.length

namespace Publishes

variable {s t : Store} {is queue : List Intent} {i : Intent}

theorem of_front (h : s.Publishes is) (hs : t.state = s.state) (hf : t.front = s.front) :
    t.Publishes is where
  state := hs.trans h.state
  published := by
    have hp : t.published = s.published := congrArg Front.published hf
    rw [hp, hs]
    exact h.published
  applied := (congrArg Front.applied hf).trans h.applied

theorem apply (h : s.Publishes is) (i : Intent) : (s.apply i).Publishes (is ++ [i]) where
  state := by rw [state_apply, h.state, State.replay_append]; rfl
  published := alike_apply s i
  applied := by rw [applied_apply, h.applied, List.length_append]; rfl

theorem applyNext (h : s.Publishes is) (hq : s.queue = i :: queue) :
    s.applyNext.Publishes (is ++ [i]) := by
  have hs : Publishes { s with queue } is := h.of_front rfl rfl
  rw [applyNext_of_queue hq]
  exact hs.apply i

/-- What is published is the replay of the intents. -/
theorem alike_replay (h : s.Publishes is) : s.published.Alike (State.replay {} is) :=
  h.state ▸ h.published

end Publishes

end Store

end RunControl
