/-
RunControl/Proofs/Cycles.lean

The cycles that a list of intents opens, in the order in which it opens them
(`State.cycles`).  The state itself keeps no such list, only a counter of 64
bits; `State.cycles_eq` says what the counter is good for: the cycles are
numbered 0, 1, 2, … modulo 2 ^ 64.  As long as fewer than 2 ^ 64 have been
opened, the number of a new cycle is therefore larger than every older one
(`State.mem_cycles_iff`), and a cycle that is not open any more is never opened
again (`State.current?_replay_ne`).
-/
import Mathlib.Data.List.Induction
import Mathlib.Data.List.Nodup
import RunControl.Proofs.Polling

namespace RunControl

/-! ### The open cycle -/

namespace Poll

theorem current?_eq_some_iff {p : Poll} {c : Cycle} :
    p.current? = some c ↔ ∃ fetching, p.phase = .polling c fetching := by
  unfold current?
  cases p.phase <;> simp

theorem Newest.after {p : Poll} (h : p.Newest) (i : Intent) : (p.after i).Newest := by
  cases i with
  | fetchStatus => exact h.request
  | runStarted device status => exact h.request
  | statusFetched c status => exact h.complete ..
  | statusFailed c failure => exact h.complete ..
  | setStatus status =>
    simp only [Poll.after]
    split
    · exact h
    · exact h.request
  | timerFired c => exact h.tick c
  | stopPolling => exact h.stop
  | runStopped => exact h.stop
  | _ => exact h

end Poll

namespace State

theorem newest_replay {s : State} (h : s.poll.Newest) (is : List Intent) :
    (s.replay is).poll.Newest := by
  induction is generalizing s with
  | nil => exact h
  | cons i is ih =>
    refine ih ?_
    rw [poll_after]
    exact h.after i

/-! ### The cycles that are opened -/

/-- The cycle that an intent opens: one that is open after it while none was
before. -/
def opened? (s : State) (i : Intent) : Option Cycle :=
  if s.poll.isPolling then none else (s.after i).poll.current?

/-- The cycles that a list of intents opens, in order. -/
def cycles (s : State) : List Intent → List Cycle
  | [] => []
  | i :: is => (s.opened? i).toList ++ (s.after i).cycles is

theorem cycles_append (s : State) (is js : List Intent) :
    s.cycles (is ++ js) = s.cycles is ++ (s.replay is).cycles js := by
  induction is generalizing s with
  | nil => rfl
  | cons i is ih => simp only [List.cons_append, cycles, ih, replay_cons, List.append_assoc]

theorem cycles_concat (s : State) (is : List Intent) (i : Intent) :
    s.cycles (is ++ [i]) = s.cycles is ++ ((s.replay is).opened? i).toList := by
  rw [cycles_append]
  simp [cycles]

/-- Either an intent opens the cycle that the counter names, or it leaves the
counter alone and opens none. -/
theorem opened?_cases (s : State) (i : Intent) :
    (s.opened? i = some ⟨s.poll.opened⟩ ∧ (s.after i).poll = s.poll.openCycle) ∨
      (s.opened? i = none ∧ (s.after i).poll.opened = s.poll.opened ∧
        (∀ c, (s.after i).poll.current? = some c → s.poll.current? = some c) ∧
        ∀ c, (s.after i).poll.phase.cycle? = some c → s.poll.phase.cycle? = some c) := by
  unfold opened?
  rw [poll_after]
  have ht := Poll.turn s.poll i
  generalize Poll.actions s.poll (s.poll.after i) = as at ht
  generalize s.poll.after i = q at ht ⊢
  -- only the two turns that open a cycle raise the counter
  cases ht with
  | keep =>
    right
    cases h : s.poll.phase <;> simp [Poll.isPolling, Poll.current?, h]
  | opened h => left; simp [Poll.isPolling, Poll.current?, Poll.openCycle, h]
  | superseded h => left; simp [Poll.isPolling, Poll.current?, Poll.openCycle, h]
  | refetched h | answered h | ended h | stopped h | halted h | dropped h =>
    right
    simp [Poll.isPolling, Poll.current?, Phase.cycle?, h]

/-- The cycle that the phase names was opened last. -/
theorem getLast?_cycles {is : List Intent} {c : Cycle}
    (h : (State.replay {} is).poll.phase.cycle? = some c) :
    (State.cycles {} is).getLast? = some c := by
  induction is using List.reverseRecOn with
  | nil => cases h
  | append_singleton is i ih =>
    rw [replay_append] at h
    rw [cycles_concat]
    obtain ⟨ho, hp⟩ | ⟨ho, -, -, hc⟩ := (State.replay {} is).opened?_cases i
    · have hl : (State.replay (State.replay {} is) [i]).poll = _ := hp
      rw [hl] at h
      rw [ho, ← h]
      simp [Poll.openCycle, Phase.cycle?]
    · rw [ho]
      simpa using ih (hc c h)

theorem getLast?_cycles_of_current? {is : List Intent} {c : Cycle}
    (h : (State.replay {} is).poll.current? = some c) :
    (State.cycles {} is).getLast? = some c := by
  obtain ⟨fetching, hp⟩ := Poll.current?_eq_some_iff.mp h
  exact getLast?_cycles (by rw [hp]; rfl)

/-! ### What the counter is good for -/

/-- The counter counts the cycles that are opened, modulo 2 ^ 64. -/
theorem opened_replay (s : State) (is : List Intent) :
    (s.replay is).poll.opened = s.poll.opened + UInt64.ofNat (s.cycles is).length := by
  induction is generalizing s with
  | nil => simp [cycles]
  | cons i is ih =>
    rw [replay_cons, ih, cycles]
    obtain ⟨ho, hp⟩ | ⟨ho, hp, -⟩ := s.opened?_cases i
    · rw [ho, hp]
      have hn : (Option.toList (some (⟨s.poll.opened⟩ : Cycle)) ++ (s.after i).cycles is).length
          = 1 + ((s.after i).cycles is).length := by simp [Nat.add_comm]
      rw [hn, UInt64.ofNat_add, ← UInt64.add_assoc]
      rfl
    · rw [ho, hp]
      simp

/-- The cycles are numbered in the order in which they are opened. -/
theorem cycles_eq (s : State) (is : List Intent) :
    s.cycles is =
      (List.range (s.cycles is).length).map fun n => ⟨s.poll.opened + UInt64.ofNat n⟩ := by
  induction is generalizing s with
  | nil => rfl
  | cons i is ih =>
    rw [cycles]
    obtain ⟨ho, hp⟩ | ⟨ho, hp, -⟩ := s.opened?_cases i
    · -- the cycles that come later are numbered from the next number on
      have hs : (s.after i).poll.opened = s.poll.opened + 1 := by rw [hp]; rfl
      have hf : ∀ n, s.poll.opened + UInt64.ofNat (n + 1)
          = s.poll.opened + 1 + UInt64.ofNat n := by
        intro n
        rw [Nat.add_comm, UInt64.ofNat_add, ← UInt64.add_assoc]
        rfl
      have h0 : s.poll.opened + UInt64.ofNat 0 = s.poll.opened := by simp
      rw [ho, Option.toList_some, List.singleton_append, List.length_cons,
        List.range_succ_eq_map, List.map_cons, List.map_map, h0]
      simp only [Function.comp_def, hf, ← hs]
      exact congrArg _ (ih (s.after i))
    · rw [ho, ← hp]
      exact ih _

section
variable {is : List Intent} {c : Cycle}

/-- Before the counter comes to its end it is the number of opened cycles. -/
theorem opened_replay_toNat (h : (State.cycles {} is).length < UInt64.size) :
    (State.replay {} is).poll.opened.toNat = (State.cycles {} is).length := by
  rw [opened_replay, show (State.poll {}).opened = 0 from rfl, UInt64.zero_add,
    UInt64.toNat_ofNat_of_lt' h]

/-- Before the counter comes to its end, the cycles that have been opened are
those with a smaller number. -/
theorem mem_cycles_iff (h : (State.cycles {} is).length < UInt64.size) :
    c ∈ State.cycles {} is ↔ c.number < (State.replay {} is).poll.opened := by
  rw [UInt64.lt_iff_toNat_lt, opened_replay_toNat h, cycles_eq]
  simp only [List.mem_map, List.mem_range, List.length_map, List.length_range,
    UInt64.zero_add]
  constructor
  · rintro ⟨n, hn, rfl⟩
    rwa [UInt64.toNat_ofNat_of_lt' (Nat.lt_trans hn h)]
  · intro hc
    exact ⟨c.number.toNat, hc, by simp⟩

/-- Before the counter comes to its end, no cycle is opened twice. -/
theorem nodup_cycles (h : (State.cycles {} is).length < UInt64.size) :
    (State.cycles {} is).Nodup := by
  rw [cycles_eq]
  refine List.Nodup.map_on ?_ List.nodup_range
  intro m hm n hn hmn
  have hm' : m < UInt64.size := Nat.lt_trans (List.mem_range.mp hm) h
  have hn' : n < UInt64.size := Nat.lt_trans (List.mem_range.mp hn) h
  have hu : UInt64.ofNat m = UInt64.ofNat n := by simpa using congrArg Cycle.number hmn
  have ht := congrArg UInt64.toNat hu
  rwa [UInt64.toNat_ofNat_of_lt' hm', UInt64.toNat_ofNat_of_lt' hn'] at ht

end

theorem length_cycles_le (s : State) (is js : List Intent) :
    (s.cycles is).length ≤ (s.cycles (is ++ js)).length := by
  rw [cycles_append, List.length_append]
  exact Nat.le_add_right ..

theorem length_cycles_lt_of_append {s : State} {is js : List Intent} {n : Nat}
    (h : (s.cycles (is ++ js)).length < n) : (s.cycles is).length < n :=
  Nat.lt_of_le_of_lt (length_cycles_le s is js) h

/-! ### A cycle that is over is over for good -/

theorem current?_after_ne {s : State} {c : Cycle} (hlt : c.number < s.poll.opened)
    (hne : s.poll.current? ≠ some c) (i : Intent) : (s.after i).poll.current? ≠ some c := by
  intro h
  obtain ⟨-, hp⟩ | ⟨-, -, hc, -⟩ := s.opened?_cases i
  · rw [hp] at h
    obtain rfl : (⟨s.poll.opened⟩ : Cycle) = c := Option.some.inj h
    exact UInt64.lt_irrefl _ hlt
  · exact hne (hc c h)

/-- A cycle that was opened and is not open any more is never opened again. -/
theorem current?_replay_ne {c : Cycle} {is js : List Intent}
    (h : (State.cycles {} (is ++ js)).length < UInt64.size) (hc : c ∈ State.cycles {} is)
    (hne : (State.replay {} is).poll.current? ≠ some c) :
    (State.replay {} (is ++ js)).poll.current? ≠ some c := by
  -- one intent after the other: each opens the cycle that the counter names, or none
  induction js generalizing is with
  | nil => simpa using hne
  | cons j js ih =>
    rw [List.append_cons] at h ⊢
    have hi := length_cycles_lt_of_append (length_cycles_lt_of_append h)
    refine ih h ?_ ?_
    · rw [cycles_append]
      exact List.mem_append_left _ hc
    · rw [replay_append]
      exact current?_after_ne ((mem_cycles_iff hi).mp hc) hne j

end State

end RunControl
