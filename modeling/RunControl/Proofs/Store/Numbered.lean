/-
RunControl/Proofs/Store/Numbered.lean

The numbers of requests.  A store gives every request it sends the next number,
so no two tasks have the same one (`Numbered.task_eq`), and dropping the task
with a number drops that task alone.  Every step keeps it so (`Numbered.step`):
only `issue` adds a task, and every other operation leaves the numbers alone or
takes some away.
-/
import Mathlib.Data.List.Nodup
import RunControl.Proofs.Store.Run

namespace RunControl

namespace Store

/-- The numbers of the tasks, in the order in which they were sent. -/
def numbers (s : Store) : List Nat :=
  s.tasks.map (·.number)

/-- A store that takes intents, and gives its tasks one number each. -/
structure Numbered (s : Store) : Prop where
  isOpen : s.isClosed = false
  lt_sent : ∀ n ∈ s.numbers, n < s.sent
  nodup : s.numbers.Nodup

variable {s t : Store}

theorem Numbered.task_eq (h : s.Numbered) {u v : Task} (hu : u ∈ s.tasks) (hv : v ∈ s.tasks)
    (hn : u.number = v.number) : u = v :=
  List.inj_on_of_nodup_map h.nodup hu hv hn

theorem numbered_initial (interval : Nat) : (initial interval).Numbered :=
  ⟨rfl, by simp [numbers, initial], by simp [numbers, initial]⟩

/-! ### Operations that add no number -/

/-- `t` is what is left of `s` when it comes to numbers. -/
structure Thins (s t : Store) : Prop where
  isClosed : t.isClosed = s.isClosed
  sent : t.sent = s.sent
  numbers : t.numbers.Sublist s.numbers

theorem Thins.refl (s : Store) : Thins s s :=
  ⟨rfl, rfl, List.Sublist.refl _⟩

theorem Thins.trans {u : Store} (h : Thins s t) (h' : Thins t u) : Thins s u :=
  ⟨h'.isClosed.trans h.isClosed, h'.sent.trans h.sent, h'.numbers.trans h.numbers⟩

theorem Numbered.thins (h : s.Numbered) (ht : Thins s t) : t.Numbered where
  isOpen := ht.isClosed.trans h.isOpen
  lt_sent n hn := ht.sent ▸ h.lt_sent n (ht.numbers.subset hn)
  nodup := h.nodup.sublist ht.numbers

theorem thins_filter (s : Store) (p : Task → Bool) : Thins s { s with tasks := s.tasks.filter p } :=
  ⟨rfl, rfl, List.filter_sublist.map _⟩

theorem thins_publish (s : Store) : Thins s s.publish := by
  unfold publish; split <;> exact ⟨rfl, rfl, List.Sublist.refl _⟩

theorem thins_releaseTimer (s : Store) : Thins s s.releaseTimer := by
  unfold releaseTimer; split <;> exact ⟨rfl, rfl, List.Sublist.refl _⟩

theorem thins_releaseFetch (s : Store) : Thins s s.releaseFetch := by
  unfold releaseFetch
  split
  · exact .refl s
  · exact ⟨rfl, rfl, List.filter_sublist.map _⟩

theorem thins_arm (s : Store) (c : Cycle) : Thins s (s.arm c) := by
  have h := thins_releaseTimer (s.note (.armed s.interval))
  exact ⟨h.isClosed, h.sent, h.numbers⟩

theorem thins_send (s : Store) (i : Intent) : Thins s (s.send i) := by
  unfold send; split <;> exact ⟨rfl, rfl, List.Sublist.refl _⟩

theorem thins_sendAll (s : Store) (is : List Intent) : Thins s (s.sendAll is) := by
  induction is generalizing s with
  | nil => exact .refl s
  | cons i is ih => exact (thins_send s i).trans (ih (s.send i))

theorem thins_start (s : Store) (task : Task) : Thins s (s.start task) := by
  refine ⟨rfl, rfl, ?_⟩
  have hn : (s.start task).numbers = s.numbers := by
    unfold start numbers note
    rw [List.map_map]
    refine List.map_congr_left fun u _ => ?_
    simp only [Function.comp_apply]
    split <;> rfl
  rw [hn]

/-! ### Steps -/

theorem Numbered.issue (h : s.Numbered) (q : Request) : (s.issue q).Numbered := by
  -- the new number is as large as no number before
  have hn : (s.issue q).numbers = s.numbers ++ [s.sent] := by simp [Store.issue, numbers]
  refine ⟨h.isOpen, ?_, ?_⟩
  · rw [hn]
    intro n hm
    change n < s.sent + 1
    rcases List.mem_append.mp hm with hm | hm
    · exact Nat.lt_succ_of_lt (h.lt_sent n hm)
    · rw [List.mem_singleton.mp hm]
      exact Nat.lt_succ_self _
  · rw [hn]
    refine List.nodup_append.mpr ⟨h.nodup, List.nodup_singleton _, ?_⟩
    intro n hm m hs
    rw [List.mem_singleton.mp hs]
    exact Nat.ne_of_lt (h.lt_sent n hm)

theorem Numbered.carryOut (h : s.Numbered) (e : Effect) : (s.carryOut e).Numbered := by
  cases e with
  | send q => exact h.issue q
  | startTimer c => exact h.thins (thins_arm s c)
  | stopTimer => exact h.thins (thins_releaseTimer s)
  | abandonFetch => exact h.thins (thins_releaseFetch s)

theorem Numbered.foldl_carryOut (h : s.Numbered) (es : List Effect) :
    (es.foldl Store.carryOut s).Numbered := by
  induction es generalizing s with
  | nil => exact h
  | cons e es ih => exact ih (h.carryOut e)

theorem Numbered.apply (h : s.Numbered) (i : Intent) : (s.apply i).Numbered := by
  refine Numbered.foldl_carryOut (Numbered.thins ?_ (thins_publish _)) _
  exact ⟨h.isOpen, h.lt_sent, h.nodup⟩

theorem Numbered.step {admits : Intent → Prop} {is : List Intent} (h : s.Numbered)
    (hs : Step admits s is t) : t.Numbered := by
  cases hs with
  | send _ => exact h.thins (thins_send s _)
  | start _ => exact h.thins (thins_start s _)
  | finish _ answer => exact (h.thins (thins_filter s _)).thins (thins_sendAll _ _)
  | fire _ =>
    refine Numbered.thins ?_ (thins_send _ _)
    exact ⟨h.isOpen, h.lt_sent, h.nodup⟩
  | advance ms => exact ⟨h.isOpen, h.lt_sent, h.nodup⟩
  | apply hq =>
    rw [applyNext_of_queue hq]
    refine Numbered.apply ?_ _
    exact ⟨h.isOpen, h.lt_sent, h.nodup⟩

end Store

end RunControl
