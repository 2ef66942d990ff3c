/-
RunControl/Proofs/Store/Draining.lean

A store to which nobody sends anything comes to rest.  `Store.work` measures how much there is to
be done before the timer goes off: an intent weighs more than whatever is sent on its account,
and a request more than the intents that it comes to.  So every step makes the work less, whether
an intent is applied (`work_applyNext_lt`) or a request is answered (`work_answer_lt`).

Polling alone could go on for ever, but not without the timer: between two fetches of a cycle
the timer goes off, and an answer starts no other fetch.
-/
import Mathlib.Algebra.GroupWithZero.Nat
import Mathlib.Algebra.Order.BigOperators.Group.List
import Mathlib.Algebra.Order.Group.Nat
import RunControl.Proofs.Store.Outstanding

namespace RunControl

/-! ### Weights -/

/-- How much work a request is at most. -/
def Resource.weight : Resource → Nat
  | .systemStatus => 2
  -- what these have changed is fetched once more
  | .createDevice | .editDevice | .deleteDevice => 14
  | _ => 7

/-- How much work an intent is at most. -/
def Intent.weight (i : Intent) : Nat :=
  if i.answers?.isSome then 1 else 3 + (i.asks?.map Resource.weight).getD 0

/-- How much work the requests among the effects are. -/
def Effect.weight (e : Effect) : Nat :=
  (e.resource?.map Resource.weight).getD 0

/-- What a request comes to weighs less than the request. -/
theorem weight_outcome_lt (q : Request) (answer : q.call.Answer) :
    ((outcome q answer).map Intent.weight).sum < q.resource.weight := by
  -- a fault asks for nothing, so it is light
  have failed : ∀ r e, ((failureIntents r e).map Intent.weight).sum < 7 := by
    intro r e
    simp only [failureIntents]
    split <;> simp [Intent.weight, Intent.answers?, Intent.asks?]
  have heavy : ∀ e, q.cycle? = none →
      ((failureIntents q.resource e).map Intent.weight).sum < q.resource.weight := by
    intro e hq
    refine Nat.lt_of_lt_of_le (failed _ e) ?_
    cases q with
    | systemStatus c => cases hq
    | createDevice _ | editDevice _ _ | deleteDevice _ => exact (by decide : 7 ≤ 14)
    | _ => exact Nat.le_refl 7
  cases q with
  | systemStatus c => cases answer <;> exact Nat.lt_add_one 1
  | interfaces | systemConfig | devices | riskProfiles | systemVersion | startRun _ =>
    cases answer with
    | ok a => exact (by decide : 3 < 7)
    | error e => exact heavy e rfl
  | stopRun =>
    -- the status is fetched once more
    cases answer with
    | ok a => exact (by decide : 6 < 7)
    | error e => exact heavy e rfl
  | createDevice _ | editDevice _ _ | deleteDevice _ =>
    -- the devices are fetched once more
    cases answer with
    | ok a => exact (by decide : 13 < 14)
    | error e => exact heavy e rfl

/-- In one turn polling sends one fetch at most, and none on account of an answer. -/
theorem Poll.Turn.weight_le {p q : Poll} {i : Intent} {as : List Poll.Action}
    (h : Poll.Turn p i q as) :
    (as.map fun a => (Effect.ofAction a).weight).sum ≤ if i.answers?.isSome then 0 else 2 := by
  cases h with
  | keep | ended _ answer | dropped _ answer => exact Nat.zero_le _
  | opened _ plain | superseded _ plain =>
    rw [plain.1]
    exact Nat.le_refl 2
  | refetched _ noAnswer =>
    rw [noAnswer]
    exact Nat.le_refl 2
  | answered _ answer | stopped _ stop | halted _ stop => exact Nat.zero_le _

/-- What is sent on account of an intent weighs less than the intent. -/
theorem State.weight_effects_lt (s : State) (i : Intent) :
    ((s.effects (s.after i) i).map Effect.weight).sum < i.weight := by
  -- what polling sends, and what the intent itself asks for
  have hp := (Poll.turn s.poll i).weight_le
  rw [← State.poll_after] at hp
  have hq : (((s.request? (s.after i) i).map Effect.send).toList.map Effect.weight).sum
      ≤ (i.asks?.map Resource.weight).getD 0 := by
    rcases ha : i.asks? with - | r
    · rw [request?_of_asks?_eq_none ha]
      exact Nat.le_refl _
    · obtain ⟨q, rfl, hq⟩ := request?_of_asks? ha
      rw [hq]
      split
      · exact Nat.zero_le _
      · exact Nat.le_refl _
  rw [State.effects, List.map_append, List.sum_append, List.map_map]
  change _ + ((Poll.actions _ _).map fun a => (Effect.ofAction a).weight).sum < _
  unfold Intent.weight
  rcases hi : i.answers? with - | c
  · simp only [hi, Option.isSome_none, Bool.false_eq_true, if_false] at hp ⊢
    omega
  · -- an answer asks for nothing
    have ha : i.asks? = none := by
      cases i <;> first | rfl | cases hi
    simp only [hi, ha, Option.isSome_some, if_true, Option.map_none, Option.getD_none] at hp hq ⊢
    omega

namespace Store

/-! ### The work of a store -/

/-- How much there is to be done at most before the timer goes off. -/
def work (s : Store) : Nat :=
  (s.queue.map Intent.weight).sum + (s.tasks.map fun t => t.request.resource.weight).sum

variable {s : Store} {i : Intent} {queue : List Intent}

theorem work_releaseFetch_le (s : Store) : s.releaseFetch.work ≤ s.work := by
  unfold releaseFetch
  split
  · exact Nat.le_refl _
  · exact Nat.add_le_add_left ((List.filter_sublist.map _).sum_le_sum fun _ _ => Nat.zero_le _) _

theorem work_carryOut_le (s : Store) (e : Effect) : (s.carryOut e).work ≤ s.work + e.weight := by
  cases e with
  | send q =>
    simp only [carryOut, issue, work, List.map_append, List.sum_append, List.map_singleton,
      List.sum_singleton]
    exact Nat.le_of_eq (Nat.add_assoc ..).symm
  | startTimer c =>
    have ht := (sameRequests_arm s c).tasks
    have hq : (s.arm c).queue = s.queue := queue_releaseTimer (s.note (.armed s.interval))
    simp only [carryOut, work, ht, hq]
    exact Nat.le_add_right ..
  | stopTimer =>
    have ht := (sameRequests_releaseTimer s).tasks
    simp only [carryOut, work, ht, queue_releaseTimer]
    exact Nat.le_add_right ..
  | abandonFetch => exact work_releaseFetch_le s

theorem work_foldl_carryOut_le (es : List Effect) (s : Store) :
    (es.foldl carryOut s).work ≤ s.work + (es.map Effect.weight).sum := by
  induction es generalizing s with
  | nil => exact Nat.le_refl _
  | cons e es ih =>
    calc ((e :: es).foldl carryOut s).work
        ≤ (s.carryOut e).work + (es.map Effect.weight).sum := ih _
      _ ≤ s.work + e.weight + (es.map Effect.weight).sum :=
        Nat.add_le_add_right (work_carryOut_le s e) _
      _ = s.work + ((e :: es).map Effect.weight).sum := by
        rw [List.map_cons, List.sum_cons, Nat.add_assoc]

theorem work_publish (s : Store) : s.publish.work = s.work := by
  unfold publish; split <;> rfl

/-- An intent that is applied leaves less work than there was. -/
theorem work_applyNext_lt (h : s.queue = i :: queue) : s.applyNext.work < s.work := by
  have hw : s.work = i.weight + { s with queue }.work := by
    simp only [work, h, List.map_cons, List.sum_cons, Nat.add_assoc]
  rw [applyNext_of_queue h, hw, apply]
  refine Nat.lt_of_le_of_lt (work_foldl_carryOut_le _ _) ?_
  rw [work_publish, Nat.add_comm]
  exact Nat.add_lt_add_right (s.state.weight_effects_lt i) _

theorem work_sendAll_le (is : List Intent) (s : Store) :
    (s.sendAll is).work ≤ s.work + (is.map Intent.weight).sum := by
  induction is generalizing s with
  | nil => exact Nat.le_refl _
  | cons i is ih =>
    have hs : (s.send i).work ≤ s.work + i.weight := by
      unfold send
      split
      · exact Nat.le_add_right ..
      · simp only [work, List.map_append, List.sum_append, List.map_singleton, List.sum_singleton]
        omega
    calc (s.sendAll (i :: is)).work
        ≤ (s.send i).work + (is.map Intent.weight).sum := ih _
      _ ≤ s.work + i.weight + (is.map Intent.weight).sum := Nat.add_le_add_right hs _
      _ = s.work + ((i :: is).map Intent.weight).sum := by
        rw [List.map_cons, List.sum_cons, Nat.add_assoc]

/-- Without one task there is less work. -/
theorem weight_filter_number_le {task : Task} {tasks : List Task} (ht : task ∈ tasks) :
    ((tasks.filter (·.number != task.number)).map fun t => t.request.resource.weight).sum
      + task.request.resource.weight ≤ (tasks.map fun t => t.request.resource.weight).sum := by
  induction tasks with
  | nil => cases ht
  | cons t tasks ih =>
    have hle : ((tasks.filter (·.number != task.number)).map fun t => t.request.resource.weight).sum
        ≤ (tasks.map fun t => t.request.resource.weight).sum :=
      (List.filter_sublist.map _).sum_le_sum fun _ _ => Nat.zero_le _
    rw [List.map_cons, List.sum_cons]
    rcases List.mem_cons.mp ht with rfl | ht
    · rw [List.filter_cons_of_neg (by simp)]
      omega
    · have ih := ih ht
      rw [List.filter_cons]
      split
      · rw [List.map_cons, List.sum_cons]
        omega
      · omega

theorem work_start (s : Store) (task : Task) : (s.start task).work = s.work := by
  unfold start work note
  rw [List.map_map]
  congr 2
  refine List.map_congr_left fun t _ => ?_
  simp only [Function.comp_apply]
  split <;> rfl

/-- A request that is answered leaves less work than there was. -/
theorem work_finish_lt {task : Task} (ht : task ∈ s.tasks) (answer : task.request.call.Answer) :
    (s.finish task answer).work < s.work := by
  have ho := weight_outcome_lt task.request answer
  have hf := weight_filter_number_le ht
  refine Nat.lt_of_le_of_lt (work_sendAll_le _ _) ?_
  simp only [work]
  omega

/-- So does one that is sent and answered at once. -/
theorem work_answer_lt {task : Task} (ht : task ∈ s.tasks) (answer : task.request.call.Answer) :
    ((s.start task).finish task answer).work < s.work := by
  let begun : Task := { task with begun := true }
  have hm : begun ∈ (s.start task).tasks := List.mem_map.mpr ⟨task, ht, by simp [begun]⟩
  have hlt : ((s.start task).finish task answer).work < (s.start task).work :=
    work_finish_lt hm answer
  rwa [work_start] at hlt

end Store

end RunControl
