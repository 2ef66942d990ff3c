/-
RunControl/Proofs/Store/PlainTasks.lean

The plain requests that are under way, which are all but the fetches of the status.  When an
intent is applied, the plain request that it sends comes to them, and no other is new
(`Store.plainTasks_applyNext`).

When the store gives up a fetch of the status, no plain request is lost, because the store keeps
hold of nothing else (`Store.Held`).
-/
import RunControl.Proofs.State.Asides
import RunControl.Proofs.Store.Outstanding

namespace RunControl

/-! ### Plain requests -/

/-- A call that is no fetch of the status. -/
def Call.isPlain (call : Call) : Bool :=
  call != .systemStatus

theorem Call.isPlain_iff {call : Call} : call.isPlain = true ↔ call.resource ≠ .systemStatus := by
  cases call <;> simp [isPlain, resource]

theorem Request.isPlain_call (q : Request) : q.call.isPlain = q.cycle?.isNone := by
  cases q <;> rfl

/-- A fetch of the status comes to reports. -/
theorem isReport_of_mem_outcome {q : Request} (hq : q.call.isPlain = false)
    (answer : q.call.Answer) : ∀ i ∈ outcome q answer, i.IsReport := by
  intro i hi
  cases q with
  | systemStatus c =>
    cases answer with
    | ok status =>
      rw [List.mem_singleton.mp hi]
      exact .statusFetched ..
    | error e =>
      rw [List.mem_singleton.mp hi]
      exact .statusFailed ..
  | _ => cases hq

/-- The task with a number has begun. -/
def Task.mark (number : Nat) (task : Task) : Task :=
  if task.number = number then { task with begun := true } else task

@[simp] theorem Task.number_mark (number : Nat) (task : Task) :
    (task.mark number).number = task.number := by
  unfold mark; split <;> rfl

@[simp] theorem Task.request_mark (number : Nat) (task : Task) :
    (task.mark number).request = task.request := by
  unfold mark; split <;> rfl

namespace Store

/-- The plain requests that are under way. -/
def plainTasks (s : Store) : List Task :=
  s.tasks.filter (·.request.call.isPlain)

variable {s : Store} {task : Task} {i : Intent} {queue : List Intent}

theorem mem_plainTasks : task ∈ s.plainTasks ↔ task ∈ s.tasks ∧ task.request.call.isPlain = true :=
  List.mem_filter

theorem plainTasks_sendAll (s : Store) (is : List Intent) :
    (s.sendAll is).plainTasks = s.plainTasks := by
  rw [plainTasks, (sameRequests_sendAll s is).tasks]
  rfl

theorem plainTasks_start (s : Store) (task : Task) :
    (s.start task).plainTasks = s.plainTasks.map (Task.mark task.number) := by
  show (s.tasks.map (Task.mark task.number)).filter (·.request.call.isPlain) = _
  rw [List.filter_map]
  congr 1
  refine List.filter_congr fun u _ => ?_
  rw [Function.comp_apply, Task.request_mark]

theorem plainTasks_finish (s : Store) (task : Task) (answer : task.request.call.Answer) :
    (s.finish task answer).plainTasks = s.plainTasks.filter (·.number != task.number) := by
  rw [finish, plainTasks_sendAll]
  exact List.filter_comm ..

/-- No plain request has the number of a fetch of the status. -/
theorem number_ne_of_not_isPlain (h : s.Held) (hm : task ∈ s.tasks)
    (hp : task.request.call.isPlain = false) : ∀ u ∈ s.plainTasks, u.number ≠ task.number := by
  intro u hu hn
  obtain ⟨hu, hup⟩ := mem_plainTasks.mp hu
  rw [h.task_eq hu hm hn, hp] at hup
  cases hup

theorem map_mark_of_not_isPlain (h : s.Held) (hm : task ∈ s.tasks)
    (hp : task.request.call.isPlain = false) :
    s.plainTasks.map (Task.mark task.number) = s.plainTasks := by
  refine (List.map_congr_left fun u hu => ?_).trans (List.map_id _)
  exact if_neg (number_ne_of_not_isPlain h hm hp u hu)

theorem filter_number_of_not_isPlain (h : s.Held) (hm : task ∈ s.tasks)
    (hp : task.request.call.isPlain = false) :
    s.plainTasks.filter (·.number != task.number) = s.plainTasks :=
  List.filter_eq_self.mpr fun u hu => bne_iff_ne.mpr (number_ne_of_not_isPlain h hm hp u hu)

/-- What polling asks for leaves the plain requests alone. -/
theorem plainTasks_foldl_ofAction (h : s.Held) (as : List Poll.Action) :
    ((as.map Effect.ofAction).foldl carryOut s).plainTasks = s.plainTasks := by
  induction as generalizing s with
  | nil => rfl
  | cons a as ih =>
    refine (ih (h.carryOut _)).trans ?_
    cases a with
    | fetch c => exact (List.filter_append ..).trans (List.append_nil _)
    | startTimer c =>
      exact congrArg (List.filter _) (sameRequests_arm s c).tasks
    | stopTimer => exact congrArg (List.filter _) (sameRequests_releaseTimer s).tasks
    | abandonFetch =>
      show s.releaseFetch.plainTasks = s.plainTasks
      unfold releaseFetch
      split
      · rfl
      · next n hn =>
        refine (List.filter_comm ..).trans (List.filter_eq_self.mpr fun u hu => ?_)
        obtain ⟨hu, hup⟩ := mem_plainTasks.mp hu
        rw [bne_iff_ne]
        rintro rfl
        -- the store keeps hold of fetches of the status alone
        exact Call.isPlain_iff.mp hup (h.isFetch u hu hn)

/-- The plain request that an intent sends is the only one that is new. -/
theorem plainTasks_applyNext (h : s.Held) (hq : s.queue = i :: queue) :
    s.applyNext.plainTasks = s.plainTasks ++
      ((s.state.request? (s.state.after i) i).map fun q =>
        ({ number := s.sent, request := q } : Task)).toList := by
  have hu := (h.update (s.state.after i) queue (s.applied + 1)).publish
  rw [applyNext_of_queue hq, apply, State.effects, List.foldl_append]
  rcases hr : s.state.request? (s.state.after i) i with - | q
  · refine (plainTasks_foldl_ofAction hu _).trans ?_
    refine (congrArg (List.filter _) (sameRequests_publish _).tasks).trans ?_
    exact (List.append_nil _).symm
  · refine (plainTasks_foldl_ofAction (hu.issue q) _).trans ?_
    have hp : q.call.isPlain = true := by
      rw [Request.isPlain_call, State.cycle?_of_request? hr]
      rfl
    let t : Store := { s with queue, state := s.state.after i, applied := s.applied + 1 }
    have hsame : SameRequests t t.publish := sameRequests_publish t
    show (t.publish.tasks ++ [({ number := t.publish.sent, request := q } : Task)]).filter _ = _
    rw [hsame.tasks, hsame.sent, List.filter_append, List.filter_singleton]
    simp only [hp, Option.map_some, Option.toList_some]
    rfl

end Store

end RunControl
