/-
RunControl/Proofs/Cli/PlainSide.lean

The part of a session that has to do with plain requests, which are all requests but the fetches
of the status (`Scene.plainSide`).  Every move behind a command is one of few on this part
(`PlainSide.Step`): an intent is applied, reports come to the queue on account of polling, or
something happens to a plain request.  So what is said about the plain requests of a command is
proved over `PlainSide`, and need not look into the fetches of the status or the timer.
-/
import RunControl.Proofs.Cli.Replies
import RunControl.Proofs.Store.PlainTasks

namespace RunControl

namespace Cli

/-! ### Plain happenings -/

/-- Whether something happens to a plain request. -/
def Happening.isPlain : Happening → Bool
  | sent call _ => call.isPlain
  | answered call _ => call.isPlain
  | applied _ => false

/-- What has happened to plain requests. -/
def plain (hs : List Happening) : List Happening :=
  hs.filter Happening.isPlain

@[simp] theorem plain_append (hs hs' : List Happening) :
    plain (hs ++ hs') = plain hs ++ plain hs' :=
  List.filter_append ..

/-! ### The plain side -/

/-- The part of a session that has to do with plain requests. -/
structure PlainSide where
  happened : List Happening
  queue : List Intent
  state : State
  applied : Nat
  tasks : List Task

/-- The part of a session that has to do with plain requests. -/
def Scene.plainSide (x : Scene) : PlainSide where
  happened := x.happened
  queue := x.store.queue
  state := x.store.state
  applied := x.store.applied
  tasks := x.store.plainTasks

/-- What a move behind a command does to the plain side. -/
inductive PlainSide.Step (c : Client) (w : PlainSide) : PlainSide → Prop
  /-- The first intent of the queue is applied. -/
  | apply {i : Intent} {queue : List Intent} (number : Nat) (h : w.queue = i :: queue) :
    Step c w
      { happened := w.happened ++ [.applied i]
        queue
        state := w.state.after i
        applied := w.applied + 1
        tasks := w.tasks ++ ((w.state.request? (w.state.after i) i).map fun q =>
          ({ number, request := q } : Task)).toList }
  /-- Something happens that has to do with polling. -/
  | report (hs : List Happening) (is : List Intent) (hp : plain hs = [])
    (hi : ∀ i ∈ is, i.IsReport) :
    Step c w { w with happened := w.happened ++ hs, queue := w.queue ++ is }
  /-- A plain request is sent. -/
  | call {task : Task} {q : Http.Request} (h : task ∈ w.tasks) (hb : task.begun = false)
    (hq : c.request? task.request.call = .ok q) :
    Step c w
      { w with
        happened := w.happened ++ [.sent task.request.call q]
        tasks := w.tasks.map (Task.mark task.number) }
  /-- A plain request is answered. -/
  | answer {task : Task} {q : Http.Request} (h : task ∈ w.tasks) (hb : task.begun = true)
    (hq : c.request? task.request.call = .ok q) (r : Option Http.Response) :
    Step c w
      { w with
        happened := w.happened ++ [.answered task.request.call r]
        queue := w.queue ++ outcome task.request (Client.answer task.request.call q r)
        tasks := w.tasks.filter (·.number != task.number) }
  /-- There is no request for a plain call. -/
  | giveUp {task : Task} (fault : Fault) (h : task ∈ w.tasks) (hb : task.begun = false) :
    Step c w
      { w with
        queue := w.queue ++ outcome task.request (.error fault)
        tasks := w.tasks.filter (·.number != task.number) }

variable {c : Client} {x : Scene} {hs : List Happening} {store : Store}

theorem plain_singleton_of_not {h : Happening} (hp : h.isPlain = false) : plain [h] = [] :=
  List.filter_eq_nil_iff.mpr fun g hg => by
    rw [List.mem_singleton.mp hg, hp]
    exact Bool.false_ne_true

/-- A move that leaves the plain requests and the state alone. -/
theorem PlainSide.Step.of_report {is : List Intent} (hp : plain hs = [])
    (hi : ∀ i ∈ is, i.IsReport) (hqueue : store.queue = x.store.queue ++ is)
    (hstate : store.state = x.store.state) (happlied : store.applied = x.store.applied)
    (htasks : store.plainTasks = x.store.plainTasks) :
    PlainSide.Step c x.plainSide (x.moved hs store).plainSide := by
  have h := PlainSide.Step.report (c := c) (w := x.plainSide) hs is hp hi
  simp only [Scene.plainSide, Scene.moved] at h ⊢
  rwa [hqueue, hstate, happlied, htasks]

/-- The mark of a task is of no account when the task leaves. -/
theorem filter_map_mark (number : Nat) (tasks : List Task) :
    (tasks.map (Task.mark number)).filter (·.number != number)
      = tasks.filter (·.number != number) := by
  rw [List.filter_map]
  refine (List.map_congr_left fun u hu => ?_).trans
    ((List.map_id _).trans (List.filter_congr fun u _ => ?_))
  · have hn := (List.mem_filter.mp hu).2
    rw [Function.comp_apply, Task.number_mark, bne_iff_ne] at hn
    exact if_neg hn
  · rw [Function.comp_apply, Task.number_mark]

/-- Every move behind a command is one of the list.  What happens to a fetch of the status is a
report, and what happens to any other request is a step of its own. -/
theorem Move.plainSide (hheld : x.store.Held) (h : Move c x.store hs store) :
    PlainSide.Step c x.plainSide (x.moved hs store).plainSide := by
  have ho := hheld.isOpen
  cases h with
  | @apply i queue hq =>
    have hstate : x.store.applyNext.state = x.store.state.after i := by
      rw [Store.applyNext_of_queue hq, Store.state_apply]
    have happlied : x.store.applyNext.applied = x.store.applied + 1 := by
      rw [Store.applyNext_of_queue hq, Store.applied_apply]
    have h := PlainSide.Step.apply (c := c) (w := x.plainSide) x.store.sent hq
    simp only [Scene.plainSide, Scene.moved] at h ⊢
    rwa [Store.queue_applyNext hq, hstate, happlied, Store.plainTasks_applyNext hheld hq]
  | @call task q hm hb hq =>
    rcases hp : task.request.call.isPlain with - | -
    · -- a fetch of the status begins, and no plain task is marked
      refine .of_report (plain_singleton_of_not hp) (List.forall_mem_nil _)
        (List.append_nil _).symm rfl rfl ?_
      rw [Store.plainTasks_start, Store.map_mark_of_not_isPlain hheld hm hp]
    · have h := PlainSide.Step.call (w := x.plainSide) (Store.mem_plainTasks.mpr ⟨hm, hp⟩) hb hq
      simp only [Scene.plainSide, Scene.moved] at h ⊢
      rwa [Store.plainTasks_start]
  | @answer task q hm hb hq r =>
    have hqueue := Store.queue_finish ho task (Client.answer task.request.call q r)
    have hstate : (x.store.finish task (Client.answer task.request.call q r)).state
        = x.store.state := Store.state_finish ..
    have happlied : (x.store.finish task (Client.answer task.request.call q r)).applied
        = x.store.applied := congrArg Front.applied (Store.front_finish ..)
    rcases hp : task.request.call.isPlain with - | -
    · -- a fetch of the status is answered with reports, and no plain task leaves
      refine .of_report (plain_singleton_of_not hp) (isReport_of_mem_outcome hp _) hqueue hstate
        happlied ?_
      rw [Store.plainTasks_finish, Store.filter_number_of_not_isPlain hheld hm hp]
    · have h := PlainSide.Step.answer (w := x.plainSide) (Store.mem_plainTasks.mpr ⟨hm, hp⟩) hb hq r
      simp only [Scene.plainSide, Scene.moved] at h ⊢
      rwa [hqueue, hstate, happlied, Store.plainTasks_finish]
  | @giveUp task fault hm hb hq =>
    have hqueue := Store.queue_finish (s := x.store.start task) ho task (.error fault)
    have hstate : ((x.store.start task).finish task (.error fault)).state
        = x.store.state := Store.state_finish ..
    have happlied : ((x.store.start task).finish task (.error fault)).applied
        = x.store.applied := congrArg Front.applied (Store.front_finish ..)
    rcases hp : task.request.call.isPlain with - | -
    · refine .of_report rfl (isReport_of_mem_outcome hp _) hqueue hstate happlied ?_
      rw [Store.plainTasks_finish, Store.plainTasks_start, filter_map_mark,
        Store.filter_number_of_not_isPlain hheld hm hp]
    · have h := PlainSide.Step.giveUp (c := c) (w := x.plainSide) fault
        (Store.mem_plainTasks.mpr ⟨hm, hp⟩) hb
      simp only [Scene.plainSide, Scene.moved] at h ⊢
      rwa [hqueue, hstate, happlied, Store.plainTasks_finish, Store.plainTasks_start,
        filter_map_mark, List.append_nil]
  | @fire alarm hm =>
    have hqueue : (x.store.fire alarm).queue = x.store.queue ++ [.timerFired alarm.what] :=
      congrArg PollSide.queue (Store.pollSide_fire ho alarm)
    refine .of_report rfl ?_ hqueue (Store.state_send _ _)
      (congrArg Front.applied (Store.front_send _ _)) ?_
    · exact List.forall_mem_singleton.mpr (.timerFired _)
    · exact congrArg (List.filter _) (Store.sameRequests_send _ _).tasks
  | advance ms =>
    exact .of_report rfl (List.forall_mem_nil _) (List.append_nil _).symm
      rfl rfl rfl

/-! ### What a command sends -/

/-- What a command sends comes to the end of the queue. -/
theorem Sound.queue_sendAll (h : Sound x) (is : List Intent) :
    (x.store.sendAll is).queue = x.store.queue ++ is :=
  congrArg PollSide.queue (Store.pollSide_sendAll h.held.isOpen is)

/-- Besides the queue, a command leaves the plain side alone. -/
theorem Scene.plainSide_sendAll (h : Sound x) (is : List Intent) :
    (x.sendAll is).plainSide = { x.plainSide with queue := x.plainSide.queue ++ is } := by
  have happlied : (x.store.sendAll is).applied = x.store.applied :=
    congrArg Front.applied (Store.front_sendAll _ _)
  simp only [Scene.plainSide, Scene.sendAll]
  rw [h.queue_sendAll, happlied, Store.state_sendAll, Store.plainTasks_sendAll]

end Cli

end RunControl
