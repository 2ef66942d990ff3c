/-
RunControl/Proofs/Cli/Writes.lean

What is written to the backend.  A call is a write if it changes something there, which is to say
that it is no fetch.  A write is first a wish in the queue, then a request that waits to be sent,
and at last a request that was sent; `PlainSide.writes` lists all of them.

No move behind a command adds to that list.  It takes a wish to a request or drops it, and it
takes a request to where it is sent or gives it up (`PlainSide.Step.writes`), for what requests
come to and what the timer says are no wishes of this kind.  So a command writes no more than it
has wished for, whatever the backend answers and in whatever order things happen.

As long as a command has not wished for a write, the devices in the state are those that the
backend has returned, or there are none (`Browsing`).  After it has wished for one that such
devices allow, this one is all that may be sent (`Ordered`).
-/
import Mathlib.Data.List.Perm.Subperm
import RunControl.Proofs.Cli.Mandate
import RunControl.Proofs.State.Roster

namespace RunControl

/-! ### Writes -/

/-- Whether a call changes something on the backend. -/
def Call.isWrite (call : Call) : Bool :=
  call.method != .get

namespace Intent

/-- The write that an intent asks for. -/
def write? : Intent → Option Call
  | .startRun device => some (.startRun device)
  | .stopRun => some .stopRun
  | .createDevice device => some (.createDevice device)
  | .editDevice address device => some (.editDevice address device)
  | .deleteDevice device => some (.deleteDevice device)
  | _ => none

variable {i : Intent}

theorem IsReport.write? (h : i.IsReport) : i.write? = none := by
  cases h <;> rfl

/-- What a request comes to is no wish for a write. -/
theorem write?_of_mem_outcome {q : Request} {answer : q.call.Answer} (h : i ∈ outcome q answer) :
    i.write? = none := by
  rcases mem_outcome_cases h with hs | ⟨m, rfl⟩ | rfl | rfl
  · cases i <;> first | rfl | cases hs
  · rfl
  · rfl
  · rfl

/-- An intent that asks for no write and brings nothing. -/
structure Harmless (i : Intent) : Prop where
  write : i.write? = none
  status : i.status? = none
  devices : ∀ devices, State.devicesAfter devices i = devices

/-- A wish for a write brings nothing either. -/
theorem status?_of_write? {call : Call} (h : i.write? = some call) : i.status? = none := by
  cases i <;> first | rfl | cases h

end Intent

/-- The request that an intent sends is a write only if the intent asks for it. -/
theorem State.write?_of_request? {s t : State} {i : Intent} {q : Request}
    (h : s.request? t i = some q) (hq : q.call.isWrite = true) : i.write? = some q.call := by
  cases i with
  | fetchInterfaces | fetchConfig | fetchDevices | fetchProfiles | fetchVersion =>
    cases h
    cases hq
  | startRun _ | stopRun | createDevice _ | editDevice _ _ | deleteDevice _ =>
    obtain ⟨-, ⟨⟩⟩ := Option.ite_none_right_eq_some.mp h
    rfl
  | _ => cases h

namespace Cli

/-- The write that is sent. -/
def Happening.write? : Happening → Option Call
  | sent call _ => if call.isWrite then some call else none
  | _ => none

/-- The writes that were sent. -/
def writesOf (hs : List Happening) : List Call :=
  hs.filterMap Happening.write?

@[simp] theorem writesOf_append (hs hs' : List Happening) :
    writesOf (hs ++ hs') = writesOf hs ++ writesOf hs' :=
  List.filterMap_append

/-- A write is a plain request. -/
theorem writesOf_of_plain {hs : List Happening} (h : plain hs = []) : writesOf hs = [] := by
  refine List.filterMap_eq_nil_iff.mpr fun happening hm => ?_
  have hp := List.filter_eq_nil_iff.mp h happening hm
  cases happening with
  | sent call q =>
    cases call with
    | systemStatus => rfl
    | _ => exact absurd rfl hp
  | answered _ _ | applied _ => rfl

end Cli

/-- The write that waits to be sent. -/
def Task.write? (task : Task) : Option Call :=
  if !task.begun && task.request.call.isWrite then some task.request.call else none

theorem Task.write?_of_begun {task : Task} (h : task.begun = true) : task.write? = none := by
  simp [write?, h]

/-- A task that has begun waits no longer, and another one is left alone. -/
theorem Task.write?_mark (number : Nat) (task : Task) :
    (task.mark number).write? = if task.number = number then none else task.write? := by
  unfold mark
  split
  · exact Task.write?_of_begun rfl
  · rfl

theorem filterMap_cons_append {α β : Type} (f : α → Option β) (a : α) (l : List α) :
    (a :: l).filterMap f = (f a).toList ++ l.filterMap f := by
  cases h : f a with
  | none => exact List.filterMap_cons_none h
  | some b => exact List.filterMap_cons_some h

/-- The writes that wait are no more when a task has begun. -/
theorem sublist_filterMap_mark (number : Nat) (tasks : List Task) :
    ((tasks.map (Task.mark number)).filterMap Task.write?).Sublist
      (tasks.filterMap Task.write?) := by
  induction tasks with
  | nil => exact List.Sublist.refl _
  | cons task tasks ih =>
    rw [List.map_cons, filterMap_cons_append, filterMap_cons_append, Task.write?_mark]
    split
    · exact (List.nil_sublist _).append ih
    · exact (List.Sublist.refl _).append ih

/-- The write of the task that begins no longer waits. -/
theorem subperm_filterMap_mark {tasks : List Task} {task : Task} (h : task ∈ tasks) :
    (task.write?.toList ++ (tasks.map (Task.mark task.number)).filterMap Task.write?).Subperm
      (tasks.filterMap Task.write?) := by
  obtain ⟨before, after, rfl⟩ := List.append_of_mem h
  rw [List.map_append, List.map_cons, List.filterMap_append, List.filterMap_append,
    filterMap_cons_append, filterMap_cons_append, Task.write?_mark, if_pos rfl]
  -- it comes to the place where the task stands
  have hswap : (task.write?.toList ++ ((before.map (Task.mark task.number)).filterMap Task.write?
      ++ (after.map (Task.mark task.number)).filterMap Task.write?)).Perm
      ((before.map (Task.mark task.number)).filterMap Task.write? ++ (task.write?.toList
        ++ (after.map (Task.mark task.number)).filterMap Task.write?)) := by
    rw [← List.append_assoc, ← List.append_assoc]
    exact List.perm_append_comm.append_right _
  have hrest : ((before.map (Task.mark task.number)).filterMap Task.write? ++ (task.write?.toList
      ++ (after.map (Task.mark task.number)).filterMap Task.write?)).Sublist
      (before.filterMap Task.write? ++ (task.write?.toList ++ after.filterMap Task.write?)) :=
    (sublist_filterMap_mark _ before).append
      ((List.Sublist.refl _).append (sublist_filterMap_mark _ after))
  exact hswap.subperm.trans hrest.subperm

namespace Cli

namespace PlainSide

variable {c : Client} {w w' : PlainSide}

/-- The writes that were sent, those that wait to be sent, and those that are wished for. -/
def writes (w : PlainSide) : List Call :=
  writesOf w.happened ++ (w.tasks.filterMap Task.write? ++ w.queue.filterMap Intent.write?)

theorem subperm_writes {hs : List Happening} {tasks tasks' : List Task} {queue queue' : List Intent}
    {happened : List Happening} {state state' : State} {applied applied' : Nat}
    (h : (writesOf hs ++ (tasks'.filterMap Task.write? ++ queue'.filterMap Intent.write?)).Subperm
      (tasks.filterMap Task.write? ++ queue.filterMap Intent.write?)) :
    (PlainSide.writes ⟨happened ++ hs, queue', state', applied', tasks'⟩).Subperm
      (PlainSide.writes ⟨happened, queue, state, applied, tasks⟩) := by
  show (writesOf (happened ++ hs) ++ _).Subperm (writesOf happened ++ _)
  rw [writesOf_append, List.append_assoc]
  exact (List.subperm_append_left _).mpr h

/-- No move behind a command adds a write. -/
theorem Step.writes (h : Step c w w') : w'.writes.Subperm w.writes := by
  obtain ⟨happened, queue, state, applied, tasks⟩ := w
  cases h with
  | @apply i queue' number hq =>
    obtain rfl : queue = i :: queue' := hq
    refine subperm_writes ?_
    -- the wish becomes the request, if it is one for a write
    have hsent : ((((state.request? (state.after i) i).map fun q =>
        ({ number, request := q } : Task)).toList).filterMap Task.write?).Sublist
          i.write?.toList := by
      rcases hr : state.request? (state.after i) i with - | q
      · exact List.nil_sublist _
      · rcases hw : q.call.isWrite with - | -
        · simp [Task.write?, hw]
        · simp [Task.write?, hw, State.write?_of_request? hr hw]
    rw [List.filterMap_append, filterMap_cons_append, List.append_assoc]
    exact ((hsent.append (List.Sublist.refl _)).append_left _).subperm
  | report hs is hp hi =>
    -- reports wish for nothing
    refine subperm_writes ?_
    have hnone : is.filterMap Intent.write? = [] :=
      List.filterMap_eq_nil_iff.mpr fun i hm => (hi i hm).write?
    rw [writesOf_of_plain hp, List.filterMap_append, hnone, List.append_nil]
    exact List.Subperm.refl _
  | @call task q hm hb hq =>
    -- the request goes from those that wait to those that were sent
    refine subperm_writes ?_
    have hsent : writesOf [.sent task.request.call q] = task.write?.toList := by
      rcases hw : task.request.call.isWrite with - | -
      · simp [writesOf, Happening.write?, Task.write?, hw]
      · simp [writesOf, Happening.write?, Task.write?, hw, hb]
    rw [hsent, ← List.append_assoc]
    exact (List.subperm_append_right _).mpr (subperm_filterMap_mark hm)
  | @answer task q hm hb hq r =>
    -- the task goes, and what it comes to wishes for nothing
    refine subperm_writes ?_
    have hnone : (outcome task.request (Client.answer task.request.call q r)).filterMap
        Intent.write? = [] :=
      List.filterMap_eq_nil_iff.mpr fun i hi => Intent.write?_of_mem_outcome hi
    rw [List.filterMap_append, hnone, List.append_nil]
    exact ((List.filter_sublist.filterMap _).append (List.Sublist.refl _)).subperm
  | @giveUp task fault hm hb =>
    -- likewise, and nothing was sent
    have hnone : (outcome task.request (.error fault)).filterMap Intent.write? = [] :=
      List.filterMap_eq_nil_iff.mpr fun i hi => Intent.write?_of_mem_outcome hi
    show (writesOf happened ++ (_ ++ (queue ++ _).filterMap Intent.write?)).Subperm _
    rw [List.filterMap_append, hnone, List.append_nil]
    refine (List.subperm_append_left _).mpr ?_
    exact ((List.filter_sublist.filterMap _).append (List.Sublist.refl _)).subperm

end PlainSide

/-! ### Before a write is wished for -/

/-- The devices are those that the backend has returned, or there are none yet. -/
def Returned (hs : List Happening) (devices : List Device) : Prop :=
  devices = [] ∨ Replied hs .devices devices

theorem Returned.append {hs : List Happening} {devices : List Device} (h : Returned hs devices)
    (hs' : List Happening) : Returned (hs ++ hs') devices :=
  h.imp_right (·.mono (List.subset_append_left ..))

/-- An intent that asks for no write, and with which no other devices come to the state than
those that the backend has returned. -/
structure Offered (hs : List Happening) (i : Intent) : Prop where
  write : i.write? = none
  devices : ∀ devices, State.devicesAfter devices i = devices ∨
    Replied hs .devices (State.devicesAfter devices i)

variable {c : Client} {hs hs' : List Happening} {i : Intent} {w w' : PlainSide}

theorem Offered.append (h : Offered hs i) (hs' : List Happening) : Offered (hs ++ hs') i :=
  ⟨h.write, fun devices => (h.devices devices).imp_right (·.mono (List.subset_append_left ..))⟩

theorem offered_of_isReport (hi : i.IsReport) : Offered hs i :=
  ⟨hi.write?, fun devices => .inl (by cases hi <;> rfl)⟩

/-- The devices have come from the backend after such an intent if they had before. -/
theorem Returned.after {s : State} (h : Returned hs s.devices) (hi : Offered hs i) :
    Returned hs (s.after i).devices := by
  rw [State.devices_after]
  rcases hi.devices s.devices with hd | hd
  · rwa [hd]
  · exact .inr hd

/-- The request that such an intent sends is no write. -/
theorem Offered.isWrite_request? (h : Offered hs i) {s t : State} {q : Request}
    (hr : s.request? t i = some q) : q.call.isWrite = false := by
  refine Bool.eq_false_iff.mpr fun hw => ?_
  have hwish : i.write? = some q.call := State.write?_of_request? hr hw
  rw [h.write] at hwish
  cases hwish

/-- What a fetch comes to, if its replies have come from the backend. -/
theorem offered_of_mem_outcome {q : Request} {answer : q.call.Answer}
    (hq : q.call.isWrite = false) (hanswer : ∀ reply, answer = .ok reply → Replied hs q.call reply)
    (hi : i ∈ outcome q answer) : Offered hs i := by
  refine ⟨Intent.write?_of_mem_outcome hi, fun devices => ?_⟩
  -- what tells of a failure leaves the devices alone
  have failed : ∀ r e, i ∈ failureIntents r e → State.devicesAfter devices i = devices := by
    intro r e hi
    simp only [failureIntents] at hi
    split at hi
    · rcases List.mem_cons.mp hi with rfl | hi
      · rfl
      · rw [List.mem_singleton.mp hi]
        rfl
    · rw [List.mem_singleton.mp hi]
      rfl
  cases q with
  | devices =>
    cases answer with
    | ok roster =>
      rw [List.mem_singleton.mp hi]
      exact .inr (hanswer roster rfl)
    | error e => exact .inl (failed _ e hi)
  | systemStatus c =>
    cases answer <;> rw [List.mem_singleton.mp hi] <;> exact .inl rfl
  | interfaces | systemConfig | riskProfiles | systemVersion =>
    cases answer with
    | ok reply =>
      rw [List.mem_singleton.mp hi]
      exact .inl rfl
    | error e => exact .inl (failed _ e hi)
  | _ => cases hq

/-- Nothing has been written, and nothing is going to be; the devices in the state have come from
the backend. -/
structure Browsing (w : PlainSide) : Prop where
  devices : Returned w.happened w.state.devices
  queue : ∀ i ∈ w.queue, Offered w.happened i
  tasks : ∀ task ∈ w.tasks, task.request.call.isWrite = false
  sent : writesOf w.happened = []

namespace Browsing

theorem writes_eq_nil (h : Browsing w) : w.writes = [] := by
  have htasks : w.tasks.filterMap Task.write? = [] :=
    List.filterMap_eq_nil_iff.mpr fun task hm => by simp [Task.write?, h.tasks task hm]
  have hqueue : w.queue.filterMap Intent.write? = [] :=
    List.filterMap_eq_nil_iff.mpr fun i hm => (h.queue i hm).write
  rw [PlainSide.writes, h.sent, htasks, hqueue]
  rfl

/-- Something happens, and intents come to the queue. -/
theorem more {is : List Intent} (h : Browsing w) (hs : List Happening) {tasks : List Task}
    (hsent : writesOf hs = []) (his : ∀ i ∈ is, Offered (w.happened ++ hs) i)
    (htasks : ∀ task ∈ tasks, task.request.call.isWrite = false) :
    Browsing { w with happened := w.happened ++ hs, queue := w.queue ++ is, tasks } where
  devices := h.devices.append hs
  queue := List.forall_mem_append.mpr ⟨fun i hi => (h.queue i hi).append hs, his⟩
  tasks := htasks
  sent := by rw [writesOf_append, h.sent, hsent]; rfl

/-- Whatever happens behind a command that has wished for no write, nothing is written: requests
are no writes, and what they come to brings the devices that the backend has returned. -/
theorem step (h : Browsing w) (hstep : PlainSide.Step c w w') : Browsing w' := by
  have hdropped : ∀ number, ∀ task ∈ w.tasks.filter (·.number != number),
      task.request.call.isWrite = false :=
    fun number task hm => h.tasks task (List.mem_of_mem_filter hm)
  cases hstep with
  | @apply i queue number hq =>
    have hqueue := h.queue
    rw [hq, List.forall_mem_cons] at hqueue
    refine ⟨(h.devices.after hqueue.1).append _, fun j hj => (hqueue.2 j hj).append _, ?_, ?_⟩
    · -- the intent sends one request at most
      refine List.forall_mem_append.mpr ⟨h.tasks, fun task hm => ?_⟩
      rcases hr : w.state.request? (w.state.after i) i with - | q
      · rw [hr] at hm
        cases hm
      · rw [hr] at hm
        obtain rfl := List.mem_singleton.mp hm
        exact hqueue.1.isWrite_request? hr
    · rw [writesOf_append, h.sent]
      rfl
  | report hs is hp hi =>
    exact h.more hs (writesOf_of_plain hp) (fun i hm => offered_of_isReport (hi i hm)) h.tasks
  | @call task q hm hb hq =>
    -- what is sent is no write, and the tasks ask for the same as before
    have hsent : writesOf [.sent task.request.call q] = [] := by
      simp [writesOf, Happening.write?, h.tasks task hm]
    have htasks : ∀ u ∈ w.tasks.map (Task.mark task.number), u.request.call.isWrite = false := by
      intro u hu
      obtain ⟨v, hv, rfl⟩ := List.mem_map.mp hu
      rw [Task.request_mark]
      exact h.tasks v hv
    have hmore := h.more [.sent task.request.call q] hsent (List.forall_mem_nil _) htasks
    rwa [List.append_nil] at hmore
  | @answer task q hm hb hq r =>
    -- the answer has just come, so its devices have been returned
    refine h.more [.answered task.request.call r] rfl (fun i hi => ?_) (hdropped task.number)
    refine offered_of_mem_outcome (h.tasks task hm) (fun reply ha => ?_) hi
    cases r with
    | none => cases ha
    | some r => exact ⟨r, List.mem_append_right _ (List.mem_singleton_self _), ha⟩
  | @giveUp task fault hm hb =>
    -- a fault brings no devices
    have hfailed : ∀ i ∈ outcome task.request (.error fault), Offered w.happened i := by
      intro i hi
      refine offered_of_mem_outcome (h.tasks task hm) (fun reply ha => ?_) hi
      cases ha
    have hmore := h.more [] rfl (fun i hi => (hfailed i hi).append []) (hdropped task.number)
    rwa [List.append_nil] at hmore

end Browsing

/-! ### After a write was wished for -/

variable {may : List Device → Call → Prop} {devices : List Device} {call : Call}

/-- Devices that the backend has returned allow a write. -/
def Allowed (may : List Device → Call → Prop) (hs : List Happening) (call : Call) : Prop :=
  ∃ devices, Returned hs devices ∧ may devices call

theorem Allowed.append (h : Allowed may hs call) (hs' : List Happening) :
    Allowed may (hs ++ hs') call := by
  obtain ⟨devices, hreturned, hmay⟩ := h
  exact ⟨devices, hreturned.append hs', hmay⟩

/-- One write has been wished for, and it was allowed. -/
def Ordered (may : List Device → Call → Prop) (w : PlainSide) : Prop :=
  ∃ call, w.writes.Subperm [call] ∧ Allowed may w.happened call

theorem PlainSide.Step.happened (h : Step c w w') : ∃ hs, w'.happened = w.happened ++ hs := by
  cases h with
  | giveUp _ _ _ => exact ⟨[], (List.append_nil _).symm⟩
  | _ => exact ⟨_, rfl⟩

/-- What was wished for stays allowed, and no move adds a write. -/
theorem Ordered.step (h : Ordered may w) (hstep : PlainSide.Step c w w') : Ordered may w' := by
  obtain ⟨call, hwrites, hallowed⟩ := h
  obtain ⟨hs, hhappened⟩ := hstep.happened
  refine ⟨call, hstep.writes.trans hwrites, ?_⟩
  rw [hhappened]
  exact hallowed.append hs

/-- A write that waits to be sent is the one that was wished for. -/
theorem Ordered.allowed (h : Ordered may w) {task : Task} (hm : task ∈ w.tasks)
    (hb : task.begun = false) (hw : task.request.call.isWrite = true) :
    Allowed may w.happened task.request.call := by
  obtain ⟨call, hwrites, hallowed⟩ := h
  have htask : task.write? = some task.request.call := by simp [Task.write?, hb, hw]
  have hmem : task.request.call ∈ w.writes :=
    List.mem_append_right _ (List.mem_append_left _ (List.mem_filterMap.mpr ⟨task, hm, htask⟩))
  rwa [List.mem_singleton.mp (hwrites.subset hmem)]

end Cli

end RunControl
