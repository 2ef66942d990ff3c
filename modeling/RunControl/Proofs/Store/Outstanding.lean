/-
RunControl/Proofs/Store/Outstanding.lean

How many requests are outstanding.  A request is outstanding from the step that sends
it until the intent is applied that settles it: first it is under way, then that
intent is in the queue.  `Store.outstanding` counts both.

Sending a request adds one, an answer leaves the number as it is, and what is applied
takes away what it settles (`Step.outstanding`).  When the store gives up a status
fetch, no other request is lost, because it keeps hold of nothing else (`Held`).

If what settles a resource comes from requests alone, its mark in `loading` tells the
number (`Run.outstanding_eq`): one while the mark is set and none otherwise.  For a
command this is always so, because a command that is under way is not sent again; for
a fetch it is so as long as the fetch is not repeated (`Repeats`).
-/
import RunControl.Proofs.State.Requests
import RunControl.Proofs.Store.PollSide

namespace RunControl

/-- What the request is about that is to be sent. -/
def Effect.resource? : Effect → Option Resource
  | .send q => some q.resource
  | _ => none

namespace Store

/-- How many requests about a resource are outstanding: under way, or answered by an
intent that is still in the queue. -/
def outstanding (s : Store) (r : Resource) : Nat :=
  s.tasks.countP (fun t => t.request.resource = r) + s.queue.countP (fun i => i.settles? = some r)

variable {s t : Store} {r : Resource} {i : Intent}

/-! ### Operations that leave the requests alone -/

/-- The requests that are under way are the same in `t` as in `s`. -/
structure SameRequests (s t : Store) : Prop where
  tasks : t.tasks = s.tasks
  heldFetch : t.heldFetch = s.heldFetch
  sent : t.sent = s.sent

theorem SameRequests.refl (s : Store) : SameRequests s s :=
  ⟨rfl, rfl, rfl⟩

theorem SameRequests.trans {u : Store} (h : SameRequests s t) (h' : SameRequests t u) :
    SameRequests s u :=
  ⟨h'.tasks.trans h.tasks, h'.heldFetch.trans h.heldFetch, h'.sent.trans h.sent⟩

theorem sameRequests_publish (s : Store) : SameRequests s s.publish := by
  unfold publish; split <;> exact ⟨rfl, rfl, rfl⟩

theorem sameRequests_releaseTimer (s : Store) : SameRequests s s.releaseTimer := by
  unfold releaseTimer; split <;> exact ⟨rfl, rfl, rfl⟩

theorem sameRequests_arm (s : Store) (c : Cycle) : SameRequests s (s.arm c) := by
  have h := sameRequests_releaseTimer (s.note (.armed s.interval))
  exact ⟨h.tasks, h.heldFetch, h.sent⟩

theorem sameRequests_send (s : Store) (i : Intent) : SameRequests s (s.send i) := by
  unfold send; split <;> exact ⟨rfl, rfl, rfl⟩

theorem sameRequests_sendAll (s : Store) (is : List Intent) : SameRequests s (s.sendAll is) := by
  induction is generalizing s with
  | nil => exact .refl s
  | cons i is ih => exact (sameRequests_send s i).trans (ih (s.send i))

theorem SameRequests.outstanding (h : SameRequests s t) (hq : t.queue = s.queue) (r : Resource) :
    t.outstanding r = s.outstanding r := by
  rw [Store.outstanding, h.tasks, hq]
  rfl

/-! ### What the store keeps hold of -/

/-- The task that the store keeps hold of is a status fetch, unless it is over. -/
structure Held (s : Store) : Prop extends Numbered s where
  heldFetch_lt_sent : ∀ n, s.heldFetch = some n → n < s.sent
  isFetch : ∀ t ∈ s.tasks, s.heldFetch = some t.number → t.request.resource = .systemStatus

theorem held_initial (interval : Nat) : (initial interval).Held :=
  ⟨numbered_initial interval, nofun, nofun⟩

/-- Requests may leave, and the store may let go of its fetch. -/
theorem Held.of_subset (h : s.Held) (hn : t.Numbered) (hs : t.sent = s.sent)
    (hh : ∀ n, t.heldFetch = some n → s.heldFetch = some n)
    (ht : ∀ v ∈ t.tasks, ∃ u ∈ s.tasks, u.number = v.number ∧ u.request = v.request) :
    t.Held := by
  refine ⟨hn, ?_, ?_⟩
  · intro n hn
    rw [hs]
    exact h.heldFetch_lt_sent n (hh n hn)
  · intro v hv hv'
    obtain ⟨u, hu, hnum, hreq⟩ := ht v hv
    rw [← hreq]
    exact h.isFetch u hu (hnum ▸ hh _ hv')

theorem Held.sameRequests (h : s.Held) (hn : t.Numbered) (hs : SameRequests s t) : t.Held := by
  refine h.of_subset hn hs.sent (fun n hn => hs.heldFetch ▸ hn) ?_
  intro v hv
  rw [hs.tasks] at hv
  exact ⟨v, hv, rfl, rfl⟩

/-- If a request is issued, the store keeps hold of it, or of what it kept hold of before. -/
theorem Held.issue (h : s.Held) (q : Request) : (s.issue q).Held := by
  have hlt : ∀ n, (s.issue q).heldFetch = some n → n = s.sent ∧ q.cycle?.isSome = true ∨
      s.heldFetch = some n := by
    intro n hn
    simp only [Store.issue] at hn
    split at hn
    · next hc => exact .inl ⟨(Option.some.inj hn).symm, hc⟩
    · exact .inr hn
  refine ⟨h.toNumbered.issue q, ?_, ?_⟩
  · intro n hn
    change n < s.sent + 1
    rcases hlt n hn with ⟨rfl, -⟩ | hn
    · exact Nat.lt_succ_self _
    · exact Nat.lt_succ_of_lt (h.heldFetch_lt_sent n hn)
  · intro v hv hh
    rcases List.mem_append.mp hv with hv | hv
    · -- an older request has a smaller number than the new one
      have hne : v.number < s.sent := h.lt_sent _ (List.mem_map_of_mem hv)
      rcases hlt _ hh with ⟨he, -⟩ | hh
      · exact absurd he (Nat.ne_of_lt hne)
      · exact h.isFetch v hv hh
    · -- the new one: if the store keeps hold of it, it is a status fetch
      rw [List.mem_singleton] at hv
      subst hv
      rcases hlt _ hh with ⟨-, hc⟩ | hh
      · cases q with
        | systemStatus c => rfl
        | _ => cases hc
      · exact absurd (h.heldFetch_lt_sent _ hh) (Nat.lt_irrefl _)

theorem Held.carryOut (h : s.Held) (e : Effect) : (s.carryOut e).Held := by
  have hn := h.toNumbered.carryOut e
  cases e with
  | send q => exact h.issue q
  | startTimer c => exact h.sameRequests hn (sameRequests_arm s c)
  | stopTimer => exact h.sameRequests hn (sameRequests_releaseTimer s)
  | abandonFetch =>
    refine h.of_subset hn (thins_releaseFetch s).sent ?_ ?_
    · intro n hn
      change s.releaseFetch.heldFetch = some n at hn
      unfold releaseFetch at hn
      split at hn
      · exact hn
      · cases hn
    · intro v hv
      change v ∈ s.releaseFetch.tasks at hv
      unfold releaseFetch at hv
      split at hv
      · exact ⟨v, hv, rfl, rfl⟩
      · exact ⟨v, List.mem_of_mem_filter hv, rfl, rfl⟩

theorem Held.foldl_carryOut (h : s.Held) (es : List Effect) :
    (es.foldl Store.carryOut s).Held := by
  induction es generalizing s with
  | nil => exact h
  | cons e es ih => exact ih (h.carryOut e)

theorem Held.publish (h : s.Held) : s.publish.Held :=
  h.sameRequests (h.toNumbered.thins (thins_publish s)) (sameRequests_publish s)

/-- The state, the queue and what has been applied have nothing to do with it. -/
theorem Held.update (h : s.Held) (state : State) (queue : List Intent) (applied : Nat) :
    { s with state, queue, applied }.Held :=
  ⟨⟨h.isOpen, h.lt_sent, h.nodup⟩, h.heldFetch_lt_sent, h.isFetch⟩

theorem Held.apply (h : s.Held) (i : Intent) : (s.apply i).Held :=
  (h.update (s.state.after i) s.queue (s.applied + 1)).publish.foldl_carryOut _

/-- Every step keeps it: most leave requests as they are or take one away, and only applying an
intent issues new ones. -/
theorem Held.step {admits : Intent → Prop} {is : List Intent} (h : s.Held)
    (hs : Step admits s is t) : t.Held := by
  have hn := h.toNumbered.step hs
  cases hs with
  | send _ => exact h.sameRequests hn (sameRequests_send s _)
  | start _ =>
    refine h.of_subset hn rfl (fun n hn => hn) ?_
    intro v hv
    obtain ⟨u, hu, rfl⟩ := List.mem_map.mp hv
    refine ⟨u, hu, ?_⟩
    split <;> exact ⟨rfl, rfl⟩
  | @finish task _ answer =>
    let s' : Store := { s with tasks := s.tasks.filter (·.number != task.number) }
    have hs' := sameRequests_sendAll s' (outcome task.request answer)
    refine h.of_subset hn hs'.sent (fun n hn => hs'.heldFetch ▸ hn) ?_
    intro v hv
    rw [show (s.finish task answer).tasks = _ from hs'.tasks] at hv
    exact ⟨v, List.mem_of_mem_filter hv, rfl, rfl⟩
  | fire _ =>
    refine h.sameRequests hn (SameRequests.trans ?_ (sameRequests_send _ _))
    exact ⟨rfl, rfl, rfl⟩
  | advance ms => exact h.sameRequests hn ⟨rfl, rfl, rfl⟩
  | @apply i queue hq =>
    rw [applyNext_of_queue hq]
    exact (h.update s.state queue s.applied).apply i

theorem Run.held {admits : Intent → Prop} {interval : Nat} {is : List Intent}
    (h : Run admits (initial interval) is s) : s.Held := by
  induction h with
  | refl => exact held_initial interval
  | tail _ hstep ih => exact ih.step hstep

/-! ### What each operation does to the number -/

theorem outstanding_issue (s : Store) (q : Request) (r : Resource) :
    (s.issue q).outstanding r = s.outstanding r + if q.resource = r then 1 else 0 := by
  simp only [outstanding, issue, List.countP_append, List.countP_singleton, decide_eq_true_eq]
  omega

/-- With the status fetch that is given up, no other request is lost. -/
theorem outstanding_releaseFetch (h : s.Held) (hr : r ≠ .systemStatus) :
    s.releaseFetch.outstanding r = s.outstanding r := by
  unfold releaseFetch
  split
  · rfl
  · next n hn =>
    simp only [outstanding, List.countP_filter]
    congr 1
    refine List.countP_congr fun t ht => ?_
    simp only [Bool.and_eq_true, decide_eq_true_eq, bne_iff_ne, and_iff_left_iff_imp]
    rintro rfl rfl
    exact hr (h.isFetch t ht hn)

theorem outstanding_carryOut (h : s.Held) (hr : r ≠ .systemStatus) (e : Effect) :
    (s.carryOut e).outstanding r = s.outstanding r + if e.resource? = some r then 1 else 0 := by
  cases e with
  | send q =>
    have hq : (Effect.send q).resource? = some r ↔ q.resource = r := by simp [Effect.resource?]
    simp only [hq]
    exact outstanding_issue s q r
  | startTimer c =>
    exact (sameRequests_arm s c).outstanding (queue_releaseTimer (s.note (.armed s.interval))) r
  | stopTimer => exact (sameRequests_releaseTimer s).outstanding (queue_releaseTimer s) r
  | abandonFetch => exact outstanding_releaseFetch h hr

theorem outstanding_foldl_carryOut (h : s.Held) (hr : r ≠ .systemStatus) (es : List Effect) :
    (es.foldl carryOut s).outstanding r
      = s.outstanding r + es.countP (fun e => e.resource? = some r) := by
  induction es generalizing s with
  | nil => rfl
  | cons e es ih =>
    rw [List.foldl_cons, ih (h.carryOut e), outstanding_carryOut h hr, List.countP_cons]
    simp only [decide_eq_true_eq]
    omega

/-- Of all that is to be done, only the request of the intent itself is about anything
but the status. -/
theorem countP_resource?_effects (s : State) (i : Intent) (hr : r ≠ .systemStatus) :
    (s.effects (s.after i) i).countP (fun e => e.resource? = some r)
      = if s.sends? i = some r then 1 else 0 := by
  have hp : ∀ as : List Poll.Action,
      (as.map Effect.ofAction).countP (fun e => e.resource? = some r) = 0 := by
    intro as
    refine List.countP_eq_zero.mpr ?_
    rintro e he
    obtain ⟨a, -, rfl⟩ := List.mem_map.mp he
    cases a <;> simp [Effect.ofAction, Effect.resource?, Request.resource, Request.call,
      Call.resource, hr.symm]
  rw [State.effects, List.countP_append, hp]
  unfold State.sends?
  cases s.request? (s.after i) i with
  | none => rfl
  | some q => by_cases hq : q.resource = r <;> simp [Effect.resource?, hq]

theorem outstanding_publish (s : Store) (r : Resource) :
    s.publish.outstanding r = s.outstanding r := by
  refine (sameRequests_publish s).outstanding ?_ r
  unfold publish
  split <;> rfl

/-- When an intent is applied, its request comes to what is outstanding. -/
theorem outstanding_apply (h : s.Held) (hr : r ≠ .systemStatus) (i : Intent) :
    (s.apply i).outstanding r = s.outstanding r + if s.state.sends? i = some r then 1 else 0 := by
  have ht := (h.update (s.state.after i) s.queue (s.applied + 1)).publish
  rw [apply, outstanding_foldl_carryOut ht hr, outstanding_publish,
    countP_resource?_effects s.state i hr]
  rfl

/-- The intent that is applied leaves the queue, so what it settles is outstanding no
longer. -/
theorem outstanding_applyNext {queue : List Intent} (h : s.Held) (hr : r ≠ .systemStatus)
    (hq : s.queue = i :: queue) :
    s.applyNext.outstanding r + (if i.settles? = some r then 1 else 0)
      = s.outstanding r + if s.state.sends? i = some r then 1 else 0 := by
  have hs : s.outstanding r
      = { s with queue }.outstanding r + if i.settles? = some r then 1 else 0 := by
    simp only [outstanding, hq, List.countP_cons, decide_eq_true_eq]
    omega
  rw [applyNext_of_queue hq, outstanding_apply (h.update s.state queue s.applied) hr, hs]
  simp only
  omega

theorem outstanding_send (h : s.isClosed = false) (i : Intent) (r : Resource) :
    (s.send i).outstanding r
      = s.outstanding r + if i.settles? = some r then 1 else 0 := by
  simp only [send, h, Bool.false_eq_true, if_false, outstanding, List.countP_append,
    List.countP_singleton, decide_eq_true_eq]
  omega

theorem outstanding_start (s : Store) (task : Task) (r : Resource) :
    (s.start task).outstanding r = s.outstanding r := by
  unfold start outstanding note
  congr 1
  rw [List.countP_map]
  refine List.countP_congr fun u _ => ?_
  simp only [Function.comp_apply]
  split <;> rfl

theorem outstanding_sendAll (h : s.isClosed = false) (is : List Intent) (r : Resource) :
    (s.sendAll is).outstanding r
      = s.outstanding r + is.countP (fun i => i.settles? = some r) := by
  induction is generalizing s with
  | nil => rfl
  | cons i is ih =>
    have hs : (s.send i).isClosed = false := by rw [isClosed_send, h]
    calc (s.sendAll (i :: is)).outstanding r
        = (s.send i).outstanding r + is.countP (fun i => i.settles? = some r) := ih hs
      _ = s.outstanding r + (i :: is).countP (fun i => i.settles? = some r) := by
        rw [outstanding_send h, List.countP_cons]
        simp only [decide_eq_true_eq]
        omega

/-- Without one task, one less is counted if that task is. -/
theorem countP_filter_number (h : s.Numbered) {task : Task} (ht : task ∈ s.tasks)
    (p : Task → Bool) :
    s.tasks.countP p
      = (s.tasks.filter (·.number != task.number)).countP p + if p task then 1 else 0 := by
  have hf : s.tasks.filter (·.number != task.number) = s.tasks.erase task := by
    rw [(List.Nodup.of_map _ h.nodup).erase_eq_filter]
    refine List.filter_congr fun u hu => ?_
    rw [Bool.eq_iff_iff, bne_iff_ne, bne_iff_ne]
    exact not_congr ⟨h.task_eq hu ht, congrArg _⟩
  rw [hf, (List.perm_cons_erase ht).countP_eq, List.countP_cons]

/-- What a request comes to is as much outstanding as the request was. -/
theorem outstanding_finish (h : s.Numbered) {task : Task} (ht : task ∈ s.tasks)
    (answer : task.request.call.Answer) (r : Resource) :
    (s.finish task answer).outstanding r = s.outstanding r := by
  unfold finish
  rw [outstanding_sendAll (s := { s with tasks := s.tasks.filter (·.number != task.number) })
    h.isOpen, countP_settles?_outcome]
  simp only [outstanding, countP_filter_number h ht (fun t => t.request.resource = r),
    decide_eq_true_eq]
  omega

/-! ### Steps and runs -/

variable {admits : Intent → Prop} {is : List Intent}

/-- Only the intent that is applied changes how many requests are outstanding: by the one
that it sends, and by the one that it settles. -/
theorem Step.outstanding (h : Step admits s is t) (hs : s.Held) (hr : r ≠ .systemStatus)
    (ha : ∀ i, admits i → i.settles? ≠ some r) :
    t.outstanding r + is.countP (fun i => i.settles? = some r)
      = s.outstanding r + is.countP (fun i => s.state.sends? i = some r) := by
  cases h with
  | send hi => rw [outstanding_send hs.isOpen, if_neg (ha _ hi)]; rfl
  | start ht => rw [outstanding_start]; rfl
  | finish ht answer => rw [outstanding_finish hs.toNumbered ht]; rfl
  | @fire alarm hm =>
    let s' : Store := { s with timers := s.timers.cancel alarm.number }
    have hf := outstanding_send (s := s'.note .fired) hs.isOpen (.timerFired alarm.what) r
    exact hf
  | advance ms => rfl
  | apply hq =>
    simp only [List.countP_singleton, decide_eq_true_eq]
    exact outstanding_applyNext hs hr hq

/-- Something is fetched that is under way already. -/
def Repeats (is : List Intent) (r : Resource) : Prop :=
  ∃ before i after, is = before ++ i :: after ∧ i.asks? = some r ∧
    (State.replay {} before).loading.get r = true

theorem Repeats.append (h : Repeats is r) (js : List Intent) : Repeats (is ++ js) r := by
  obtain ⟨before, i, after, rfl, hi, hl⟩ := h
  exact ⟨before, i, after ++ js, by simp, hi, hl⟩

/-- A request is sent only for what is not under way: a command that is under way is not
sent again, and a fetch is not repeated. -/
theorem sends?_iff_of_not_repeats (hrep : r.isCommand = false → ¬Repeats (is ++ [i]) r) :
    let s := State.replay {} is
    s.sends? i = some r ↔
      (i.asks? = some r ∧ s.refuses i = false) ∧ s.loading.get r = false := by
  intro s
  rw [State.sends?_eq_some_iff, and_assoc]
  refine and_congr_right fun hask => and_congr_right fun _ => ⟨fun hl => ?_, fun hl _ => hl⟩
  cases hc : r.isCommand with
  | true => exact hl hc
  | false => exact Bool.eq_false_iff.mpr fun hl => hrep hc ⟨is, i, [], rfl, hask, hl⟩

/-- If a request is sent only for what is not under way, applying an intent keeps the mark
and the number in step. -/
theorem outstanding_applyNext_eq {queue : List Intent} (h : s.Held) (hr : r ≠ .systemStatus)
    (hq : s.queue = i :: queue) (hl : s.outstanding r = if s.state.loading.get r then 1 else 0)
    (hsends : s.state.sends? i = some r ↔
      (i.asks? = some r ∧ s.state.refuses i = false) ∧ s.state.loading.get r = false) :
    s.applyNext.outstanding r = if (s.state.after i).loading.get r then 1 else 0 := by
  have hu := outstanding_applyNext h hr hq
  simp only [hsends] at hu
  rw [State.get_loading_after s.state i hr]
  by_cases hs : i.settles? = some r
  · -- what is settled was outstanding, since the intent was in the queue
    have hpos : 0 < s.outstanding r := by
      refine Nat.lt_of_lt_of_le ?_ (Nat.le_add_left _ _)
      exact List.countP_pos_iff.mpr ⟨i, by simp [hq], by simp [hs]⟩
    have hask : i.asks? ≠ some r := by simp [Intent.asks?_of_settles? hs]
    simp only [hs, hask, false_and, if_true, if_false] at hu ⊢
    split at hl <;> simp <;> omega
  · simp only [hs, if_false] at hu ⊢
    by_cases hask : i.asks? = some r ∧ s.state.refuses i = false
    · cases hm : s.state.loading.get r <;> simp_all
    · simp only [hask, false_and, if_false] at hu ⊢
      omega

/-- As long as nothing is fetched that is under way already, and answers come from
requests alone, a resource is marked exactly while a request about it is outstanding, and
there is no more than one.  For commands nothing has to be said about repetitions. -/
theorem Run.outstanding_eq {interval : Nat} (h : Run admits (initial interval) is s)
    (hr : r ≠ .systemStatus) (ha : ∀ i, admits i → i.settles? ≠ some r)
    (hrep : r.isCommand = false → ¬Repeats is r) :
    s.outstanding r = if s.state.loading.get r then 1 else 0 := by
  induction h with
  | refl => cases r <;> rfl
  | @tail is js t u hrun hstep ih =>
    have iht := ih fun hc hrep' => hrep hc (hrep'.append js)
    have hu := hstep.outstanding hrun.held hr ha
    have ht : t.state = State.replay {} is := hrun.state_eq
    rw [hstep.state_eq]
    cases hstep with
    | apply hq =>
      refine outstanding_applyNext_eq hrun.held hr hq iht ?_
      rw [ht]
      exact sends?_iff_of_not_repeats hrep
    | _ =>
      rw [State.replay_nil]
      simpa [iht] using hu

end Store

end RunControl
