/-
RunControl/Proofs/Cli/Following.lean

How a run is followed.  A watch sees some of the states that the store publishes, and always the
last one (`Session.Follows`).  It prints the statuses of what it sees, each of them once as long
as it stays the same (`Watch.shown_eq_destutter`), and it ends when it sees that the one cycle it
has asked for is over.

Which answer has ended the cycle can be told from the state that is seen last: it has left a
terminal status without an error, or the error that the backend has no configuration
(`State.SoleCycle`).  So the watch succeeds exactly if a terminal status has ended the cycle, and
that status is then the last one printed; no other failure of a fetch ends it
(`watch_ends_with_cycle`).

What happens behind the command is always the same (`Tended`): the wish for the status comes
first, and nothing but reports after it.  On top of that goes what the command has seen, printed
and made of it (`Attending`).
-/
import Mathlib.Data.List.Destutter
import RunControl.Proofs.Cli.Replies
import RunControl.Proofs.State.SoleCycle
import RunControl.Proofs.Store.PlainTasks

namespace RunControl

namespace Cli

/-! ### What is shown -/

namespace Watch

variable {w : Watch} {a : State} {seen seen' : List State}

/-- What is remembered after some states were seen. -/
def afterAll (w : Watch) (seen : List State) : Watch :=
  seen.foldl after w

theorem afterAll_concat (w : Watch) (seen : List State) (a : State) :
    w.afterAll (seen ++ [a]) = (w.afterAll seen).after a :=
  List.foldl_append ..

theorem isNews_iff (h : a.poll.opened ≠ 0) : w.isNews a = true ↔ w.last ≠ some a.status := by
  simp [isNews, h]

/-- Whether it was printed or not, the status that was seen last is remembered. -/
theorem last_after (h : a.poll.opened ≠ 0) : (w.after a).last = some a.status := by
  unfold after
  split
  · rfl
  · next hn =>
    rw [isNews_iff h] at hn
    exact not_not.mp hn

theorem shown_append (w : Watch) (seen seen' : List State) :
    w.shown (seen ++ seen') = w.shown seen ++ (w.afterAll seen).shown seen' := by
  induction seen generalizing w with
  | nil => rfl
  | cons a seen ih =>
    simp only [List.cons_append, shown, ih, afterAll, List.foldl_cons]
    split <;> rfl

/-- What is printed after a status, as long as it stays the same, is printed once. -/
theorem cons_shown (h : ∀ a ∈ seen, a.poll.opened ≠ 0) {status : RunStatus}
    (hw : w.last = some status) :
    status :: w.shown seen = (seen.map (·.status)).destutter' (· ≠ ·) status := by
  induction seen generalizing w status with
  | nil => rfl
  | cons a seen ih =>
    rw [List.forall_mem_cons] at h
    have hlast := last_after (w := w) h.1
    rw [List.map_cons, shown]
    by_cases hs : status = a.status
    · -- the status has not changed, and is not printed again
      have hn : ¬w.isNews a = true := fun hn => (isNews_iff h.1).mp hn (hw.trans (congrArg some hs))
      rw [if_neg hn, List.destutter'_cons_neg _ (not_not.mpr hs)]
      exact ih h.2 (hlast.trans (congrArg some hs.symm))
    · have hn : w.isNews a = true := (isNews_iff h.1).mpr fun hl =>
        hs (Option.some.inj (hw.symm.trans hl))
      rw [if_pos hn, List.destutter'_cons_pos _ hs, ih h.2 hlast]

/-- Of statuses that are the same one after another, one is printed. -/
theorem shown_eq_destutter (h : ∀ a ∈ seen, a.poll.opened ≠ 0) :
    shown {} seen = (seen.map (·.status)).destutter (· ≠ ·) := by
  cases seen with
  | nil => rfl
  | cons a seen =>
    rw [List.forall_mem_cons] at h
    have hn : isNews {} a = true := (isNews_iff h.1).mpr nofun
    rw [shown, if_pos hn, List.map_cons, List.destutter_cons']
    exact cons_shown h.2 (last_after h.1)

/-- What is remembered is what was printed last. -/
theorem last_afterAll (w : Watch) (seen : List State) :
    (w.afterAll seen).last = (w.shown seen).getLast?.or w.last := by
  induction seen generalizing w with
  | nil => rfl
  | cons a seen ih =>
    show ((w.after a).afterAll seen).last = _
    rw [ih, shown]
    split
    · next hn =>
      rw [after_of_isNews hn, List.getLast?_cons]
      cases (({ last := some a.status } : Watch).shown seen).getLast? <;> rfl
    · next hn => rw [after, if_neg hn]

/-- The status that was seen last was printed last. -/
theorem getLast?_shown (h : a.poll.opened ≠ 0) (seen : List State) :
    (shown {} (seen ++ [a])).getLast? = some a.status := by
  have hlast := last_afterAll {} (seen ++ [a])
  rw [afterAll_concat, last_after h, Option.or_none] at hlast
  exact hlast.symm

/-- A state with the status that was seen last adds nothing. -/
theorem shown_concat_same {b : State} (h : a.poll.opened ≠ 0) (hs : b.status = a.status)
    (seen : List State) : shown {} (seen ++ [a, b]) = shown {} (seen ++ [a]) := by
  rw [List.append_cons, shown_append {} (seen ++ [a]) [b]]
  have hafter : (afterAll {} (seen ++ [a])).last = some b.status := by
    rw [afterAll_concat, hs]
    exact last_after h
  have hn : ¬(afterAll {} (seen ++ [a])).isNews b = true := by
    simp [isNews, hafter]
  rw [shown, if_neg hn]
  exact List.append_nil _

/-- How the watch ends at a state at which polling is over. -/
def ending (s : State) : Ending :=
  match result s with
  | .ok () => .completed
  | .error message => .failed message

end Watch

/-! ### Runs without an interrupt -/

namespace Session

/-- A run of a watch that nobody interrupts, with what happens in it and the states that are
seen. -/
inductive Follows (s : Session) : List Happening → List State → Session → Prop
  | refl : Follows s [] [] s
  /-- The watch sees the state that is published. -/
  | look {hs : List Happening} {seen : List State} {t u : Session} (h : Follows s hs seen t)
    (hp : t.proceed? = some u) : Follows s hs (seen ++ [t.store.published]) u
  | move {hs hs' : List Happening} {seen : List State} {t : Session} {store : Store}
    (h : Follows s hs seen t) (hm : Move t.client t.store hs' store) :
    Follows s (hs ++ hs') seen (t.moved hs' store)

variable {s t u : Session} {hs : List Happening} {seen : List State}

theorem Follows.run (h : Follows s hs seen t) : Run s hs t := by
  induction h with
  | refl => exact .refl
  | look _ hp ih =>
    have hrun := ih.tail (.proceed hp)
    rwa [List.append_nil] at hrun
  | move _ hm ih => exact ih.tail (.move hm)

/-- What a watch does when it sees a state and its line is taken. -/
theorem see_of_taken (ho : s.output.refusal? = none) (w : Watch) :
    s.see w = { s with
      printed := (w.line? s.store.published).toList ++ s.printed
      activity :=
        if Watch.isOver s.store.published then .over (Watch.ending s.store.published)
        else .watching s.store.revision (w.after s.store.published) } := by
  unfold see Watch.ending
  dsimp only
  cases Watch.result s.store.published <;> cases w.line? s.store.published <;> simp [put, ho]

/-- A line that is not taken ends the watch. -/
theorem see_of_refused {reason : String} (ho : s.output.refusal? = some reason) {w : Watch}
    (hn : w.isNews s.store.published = true) :
    s.see w = { s with activity := .over (.refused reason) } := by
  have hline : w.line? s.store.published = some (statusLine s.store.published.status) := if_pos hn
  unfold see
  dsimp only
  rw [hline]
  show s.put _ _ = _
  rw [put, ho]

end Session

/-! ### What is published -/

theorem revision_foldl_carryOut (es : List Effect) (s : Store) :
    (es.foldl Store.carryOut s).revision = s.revision := by
  have hrelease : ∀ s : Store, s.releaseTimer.revision = s.revision := fun s => by
    unfold Store.releaseTimer
    split <;> rfl
  induction es generalizing s with
  | nil => rfl
  | cons e es ih =>
    rw [List.foldl_cons, ih]
    cases e with
    | send q => rfl
    | startTimer c => exact hrelease (s.note (.armed s.interval))
    | stopTimer => exact hrelease s
    | abandonFetch =>
      show s.releaseFetch.revision = s.revision
      unfold Store.releaseFetch
      split <;> rfl

variable {c : Client} {hs hs' : List Happening} {x : Scene} {store : Store}

/-- What is published changes only together with its number, and not before an intent is
applied. -/
theorem Move.revision {s t : Store} (h : Move c s hs t) :
    t.revision = s.revision ∧ t.published = s.published ∨
      s.revision < t.revision ∧ intentsOf hs ≠ [] := by
  have hsend : ∀ (s : Store) (is : List Intent), (s.sendAll is).revision = s.revision := by
    intro s is
    induction is generalizing s with
    | nil => rfl
    | cons i is ih =>
      refine (ih (s.send i)).trans ?_
      unfold Store.send
      split <;> rfl
  cases h with
  | @apply i queue hq =>
    -- the effects of an intent publish nothing, so all comes from what is published before them
    rw [Store.applyNext_of_queue hq]
    let next : Store := { s with queue, state := s.state.after i, applied := s.applied + 1 }
    have hrevision : ({ s with queue }.apply i).revision = next.publish.revision :=
      revision_foldl_carryOut ..
    have hpublished : ({ s with queue }.apply i).published = next.publish.published :=
      congrArg Front.published (Store.front_foldl_carryOut ..)
    rw [hrevision, hpublished]
    unfold Store.publish
    split
    · exact .inl ⟨rfl, rfl⟩
    · exact .inr ⟨Nat.lt_succ_self _, List.cons_ne_nil _ _⟩
  | call _ _ _ => exact .inl ⟨rfl, rfl⟩
  | answer _ _ _ r => exact .inl ⟨hsend .., congrArg Front.published (Store.front_finish ..)⟩
  | giveUp _ _ _ => exact .inl ⟨hsend .., congrArg Front.published (Store.front_finish ..)⟩
  | @fire alarm _ =>
    refine .inl ⟨?_, congrArg Front.published (Store.front_send ..)⟩
    exact hsend (({ s with timers := s.timers.cancel alarm.number } : Store).note .fired)
      [.timerFired alarm.what]
  | advance ms => exact .inl ⟨rfl, rfl⟩

/-! ### What happens behind a watch -/

/-- If a failure says that the backend has no configuration, the backend has said so. -/
def Grounded (hs : List Happening) (i : Intent) : Prop :=
  ∀ cycle failure, i = .statusFailed cycle failure → failure.isUnconfigured = true →
    ∃ r message, .answered .systemStatus (some r) ∈ hs ∧
      Call.systemStatus.read r = .error (.unconfigured message) ∧
      failure = Failure.ofFault (.unconfigured message)

theorem Grounded.append {i : Intent} (h : Grounded hs i) (hs' : List Happening) :
    Grounded (hs ++ hs') i := by
  intro cycle failure hi hu
  obtain ⟨r, message, hm, hr⟩ := h cycle failure hi hu
  exact ⟨r, message, List.mem_append_left _ hm, hr⟩

/-- Only an answer can say that the backend has no configuration. -/
theorem Client.isUnconfigured_of_request? {call : Call} {fault : Fault}
    (h : c.request? call = .error fault) : (Failure.ofFault fault).isUnconfigured = false := by
  unfold Client.request? at h
  split at h
  · split at h
    · cases h
    · cases h
      rfl
  · cases h
    rfl

/-- What a fetch of the status comes to is grounded. -/
theorem grounded_of_mem_outcome {q : Request} {http : Http.Request} {r : Option Http.Response}
    {i : Intent} (hm : .answered q.call r ∈ hs) (hq : q.call.isPlain = false)
    (hi : i ∈ outcome q (Client.answer q.call http r)) : Grounded hs i := by
  cases q with
  | systemStatus c =>
    intro cycle failure he hu
    subst he
    generalize ha : Client.answer (Request.call (.systemStatus c)) http r = answer at hi
    cases answer with
    | ok status => cases List.mem_singleton.mp hi
    | error fault =>
      obtain ⟨rfl, rfl⟩ := Intent.statusFailed.inj (List.mem_singleton.mp hi)
      rcases r with - | r
      · -- that nothing came back is no such failure
        cases ha
        cases hu
      · cases fault with
        | unconfigured message => exact ⟨r, message, hm, ha, rfl⟩
        | _ => cases hu
  | _ => cases hq

/-- What happens behind a watch: the wish for the status comes first, and then reports. -/
structure Tended (x : Scene) : Prop where
  sound : Sound x
  intents : ∃ reports, intentsOf x.happened ++ x.store.queue = .fetchStatus :: reports ∧
    ∀ i ∈ reports, i.IsReport
  tasks : x.store.plainTasks = []
  grounded : ∀ i ∈ intentsOf x.happened ++ x.store.queue, Grounded x.happened i

namespace Tended

/-- The lines that are printed have nothing to do with it. -/
theorem print {y : Scene} (h : Tended x) (hh : y.happened = x.happened)
    (hstore : y.store = x.store) : Tended y := by
  obtain ⟨happened, store, printed⟩ := y
  obtain rfl : happened = x.happened := hh
  obtain rfl : store = x.store := hstore
  exact ⟨⟨h.sound.run, h.sound.publishes, h.sound.queue, h.sound.status⟩, h.intents, h.tasks,
    h.grounded⟩

theorem not_isPlain (h : Tended x) {task : Task} (hm : task ∈ x.store.tasks) :
    task.request.call.isPlain = false := by
  refine Bool.eq_false_iff.mpr fun hp => ?_
  have hmem : task ∈ x.store.plainTasks := Store.mem_plainTasks.mpr ⟨hm, hp⟩
  rw [h.tasks] at hmem
  cases hmem

/-- Reports come to the queue. -/
theorem more {is : List Intent} (h : Tended x) (hm : Move c x.store hs store)
    (hhs : intentsOf hs = []) (hqueue : store.queue = x.store.queue ++ is)
    (htasks : store.plainTasks = []) (his : ∀ i ∈ is, i.IsReport)
    (hground : ∀ i ∈ is, Grounded (x.happened ++ hs) i) : Tended (x.moved hs store) := by
  have hlist : intentsOf (x.happened ++ hs) ++ store.queue
      = intentsOf x.happened ++ x.store.queue ++ is := by
    rw [intentsOf_append, hhs, List.append_nil, hqueue, List.append_assoc]
  refine ⟨h.sound.move _ _ _ hm, ?_, htasks, ?_⟩
  · obtain ⟨reports, hr, hreports⟩ := h.intents
    refine ⟨reports ++ is, ?_, List.forall_mem_append.mpr ⟨hreports, his⟩⟩
    show intentsOf (x.happened ++ hs) ++ store.queue = _
    rw [hlist, hr]
    rfl
  · show ∀ i ∈ intentsOf (x.happened ++ hs) ++ store.queue, Grounded (x.happened ++ hs) i
    rw [hlist]
    exact List.forall_mem_append.mpr ⟨fun i hi => (h.grounded i hi).append hs, hground⟩

/-- An intent goes from the queue to what has happened, so the two together stay the same. -/
theorem apply {i : Intent} {queue : List Intent} (h : Tended x) (hq : x.store.queue = i :: queue) :
    Tended (x.moved [.applied i] x.store.applyNext) := by
  have hlist : intentsOf (x.happened ++ [.applied i]) ++ x.store.applyNext.queue
      = intentsOf x.happened ++ x.store.queue := by
    rw [intentsOf_append, Store.queue_applyNext hq, hq, List.append_assoc]
    rfl
  refine ⟨h.sound.apply hq, ?_, ?_, ?_⟩
  · show ∃ reports, intentsOf (x.happened ++ [.applied i]) ++ x.store.applyNext.queue = _ ∧ _
    rw [hlist]
    exact h.intents
  · -- neither the wish nor a report sends a plain request
    have haside : i.IsAside := by
      obtain ⟨reports, hr, hreports⟩ := h.intents
      have hi : i ∈ Intent.fetchStatus :: reports := by
        rw [← hr, hq]
        exact List.mem_append_right _ List.mem_cons_self
      rcases List.mem_cons.mp hi with rfl | hi
      · exact .fetchStatus
      · exact .report (hreports i hi)
    show x.store.applyNext.plainTasks = []
    rw [Store.plainTasks_applyNext h.sound.held hq, h.tasks, haside.request?]
    rfl
  · show ∀ j ∈ intentsOf (x.happened ++ [.applied i]) ++ x.store.applyNext.queue, _
    rw [hlist]
    exact fun j hj => (h.grounded j hj).append _

/-- Every move behind the watch keeps it so. -/
theorem move : Firm c Tended := by
  intro x hs store h hm
  have ho := h.sound.held.isOpen
  cases hm with
  | apply hq => exact h.apply hq
  | @call task q hmem hb hq =>
    -- a request that begins brings no intent
    refine h.more (.call hmem hb hq) rfl (List.append_nil _).symm ?_ (List.forall_mem_nil _)
      (List.forall_mem_nil _)
    rw [Store.plainTasks_start, h.tasks]
    rfl
  | @answer task q hmem hb hq r =>
    -- the task is a fetch of the status, and what it comes to is what the backend has said
    have hp := h.not_isPlain hmem
    refine h.more (.answer hmem hb hq r) rfl (Store.queue_finish ho _ _) ?_
      (isReport_of_mem_outcome hp _) fun i hi => ?_
    · rw [Store.plainTasks_finish, h.tasks]
      rfl
    · exact grounded_of_mem_outcome (List.mem_append_right _ (List.mem_singleton_self _)) hp hi
  | @giveUp task fault hmem hb hq =>
    -- the fault is the client's own, which says nothing about a configuration
    have hp := h.not_isPlain hmem
    refine h.more (.giveUp hmem hb hq) rfl (Store.queue_finish (s := x.store.start task) ho _ _) ?_
      (isReport_of_mem_outcome hp _) fun i hi => ?_
    · rw [Store.plainTasks_finish, Store.plainTasks_start, h.tasks]
      rfl
    · have hnot := Client.isUnconfigured_of_request? hq
      obtain ⟨number, request, begun⟩ := task
      cases request with
      | systemStatus cycle =>
        intro cycle' failure he hu
        subst he
        obtain ⟨rfl, rfl⟩ := Intent.statusFailed.inj (List.mem_singleton.mp hi)
        rw [hnot] at hu
        cases hu
      | _ => cases hp
  | @fire alarm hmem =>
    -- a tick is no failure
    have hqueue : (x.store.fire alarm).queue = x.store.queue ++ [.timerFired alarm.what] :=
      congrArg PollSide.queue (Store.pollSide_fire ho alarm)
    refine h.more (c := c) (.fire hmem) rfl hqueue ?_
      (List.forall_mem_singleton.mpr (.timerFired _)) (List.forall_mem_singleton.mpr nofun)
    have htasks : (x.store.fire alarm).plainTasks = x.store.plainTasks :=
      congrArg (List.filter _) (Store.sameRequests_send _ _).tasks
    rw [htasks, h.tasks]
  | advance ms =>
    exact h.more (c := c) (.advance ms) rfl (List.append_nil _).symm h.tasks
      (List.forall_mem_nil _) (List.forall_mem_nil _)

/-- From the first intent on there is the one cycle. -/
theorem soleCycle (h : Tended x) (hne : intentsOf x.happened ≠ []) :
    State.SoleCycle (intentsOf x.happened) := by
  obtain ⟨reports, hr, hreports⟩ := h.intents
  obtain ⟨i, is, his⟩ := List.exists_cons_of_ne_nil hne
  rw [his, List.cons_append, List.cons.injEq] at hr
  obtain ⟨rfl, hrest⟩ := hr
  have his' : ∀ j ∈ is, j.IsReport := by
    intro j hj
    apply hreports
    rw [← hrest]
    exact List.mem_append_left _ hj
  rw [his]
  exact State.soleCycle_fetchStatus.append his'

/-- Polling is published as it is, and so are the status and its error. -/
theorem rests (h : Tended x) :
    State.Rests (State.replay {} (intentsOf x.happened)) x.store.published := by
  rw [← h.sound.publishes.state]
  exact ⟨h.sound.poll_published, h.sound.status_published, h.sound.errors_published⟩

/-- When the published state says that polling is over, an answer has ended the cycle. -/
theorem exists_endedBy (h : Tended x) (hover : Watch.isOver x.store.published = true) :
    ∃ i, State.EndedBy (intentsOf x.happened) ⟨0⟩ i ∧ i.IsReport ∧ x.store.published.Leaves i := by
  rw [Watch.isOver, h.rests.poll, Bool.and_eq_true] at hover
  have hne : intentsOf x.happened ≠ [] := by
    intro hnil
    rw [hnil] at hover
    cases hover.1
  cases h.soleCycle hne with
  | running fetching hp hnone =>
    rw [hp] at hover
    cases hover.2
  | ended i hp hi hreport hsole hleft => exact ⟨i, hi, hreport, h.rests.leaves hleft⟩

/-- One intent at most has ended the cycle. -/
theorem endedBy_unique (h : Tended x) {i j : Intent} {d : Cycle}
    (hend : State.EndedBy (intentsOf x.happened) ⟨0⟩ i)
    (hend' : State.EndedBy (intentsOf x.happened) d j) : j = i := by
  cases h.soleCycle (List.ne_nil_of_mem hend.mem) with
  | running _ _ hnone => exact absurd hend (hnone _ _)
  | ended k _ _ _ hsole _ =>
    obtain rfl : i = k := hsole _ _ hend
    exact hsole _ _ hend'

end Tended

/-! ### What the watch makes of it -/

namespace Session

variable {s t u : Session} {seen : List State}

/-- How a watch stands after some states were seen: it goes on, it has seen that polling is over,
or its line was refused. -/
inductive Attention (hs : List Happening) (seen : List State) (t : Session) : Prop
  | watching (number : Nat) (ha : t.activity = .watching number (Watch.afterAll {} seen))
    (hout : t.output.refusal? = none ∨ seen = [])
    (hle : number ≤ t.store.revision)
    (hlast : t.store.revision = number → t.store.published = seen.getLast?.getD {})
    (hopen : ∀ a ∈ seen, Watch.isOver a = false)
  | ended (before : List State) (a : State) (i : Intent) (hseen : seen = before ++ [a])
    (ha : t.activity = .over (Watch.ending a)) (hout : t.output.refusal? = none)
    (hopen : ∀ b ∈ before, Watch.isOver b = false) (hover : Watch.isOver a = true)
    (hend : State.EndedBy (intentsOf hs) ⟨0⟩ i) (hreport : i.IsReport) (hleft : a.Leaves i)
  | refused (reason : String) (ha : t.activity = .over (.refused reason))
    (hout : t.output.refusal? = some reason)

/-- What holds of a watch at any time. -/
structure Attending (hs : List Happening) (seen : List State) (t : Session) : Prop where
  tended : Tended (t.scene hs)
  opened : ∀ a ∈ seen, a.poll.opened ≠ 0
  fresh : intentsOf hs = [] → t.store.revision = 0
  printed : t.output.refusal? = none → t.printed.reverse = (Watch.shown {} seen).map statusLine
  attention : Attention hs seen t

namespace Attending

/-- Behind the watch everything may move; it has not looked, so it stands as it did. -/
theorem move (h : Attending hs seen t) (hm : Move t.client t.store hs' store) :
    Attending (hs ++ hs') seen (t.moved hs' store) := by
  refine ⟨h.tended.move _ _ _ hm, h.opened, fun hnil => ?_, h.printed, ?_⟩
  · rw [intentsOf_append, List.append_eq_nil_iff] at hnil
    rcases hm.revision with ⟨hr, -⟩ | ⟨-, hne⟩
    · exact hr.trans (h.fresh hnil.1)
    · exact absurd hnil.2 hne
  · cases h.attention with
    | watching number ha hout hle hlast hopen =>
      rcases hm.revision with ⟨hr, hp⟩ | ⟨hlt, -⟩
      · refine .watching number ha hout (hle.trans_eq hr.symm) (fun hn => ?_) hopen
        exact hp.trans (hlast (hr.symm.trans hn))
      · -- there is something new to be seen
        have hnew : store.revision ≠ number := (Nat.lt_of_le_of_lt hle hlt).ne'
        exact .watching number ha hout (hle.trans hlt.le) (fun hn => absurd hn hnew) hopen
    | ended before a i hseen ha hout hopen hover hend hreport hleft =>
      refine .ended before a i hseen ha hout hopen hover ?_ hreport hleft
      rw [intentsOf_append]
      exact hend.append _
    | refused reason ha hout => exact .refused reason ha hout

/-- Whatever can be seen has been published after the first intent. -/
theorem opened_published (h : Attending hs seen t) (hr : t.store.revision ≠ 0) :
    t.store.published.poll.opened ≠ 0 := by
  have hne : intentsOf hs ≠ [] := fun hnil => hr (h.fresh hnil)
  have hpoll : t.store.published.poll = (State.replay {} (intentsOf hs)).poll := h.tended.rests.poll
  have hone : (State.replay {} (intentsOf hs)).poll.opened = 1 := (h.tended.soleCycle hne).opened
  rw [hpoll, hone]
  decide

/-- A look at what is published: the watch prints a line if there is news, and then goes on, has
seen that polling is over, or has had its line refused. -/
theorem look (h : Attending hs seen t) (hp : t.proceed? = some u) :
    Attending hs (seen ++ [t.store.published]) u := by
  cases h.attention with
  | ended before a i hseen ha _ _ _ _ _ _ =>
    rw [proceed?, ha] at hp
    cases hp
  | refused reason ha _ =>
    rw [proceed?, ha] at hp
    cases hp
  | watching number ha hout hle hlast hopen =>
    rw [proceed?, ha] at hp
    obtain ⟨hnumber, hsee⟩ := Option.ite_none_left_eq_some.mp hp
    have hlt : number < t.store.revision := Nat.lt_of_le_of_ne hle (Ne.symm hnumber)
    have hopened := h.opened_published (Nat.ne_zero_of_lt hlt)
    have hall : ∀ a ∈ seen ++ [t.store.published], a.poll.opened ≠ 0 :=
      List.forall_mem_append.mpr ⟨h.opened, List.forall_mem_singleton.mpr hopened⟩
    obtain rfl : t.see (Watch.afterAll {} seen) = u := Option.some.inj hsee
    rcases ho : t.output.refusal? with - | reason
    · rw [see_of_taken ho]
      refine ⟨h.tended.print rfl rfl, hall, h.fresh, fun _ => ?_, ?_⟩
      · -- the line comes behind those that were printed before
        rw [Watch.shown_append, List.map_append, ← h.printed ho]
        show ((Watch.line? _ _).toList ++ t.printed).reverse = _
        rw [List.reverse_append, Watch.line?, Watch.shown]
        split <;> rfl
      · rcases hover : Watch.isOver t.store.published with - | -
        · -- it goes on, and has seen what is published
          refine .watching t.store.revision ?_ (.inl ho) (Nat.le_refl _) (fun _ => ?_) ?_
          · rw [Watch.afterAll_concat]
            rfl
          · rw [List.getLast?_concat]
            rfl
          · exact List.forall_mem_append.mpr ⟨hopen, List.forall_mem_singleton.mpr hover⟩
        · -- it ends, because an answer has ended the cycle
          obtain ⟨i, hend, hreport, hleft⟩ := h.tended.exists_endedBy hover
          exact .ended seen t.store.published i rfl rfl ho hopen hover hend hreport hleft
    · -- nothing has been printed yet, so there is a line to be refused
      obtain rfl : seen = [] := hout.resolve_left (by rw [ho]; exact Option.some_ne_none _)
      have hn : (Watch.afterAll {} []).isNews t.store.published = true :=
        (Watch.isNews_iff hopened).mpr nofun
      rw [see_of_refused ho hn]
      exact ⟨h.tended, hall, h.fresh, fun hnone => absurd (ho.symm.trans hnone) nofun,
        .refused reason rfl ho⟩

/-- What holds of a watch holds all the time, by induction on how it was followed. -/
theorem follows (h : Attending [] [] s) (hf : Follows s hs seen t) : Attending hs seen t := by
  induction hf with
  | refl => exact h
  | look _ hp ih => exact ih.look hp
  | move _ hm ih => exact ih.move hm

end Attending

/-- A watch begins with the wish for the status. -/
theorem attending_initial {timeout interval : Nat} {output : Output} :
    Attending [] [] { client := c, timeout, store := Program.store interval .watch, output,
                      activity := .watching 0 {} } where
  tended :=
    { sound := (sound_initial interval []).sendAll (List.forall_mem_singleton.mpr rfl)
      intents := ⟨[], rfl, List.forall_mem_nil _⟩
      tasks := rfl
      grounded := List.forall_mem_singleton.mpr nofun }
  opened := List.forall_mem_nil _
  fresh _ := rfl
  printed _ := rfl
  attention := .watching 0 rfl (.inr rfl) (Nat.le_refl _) (fun _ => rfl) (List.forall_mem_nil _)

end Session

/-! ### Sessions -/

section
open Session

variable {w : Surroundings} {settings : Settings} {s t : Session} {seen : List State}

theorem Session.Follows.attending (hf : Session.Follows s hs seen t)
    (h : Program.ofOrder w settings .watch = .ok s) : Attending hs seen t := by
  obtain ⟨client, timeout, interval, rfl⟩ := Program.ofOrder_eq_ok h
  exact attending_initial.follows hf

/-- What the statuses are like that are shown for what is seen: no two in a row are the same, each
was seen, and a state that differs from the one seen before it in other things than the status
adds none. -/
structure Watch.Faithful (states : List State) (statuses : List RunStatus) : Prop where
  changing : statuses.IsChain (· ≠ ·)
  seen : ∀ status ∈ statuses, ∃ a ∈ states, a.status = status
  quiet : ∀ before a b after, states = before ++ [a, b] ++ after → b.status = a.status →
    Watch.shown {} (before ++ [a, b]) = Watch.shown {} (before ++ [a])

theorem Watch.faithful_shown (h : ∀ a ∈ seen, a.poll.opened ≠ 0) :
    Watch.Faithful seen (Watch.shown {} seen) where
  changing := by
    rw [Watch.shown_eq_destutter h]
    exact List.isChain_destutter _ _
  seen status hs := by
    rw [Watch.shown_eq_destutter h] at hs
    exact List.mem_map.mp ((List.destutter_sublist _ _).subset hs)
  quiet before a b after hl hs := by
    subst hl
    refine Watch.shown_concat_same (h a ?_) hs before
    simp

/-- How a watch ends: well exactly if a terminal status has ended the cycle, and that status is
the last one shown; otherwise with the message that the backend has no configuration, which is
what the backend has said. -/
structure Watch.EndsWith (hs : List Happening) (statuses : List RunStatus) (e : Ending) :
    Prop where
  succeeds : e.exit = 0 ↔
    ∃ c status, State.EndedBy (intentsOf hs) c (.statusFetched c status)
  shows : ∀ c status, State.EndedBy (intentsOf hs) c (.statusFetched c status) →
    status.isTerminal = true ∧ statuses.getLast? = some status
  fails : e.exit ≠ 0 → ∃ c r message, .answered .systemStatus (some r) ∈ hs ∧
    Call.systemStatus.read r = .error (.unconfigured message) ∧
    State.EndedBy (intentsOf hs) c (.statusFailed c (Failure.ofFault (.unconfigured message))) ∧
    e = .failed ("fetch system status: system configuration missing: " ++ message)

/-- The cycle that a status has ended: the status is terminal, and the last one shown. -/
theorem Session.Attending.endsWith_fetched {before : List State} {a : State} {cycle : Cycle}
    {status : RunStatus} (h : Attending hs seen t) (hseen : seen = before ++ [a])
    (hend : State.EndedBy (intentsOf hs) ⟨0⟩ (.statusFetched cycle status))
    (hleft : a.Leaves (.statusFetched cycle status)) :
    Watch.EndsWith hs (Watch.shown {} seen) (Watch.ending a) := by
  obtain ⟨hstatus, herror⟩ := hleft
  have hending : Watch.ending a = .completed := by
    rw [Watch.ending, Watch.result, herror]
  obtain ⟨rfl, hterminal⟩ : cycle = ⟨0⟩ ∧ status.isTerminal = true := by
    obtain ⟨_, _, _, hc⟩ := hend
    cases hc with | statusFetched _ terminal =>
    exact ⟨rfl, terminal⟩
  have hopened : a.poll.opened ≠ 0 := by
    apply h.opened
    rw [hseen]
    exact List.mem_append_right _ (List.mem_singleton_self a)
  refine ⟨⟨fun _ => ⟨_, _, hend⟩, fun _ => by rw [hending]; rfl⟩, ?_, fun hne => ?_⟩
  · -- another end would be this one
    intro cycle' status' hend'
    cases h.tended.endedBy_unique hend hend'
    refine ⟨hterminal, ?_⟩
    rw [hseen, Watch.getLast?_shown hopened, hstatus]
  · rw [hending] at hne
    exact absurd rfl hne

/-- The cycle that a failure has ended: the backend has said that it has no configuration. -/
theorem Session.Attending.endsWith_failed {a : State} {cycle : Cycle} {failure : Failure}
    (h : Attending hs seen t)
    (hend : State.EndedBy (intentsOf hs) ⟨0⟩ (.statusFailed cycle failure))
    (hleft : a.Leaves (.statusFailed cycle failure)) :
    Watch.EndsWith hs (Watch.shown {} seen) (Watch.ending a) := by
  have herror : a.errors.get .systemStatus = some failure := hleft
  obtain ⟨rfl, hu⟩ : cycle = ⟨0⟩ ∧ failure.isUnconfigured = true := by
    obtain ⟨_, _, _, hc⟩ := hend
    cases hc with | statusFailed _ unconfigured =>
    exact ⟨rfl, beq_iff_eq.mpr unconfigured⟩
  obtain ⟨r, message, hm, hr, rfl⟩ :=
    h.tended.grounded _ (List.mem_append_left _ hend.mem) _ failure rfl hu
  have hending : Watch.ending a
      = .failed ("fetch system status: system configuration missing: " ++ message) := by
    rw [Watch.ending, Watch.result, herror]
    show Ending.failed ("fetch system status: " ++ ("system configuration missing: " ++ message))
      = _
    rw [← String.append_assoc]
    rfl
  have hnot : ∀ c status, ¬State.EndedBy (intentsOf hs) c (.statusFetched c status) :=
    fun c status hend' => nomatch h.tended.endedBy_unique hend hend'
  refine ⟨⟨fun he => ?_, fun ⟨c, status, hend'⟩ => absurd hend' (hnot c status)⟩,
    fun c status hend' => absurd hend' (hnot c status), fun _ => ?_⟩
  · rw [hending] at he
    cases he
  · exact ⟨⟨0⟩, r, message, hm, hr, hend, hending⟩

/-- The state that was seen last says which answer has ended the cycle. -/
theorem Session.Attending.endsWith {before : List State} {a : State} {i : Intent}
    (h : Attending hs seen t) (hseen : seen = before ++ [a])
    (hend : State.EndedBy (intentsOf hs) ⟨0⟩ i) (hleft : a.Leaves i) :
    Watch.EndsWith hs (Watch.shown {} seen) (Watch.ending a) := by
  cases i with
  | statusFetched cycle status => exact h.endsWith_fetched hseen hend hleft
  | statusFailed cycle failure => exact h.endsWith_failed hend hleft
  | _ => cases hleft

/-- While its lines are taken, a watch goes on until it sees that polling is over, and it is over
then. -/
theorem Session.Attending.ends_iff (h : Attending hs seen t) (hnone : t.output.refusal? = none) :
    ((∃ e, t.activity = .over e) ↔ ∃ a ∈ seen, Watch.isOver a = true) ∧
    (∀ a ∈ seen.dropLast, Watch.isOver a = false) ∧
    (t.proceed? = none → Watch.isOver t.store.published = true → ∃ e, t.activity = .over e) ∧
    ∀ e, t.activity = .over e → Watch.EndsWith hs (Watch.shown {} seen) e := by
  cases h.attention with
  | watching number ha _ _ hlast hopen =>
    -- it goes on, and nothing that it has seen is over
    have hnot : ∀ e, t.activity ≠ .over e := by
      intro e he
      rw [ha] at he
      cases he
    refine ⟨⟨fun ⟨e, he⟩ => absurd he (hnot e), ?_⟩, ?_, ?_, fun e he => absurd he (hnot e)⟩
    · rintro ⟨a, ha, hover⟩
      rw [hopen a ha] at hover
      cases hover
    · exact fun a ha => hopen a (List.dropLast_subset _ ha)
    · -- whatever is published has been seen, or nothing has been published
      intro hp hover
      rw [Session.proceed?, ha] at hp
      have hnumber : t.store.revision = number := by
        by_contra hne
        simp [hne] at hp
      rw [hlast hnumber] at hover
      cases hl : seen.getLast? with
      | none =>
        rw [hl] at hover
        cases hover
      | some a =>
        rw [hl, Option.getD_some, hopen a (List.mem_of_getLast? hl)] at hover
        cases hover
  | ended before a i hseen ha _ hopen hover hend hreport hleft =>
    -- what it has seen last is over, and nothing before
    refine ⟨⟨fun _ => ⟨a, ?_, hover⟩, fun _ => ⟨_, ha⟩⟩, ?_, fun _ _ => ⟨_, ha⟩, fun e he => ?_⟩
    · rw [hseen]
      exact List.mem_append_right _ (List.mem_singleton_self a)
    · rw [hseen, List.dropLast_concat]
      exact hopen
    · obtain rfl : Watch.ending a = e := Activity.over.inj (ha.symm.trans he)
      exact h.endsWith hseen hend hleft
  | refused reason _ hout =>
    rw [hnone] at hout
    cases hout

/-- A watch whose lines are refused ends with the refusal. -/
theorem Session.Attending.eq_refused {reason : String} {e : Ending} (h : Attending hs seen t)
    (hr : t.output.refusal? = some reason) (he : t.activity = .over e) : e = .refused reason := by
  cases h.attention with
  | watching number ha _ _ _ _ =>
    rw [ha] at he
    cases he
  | ended _ _ _ _ _ hout _ _ _ _ _ =>
    rw [hr] at hout
    cases hout
  | refused reason' ha hout =>
    obtain rfl : reason' = reason := Option.some.inj (hout.symm.trans hr)
    exact (Activity.over.inj (ha.symm.trans he)).symm

/-- A failure that does not say that the configuration is missing leaves the open cycle open. -/
theorem current?_after_statusFailed {c : Cycle} {failure : Failure} (s : State)
    (hu : failure.isUnconfigured = false) :
    (s.after (.statusFailed c failure)).poll.current? = s.poll.current? := by
  rw [State.poll_after]
  refine Poll.current?_after_of_neither ?_ nofun
  rintro d (- | - | - | ⟨wanted, unconfigured⟩)
  rw [Failure.isUnconfigured, unconfigured] at hu
  cases hu

/-- A watch that nobody interrupts shows the statuses that it sees, each once as long as it stays
the same, and ends with the cycle: as soon as it sees that polling is over, and not before.  It
succeeds exactly if a terminal status has ended the cycle, and fails because the backend has no
configuration otherwise; no other failure ends the cycle.  If standard output takes no line, the
watch ends with the first one. -/
theorem watch_ends_with_cycle (h : Program.ofOrder w settings .watch = .ok s)
    (hf : Session.Follows s hs seen t) :
    Watch.Faithful seen (Watch.shown {} seen) ∧
    (w.output = .taken →
      t.printed.reverse = (Watch.shown {} seen).map statusLine ∧
      ((∃ e, t.activity = .over e) ↔ ∃ a ∈ seen, Watch.isOver a = true) ∧
      (∀ a ∈ seen.dropLast, Watch.isOver a = false) ∧
      (t.proceed? = none → Watch.isOver t.store.published = true → ∃ e, t.activity = .over e) ∧
      ∀ e, t.activity = .over e → Watch.EndsWith hs (Watch.shown {} seen) e) ∧
    (∀ reason, w.output.refusal? = some reason →
      t.printed = [] ∧ ∀ e, t.activity = .over e → e = .refused reason) ∧
    ∀ before c failure after, intentsOf hs = before ++ .statusFailed c failure :: after →
      failure.isUnconfigured = false →
      (State.replay {} (before ++ [.statusFailed c failure])).poll.current?
        = (State.replay {} before).poll.current? := by
  have hattending := hf.attending h
  obtain ⟨client, timeout, interval, rfl⟩ := Program.ofOrder_eq_ok h
  have houtput : t.output = w.output := hf.run.fixed.output
  refine ⟨Watch.faithful_shown hattending.opened, fun ho => ?_, fun reason hr => ⟨?_, ?_⟩, ?_⟩
  · have hnone : t.output.refusal? = none := by
      rw [houtput]
      exact Output.refusal?_eq_none_iff.mpr ho
    exact ⟨hattending.printed hnone, hattending.ends_iff hnone⟩
  · -- nothing is printed on an output that takes no line
    have hprinted := (hf.run.prints ⟨.inr rfl, nofun⟩).printed
    rw [houtput, hr] at hprinted
    exact hprinted.resolve_left nofun
  · intro e he
    rw [← houtput] at hr
    exact hattending.eq_refused hr he
  · intro before c failure after _ hu
    rw [State.replay_append]
    exact current?_after_statusFailed _ hu

/-- A watch whose first fetch is answered with a status, before it has seen anything. -/
theorem follows_first_answer (h : Program.ofOrder w settings .watch = .ok s) {q : Http.Request}
    (hq : s.client.request? .systemStatus = .ok q) {r : Http.Response} {status : RunStatus}
    (hread : Call.systemStatus.read r = .ok status) :
    ∃ hs t, Session.Follows s hs [] t ∧ t.activity = .watching 0 {} ∧
      intentsOf hs = [.fetchStatus, .statusFetched ⟨0⟩ status] := by
  obtain ⟨client, timeout, interval, rfl⟩ := Program.ofOrder_eq_ok h
  let start : Session :=
    { client, timeout, store := Program.store interval .watch, output := w.output,
      activity := Program.activity .watch }
  let task : Task := { number := 0, request := .systemStatus ⟨0⟩ }
  let begun : Task := { task with begun := true }
  have hopened := (Session.Follows.refl (s := start)).move
    (.apply (show start.store.queue = [.fetchStatus] from rfl))
  have hcalled := hopened.move (.call (show task ∈ _ from List.mem_cons_self) rfl hq)
  have hanswered := hcalled.move (.answer (show begun ∈ _ from List.mem_cons_self) rfl hq (some r))
  have hqueue : ((start.store.applyNext.start task).finish begun
      (Client.answer .systemStatus q (some r))).queue = [.statusFetched ⟨0⟩ status] := by
    refine (Store.queue_finish rfl begun _).trans ?_
    show outcome (.systemStatus ⟨0⟩) (Call.systemStatus.read r) = _
    rw [hread]
    rfl
  exact ⟨_, _, hanswered.move (.apply hqueue), rfl, rfl⟩

/-- The backend reports a terminal status at once; the watch shows it and succeeds. -/
theorem watch_ends_with_first_answer :
    let w : Surroundings :=
      { arguments := [], environment := fun _ => none, home := none, file := fun _ => .missing }
    ∃ s hs seen t, Program.ofOrder w {} .watch = .ok s ∧ Session.Follows s hs seen t ∧
      ∃ e, t.activity = .over e ∧ e.exit = 0 ∧
        ∃ status, status.isTerminal = true ∧ (Watch.shown {} seen).getLast? = some status := by
  intro w
  let r : Http.Response :=
    { status := 200, body := "\x7b\"status\":\"Compliant\"\x7d".toUTF8.toList }
  have hsession : ((Program.ofOrder w {} .watch).toOption.map fun s =>
      (s.client.request? .systemStatus).toOption.isSome) = some true := by
    unfold w
    decide +kernel
  have hreply : (Call.systemStatus.read r).toOption.map RunStatus.isTerminal = some true := by
    unfold r
    decide +kernel
  rcases ha : Call.systemStatus.read r with fault | status
  · rw [ha] at hreply
    cases hreply
  rw [ha] at hreply
  have hterminal : status.isTerminal = true := Option.some.inj hreply
  rcases hs : Program.ofOrder w {} .watch with message | s
  · rw [hs] at hsession
    cases hsession
  obtain ⟨q, hq⟩ : ∃ q, s.client.request? .systemStatus = .ok q := by
    rw [hs] at hsession
    rcases hq : s.client.request? .systemStatus with fault | q
    · simp [Except.toOption, hq] at hsession
    · exact ⟨q, rfl⟩
  obtain ⟨hs', t, hf, ht, hintents⟩ := follows_first_answer hs hq ha
  have hended : State.EndedBy (intentsOf hs') ⟨0⟩ (.statusFetched ⟨0⟩ status) :=
    ⟨[.fetchStatus], [], hintents, .statusFetched rfl hterminal⟩
  have hover : Watch.isOver t.store.published = true := by
    have hpoll : (State.replay {} (intentsOf hs')).poll = Poll.firstOver := by
      rw [hintents]
      show ((State.replay {} [.fetchStatus]).after (.statusFetched ⟨0⟩ status)).poll = _
      rw [State.poll_after]
      show (Poll.first true).complete ⟨0⟩ status.isTerminal = _
      rw [hterminal]
      rfl
    have hpublished : t.store.published.poll = Poll.firstOver :=
      (hf.attending hs).tended.rests.poll.trans hpoll
    rw [Watch.isOver, hpublished]
    rfl
  -- there is something new to be seen, or else the watch would be over
  obtain ⟨u, hu⟩ : ∃ u, t.proceed? = some u := by
    refine Option.ne_none_iff_exists'.mp fun hnone => ?_
    obtain ⟨-, hends, -⟩ := watch_ends_with_cycle hs hf
    obtain ⟨-, -, -, hcaught, -⟩ := hends rfl
    obtain ⟨e, he⟩ := hcaught hnone hover
    rw [ht] at he
    cases he
  obtain ⟨-, hends, -⟩ := watch_ends_with_cycle hs (hf.look hu)
  obtain ⟨-, hiff, -, -, hending⟩ := hends rfl
  obtain ⟨e, he⟩ := hiff.mpr ⟨_, List.mem_singleton_self _, hover⟩
  refine ⟨s, _, _, u, rfl, hf.look hu, e, he, (hending e he).succeeds.mpr ⟨_, _, hended⟩, ?_⟩
  exact ⟨status, (hending e he).shows _ _ hended⟩

end

end Cli

end RunControl
