/-
RunControl/Proofs/Store/Owing.lean

Who is to settle a resource.  A sender owes an answer about it (`Owes`) when its request is under
way, or when an intent is to come from it that settles the resource: one that is in the queue or
that it has still to put there (`pending`).

What is to come from a sender grows by what it sets out to send, and shrinks by what the store
takes off the queue (`Step.pending`).  A request is under way from the step in which the store
takes the intent that issues it until it is answered (`Step.underWay`).  So an answer is owed
until it is applied (`Step.owes`), and nobody comes to owe one but a request that is issued, or a
caller that makes the answer up (`Step.owes_of`).

Hence a resource is marked in `loading` only while somebody owes an answer about it
(`Orderly.marked`), whoever sends what in between.
-/
import RunControl.Proofs.State.Failures
import RunControl.Proofs.Store.PlainTasks
import RunControl.Proofs.Store.Replays

namespace RunControl

namespace Store

/-! ### Requests under way -/

/-- A request is under way with a number. -/
def UnderWay (s : Store) (number : Nat) (q : Request) : Prop :=
  ∃ task ∈ s.tasks, task.number = number ∧ task.request = q

variable {s t : Store} {k : Nat} {q q' : Request} {i : Intent} {queue : List Intent}

theorem UnderWay.lt_sent (hq : s.UnderWay k q) (h : s.Numbered) : k < s.sent := by
  obtain ⟨task, hm, rfl, -⟩ := hq
  exact h.lt_sent _ (List.mem_map_of_mem hm)

theorem UnderWay.eq (hq : s.UnderWay k q) (hq' : s.UnderWay k q') (h : s.Numbered) : q = q' := by
  obtain ⟨u, hu, rfl, rfl⟩ := hq
  obtain ⟨v, hv, hn, rfl⟩ := hq'
  rw [h.task_eq hu hv hn.symm]

theorem underWay_of_tasks (h : t.tasks = s.tasks) : t.UnderWay k q ↔ s.UnderWay k q := by
  rw [UnderWay, h]
  rfl

theorem underWay_start (s : Store) (task : Task) :
    (s.start task).UnderWay k q ↔ s.UnderWay k q := by
  have ht : (s.start task).tasks = s.tasks.map (Task.mark task.number) := rfl
  rw [UnderWay, ht]
  simp [UnderWay]

theorem underWay_retire (s : Store) (task : Task) :
    (s.retire task).UnderWay k q ↔ s.UnderWay k q ∧ k ≠ task.number := by
  constructor
  · rintro ⟨u, hu, rfl, rfl⟩
    obtain ⟨hu, hn⟩ := List.mem_filter.mp hu
    exact ⟨⟨u, hu, rfl, rfl⟩, bne_iff_ne.mp hn⟩
  · rintro ⟨⟨u, hu, rfl, rfl⟩, hn⟩
    exact ⟨u, List.mem_filter.mpr ⟨hu, bne_iff_ne.mpr hn⟩, rfl, rfl⟩

/-- A plain request is under way when an intent has been applied if it was so before, or if the
intent issues it. -/
theorem underWay_applyNext (h : s.Held) (hq : s.queue = i :: queue)
    (hr : q.resource ≠ .systemStatus) :
    s.applyNext.UnderWay k q ↔
      s.UnderWay k q ∨ k = s.sent ∧ s.state.request? (s.state.after i) i = some q := by
  have plain : ∀ t : Store, t.UnderWay k q ↔ ∃ task ∈ t.plainTasks, task.number = k ∧
      task.request = q := by
    intro t
    constructor
    · rintro ⟨u, hu, rfl, rfl⟩
      exact ⟨u, mem_plainTasks.mpr ⟨hu, Call.isPlain_iff.mpr hr⟩, rfl, rfl⟩
    · rintro ⟨u, hu, hn, hq⟩
      exact ⟨u, (mem_plainTasks.mp hu).1, hn, hq⟩
  rw [plain, plain, plainTasks_applyNext h hq]
  constructor
  · rintro ⟨u, hu, rfl, rfl⟩
    rcases List.mem_append.mp hu with hu | hu
    · exact .inl ⟨u, hu, rfl, rfl⟩
    · obtain ⟨q, hq, rfl⟩ := Option.map_eq_some_iff.mp (Option.mem_toList.mp hu)
      exact .inr ⟨rfl, hq⟩
  · rintro (⟨u, hu, hn, hq⟩ | ⟨rfl, hq⟩)
    · exact ⟨u, List.mem_append_left _ hu, hn, hq⟩
    · exact ⟨_, List.mem_append_right _ (by rw [hq]; exact List.mem_singleton_self _), rfl, rfl⟩

theorem UnderWay.mem_numbers (hq : s.UnderWay k q) : k ∈ s.numbers := by
  obtain ⟨task, hm, rfl, -⟩ := hq
  exact List.mem_map_of_mem hm

/-! ### Numbers that are given out -/

/-- The numbers that are new in `t` are given out from where they stand in `s`. -/
structure Counts (s t : Store) : Prop where
  sent : s.sent ≤ t.sent
  numbers : ∀ k ∈ t.numbers, k ∈ s.numbers ∨ s.sent ≤ k ∧ k < t.sent

theorem counts_of_sublist (hs : t.sent = s.sent) (hn : t.numbers.Sublist s.numbers) :
    Counts s t :=
  ⟨Nat.le_of_eq hs.symm, fun _ hk => .inl (hn.subset hk)⟩

theorem Thins.counts (h : Thins s t) : Counts s t :=
  counts_of_sublist h.sent h.numbers

theorem Counts.trans {u : Store} (h : Counts s t) (h' : Counts t u) : Counts s u := by
  refine ⟨Nat.le_trans h.sent h'.sent, fun k hk => ?_⟩
  rcases h'.numbers k hk with hk | ⟨hle, hlt⟩
  · exact (h.numbers k hk).imp_right fun hk => ⟨hk.1, Nat.lt_of_lt_of_le hk.2 h'.sent⟩
  · exact .inr ⟨Nat.le_trans h.sent hle, hlt⟩

theorem counts_carryOut (s : Store) (e : Effect) : Counts s (s.carryOut e) := by
  cases e with
  | send q =>
    refine ⟨Nat.le_succ _, fun k hk => ?_⟩
    obtain ⟨u, hu, rfl⟩ := List.mem_map.mp hk
    rcases List.mem_append.mp hu with hu | hu
    · exact .inl (List.mem_map_of_mem hu)
    · rw [List.mem_singleton.mp hu]
      exact .inr ⟨Nat.le_refl _, Nat.lt_succ_self _⟩
  | startTimer c => exact (thins_arm s c).counts
  | stopTimer => exact (thins_releaseTimer s).counts
  | abandonFetch => exact (thins_releaseFetch s).counts

theorem counts_foldl_carryOut (es : List Effect) (s : Store) :
    Counts s (es.foldl carryOut s) := by
  induction es generalizing s with
  | nil => exact (Thins.refl s).counts
  | cons e es ih => exact (counts_carryOut s e).trans (ih _)

theorem counts_applyNext (s : Store) : Counts s s.applyNext := by
  unfold applyNext
  split
  · exact (Thins.refl s).counts
  · next i queue _ =>
    let t : Store := { s with queue, state := s.state.after i, applied := s.applied + 1 }
    have ht : Thins s t := ⟨rfl, rfl, List.Sublist.refl _⟩
    exact (ht.trans (thins_publish t)).counts.trans (counts_foldl_carryOut _ _)

theorem counts_close (s : Store) : Counts s s.close := by
  have h := (thins_releaseTimer s).trans (thins_releaseFetch s.releaseTimer)
  unfold close
  split
  · exact (Thins.refl s).counts
  · exact counts_of_sublist h.sent h.numbers

end Store

namespace Traffic

variable {t u : Traffic} {a : Act} {acts : List Act} {who : Sender} {r : Resource} {k : Nat}
  {q : Request} {i j : Intent}

/-! ### What is to come -/

theorem mem_sentBy {es : List (Sender × Intent)} : j ∈ sentBy who es ↔ (who, j) ∈ es := by
  constructor
  · intro hj
    obtain ⟨⟨w, i⟩, hm, he⟩ := List.mem_filterMap.mp hj
    obtain ⟨hw, he⟩ := Option.ite_none_right_eq_some.mp he
    rwa [← hw, ← Option.some.inj he]
  · exact fun hm => List.mem_filterMap.mpr ⟨_, hm, if_pos rfl⟩

/-- What a sender has put into the queue or has still to put there. -/
def pending (t : Traffic) (who : Sender) : List Intent :=
  sentBy who t.queued ++ t.unsent who

theorem pending_plan (t : Traffic) (w : Sender) (is : List Intent) (who : Sender) :
    (t.plan w is).pending who = t.pending who ++ if w = who then is else [] := by
  show sentBy who t.queued ++ Function.update t.unsent w (t.unsent w ++ is) who = _
  by_cases hw : w = who
  · subst hw
    rw [Function.update_self, if_pos rfl, pending, List.append_assoc]
  · rw [Function.update_of_ne (Ne.symm hw), if_neg hw, List.append_nil]
    rfl

/-- It makes no difference to what is to come whether an intent has been put into the queue. -/
theorem pending_put {rest : List Intent} {w : Sender} (hnext : t.unsent w = i :: rest)
    (who : Sender) : (t.put w i rest).pending who = t.pending who := by
  show sentBy who (t.queued ++ [(w, i)]) ++ Function.update t.unsent w rest who = _
  rw [sentBy_append, pending]
  by_cases hw : w = who
  · subst hw
    rw [Function.update_self, sentBy_singleton_self, hnext, List.append_assoc]
    rfl
  · rw [Function.update_of_ne (Ne.symm hw), sentBy_singleton_of_ne hw, List.append_nil]

namespace Step

theorem isOpen (hs : Step t a u) (ho : u.store.isClosed = false) : t.store.isClosed = false := by
  cases hs with
  | put next isOpen => exact isOpen
  | take first => exact (Store.isClosed_applyNext _).symm.trans ho
  | close isOpen => exact isOpen
  | _ => exact ho

/-- What is taken off the queue and what is to come of a sender then, is what was to come before,
and what it sets out to send. -/
theorem pending (hs : Step t a u) (ho : u.store.isClosed = false) (who : Sender) :
    sentBy who a.taken?.toList ++ u.pending who = t.pending who ++ a.plan who := by
  cases hs with
  | @dispatch n i => exact pending_plan t (.caller n) [i] who
  | @ask n e => exact pending_plan t (.caller n) e.intents who
  | put next isOpen => exact (pending_put next who).trans (List.append_nil _).symm
  | @answer task mem answer => exact pending_plan _ (.request task.number) _ who
  | @ring alarm mem => exact pending_plan _ (.timer alarm.number) _ who
  | @take w i queued first =>
    show sentBy who [(w, i)] ++ (sentBy who queued ++ t.unsent who) = t.pending who ++ []
    rw [Traffic.pending, first, List.append_nil, ← List.append_assoc, ← sentBy_append]
    rfl
  | fail isClosed =>
    change t.store.isClosed = false at ho
    rw [isClosed] at ho
    cases ho
  | close isOpen => exact absurd ho (Store.not_isOpen_close _)
  | receive | giveUp | start | advance => exact (List.append_nil _).symm

/-- What is to come was to come before, or a sender has just set out to send it. -/
theorem mem_pending (hs : Step t a u) (ho : u.store.isClosed = false) (hj : j ∈ u.pending who) :
    j ∈ t.pending who ∨ j ∈ a.plan who := by
  rw [← List.mem_append, ← hs.pending ho who]
  exact List.mem_append_right _ hj

/-- What was to come, or is set out to be sent, is to come still, unless the store takes it. -/
theorem taken_or_mem_pending (hs : Step t a u) (ho : u.store.isClosed = false)
    (hj : j ∈ t.pending who ∨ j ∈ a.plan who) : a = .takes who j ∨ j ∈ u.pending who := by
  rw [← List.mem_append, ← hs.pending ho who, List.mem_append] at hj
  refine hj.imp_left fun hj => ?_
  cases a with
  | takes w i =>
    cases List.mem_singleton.mp (mem_sentBy.mp hj)
    rfl
  | _ => cases hj

/-! ### Steps and requests -/

/-- A request that sets out to send something has been answered, and is not under way any more. -/
theorem of_plans_request {is : List Intent} (hs : Step t (.plans (.request k) is) u) :
    (∃ q answer, t.store.UnderWay k q ∧ is = outcome q answer) ∧ k ∉ u.store.numbers := by
  cases hs with
  | @answer task mem answer =>
    refine ⟨⟨task.request, answer, ⟨task, mem, rfl, rfl⟩, rfl⟩, fun hk => ?_⟩
    obtain ⟨v, hv, hn⟩ := List.mem_map.mp hk
    exact bne_iff_ne.mp (List.mem_filter.mp hv).2 hn

/-- What a request sets out to send is what it comes to. -/
theorem of_plan_request (hs : Step t a u) (hj : j ∈ a.plan (.request k)) :
    ∃ q answer, t.store.UnderWay k q ∧ a = .plans (.request k) (outcome q answer) := by
  cases a with
  | plans w is =>
    obtain ⟨rfl, -⟩ : w = .request k ∧ j ∈ is := by simpa [Act.plan] using hj
    obtain ⟨⟨q, answer, hq, rfl⟩, -⟩ := hs.of_plans_request
    exact ⟨q, answer, hq, rfl⟩
  | _ => simp [Act.plan] at hj

/-- What a timer sets out to send settles nothing. -/
theorem settles?_of_plan_timer (hs : Step t a u) (hj : j ∈ a.plan (.timer k)) :
    j.settles? = none := by
  cases hs with
  | @ring alarm mem =>
    rw [Act.plan] at hj
    split at hj
    · rw [List.mem_singleton.mp hj]
      rfl
    · cases hj
  | _ => simp [Act.plan] at hj

theorem counts (hs : Step t a u) : Store.Counts t.store u.store := by
  cases hs with
  | put next isOpen => exact (Store.thins_send _ _).counts
  | start mem => exact (Store.thins_start _ _).counts
  | answer mem answer => exact (Store.thins_filter _ _).counts
  | take first => exact Store.counts_applyNext _
  | close isOpen => exact Store.counts_close _
  | dispatch | ask | receive | giveUp | fail | ring | advance =>
    exact Store.counts_of_sublist rfl (List.Sublist.refl _)

end Step

/-! ### What holds at any time -/

/-- A sender owes an answer about a resource: its request is under way, or an intent that settles
the resource is to come from it. -/
def Owes (t : Traffic) (r : Resource) (who : Sender) : Prop :=
  (∃ k q, who = .request k ∧ t.store.UnderWay k q ∧ q.resource = r) ∨
    ∃ j ∈ t.pending who, j.settles? = some r

/-- What holds after every run. -/
structure Orderly (t : Traffic) : Prop where
  queue : t.store.queue = t.queued.map Prod.snd
  published : t.store.published.Alike t.store.state
  ended : t.store.isClosed = true → t.queued = []
  held : t.store.isClosed = false → t.store.Held
  /-- Nothing comes from a request before it is sent. -/
  fresh : t.store.isClosed = false → ∀ k, t.store.sent ≤ k → t.pending (.request k) = []
  /-- A mark stands for an answer that is owed. -/
  marked : t.store.isClosed = false →
    ∀ r, r ≠ .systemStatus → t.store.state.loading.get r = true → ∃ who, t.Owes r who

namespace Orderly

theorem queue_eq (h : Orderly t) {queued : List (Sender × Intent)}
    (hq : t.queued = (who, i) :: queued) : t.store.queue = i :: queued.map Prod.snd := by
  rw [h.queue, hq]
  rfl

/-- Nothing is taken off the queue of a store that has ended. -/
theorem isOpen_of_queued (h : Orderly t) {queued : List (Sender × Intent)}
    (hq : t.queued = (who, i) :: queued) : t.store.isClosed = false := by
  refine Bool.eq_false_iff.mpr fun hc => ?_
  rw [h.ended hc] at hq
  cases hq

end Orderly

namespace Step

/-- A plain request is under way until it sets out to send what it comes to, and from the step in
which the intent is applied that issues it. -/
theorem underWay (hs : Step t a u) (h : Orderly t) (ho : u.store.isClosed = false)
    (hr : q.resource ≠ .systemStatus) :
    u.store.UnderWay k q ↔ t.store.UnderWay k q ∧ a.plan (.request k) = [] ∨
      ∃ w i, a = .takes w i ∧ k = t.store.sent ∧
        t.store.state.request? (t.store.state.after i) i = some q := by
  have hopen := hs.isOpen ho
  -- most steps neither answer a request nor take an intent: what is under way stays so
  have still : ∀ {s : Store}, (s.UnderWay k q ↔ t.store.UnderWay k q) → a.taken? = none →
      a.plan (.request k) = [] → (s.UnderWay k q ↔ t.store.UnderWay k q ∧ a.plan (.request k) = [] ∨
      ∃ w i, a = .takes w i ∧ k = t.store.sent ∧
        t.store.state.request? (t.store.state.after i) i = some q) := by
    intro s hiff ha hp
    rw [hiff, hp]
    constructor
    · exact fun hq => .inl ⟨hq, rfl⟩
    · rintro (⟨hq, -⟩ | ⟨w, i, he, -⟩)
      · exact hq
      · rw [he] at ha
        cases ha
  cases hs with
  | put next isOpen =>
    exact still (Store.underWay_of_tasks (Store.sameRequests_send _ _).tasks) rfl rfl
  | start mem => exact still (Store.underWay_start ..) rfl rfl
  | @answer task mem answer =>
    -- the task that is answered sets out to send something, every other one does not
    refine (Store.underWay_retire t.store task).trans ⟨?_, ?_⟩
    · rintro ⟨hq, hk⟩
      exact .inl ⟨hq, if_neg fun he => hk (Sender.request.inj he).symm⟩
    · rintro (⟨hq, hp⟩ | ⟨w, i, he, -⟩)
      · refine ⟨hq, ?_⟩
        rintro rfl
        obtain ⟨n, j, hj, -⟩ := exists_settles_outcome task.request answer
        rw [Act.plan, if_pos rfl] at hp
        rw [hp] at hj
        cases hj
      · cases he
  | @take w i queued first =>
    -- only the request that the intent itself issues is new
    refine (Store.underWay_applyNext (h.held hopen) (h.queue_eq first) hr).trans ⟨?_, ?_⟩
    · rintro (hq | ⟨hk, hq⟩)
      · exact .inl ⟨hq, rfl⟩
      · exact .inr ⟨w, i, rfl, hk, hq⟩
    · rintro (⟨hq, -⟩ | ⟨_, _, he, hk, hq⟩)
      · exact .inl hq
      · cases he
        exact .inr ⟨hk, hq⟩
  | close isOpen => exact absurd ho (Store.not_isOpen_close _)
  | dispatch | ask | receive | giveUp | fail | ring | advance =>
    exact still Iff.rfl rfl (by simp [Act.plan])

/-- Who owes an answer has owed it before, or is a caller that makes it up, or a request that is
just issued. -/
theorem owes_of (hs : Step t a u) (h : Orderly t) (ho : u.store.isClosed = false)
    (hr : r ≠ .systemStatus) (hw : u.Owes r who) :
    t.Owes r who ∨ (∃ n, who = .caller n ∧ ∃ j ∈ a.plan (.caller n), j.settles? = some r) ∨
      ∃ w i, a = .takes w i ∧ who = .request t.store.sent ∧ t.store.state.sends? i = some r := by
  rcases hw with ⟨k, q, rfl, hk, rfl⟩ | ⟨j, hj, hset⟩
  · rcases (hs.underWay h ho hr).mp hk with ⟨hk, -⟩ | ⟨w, i, ha, rfl, hq⟩
    · exact .inl (.inl ⟨k, q, rfl, hk, rfl⟩)
    · exact .inr (.inr ⟨w, i, ha, rfl, Option.map_eq_some_iff.mpr ⟨q, hq, rfl⟩⟩)
  · rcases hs.mem_pending ho hj with hj | hj
    · exact .inl (.inr ⟨j, hj, hset⟩)
    · cases who with
      | caller n => exact .inr (.inl ⟨n, rfl, j, hj, hset⟩)
      | request k =>
        -- its request was under way before
        obtain ⟨q, answer, hq, rfl⟩ := hs.of_plan_request hj
        rw [Act.plan, if_pos rfl] at hj
        exact .inl (.inl ⟨k, q, rfl, hq, Request.resource_of_settles? hj hset⟩)
      | timer k =>
        rw [hs.settles?_of_plan_timer hj] at hset
        cases hset

/-- An answer is owed until it is applied. -/
theorem owes (hs : Step t a u) (h : Orderly t) (ho : u.store.isClosed = false)
    (hr : r ≠ .systemStatus) (hw : t.Owes r who) :
    u.Owes r who ∨ ∃ j, a = .takes who j ∧ j.settles? = some r := by
  have coming : ∀ {j}, j ∈ t.pending who ∨ j ∈ a.plan who → j.settles? = some r →
      u.Owes r who ∨ ∃ j, a = .takes who j ∧ j.settles? = some r := by
    intro j hj hset
    rcases hs.taken_or_mem_pending ho hj with ha | hj
    · exact .inr ⟨j, ha, hset⟩
    · exact .inl (.inr ⟨j, hj, hset⟩)
  rcases hw with ⟨k, q, rfl, hk, rfl⟩ | ⟨j, hj, hset⟩
  · rcases hp : a.plan (.request k) with - | ⟨i, is⟩
    · exact .inl (.inl ⟨k, q, rfl, (hs.underWay h ho hr).mpr (.inl ⟨hk, hp⟩), rfl⟩)
    · -- the request is answered in this very step
      obtain ⟨q', answer, hk', rfl⟩ := hs.of_plan_request (hp ▸ List.mem_cons_self)
      obtain rfl := hk.eq hk' (h.held (hs.isOpen ho)).toNumbered
      -- and what it comes to has the intent that settles the resource
      obtain ⟨n, j, hj, hset⟩ := exists_settles_outcome q answer
      refine coming (.inr ?_) hset
      rw [Act.plan, if_pos rfl]
      exact List.mem_of_getElem? hj
  · exact coming (.inl hj) hset

theorem state_of_takes (hs : Step t (.takes who i) u) (h : Orderly t) :
    u.store.state = t.store.state.after i := by
  cases hs with
  | take first =>
    show t.store.applyNext.state = _
    rw [Store.applyNext_of_queue (h.queue_eq first), Store.state_apply]

theorem state_of_taken?_eq_none (hs : Step t a u) (ha : a.taken? = none) :
    u.store.state = t.store.state := by
  cases hs with
  | put next isOpen => exact Store.state_send ..
  | take first => cases ha
  | close isOpen => exact Store.state_close _
  | _ => rfl

theorem ended (hs : Step t a u) (h : Orderly t) (hc : u.store.isClosed = true) :
    u.queued = [] := by
  cases hs with
  | put next isOpen =>
    rw [show (t.put _ _ _).store.isClosed = _ from Store.isClosed_send .., isOpen] at hc
    cases hc
  | take first =>
    have ho := h.isOpen_of_queued first
    rw [show t.store.applyNext.isClosed = _ from Store.isClosed_applyNext _, ho] at hc
    cases hc
  | close isOpen => rfl
  | _ => exact h.ended hc

theorem held (hs : Step t a u) (h : Orderly t) (ho : u.store.isClosed = false) :
    u.store.Held := by
  have ht := h.held (hs.isOpen ho)
  have hn := ht.toNumbered
  cases hs with
  | put next isOpen =>
    exact ht.sameRequests (hn.thins (Store.thins_send _ _)) (Store.sameRequests_send _ _)
  | start mem => exact ht.step (@Store.Step.start (fun _ => True) _ _ mem)
  | @answer task mem answer =>
    refine ht.of_subset (hn.thins (Store.thins_filter _ _)) rfl (fun _ hh => hh) fun v hv => ?_
    exact ⟨v, List.mem_of_mem_filter hv, rfl, rfl⟩
  | ring mem => exact ht.sameRequests ⟨hn.isOpen, hn.lt_sent, hn.nodup⟩ ⟨rfl, rfl, rfl⟩
  | advance ms => exact ht.sameRequests ⟨hn.isOpen, hn.lt_sent, hn.nodup⟩ ⟨rfl, rfl, rfl⟩
  | take first => exact ht.step (@Store.Step.apply (fun _ => True) _ _ _ (h.queue_eq first))
  | close isOpen => exact absurd ho (Store.not_isOpen_close _)
  | dispatch | ask | receive | giveUp | fail => exact ht

theorem fresh (hs : Step t a u) (h : Orderly t) (ho : u.store.isClosed = false)
    (hk : u.store.sent ≤ k) : u.pending (.request k) = [] := by
  have hopen := hs.isOpen ho
  have hle := Nat.le_trans hs.counts.sent hk
  have hplan : a.plan (.request k) = [] := by
    refine List.eq_nil_iff_forall_not_mem.mpr fun j hj => ?_
    obtain ⟨q, -, hq, -⟩ := hs.of_plan_request hj
    exact Nat.not_le_of_lt (hq.lt_sent (h.held hopen).toNumbered) hle
  have hp := hs.pending ho (.request k)
  rw [h.fresh hopen k hle, hplan] at hp
  exact (List.append_eq_nil_iff.mp hp).2

/-- A resource that is marked after a step is owed an answer by somebody. -/
theorem marked (hs : Step t a u) (h : Orderly t) (ho : u.store.isClosed = false)
    (hr : r ≠ .systemStatus) (hl : u.store.state.loading.get r = true) :
    ∃ who, u.Owes r who := by
  have hopen := hs.isOpen ho
  -- a mark is only made when an intent is taken, and then its request is under way
  rcases ha : a.taken? with - | e
  · rw [hs.state_of_taken?_eq_none ha] at hl
    obtain ⟨who, hw⟩ := h.marked hopen r hr hl
    refine ⟨who, (hs.owes h ho hr hw).resolve_right ?_⟩
    rintro ⟨j, rfl, -⟩
    cases ha
  · obtain ⟨w, i, rfl⟩ : ∃ w i, a = .takes w i := by
      cases a with
      | takes w i => exact ⟨w, i, rfl⟩
      | _ => cases ha
    rw [hs.state_of_takes h] at hl
    obtain ⟨hset, hl | hsend⟩ := State.loading_or_sends?_of_after hr hl
    · -- marked before, and this is not the answer that settles it
      obtain ⟨who, hw⟩ := h.marked hopen r hr hl
      refine ⟨who, (hs.owes h ho hr hw).resolve_right ?_⟩
      rintro ⟨j, he, hj⟩
      cases he
      exact hset hj
    · -- marked just now
      obtain ⟨q, hq, rfl⟩ := Option.map_eq_some_iff.mp hsend
      refine ⟨.request t.store.sent, .inl ⟨_, q, rfl, ?_, rfl⟩⟩
      exact (hs.underWay h ho hr).mpr (.inr ⟨w, i, rfl, rfl, hq⟩)

end Step

/-- So it is after every run. -/
theorem Run.orderly {interval : Nat} (h : Run { store := Store.initial interval } acts t) :
    Orderly t := by
  induction h with
  | refl =>
    refine ⟨rfl, .inl rfl, fun _ => rfl, fun _ => Store.held_initial interval, fun _ _ _ => rfl, ?_⟩
    intro _ r _ hl
    rw [show (Store.initial interval).state.loading.get r = false from PerResource.get_const ..]
      at hl
    cases hl
  | tail hrun hstep ih =>
    have hfollowed := (hrun.tail hstep).sound.followed
    exact {
      queue := hfollowed.queue
      published := hfollowed.publishes.published
      ended := hstep.ended ih
      held := hstep.held ih
      fresh := fun ho k hk => hstep.fresh ih ho hk
      marked := fun ho r hr hl => hstep.marked ih ho hr hl }

/-! ### Each request is answered once -/

/-- A request that has been answered is not under way any more. -/
theorem Run.retired {interval : Nat} (h : Run { store := Store.initial interval } acts t) :
    (∀ k ∈ t.store.numbers, k < t.store.sent) ∧
      ∀ k is, .plans (.request k) is ∈ acts → k < t.store.sent ∧ k ∉ t.store.numbers := by
  induction h with
  | refl => exact ⟨fun _ hk => absurd hk List.not_mem_nil, fun _ _ hm => absurd hm List.not_mem_nil⟩
  | @tail acts a t u _ hstep ih =>
    obtain ⟨hlt, hret⟩ := ih
    have hc := hstep.counts
    refine ⟨fun k hk => ?_, fun k is hm => ?_⟩
    · rcases hc.numbers k hk with hk | hk
      · exact Nat.lt_of_lt_of_le (hlt k hk) hc.sent
      · exact hk.2
    · rcases List.mem_append.mp hm with hm | hm
      · obtain ⟨hsent, hgone⟩ := hret k is hm
        refine ⟨Nat.lt_of_lt_of_le hsent hc.sent, fun hk => ?_⟩
        exact (hc.numbers k hk).elim hgone fun hk => Nat.not_le_of_lt hsent hk.1
      · obtain rfl := List.mem_singleton.mp hm
        obtain ⟨⟨q, answer, hq, -⟩, hgone⟩ := hstep.of_plans_request
        exact ⟨Nat.lt_of_lt_of_le (hlt k hq.mem_numbers) hc.sent, hgone⟩

/-- So it is answered once. -/
theorem Run.answered_once {interval : Nat} {is js : List Intent}
    (h : Run { store := Store.initial interval } acts t) (hi : .plans (.request k) is ∈ acts)
    (hj : .plans (.request k) js ∈ acts) : is = js := by
  induction h with
  | refl => cases hi
  | @tail acts a t u hrun hstep ih =>
    -- who is answered now has not been answered before
    have first : ∀ {ks ls}, a = .plans (.request k) ks → .plans (.request k) ls ∉ acts := by
      rintro ks ls rfl hm
      obtain ⟨⟨q, answer, hq, -⟩, -⟩ := hstep.of_plans_request
      exact (hrun.retired.2 k _ hm).2 hq.mem_numbers
    rcases List.mem_append.mp hi with hi | hi <;> rcases List.mem_append.mp hj with hj | hj
    · exact ih hi hj
    · exact absurd hi (first (List.mem_singleton.mp hj).symm)
    · exact absurd hj (first (List.mem_singleton.mp hi).symm)
    · cases List.mem_singleton.mp hi
      cases List.mem_singleton.mp hj
      rfl

end Traffic

end RunControl
