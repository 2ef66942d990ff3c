/-
RunControl/Proofs/Cli/Ends.lean

A command that keeps to a contract comes to its end, whatever the backend answers.  A session in
front of a backend makes one turn after the other, and these are steps of a run in which every
request is answered at once (`Session.Ends`).

A dialogue is a tree, so the command has finitely many moves to make (`Session.ends_of_meets`, by
induction on the dialogue).  Between two of them it waits while the store works; the work becomes
less with every turn, and when none is left, the contract says that what is waited for is there
(`Session.ends_awaiting`).  The timer never has to go off.

Whatever the command is, the turns that a session makes before it waits for the timer are steps
of a run (`Session.exists_run`).
-/
import RunControl.Proofs.Cli.Outline
import RunControl.Proofs.Store.Draining

namespace RunControl

namespace Store

/-- A request that is sent has not been begun. -/
theorem begun_of_mem_applyNext {s : Store} {task : Task} (h : task ∈ s.applyNext.tasks) :
    task ∈ s.tasks ∨ task.begun = false := by
  -- of the effects, which are carried out one after the other, only a request adds a task
  have carried : ∀ (es : List Effect) (u : Store), task ∈ (es.foldl carryOut u).tasks →
      task ∈ u.tasks ∨ task.begun = false := by
    intro es
    induction es with
    | nil => exact fun u h => .inl h
    | cons e es ih =>
      intro u h
      refine (ih _ h).elim (fun hm => ?_) .inr
      cases e with
      | send q =>
        rcases List.mem_append.mp hm with hm | hm
        · exact .inl hm
        · rw [List.mem_singleton.mp hm]
          exact .inr rfl
      | startTimer c => exact .inl ((sameRequests_arm u c).tasks ▸ hm)
      | stopTimer => exact .inl ((sameRequests_releaseTimer u).tasks ▸ hm)
      | abandonFetch =>
        change task ∈ u.releaseFetch.tasks at hm
        unfold releaseFetch at hm
        split at hm
        · exact .inl hm
        · exact .inl (List.mem_of_mem_filter hm)
  unfold applyNext at h
  split at h
  · exact .inl h
  · refine (carried _ _ h).imp_left fun hm => ?_
    rwa [(sameRequests_publish _).tasks] at hm

end Store

namespace Cli.Session

variable {k : Contract} {pre : Scene → Prop} {backend : Backend} {s t : Session}
  {hs : List Happening} {task : Task} {q : Http.Request}

/-! ### Turns as steps -/

/-- In front of a backend a session comes to its end, by steps of a run. -/
def Ends (backend : Backend) (s : Session) : Prop :=
  ∃ turns hs e, Run s hs (s.run backend none turns) ∧
    (s.run backend none turns).activity = .over e

theorem Ends.of_over {e : Ending} (h : s.activity = .over e) : Ends backend s :=
  ⟨0, [], e, .refl, h⟩

theorem Ends.of_moved (h : s.turn = .moved t) (hrun : Run s hs t) (ht : Ends backend t) :
    Ends backend s := by
  obtain ⟨turns, hs', e, hrun', he⟩ := ht
  have hr : s.run backend none (turns + 1) = t.run backend none turns := by rw [run, h]
  exact ⟨turns + 1, hs ++ hs', e, hr ▸ hrun.trans hrun', hr ▸ he⟩

theorem Ends.of_exchange (h : s.turn = .exchange task q)
    (hrun : ∀ r, ∃ hs, Run s hs (s.receive task q r))
    (ht : ∀ r, Ends backend (s.receive task q r)) :
    Ends backend s := by
  obtain ⟨hs, hrun⟩ := hrun (backend s.timeout s.requests q)
  obtain ⟨turns, hs', e, hrun', he⟩ := ht (backend s.timeout s.requests q)
  have hr : s.run backend none (turns + 1)
      = (s.receive task q (backend s.timeout s.requests q)).run backend none turns := by
    rw [run, h]
  exact ⟨turns + 1, hs ++ hs', e, hr ▸ hrun.trans hrun', hr ▸ he⟩

theorem turn_of_proceed (h : s.proceed? = some t) : s.turn = .moved t := by
  rcases ha : s.activity with d | ⟨ticket, wanted, next⟩ | ⟨seen, watch⟩ | e
  · simp only [turn, ha, h]
  · simp only [turn, ha, h]
  · simp only [turn, ha, h]
  · -- nothing is done after the end
    simp only [proceed?, ha] at h
    cases h

/-- No request is sent before it is its turn to be answered. -/
def Fresh (s : Session) : Prop :=
  ∀ task ∈ s.store.tasks, task.begun = false

/-- `t` comes from `s` by moves behind the command, and there is less work left in it. -/
structure Drains (s t : Session) (hs : List Happening) : Prop where
  run : Run s hs t
  client : t.client = s.client
  activity : t.activity = s.activity
  fresh : t.Fresh
  less : t.store.work < s.store.work
  firm : ∀ P, Firm s.client P → ∀ earlier, P (s.scene earlier) → P (t.scene (earlier ++ hs))

/-- The next intent is applied. -/
theorem drains_apply (h : s.Fresh) {i : Intent} {queue : List Intent}
    (hq : s.store.queue = i :: queue) :
    Drains s { s with store := s.store.applyNext } [.applied i] := by
  have hm : Move s.client s.store [.applied i] s.store.applyNext := .apply hq
  exact
    { run := Run.refl.tail (.move hm)
      client := rfl
      activity := rfl
      fresh := fun u hu => (Store.begun_of_mem_applyNext hu).elim (h u) id
      less := Store.work_applyNext_lt hq
      firm := fun P hP _ hx => hP _ _ _ hx hm }

/-- The other requests still wait for their turn. -/
theorem begun_of_mem_finish (h : s.Fresh) (answer : task.request.call.Answer) :
    ∀ u ∈ ((s.store.start task).finish task answer).tasks, u.begun = false := by
  intro u hu
  rw [show ((s.store.start task).finish task answer).tasks = _ from
    (Store.sameRequests_sendAll _ _).tasks] at hu
  obtain ⟨hu, hne⟩ := List.mem_filter.mp hu
  obtain ⟨v, hv, rfl⟩ := List.mem_map.mp hu
  split at hne
  · next hn => simp [hn] at hne
  · next hn =>
    rw [if_neg hn]
    exact h v hv

/-- A request that cannot be made is given up. -/
theorem drains_giveUp (h : s.Fresh) (hm : task ∈ s.store.tasks) {fault : Fault}
    (hq : s.client.request? task.request.call = .error fault) :
    Drains s (s.giveUp task fault) [] := by
  have hmove : Move s.client s.store [] ((s.store.start task).finish task (.error fault)) :=
    .giveUp hm (h task hm) hq
  exact
    { run := Run.refl.tail (.move hmove)
      client := rfl
      activity := rfl
      fresh := begun_of_mem_finish h _
      less := Store.work_answer_lt hm _
      firm := fun P hP _ hx => hP _ _ _ hx hmove }

/-- A request is sent and answered at once. -/
theorem drains_receive (h : s.Fresh) (hm : task ∈ s.store.tasks)
    (hq : s.client.request? task.request.call = .ok q) (r : Option Http.Response) :
    Drains s (s.receive task q r)
      ([.sent task.request.call q] ++ [.answered task.request.call r]) := by
  let begun : Task := { task with begun := true }
  have hcall : Move s.client s.store [.sent task.request.call q] (s.store.start task) :=
    .call hm (h task hm) hq
  have hbegun : begun ∈ (s.store.start task).tasks :=
    List.mem_map.mpr ⟨task, hm, by simp [begun]⟩
  have hanswer : Move s.client (s.store.start task) [.answered task.request.call r]
      ((s.store.start task).finish task (Client.answer task.request.call q r)) :=
    .answer (c := s.client) (s := s.store.start task) hbegun rfl hq r
  -- to receive a response is to send the request and to take the answer
  have ht : s.receive task q r =
      (s.moved [.sent task.request.call q] (s.store.start task)).moved
        [.answered task.request.call r]
        ((s.store.start task).finish task (Client.answer task.request.call q r)) := by
    cases r <;> rfl
  exact
    { run := ht ▸ (Run.refl.tail (.move hcall)).tail (.move hanswer)
      client := rfl
      activity := rfl
      fresh := begun_of_mem_finish h _
      less := Store.work_answer_lt hm _
      firm := fun P hP earlier hx => by
        rw [← List.append_assoc]
        exact hP _ _ _ (hP _ _ _ hx hcall) hanswer }

/-! ### Waiting -/

/-- A command that waits comes to its end, if it does so from whatever state it goes on with:
the induction is on the work that is left to the store. -/
theorem ends_awaiting {ticket : Nat} {wanted : State → Bool} {next : State → Dialogue Unit}
    {waiting : Scene → Prop} {mid : State → Scene → Prop} (hc : s.client = k.client)
    (ha : s.activity = .awaiting ticket wanted next) (hfresh : s.Fresh) (hfirm : k.Firm waiting)
    (hwait : waiting (s.scene hs))
    (hwanted : ∀ x, waiting x → ticket ≤ x.store.applied →
      wanted x.store.published = true → mid x.store.published x)
    (hrest : ∀ x, waiting x → x.store.AtRest →
      ticket ≤ x.store.applied ∧ wanted x.store.published = true)
    (hnext : ∀ (t : Session) (hs : List Happening) (u : State), t.client = k.client →
      t.activity = .talking (next u) → t.Fresh → mid u (t.scene hs) → Ends backend t) :
    Ends backend s := by
  induction hn : s.store.work using Nat.strongRecOn generalizing s hs with
  | ind n ih =>
    subst hn
    -- with less work left, the command comes to its end
    have later : ∀ {t hs'}, Drains s t hs' → Ends backend t := fun h =>
      ih _ h.less (h.client.trans hc) (h.activity.trans ha) h.fresh
        (h.firm _ (hc ▸ hfirm.firm) hs hwait) rfl
    rcases hp : s.proceed? with - | t
    · rcases hq : s.store.queue with - | ⟨i, queue⟩
      · rcases ht : s.store.tasks with - | ⟨task, tasks⟩
        · -- the store is at rest, so the command would go on
          obtain ⟨hticket, hw⟩ : ticket ≤ s.store.applied ∧ wanted s.store.published = true :=
            hrest _ hwait ⟨hq, ht⟩
          simp [proceed?, ha, hticket, hw] at hp
        · -- the next request is answered, or given up if there is none to send
          have hm : task ∈ s.store.tasks := ht ▸ List.mem_cons_self
          rcases hreq : s.client.request? task.request.call with fault | q
          · have hd := drains_giveUp hfresh hm hreq
            exact .of_moved (by simp only [turn, ha, hp, hq, ht, hreq]) hd.run (later hd)
          · have hd := drains_receive hfresh hm hreq
            exact .of_exchange (by simp only [turn, ha, hp, hq, ht, hreq])
              (fun r => ⟨_, (hd r).run⟩) fun r => later (hd r)
      · -- the next intent is applied
        have hd := drains_apply hfresh hq
        exact .of_moved (by simp only [turn, ha, hp, hq]) hd.run (later hd)
    · -- the command goes on
      refine .of_moved (turn_of_proceed hp) (Run.refl.tail (.proceed hp)) ?_
      simp only [proceed?, ha, Option.ite_none_right_eq_some, Bool.and_eq_true,
        decide_eq_true_eq] at hp
      obtain ⟨⟨hticket, hw⟩, ⟨⟩⟩ := hp
      exact hnext _ hs _ hc rfl hfresh (hwanted _ hwait hticket hw)

/-! ### Talking -/

theorem Ends.of_talk {d : Dialogue Unit} (ha : s.activity = .talking d)
    (h : Ends backend (s.talk d)) : Ends backend s := by
  have hp : s.proceed? = some (s.talk d) := by simp only [proceed?, ha]
  exact .of_moved (turn_of_proceed hp) (Run.refl.tail (.proceed hp)) h

/-- A command that keeps to a contract comes to its end: the induction is on the dialogue, and
what the contract promises at each of its nodes is what the next one needs. -/
theorem ends_of_meets {d : Dialogue Unit} (hc : s.client = k.client)
    (ha : s.activity = .talking d) (hfresh : s.Fresh) (hfirm : k.Firm pre)
    (hpre : pre (s.scene hs)) (hd : d.Meets k (fun _ => k.ends .completed) pre) :
    Ends backend s := by
  induction d generalizing s hs pre with
  | done a | fail message => exact .of_talk ha (.of_over rfl)
  | print line next ih =>
    obtain ⟨mid, hmid, hprint, hnext⟩ := hd
    refine .of_talk ha ?_
    show Ends backend (s.put line (.talking next))
    unfold put
    split
    · exact ih hc rfl hfresh hmid (hprint _ hpre).1 hnext
    · -- the line is not taken, which ends the command as well
      exact .of_over rfl
  | warn line next ih => exact .of_talk ha (ih hc rfl hfresh hfirm hpre hd)
  | send intent next ih =>
    obtain ⟨mid, hmid, hsend, hnext⟩ := hd
    have hx : mid ((s.talk (.send intent next)).scene hs) := hsend _ hpre
    refine .of_talk ha (ih hc rfl ?_ hmid hx hnext)
    exact fun u hu => hfresh u ((Store.sameRequests_send s.store intent).tasks ▸ hu)
  | await intents wanted next ih =>
    -- what is awaited comes, or the store comes to rest without it
    obtain ⟨waiting, mid, hwait, hmid, hsend, hwanted, hrest, hnext⟩ := hd
    refine .of_talk ha (ends_awaiting hc rfl ?_ (hwait _) (hsend _ hpre) (hwanted _) (hrest _) ?_)
    · exact fun u hu => hfresh u ((Store.sameRequests_sendAll s.store intents).tasks ▸ hu)
    · exact fun t hs u hc ha hfresh hu => ih u hc ha hfresh (hmid u) hu (hnext u)
  | look next ih =>
    obtain ⟨mid, hmid, hlook, hnext⟩ := hd
    exact .of_talk ha (ih _ hc rfl hfresh (hmid _) (hlook _ hpre) (hnext _))

/-! ### The outcome -/

variable {interruptAfter : Option Nat} {o o' : Outcome}

theorem run_of_over {e : Ending} (h : s.activity = .over e) (turns : Nat) :
    s.run backend interruptAfter turns = s := by
  cases turns with
  | zero => rfl
  | succ turns => simp only [run, turn, h]

theorem run_add (m n : Nat) (s : Session) :
    s.run backend interruptAfter (m + n)
      = (s.run backend interruptAfter m).run backend interruptAfter n := by
  induction m generalizing s with
  | zero => rw [Nat.zero_add, run]
  | succ m ih =>
    rw [Nat.succ_add]
    rcases ht : s.turn with t | ⟨task, q⟩ | ms | e | -
    · simp only [run, ht, ih]
    · simp only [run, ht, ih]
    · simp only [run, ht, ih]
      split <;> rfl
    · cases n <;> simp only [run, ht]
    · cases n <;> simp only [run, ht]

/-- The outcome does not depend on how many turns a session may take. -/
theorem outcome?_run_unique {m n : Nat}
    (h : (s.run backend interruptAfter m).outcome? = some o)
    (h' : (s.run backend interruptAfter n).outcome? = some o') : o = o' := by
  -- with more turns the session is over already, and stays as it is
  have hle : ∀ {m n o o'}, m ≤ n → (s.run backend interruptAfter m).outcome? = some o →
      (s.run backend interruptAfter n).outcome? = some o' → o = o' := by
    intro m n o o' hmn h h'
    obtain ⟨k, rfl⟩ := Nat.exists_eq_add_of_le hmn
    obtain ⟨e, he, -⟩ := outcome?_eq_some h
    rw [run_add, run_of_over he, h] at h'
    exact Option.some.inj h'
  rcases Nat.le_total m n with hmn | hmn
  · exact hle hmn h h'
  · exact (hle hmn h' h).symm

/-! ### Runs in front of a backend -/

/-- A command begins no request by itself. -/
theorem fresh_of_proceed (h : s.Fresh) (hp : s.proceed? = some t) : t.Fresh := by
  have put : ∀ line activity, (s.put line activity).Fresh := by
    intro line activity
    unfold Session.put
    split <;> exact h
  unfold proceed? at hp
  split at hp
  · -- it talks
    next d _ =>
    cases hp
    cases d with
    | done _ | fail _ | warn _ _ | look _ => exact h
    | print line next => exact put line _
    | send intent next =>
      exact fun u hu => h u ((Store.sameRequests_send s.store intent).tasks ▸ hu)
    | await intents wanted next =>
      exact fun u hu => h u ((Store.sameRequests_sendAll s.store intents).tasks ▸ hu)
  · -- it has waited
    obtain ⟨-, hp⟩ := Option.ite_none_right_eq_some.mp hp
    cases hp
    exact h
  · -- it watches
    obtain ⟨-, hp⟩ := Option.ite_none_left_eq_some.mp hp
    cases hp
    unfold see
    dsimp only
    split
    · exact put _ _
    · exact h
  · cases hp

/-- A turn that a session makes by itself is a step of a run. -/
theorem exists_run_of_moved (h : s.Fresh) (ht : s.turn = .moved t) :
    ∃ hs, Run s hs t ∧ t.Fresh := by
  unfold turn at ht
  split at ht
  · cases ht
  · next hp _ =>
    cases ht
    exact ⟨_, Run.refl.tail (.proceed hp), fresh_of_proceed h hp⟩
  · next hq _ =>
    cases ht
    exact ⟨_, (drains_apply h hq).run, (drains_apply h hq).fresh⟩
  · next htasks _ =>
    split at ht
    · cases ht
    · next fault hq =>
      cases ht
      have hdrains := drains_giveUp h (htasks ▸ List.mem_cons_self) hq
      exact ⟨_, hdrains.run, hdrains.fresh⟩
  · split at ht <;> cases ht

/-- So is a turn in which a request is sent and answered. -/
theorem exists_run_of_exchange (h : s.Fresh) (ht : s.turn = .exchange task q)
    (r : Option Http.Response) :
    ∃ hs, Run s hs (s.receive task q r) ∧ (s.receive task q r).Fresh := by
  unfold turn at ht
  split at ht
  · cases ht
  · cases ht
  · cases ht
  · next htasks _ =>
    split at ht
    · next hq =>
      cases ht
      have hdrains := drains_receive h (htasks ▸ List.mem_cons_self) hq r
      exact ⟨_, hdrains.run, hdrains.fresh⟩
    · cases ht
  · split at ht <;> cases ht

/-- The turns that a session makes before it waits for the timer are steps of a run. -/
theorem exists_run {turns : Nat} (h : s.Fresh)
    (hp : ∀ n < turns, ∀ ms, (s.run backend interruptAfter n).turn ≠ .pause ms) :
    ∃ hs, Run s hs (s.run backend interruptAfter turns) := by
  induction turns generalizing s with
  | zero => exact ⟨[], .refl⟩
  | succ turns ih =>
    -- the turns after the first are those of the session that it leads to
    have later : ∀ {t}, (∀ n, s.run backend interruptAfter (n + 1)
        = t.run backend interruptAfter n) → t.Fresh →
        ∃ hs, Run t hs (t.run backend interruptAfter turns) := by
      intro t hrun hfresh
      refine ih hfresh fun n hn ms => ?_
      rw [← hrun]
      exact hp (n + 1) (Nat.succ_lt_succ hn) ms
    rcases ht : s.turn with t | ⟨task, q⟩ | ms | e | -
    · -- moved
      obtain ⟨hs, hrun, hfresh⟩ := exists_run_of_moved h ht
      have hr : ∀ n, s.run backend interruptAfter (n + 1) = t.run backend interruptAfter n :=
        fun n => by simp only [run, ht]
      obtain ⟨hs', hrun'⟩ := later hr hfresh
      rw [hr]
      exact ⟨hs ++ hs', hrun.trans hrun'⟩
    · -- exchanged with the backend
      obtain ⟨hs, hrun, hfresh⟩ :=
        exists_run_of_exchange h ht (backend s.timeout s.requests q)
      have hr : ∀ n, s.run backend interruptAfter (n + 1)
          = (s.receive task q (backend s.timeout s.requests q)).run backend interruptAfter n :=
        fun n => by simp only [run, ht]
      obtain ⟨hs', hrun'⟩ := later hr hfresh
      rw [hr]
      exact ⟨hs ++ hs', hrun.trans hrun'⟩
    · exact absurd ht (hp 0 (Nat.succ_pos _) ms)
    · simp only [run, ht]
      exact ⟨[], .refl⟩
    · simp only [run, ht]
      exact ⟨[], .refl⟩

end Cli.Session

end RunControl
