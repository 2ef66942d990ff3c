/-
RunControl/Proofs/Cli/Moves.lean

A session among all who have a part in it.  The command makes its moves; behind it the store
applies its intents, the client sends requests, the backend answers them in any order, with
anything or not at all, and the timer goes off at any time (`Move`).  All of them take turns as
they like (`Session.Step`), so what holds of every run here holds of a command and a store that
do their work at the same time.

A run keeps the list of what has happened in it, from which the requests that were sent
(`requestsOf`) and the intents that were applied (`intentsOf`) can be read off.
-/
import RunControl.Cli.Program
import RunControl.Proofs.Store.Published
import RunControl.Proofs.Store.Quiescence

namespace RunControl

/-- A request has the method and the body of its call. -/
theorem Client.request?_eq_ok {c : Client} {call : Call} {q : Http.Request}
    (h : c.request? call = .ok q) : q.method = call.method ∧ q.body = call.body := by
  unfold request? at h
  split at h
  · split at h
    · cases h
      exact ⟨rfl, rfl⟩
    · cases h
  · cases h

namespace Cli

/-! ### What happens -/

/-- Something that happens in a session. -/
inductive Happening where
  /-- The request of a call is sent. -/
  | sent (call : Call) (q : Http.Request)
  /-- A response comes back for a call, or none does in time. -/
  | answered (call : Call) (response : Option Http.Response)
  /-- The store applies an intent. -/
  | applied (i : Intent)

namespace Happening

def request? : Happening → Option Http.Request
  | sent _ q => some q
  | _ => none

def intent? : Happening → Option Intent
  | applied i => some i
  | _ => none

/-- Whether something has come back. -/
def isResponse : Happening → Bool
  | answered _ (some _) => true
  | _ => false

end Happening

/-- The requests that were sent. -/
def requestsOf (hs : List Happening) : List Http.Request :=
  hs.filterMap Happening.request?

/-- The intents that were applied. -/
def intentsOf (hs : List Happening) : List Intent :=
  hs.filterMap Happening.intent?

/-- A move behind a command, with what happens in it. -/
inductive Move (c : Client) (s : Store) : List Happening → Store → Prop
  /-- The store applies the first intent of its queue. -/
  | apply {i : Intent} {queue : List Intent} (h : s.queue = i :: queue) :
    Move c s [.applied i] s.applyNext
  /-- The request of a task is sent. -/
  | call {task : Task} {q : Http.Request} (h : task ∈ s.tasks) (hb : task.begun = false)
    (hq : c.request? task.request.call = .ok q) :
    Move c s [.sent task.request.call q] (s.start task)
  /-- The request of a task is answered, or nothing comes back in time. -/
  | answer {task : Task} {q : Http.Request} (h : task ∈ s.tasks) (hb : task.begun = true)
    (hq : c.request? task.request.call = .ok q) (r : Option Http.Response) :
    Move c s [.answered task.request.call r]
      (s.finish task (Client.answer task.request.call q r))
  /-- There is no request for a task. -/
  | giveUp {task : Task} {fault : Fault} (h : task ∈ s.tasks) (hb : task.begun = false)
    (hq : c.request? task.request.call = .error fault) :
    Move c s [] ((s.start task).finish task (.error fault))
  /-- A timer goes off. -/
  | fire {alarm : Alarm Cycle} (h : alarm ∈ s.timers.pending) : Move c s [] (s.fire alarm)
  /-- Time goes by. -/
  | advance (ms : Nat) : Move c s [] { s with timers := s.timers.advance ms }

namespace Session

/-- A session after a move behind the command. -/
def moved (s : Session) (hs : List Happening) (store : Store) : Session :=
  { s with
    store
    requests := (requestsOf hs).reverse ++ s.requests
    answered := s.answered + hs.countP Happening.isResponse }

/-- One step of a session, with what happens in it. -/
inductive Step (s : Session) : List Happening → Session → Prop
  /-- The command goes on. -/
  | proceed {t : Session} (h : s.proceed? = some t) : Step s [] t
  | move {hs : List Happening} {store : Store} (h : Move s.client s.store hs store) :
    Step s hs (s.moved hs store)
  /-- The user interrupts the command. -/
  | interrupt : Step s [] s.interrupt

/-- A run of a session, with what happens in it. -/
inductive Run (s : Session) : List Happening → Session → Prop
  | refl : Run s [] s
  | tail {hs hs' : List Happening} {t u : Session} :
    Run s hs t → Step t hs' u → Run s (hs ++ hs') u

end Session

variable {c : Client} {s t : Store} {hs hs' : List Happening} {is : List Intent}

@[simp] theorem intentsOf_append (hs hs' : List Happening) :
    intentsOf (hs ++ hs') = intentsOf hs ++ intentsOf hs' :=
  List.filterMap_append

@[simp] theorem requestsOf_append (hs hs' : List Happening) :
    requestsOf (hs ++ hs') = requestsOf hs ++ requestsOf hs' :=
  List.filterMap_append

/-! ### Moves as steps of the store -/

theorem Move.run {admits : Intent → Prop} (h : Move c s hs t) :
    Store.Run admits s (intentsOf hs) t := by
  cases h with
  | apply hq => exact Store.Run.refl.tail (.apply hq)
  | call h _ _ => exact Store.Run.refl.tail (.start h)
  | answer h _ _ r => exact Store.Run.refl.tail (.finish h _)
  | @giveUp task fault h _ _ =>
    have hstart : { task with begun := true } ∈ (s.start task).tasks :=
      List.mem_map.mpr ⟨task, h, by simp⟩
    exact (Store.Run.refl.tail (.start h)).tail (.finish hstart (.error fault))
  | fire h => exact Store.Run.refl.tail (.fire h)
  | advance ms => exact Store.Run.refl.tail (.advance ms)

/-- What the store has applied, and what it publishes. -/
theorem Move.publishes (h : Move c s hs t) (hp : s.Publishes is) :
    t.Publishes (is ++ intentsOf hs) := by
  have still : ∀ {u : Store}, u.state = s.state → u.front = s.front → u.Publishes (is ++ []) :=
    fun hstate hfront => by
      rw [List.append_nil]
      exact hp.of_front hstate hfront
  cases h with
  | apply hq => exact hp.applyNext hq
  | call _ _ _ => exact still rfl rfl
  | answer _ _ _ r => exact still (Store.state_finish ..) (Store.front_finish ..)
  | giveUp _ _ _ => exact still (Store.state_finish ..) (Store.front_finish ..)
  | fire _ => exact still (Store.state_send _ _) (Store.front_send _ _)
  | advance ms => exact still rfl rfl

/-- Every request is the one that the client makes of its call. -/
theorem Move.request_eq (h : Move c s hs t) {call : Call} {q : Http.Request}
    (hm : .sent call q ∈ hs) : c.request? call = .ok q := by
  cases h with
  | call _ _ hq =>
    cases List.mem_singleton.mp hm
    exact hq
  | answer _ _ _ _ | apply _ => cases List.mem_singleton.mp hm
  | giveUp _ _ _ | fire _ | advance _ => cases hm

/-! ### Runs -/

namespace Session

variable {s t u : Session}

theorem Run.trans (h : Run s hs t) (h' : Run t hs' u) : Run s (hs ++ hs') u := by
  induction h' with
  | refl => rwa [List.append_nil]
  | tail _ hstep ih =>
    rw [← List.append_assoc]
    exact ih.tail hstep

/-- What a session never changes, and what it does only behind the command. -/
structure Fixed (s t : Session) : Prop where
  client : t.client = s.client
  output : t.output = s.output

theorem Fixed.put (s : Session) (line : String) (activity : Activity) :
    Fixed s (s.put line activity) ∧ (s.put line activity).requests = s.requests := by
  unfold Session.put
  split <;> exact ⟨⟨rfl, rfl⟩, rfl⟩

/-- Where a command goes on by itself, it changes neither what is fixed nor what was requested. -/
theorem fixed_of_proceed (h : s.proceed? = some t) : Fixed s t ∧ t.requests = s.requests := by
  unfold proceed? at h
  split at h
  · next d _ =>
    cases h
    cases d with
    | print line next => exact Fixed.put s line _
    | _ => exact ⟨⟨rfl, rfl⟩, rfl⟩
  · split at h
    · cases h
      exact ⟨⟨rfl, rfl⟩, rfl⟩
    · cases h
  · split at h
    · cases h
    · cases h
      unfold see
      dsimp only
      split
      · exact Fixed.put s _ _
      · exact ⟨⟨rfl, rfl⟩, rfl⟩
  · cases h

theorem Step.fixed (h : Step s hs t) :
    Fixed s t ∧ t.requests = (requestsOf hs).reverse ++ s.requests := by
  cases h with
  | proceed h => exact fixed_of_proceed h
  | move _ => exact ⟨⟨rfl, rfl⟩, rfl⟩
  | interrupt =>
    unfold Session.interrupt
    split <;> exact ⟨⟨rfl, rfl⟩, rfl⟩

theorem Run.fixed (h : Run s hs t) : Fixed s t := by
  induction h with
  | refl => exact ⟨rfl, rfl⟩
  | tail _ hstep ih =>
    exact ⟨hstep.fixed.1.client.trans ih.client, hstep.fixed.1.output.trans ih.output⟩

/-- The requests of a session are those of its moves, the newest first. -/
theorem Run.requests_eq (h : Run s hs t) : t.requests = (requestsOf hs).reverse ++ s.requests := by
  induction h with
  | refl => rfl
  | tail _ hstep ih =>
    rw [hstep.fixed.2, ih, requestsOf_append, List.reverse_append, List.append_assoc]

theorem Run.request_eq (h : Run s hs t) {call : Call} {q : Http.Request}
    (hm : .sent call q ∈ hs) : s.client.request? call = .ok q := by
  induction h with
  | refl => cases hm
  | tail hrun hstep ih =>
    rcases List.mem_append.mp hm with hm | hm
    · exact ih hm
    · cases hstep with
      | proceed _ => cases hm
      | move hmove =>
        rw [← hrun.fixed.client]
        exact hmove.request_eq hm
      | interrupt => cases hm

/-! ### Standard output, and the end -/

/-- Lines are printed only if they are taken, and refused only if they are not. -/
structure Prints (s : Session) : Prop where
  printed : s.output.refusal? = none ∨ s.printed = []
  refused : ∀ reason, s.activity = .over (.refused reason) → s.output.refusal? = some reason

theorem Prints.put (h : s.Prints) (line : String) {activity : Activity}
    (ha : ∀ reason, activity ≠ .over (.refused reason)) : (s.put line activity).Prints := by
  unfold Session.put
  split
  · next hr => exact ⟨.inl hr, fun reason he => absurd he (ha reason)⟩
  · next reason hr =>
    refine ⟨h.printed, ?_⟩
    rintro _ ⟨⟩
    exact hr

/-- Something else than printing is done. -/
theorem Prints.quiet (h : s.Prints) (ho : t.output = s.output) (hp : t.printed = s.printed)
    (ha : ∀ reason, t.activity = .over (.refused reason) → s.activity = .over (.refused reason)) :
    t.Prints := by
  refine ⟨?_, fun reason he => ?_⟩
  · rw [ho, hp]
    exact h.printed
  · rw [ho]
    exact h.refused reason (ha reason he)

/-- What a command does next prints a line, or leaves alone what is printed. -/
theorem Prints.proceed (h : s.Prints) (hp : s.proceed? = some t) : t.Prints := by
  unfold proceed? at hp
  split at hp
  · next d _ =>
    cases hp
    cases d with
    | print line next => exact h.put line nofun
    | _ => exact h.quiet rfl rfl nofun
  · split at hp
    · cases hp
      exact h.quiet rfl rfl nofun
    · cases hp
  · split at hp
    · cases hp
    · cases hp
      unfold see
      dsimp only
      -- a watch ends by itself or with a failure
      generalize ha : (if Watch.isOver _ = true then _ else _ : Activity) = activity
      have hn : ∀ reason, activity ≠ .over (.refused reason) := by
        rintro reason rfl
        split at ha
        · split at ha <;> cases ha
        · cases ha
      split
      · exact h.put _ hn
      · exact h.quiet rfl rfl fun reason he => absurd he (hn reason)
  · cases hp

theorem Run.prints (h : Run s hs t) (hs : s.Prints) : t.Prints := by
  induction h with
  | refl => exact hs
  | tail _ hstep ih =>
    cases hstep with
    | proceed hp => exact ih.proceed hp
    | move _ => exact ih.quiet rfl rfl fun _ => id
    | interrupt =>
      unfold Session.interrupt
      split
      · exact ih.quiet rfl rfl nofun
      · exact ih

end Session

theorem Output.refusal?_eq_none_iff {o : Output} : o.refusal? = none ↔ o = .taken := by
  cases o <;> simp [refusal?]

/-- The session of an order before its first move. -/
theorem Program.ofOrder_eq_ok {w : Surroundings} {settings : Settings} {order : Order}
    {s : Session} (h : Program.ofOrder w settings order = .ok s) :
    ∃ client timeout interval, s =
      { client, timeout, store := Program.store interval order, output := w.output,
        activity := Program.activity order } := by
  unfold Program.ofOrder at h
  rcases hc : Client.of? settings.effectiveUrl with message | client
  · rw [hc] at h
    cases h
  · rw [hc] at h
    cases h
    exact ⟨client, _, _, rfl⟩

/-- The exit code of an ending. -/
def Ending.exit : Ending → Nat
  | completed => 0
  | failed _ => 1
  | refused _ => 101

theorem Session.outcome?_eq_some {s : Session} {o : Outcome} (h : s.outcome? = some o) :
    ∃ e, s.activity = .over e ∧ o.exit = e.exit ∧ o.printed = s.printed.reverse ∧
      o.requests = s.requests.reverse := by
  unfold outcome? at h
  split at h
  · next ha => cases h; exact ⟨_, ha, rfl, rfl, rfl⟩
  · next ha => cases h; exact ⟨_, ha, rfl, rfl, rfl⟩
  · next ha => cases h; exact ⟨_, ha, rfl, rfl, rfl⟩
  · cases h

theorem Session.exists_outcome? {s : Session} {e : Ending} (h : s.activity = .over e) :
    ∃ o, s.outcome? = some o := by
  refine Option.isSome_iff_exists.mp ?_
  cases e <;> simp [outcome?, h]

end Cli

end RunControl
