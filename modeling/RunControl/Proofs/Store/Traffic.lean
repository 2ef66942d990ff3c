/-
RunControl/Proofs/Store/Traffic.lean

The store with all who send to it: callers, the requests that have been answered and the
timers that have gone off.  Each has a list of intents that it has still to send, and puts them
into the queue one at a time, while the others put theirs between them.  A caller may send
intents and then wait for a state: its last intent gets a ticket, and when the store has
applied as many intents as the ticket says, the caller goes on as soon as it likes what is
published.

A `Run` keeps the list of what has happened, from which the intents can be read off that were
put into the queue and those that were taken off it and applied, each with its sender
(`enqueued`, `dequeued`).  A party that is not disturbed while it sends does what the store has
one operation for (`Resting.finish`, `Resting.fire`); and a session that sends intents and
awaits a state is such a caller (`Run.talk_await`, `Step.of_proceed`).
-/
import Mathlib.Logic.Function.Basic
import RunControl.Cli.Session
import RunControl.Proofs.Store.Run

namespace RunControl

namespace Store

/-! ### Operations that send at their end -/

/-- A request is answered, and has yet to send what it comes to. -/
def retire (s : Store) (task : Task) : Store :=
  { s with tasks := s.tasks.filter (·.number != task.number) }

/-- A timer goes off, and has yet to send its intent. -/
def ring (s : Store) (alarm : Alarm Cycle) : Store :=
  { s with timers := s.timers.cancel alarm.number }.note .fired

theorem finish_eq_sendAll (s : Store) (task : Task) (answer : task.request.call.Answer) :
    s.finish task answer = (s.retire task).sendAll (outcome task.request answer) := rfl

theorem fire_eq_send (s : Store) (alarm : Alarm Cycle) :
    s.fire alarm = (s.ring alarm).send (.timerFired alarm.what) := rfl

end Store

/-- Whoever puts intents into the queue. -/
inductive Sender where
  | caller (n : Nat)
  | request (number : Nat)
  | timer (number : Nat)
  deriving DecidableEq

/-- Intents to be sent, and the state that is awaited then. -/
structure Errand where
  intents : List Intent
  wanted : State → Bool

/-- A caller that has asked and has not been answered. -/
structure Visit where
  errand : Errand
  /-- How many intents are to be applied first. -/
  ticket : Nat := 0

/-- The store with all who send to it. -/
structure Traffic where
  store : Store
  /-- The queue of the store, with the senders. -/
  queued : List (Sender × Intent) := []
  /-- What each sender has still to send. -/
  unsent : Sender → List Intent := fun _ => []
  visits : Nat → Option Visit := fun _ => none

namespace Traffic

/-! ### What happens -/

/-- Something that happens. -/
inductive Act where
  /-- A sender sets out to send intents, one after the other. -/
  | plans (who : Sender) (is : List Intent)
  /-- A caller does so, and will wait for a state. -/
  | asks (n : Nat) (e : Errand)
  /-- A sender puts an intent into the queue. -/
  | puts (who : Sender) (i : Intent)
  /-- The store takes the intent of a sender off the queue and applies it. -/
  | takes (who : Sender) (i : Intent)
  /-- A caller is given the state that it has waited for. -/
  | returns (n : Nat) (state : State)
  /-- Something else. -/
  | other

namespace Act

/-- The intents that a sender sets out to send. -/
def plan (who : Sender) : Act → List Intent
  | plans w is => if w = who then is else []
  | asks n e => if .caller n = who then e.intents else []
  | _ => []

def put? : Act → Option (Sender × Intent)
  | puts who i => some (who, i)
  | _ => none

def taken? : Act → Option (Sender × Intent)
  | takes who i => some (who, i)
  | _ => none

end Act

/-- The intents that were put into the queue. -/
def enqueued (acts : List Act) : List (Sender × Intent) :=
  acts.filterMap Act.put?

/-- The intents that were taken off the queue and applied. -/
def dequeued (acts : List Act) : List (Sender × Intent) :=
  acts.filterMap Act.taken?

/-- All that a sender has set out to send. -/
def planned (who : Sender) (acts : List Act) : List Intent :=
  acts.flatMap (Act.plan who)

/-- The intents of one sender. -/
def sentBy (who : Sender) (es : List (Sender × Intent)) : List Intent :=
  es.filterMap fun e => if e.1 = who then some e.2 else none

section Lists

variable {acts : List Act} {a : Act} {who w : Sender} {i : Intent} {es fs : List (Sender × Intent)}

@[simp] theorem enqueued_append (acts acts' : List Act) :
    enqueued (acts ++ acts') = enqueued acts ++ enqueued acts' :=
  List.filterMap_append

@[simp] theorem dequeued_append (acts acts' : List Act) :
    dequeued (acts ++ acts') = dequeued acts ++ dequeued acts' :=
  List.filterMap_append

@[simp] theorem enqueued_singleton (a : Act) : enqueued [a] = a.put?.toList := by
  cases h : a.put? <;> simp [enqueued, h]

@[simp] theorem dequeued_singleton (a : Act) : dequeued [a] = a.taken?.toList := by
  cases h : a.taken? <;> simp [dequeued, h]

theorem enqueued_concat_of_none (h : a.put? = none) :
    enqueued (acts ++ [a]) = enqueued acts := by
  simp [h]

theorem dequeued_concat_of_none (h : a.taken? = none) :
    dequeued (acts ++ [a]) = dequeued acts := by
  simp [h]

/-- The intents that were put into the queue before and after a caller asked. -/
theorem enqueued_cut (earlier since : List Act) (n : Nat) (e : Errand) :
    enqueued (earlier ++ .asks n e :: since) = enqueued earlier ++ enqueued since :=
  enqueued_append earlier (.asks n e :: since)

@[simp] theorem planned_concat (who : Sender) (acts : List Act) (a : Act) :
    planned who (acts ++ [a]) = planned who acts ++ a.plan who := by
  simp [planned]

@[simp] theorem sentBy_nil (who : Sender) : sentBy who [] = [] := rfl

@[simp] theorem sentBy_append (who : Sender) (es fs : List (Sender × Intent)) :
    sentBy who (es ++ fs) = sentBy who es ++ sentBy who fs :=
  List.filterMap_append

theorem sentBy_singleton_self (who : Sender) (i : Intent) : sentBy who [(who, i)] = [i] := by
  simp [sentBy]

theorem sentBy_singleton_of_ne (h : w ≠ who) (i : Intent) : sentBy who [(w, i)] = [] := by
  simp [sentBy, h]

theorem sentBy_mono (who : Sender) (h : es <+: fs) : sentBy who es <+: sentBy who fs :=
  h.filterMap _

/-- Who has nothing behind a place of a list has nothing behind a later place. -/
theorem sentBy_drop_eq_nil {k m : Nat} (h : sentBy who (es.drop k) = []) (hk : k ≤ m) :
    sentBy who (es.drop m) = [] := by
  obtain ⟨j, rfl⟩ := Nat.exists_eq_add_of_le hk
  rw [← List.drop_drop]
  refine List.filterMap_eq_nil_iff.mpr fun e he => ?_
  exact List.filterMap_eq_nil_iff.mp h e (List.mem_of_mem_drop he)

end Lists

/-! ### Steps -/

/-- A sender sets out to send intents. -/
def plan (t : Traffic) (who : Sender) (is : List Intent) : Traffic :=
  { t with unsent := Function.update t.unsent who (t.unsent who ++ is) }

/-- A sender puts an intent into the queue, and has yet to send the rest. A caller that has
sent its last intent gets a ticket for it. -/
def put (t : Traffic) (who : Sender) (i : Intent) (rest : List Intent) : Traffic where
  store := t.store.send i
  queued := t.queued ++ [(who, i)]
  unsent := Function.update t.unsent who rest
  visits n := (t.visits n).map fun v =>
    if who = .caller n ∧ rest = [] then { v with ticket := (t.store.send i).ticket } else v

/-- A caller does not wait any more. -/
def leave (t : Traffic) (n : Nat) : Traffic :=
  { t with visits := Function.update t.visits n none }

/-- One step of one of the parties. -/
inductive Step (t : Traffic) : Act → Traffic → Prop
  /-- A caller sets out to send an intent, and will not wait. -/
  | dispatch {n : Nat} (i : Intent) (away : t.visits n = none)
      (done : t.unsent (.caller n) = []) :
      Step t (.plans (.caller n) [i]) (t.plan (.caller n) [i])
  /-- A caller sets out to send intents, and will wait for a state. -/
  | ask {n : Nat} (e : Errand) (away : t.visits n = none) (done : t.unsent (.caller n) = []) :
      Step t (.asks n e)
        { t.plan (.caller n) e.intents with
          visits := Function.update t.visits n (some { errand := e }) }
  /-- A sender puts its next intent into the queue. -/
  | put {who : Sender} {i : Intent} {rest : List Intent} (next : t.unsent who = i :: rest)
      (isOpen : t.store.isClosed = false) : Step t (.puts who i) (t.put who i rest)
  /-- A caller that has sent everything sees a state that it wants, not before the store has
  got to its ticket. -/
  | receive {n : Nat} {v : Visit} (here : t.visits n = some v)
      (done : t.unsent (.caller n) = []) (applied : v.ticket ≤ t.store.applied)
      (wanted : v.errand.wanted t.store.published = true) :
      Step t (.returns n t.store.published) (t.leave n)
  /-- A caller has waited long enough. -/
  | giveUp {n : Nat} (done : t.unsent (.caller n) = []) : Step t .other (t.leave n)
  /-- A caller fails, for the store takes no more intents. -/
  | fail {n : Nat} (isClosed : t.store.isClosed = true) :
      Step t .other { t.leave n with unsent := Function.update t.unsent (.caller n) [] }
  /-- The client is called for a request. -/
  | start {task : Task} (mem : task ∈ t.store.tasks) :
      Step t .other { t with store := t.store.start task }
  /-- A request is answered, and sets out to send what it comes to. -/
  | answer {task : Task} (mem : task ∈ t.store.tasks) (answer : task.request.call.Answer) :
      Step t (.plans (.request task.number) (outcome task.request answer))
        ({ t with store := t.store.retire task }.plan (.request task.number)
          (outcome task.request answer))
  /-- A timer goes off, and sets out to send its intent. -/
  | ring {alarm : Alarm Cycle} (mem : alarm ∈ t.store.timers.pending) :
      Step t (.plans (.timer alarm.number) [.timerFired alarm.what])
        ({ t with store := t.store.ring alarm }.plan (.timer alarm.number)
          [.timerFired alarm.what])
  /-- Time goes by. -/
  | advance (ms : Nat) :
      Step t .other { t with store := { t.store with timers := t.store.timers.advance ms } }
  /-- The store takes the first intent off the queue and applies it. -/
  | take {who : Sender} {i : Intent} {queued : List (Sender × Intent)}
      (first : t.queued = (who, i) :: queued) :
      Step t (.takes who i) { t with store := t.store.applyNext, queued }
  /-- The store ends. What is in the queue is lost. -/
  | close (isOpen : t.store.isClosed = false) :
      Step t .other { t with store := t.store.close, queued := [] }

/-- A run, with what has happened in it. -/
inductive Run (t : Traffic) : List Act → Traffic → Prop
  | refl : Run t [] t
  | tail {acts : List Act} {a : Act} {u v : Traffic} :
      Run t acts u → Step u a v → Run t (acts ++ [a]) v

variable {t u v : Traffic} {acts acts' : List Act} {who : Sender} {is : List Intent} {n : Nat}

theorem Run.trans (h : Run t acts u) (h' : Run u acts' v) : Run t (acts ++ acts') v := by
  induction h' with
  | refl => simpa using h
  | tail _ hstep ih =>
    rw [← List.append_assoc]
    exact ih.tail hstep

/-! ### Sending without being disturbed -/

/-- A sender puts all that it has still to send into the queue, and nobody comes between. -/
theorem Run.sendAll (hu : t.unsent who = is) (ho : t.store.isClosed = false) :
    ∃ u, Run t (is.map (.puts who)) u ∧ u.store = t.store.sendAll is ∧
      u.unsent = Function.update t.unsent who [] ∧
      ∀ n, u.visits n = (t.visits n).map fun v =>
        if who = .caller n ∧ is ≠ [] then { v with ticket := (t.store.sendAll is).ticket }
        else v := by
  induction is generalizing t with
  | nil =>
    refine ⟨t, .refl, rfl, ?_, by simp⟩
    rw [← hu, Function.update_eq_self]
  | cons i is ih =>
    have ho' : (t.put who i is).store.isClosed = false := by
      rw [← ho]
      exact Store.isClosed_send t.store i
    obtain ⟨u, hr, hs, hrest, hv⟩ := ih (t := t.put who i is) (Function.update_self ..) ho'
    refine ⟨u, (Run.refl.tail (.put hu ho)).trans hr, hs, ?_, fun n => ?_⟩
    · rw [hrest, Traffic.put, Function.update_idem]
    · rw [hv n, Traffic.put, Option.map_map]
      refine congrArg (Option.map · (t.visits n)) (funext fun v => ?_)
      -- the ticket of the last intent is the one that stays
      by_cases hw : who = .caller n
      · cases is with
        | nil => simp [hw, Store.sendAll]
        | cons j is => simp [hw, Store.sendAll]
      · simp [hw]

/-- The store is open, nobody has anything left to send, and nobody waits. -/
structure Resting (t : Traffic) : Prop where
  isOpen : t.store.isClosed = false
  unsent : ∀ who, t.unsent who = []
  visits : ∀ n, t.visits n = none

namespace Resting

/-- A sender sets out to send intents and puts them into the queue at once. -/
theorem sendAll (h : Resting t) {s : Store} (hs : s.isClosed = t.store.isClosed)
    (hstep : Step t (.plans who is) ({ t with store := s }.plan who is)) :
    ∃ acts u, Run t acts u ∧ Resting u ∧ u.store = s.sendAll is ∧ dequeued acts = [] := by
  have hunsent : ({ t with store := s }.plan who is).unsent who = is := by
    simp [plan, h.unsent]
  have hopen := hs.trans h.isOpen
  obtain ⟨u, hr, hstore, hrest, hvisits⟩ := Run.sendAll hunsent hopen
  refine ⟨_, u, (Run.refl.tail hstep).trans hr, ⟨?_, fun w => ?_, fun n => ?_⟩, hstore, ?_⟩
  · rw [hstore, Store.isClosed_sendAll]
    exact hopen
  · rw [hrest, plan, Function.update_idem, Function.update_apply, h.unsent w, ite_self]
  · rw [hvisits, plan, h.visits n, Option.map_none]
  · simp [dequeued, Act.taken?]

theorem send (h : Resting t) (i : Intent) :
    ∃ acts u, Run t acts u ∧ Resting u ∧ u.store = t.store.send i ∧ dequeued acts = [] :=
  h.sendAll (s := t.store) rfl (.dispatch (n := 0) i (h.visits 0) (h.unsent _))

theorem finish (h : Resting t) {task : Task} (hm : task ∈ t.store.tasks)
    (answer : task.request.call.Answer) :
    ∃ acts u, Run t acts u ∧ Resting u ∧ u.store = t.store.finish task answer ∧
      dequeued acts = [] := by
  rw [Store.finish_eq_sendAll]
  exact h.sendAll (s := t.store.retire task) rfl (.answer hm answer)

theorem fire (h : Resting t) {alarm : Alarm Cycle} (hm : alarm ∈ t.store.timers.pending) :
    ∃ acts u, Run t acts u ∧ Resting u ∧ u.store = t.store.fire alarm ∧ dequeued acts = [] := by
  rw [Store.fire_eq_send]
  exact h.sendAll (s := t.store.ring alarm) rfl (.ring hm)

end Resting

/-- A session that sends intents and awaits a state is a caller whom nobody disturbs while it
sends. -/
theorem Run.talk_await (session : Cli.Session) (wanted : State → Bool)
    (next : State → Cli.Dialogue Unit) (hs : t.store = session.store)
    (hv : t.visits n = none) (hu : t.unsent (.caller n) = []) (ho : t.store.isClosed = false) :
    let asked := session.talk (.await is wanted next)
    ∃ acts u ticket, Run t acts u ∧ u.store = asked.store ∧ u.unsent (.caller n) = [] ∧
      u.visits n = some { errand := { intents := is, wanted }, ticket } ∧
      asked.activity = .awaiting ticket wanted next := by
  intro asked
  let t' := { t.plan (.caller n) is with
    visits := Function.update t.visits n (some { errand := { intents := is, wanted } }) }
  have hunsent : t'.unsent (.caller n) = is := by
    simp [t', plan, hu]
  obtain ⟨u, hr, hstore, hrest, hvisits⟩ := Run.sendAll (t := t') hunsent ho
  refine ⟨_, u, if is.isEmpty then 0 else (t.store.sendAll is).ticket,
    (Run.refl.tail (.ask { intents := is, wanted } hv hu)).trans hr, ?_, ?_, ?_, ?_⟩
  · rw [hstore]
    show t.store.sendAll is = asked.store
    rw [hs]
    rfl
  · rw [hrest, Function.update_self]
  · rw [hvisits n]
    cases is with
    | nil => simp [t']
    | cons i is => simp [t', plan]
  · rw [hs]
    rfl

/-- Such a session goes on when the caller is given a state, and with that state. -/
theorem Step.of_proceed {session session' : Cli.Session} {visit : Visit}
    {next : State → Cli.Dialogue Unit} (hs : t.store = session.store)
    (hv : t.visits n = some visit) (hu : t.unsent (.caller n) = [])
    (ha : session.activity = .awaiting visit.ticket visit.errand.wanted next)
    (hp : session.proceed? = some session') :
    Step t (.returns n session.store.published) (t.leave n) ∧
      session' = { session with activity := .talking (next session.store.published) } := by
  simp only [Cli.Session.proceed?, ha, Option.ite_none_right_eq_some, Bool.and_eq_true,
    decide_eq_true_eq, Option.some.injEq] at hp
  obtain ⟨⟨hticket, hwanted⟩, rfl⟩ := hp
  rw [← hs] at hticket hwanted ⊢
  exact ⟨.receive hv hu hticket hwanted, rfl⟩

end Traffic

end RunControl
