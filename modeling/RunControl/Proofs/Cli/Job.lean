/-
RunControl/Proofs/Cli/Job.lean

A job is a wish of the command together with the plain request that it comes to.  From the wish to
the intent that settles it, exactly one thing stands for the job (`Job.At`): the wish in the
queue, the request on its way to the backend, or the answer in the queue.  Whatever else is in the
queue keeps the job company and asks for no plain request of its own (`Company`).

What is known meanwhile is a `Fact` about what has happened, the state and the queue.  A job says
what is to be known at each of its stages, and is lawful if each follows from the one before
(`Job.Lawful`).  Then every move behind the command takes a job from one stage to the same one
or to the next (`Job.At.step`).
-/
import RunControl.Proofs.Cli.PlainSide

namespace RunControl

namespace Cli

/-! ### What is known -/

/-- Something that may be known of what has happened, of the state, and of the queue. -/
def Fact :=
  List Happening → State → List Intent → Prop

/-- What may be in the queue beside the things that are looked at. -/
structure Company (beside : Intent → Prop) : Prop where
  report : ∀ i, i.IsReport → beside i
  aside : ∀ i, beside i → i.IsAside

/-- A fact that stays true while such intents are applied as are beside, and reports come. -/
structure Lasting (beside : Intent → Prop) (P : Fact) : Prop where
  next : ∀ {hs s i is}, P hs s (i :: is) → beside i → Backed hs i →
    P (hs ++ [.applied i]) (s.after i) is
  more : ∀ {hs s is js}, P hs s is → (∀ j ∈ js, j.IsReport) → P hs s (is ++ js)
  mono : ∀ {hs s is}, P hs s is → ∀ hs', P (hs ++ hs') s is

variable {beside beside' : Intent → Prop} {P Q : Fact}

namespace Lasting

theorem and (hP : Lasting beside P) (hQ : Lasting beside Q) :
    Lasting beside fun hs s is => P hs s is ∧ Q hs s is :=
  ⟨fun h hi hb => ⟨hP.next h.1 hi hb, hQ.next h.2 hi hb⟩,
    fun h hj => ⟨hP.more h.1 hj, hQ.more h.2 hj⟩, fun h hs' => ⟨hP.mono h.1 hs', hQ.mono h.2 hs'⟩⟩

theorem imp {p : Prop} (hP : Lasting beside P) : Lasting beside fun hs s is => p → P hs s is :=
  ⟨fun h hi hb hp => hP.next (h hp) hi hb, fun h hj hp => hP.more (h hp) hj,
    fun h hs' hp => hP.mono (h hp) hs'⟩

theorem all {α : Type} {P : α → Fact} (h : ∀ a, Lasting beside (P a)) :
    Lasting beside fun hs s is => ∀ a, P a hs s is :=
  ⟨fun hP hi hb a => (h a).next (hP a) hi hb, fun hP hj a => (h a).more (hP a) hj,
    fun hP hs' a => (h a).mono (hP a) hs'⟩

/-- A fact about the state alone. -/
theorem of_state {p : State → Prop} (hp : ∀ s i, beside i → p s → p (s.after i)) :
    Lasting beside fun _ s _ => p s :=
  ⟨fun h hi _ => hp _ _ hi h, fun h _ => h, fun h _ => h⟩

/-- A fact about what has happened alone. -/
theorem of_happened {p : List Happening → Prop} (hp : ∀ hs hs', p hs → p (hs ++ hs')) :
    Lasting beside fun hs _ _ => p hs :=
  ⟨fun h _ _ => hp _ _ h, fun h _ => h, fun h hs' => hp _ hs' h⟩

theorem const (p : Prop) : Lasting beside fun _ _ _ => p :=
  ⟨fun h _ _ => h, fun h _ => h, fun h _ => h⟩

theorem loading (hb : ∀ i, beside i → i.IsAside) (marks : PerResource Bool) :
    Lasting beside fun _ s _ => s.loading = marks :=
  of_state fun s i hi h => (State.samePlain_after s (hb i hi)).loading.trans h

theorem error (hb : ∀ i, beside i → i.IsAside) {r : Resource} (hr : r ≠ .systemStatus)
    (p : Option Failure → Prop) : Lasting beside fun _ s _ => p (s.errors.get r) :=
  of_state fun s i hi h => by rwa [(State.samePlain_after s (hb i hi)).errors r hr]

theorem known (hb : ∀ i, beside i → i.IsAside) (n : Known) :
    Lasting beside fun _ s _ => s.known = n :=
  of_state fun s i hi h => (State.samePlain_after s (hb i hi)).known.trans h

/-- That the status was reported. -/
theorem reported : Lasting beside fun hs s _ => Reported hs s.status where
  next {hs s i is} h _ hb := by
    show Reported _ (s.after i).status
    rw [State.status_after]
    rcases hr : s.reported? i with - | status
    · exact h.append_right _
    · exact (hb status (State.status?_of_reported? hr)).append_right _
  more h _ := h
  mono h hs' := h.append_right hs'

end Lasting

/-! ### When there is no job -/

variable {c : Client} {w w' : PlainSide} {past : List Happening}

/-- No plain request is asked for; `past` has happened to earlier ones. -/
structure Idle (beside : Intent → Prop) (past : List Happening) (P : Fact) (w : PlainSide) :
    Prop where
  queue : ∀ i ∈ w.queue, beside i
  tasks : w.tasks = []
  past : plain w.happened = past
  fact : P w.happened w.state w.queue

theorem plain_append_of_nil {hs hs' : List Happening} (h : plain hs' = []) :
    plain (hs ++ hs') = plain hs := by
  rw [plain_append, h, List.append_nil]

theorem plain_append_applied (hs : List Happening) (i : Intent) :
    plain (hs ++ [.applied i]) = plain hs :=
  plain_append_of_nil rfl

theorem Idle.imp (h : Idle beside past P w)
    (hP : ∀ {hs s is}, P hs s is → (∀ i ∈ is, beside i) → Q hs s is)
    (hb : ∀ i, beside i → beside' i) : Idle beside' past Q w :=
  ⟨fun i hi => hb i (h.queue i hi), h.tasks, h.past, hP h.fact h.queue⟩

theorem Idle.step (hbeside : Company beside) (hP : Lasting beside P)
    (hb : ∀ i ∈ w.queue, Backed w.happened i) (h : Idle beside past P w)
    (hs : PlainSide.Step c w w') : Idle beside past P w' := by
  obtain ⟨queue, tasks, rfl, fact⟩ := h
  cases hs with
  | @apply i is number hq =>
    rw [hq] at queue hb fact
    rw [List.forall_mem_cons] at queue hb
    refine ⟨queue.2, ?_, plain_append_applied _ _, hP.next fact queue.1 hb.1⟩
    rw [tasks, (hbeside.aside i queue.1).request?]
    rfl
  | report hs is hp hi =>
    refine ⟨?_, tasks, plain_append_of_nil hp, hP.mono (hP.more fact hi) hs⟩
    exact List.forall_mem_append.mpr ⟨queue, fun i hm => hbeside.report i (hi i hm)⟩
  | call h | answer h | giveUp _ h =>
    rw [tasks] at h
    cases h

/-! ### Jobs -/

/-- What is sent and what comes back for a call, if there is a request for it at all. -/
inductive Exchange (c : Client) (call : Call) : call.Answer → List Happening → Prop
  | answered {q : Http.Request} (hq : c.request? call = .ok q) (r : Option Http.Response) :
    Exchange c call (Client.answer call q r) [.sent call q, .answered call r]
  | given_up (fault : Fault) : Exchange c call (.error fault) []

/-- A wish, the plain request that it comes to, and what is known at each stage. -/
structure Job where
  wish : Intent
  request : Request
  /-- What may be in the queue beside the wish and the answer. -/
  beside : Intent → Prop
  /-- What is known until the wish is applied; the fact is about the queue before the wish. -/
  ahead : Fact
  /-- What is known until the answer is applied; the fact is about the queue before the answer. -/
  work : Fact
  /-- What is known after an answer. -/
  done : request.call.Answer → Fact
  /-- What is known after the wish if no request was sent. -/
  alone : Fact

/-- Each stage of a job follows from the one before. -/
structure Job.Lawful (j : Job) : Prop where
  beside : Company j.beside
  plain : j.request.call.isPlain = true
  ahead : Lasting j.beside j.ahead
  work : Lasting Intent.IsReport j.work
  done : ∀ a, Lasting j.beside (j.done a)
  alone : Lasting j.beside j.alone
  /-- When the wish is applied, the request is sent or there is none. -/
  grant : ∀ {hs s is}, s.Coherent → j.ahead hs s [] → (∀ i ∈ is, i.IsReport) →
    (s.request? (s.after j.wish) j.wish = some j.request ∧
      j.work (hs ++ [.applied j.wish]) (s.after j.wish) is) ∨
    (s.request? (s.after j.wish) j.wish = none ∧
      j.alone (hs ++ [.applied j.wish]) (s.after j.wish) is)
  /-- Of the intents that an answer comes to, one settles the job. -/
  settle : ∀ a, ∃ pre i post, outcome j.request a = pre ++ i :: post ∧
    (∀ k ∈ pre, k.IsReport) ∧ (∀ k ∈ post, j.beside k) ∧
    (∀ s t : State, s.request? t i = none) ∧
    ∀ {hs s is}, j.work hs s [] → Backed hs i → (∀ k ∈ is, k.IsReport) →
      j.done a (hs ++ [.applied i]) (s.after i) (post ++ is)

namespace Job

variable {j : Job} {ticket : Nat}

/-- A job that is over, if `past` has happened to earlier ones. -/
inductive Over (j : Job) (c : Client) (past : List Happening) (w : PlainSide) : Prop
  | settled {a : j.request.call.Answer} {ex : List Happening}
    (exchange : Exchange c j.request.call a ex) (idle : Idle j.beside (past ++ ex) (j.done a) w)
  | alone (idle : Idle j.beside past j.alone w)

/-- How far a job has come, if `past` has happened to earlier ones.  Before `ticket` intents have
been applied the wish has been. -/
inductive At (j : Job) (c : Client) (past : List Happening) (ticket : Nat) (w : PlainSide) : Prop
  | wished (before after : List Intent) (queue : w.queue = before ++ j.wish :: after)
    (hbefore : ∀ i ∈ before, j.beside i) (hafter : ∀ i ∈ after, i.IsReport)
    (tasks : w.tasks = []) (past : plain w.happened = past)
    (soon : w.applied + before.length < ticket) (ahead : j.ahead w.happened w.state before)
  | issued (number : Nat) (queue : ∀ i ∈ w.queue, i.IsReport)
    (tasks : w.tasks = [{ number, request := j.request }]) (past : plain w.happened = past)
    (work : j.work w.happened w.state w.queue)
  | called (number : Nat) {q : Http.Request} (queue : ∀ i ∈ w.queue, i.IsReport)
    (tasks : w.tasks = [{ number, request := j.request, begun := true }])
    (request : c.request? j.request.call = .ok q)
    (past : plain w.happened = past ++ [.sent j.request.call q])
    (work : j.work w.happened w.state w.queue)
  | answered (before post after : List Intent) {a : j.request.call.Answer} {ex : List Happening}
    {i : Intent} (exchange : Exchange c j.request.call a ex)
    (queue : w.queue = before ++ i :: (post ++ after)) (hbefore : ∀ k ∈ before, k.IsReport)
    (hpost : ∀ k ∈ post, j.beside k) (hafter : ∀ k ∈ after, k.IsReport)
    (tasks : w.tasks = []) (past : plain w.happened = past ++ ex)
    (plain : ∀ s t : State, s.request? t i = none) (work : j.work w.happened w.state before)
    (settles : ∀ {hs s is}, j.work hs s [] → Backed hs i → (∀ k ∈ is, k.IsReport) →
      j.done a (hs ++ [.applied i]) (s.after i) (post ++ is))
  | ended (h : j.Over c past w)

/-- An answer has come to the queue. -/
theorem At.of_outcome (hj : j.Lawful) {a : j.request.call.Answer} {ex hs : List Happening}
    (exchange : Exchange c j.request.call a ex) (queue : ∀ i ∈ w.queue, i.IsReport)
    (hpast : plain (w.happened ++ hs) = past ++ ex)
    (work : j.work w.happened w.state w.queue) :
    j.At c past ticket
      { w with
        happened := w.happened ++ hs, queue := w.queue ++ outcome j.request a, tasks := [] } := by
  obtain ⟨pre, i, post, ho, hpre, hpost, hplain, hsettle⟩ := hj.settle a
  refine .answered (w.queue ++ pre) post [] exchange ?_
    (List.forall_mem_append.mpr ⟨queue, hpre⟩) hpost (List.forall_mem_nil _) rfl hpast hplain ?_
    hsettle
  · simp [ho]
  · exact hj.work.mono (hj.work.more work hpre) hs

/-- As long as the wish is in the queue, intents that keep it company are applied before it, and
reports come behind it; no request is under way that anything else could happen to. -/
theorem At.wished_step (hj : j.Lawful) (hcoh : w.state.Coherent)
    (hb : ∀ i ∈ w.queue, Backed w.happened i) {before after : List Intent}
    (queue : w.queue = before ++ j.wish :: after) (hbefore : ∀ i ∈ before, j.beside i)
    (hafter : ∀ i ∈ after, i.IsReport) (tasks : w.tasks = []) (hpast : plain w.happened = past)
    (soon : w.applied + before.length < ticket) (ahead : j.ahead w.happened w.state before)
    (hs : PlainSide.Step c w w') : j.At c past ticket w' := by
  subst hpast
  cases hs with
  | @apply i is number hq =>
    rw [queue] at hq
    rcases before with - | ⟨b, before⟩
    · -- it is the turn of the wish
      cases hq
      rcases hj.grant hcoh ahead hafter with ⟨hr, hw⟩ | ⟨hr, hn⟩
      · -- granted: the request is the only task
        refine .issued number hafter ?_ (plain_append_applied _ _) hw
        rw [tasks, hr]
        rfl
      · -- not granted: the job is over without a request
        refine .ended (.alone ⟨fun k hk => hj.beside.report k (hafter k hk), ?_,
          plain_append_applied _ _, hn⟩)
        rw [tasks, hr]
        rfl
    · -- the wish moves up
      obtain ⟨rfl, rfl⟩ := List.cons.inj hq
      rw [List.forall_mem_cons] at hbefore
      refine .wished before after rfl hbefore.2 hafter ?_ (plain_append_applied _ _) ?_
        (hj.ahead.next ahead hbefore.1 (hb b (queue ▸ List.mem_cons_self)))
      · rw [tasks, (hj.beside.aside b hbefore.1).request?]
        rfl
      · rw [List.length_cons] at soon
        show w.applied + 1 + before.length < ticket
        omega
  | report hs is hp hi =>
    refine .wished before (after ++ is) ?_ hbefore (List.forall_mem_append.mpr ⟨hafter, hi⟩)
      tasks (plain_append_of_nil hp) soon (hj.ahead.mono ahead hs)
    simp [queue]
  | call h | answer h | giveUp _ h =>
    rw [tasks] at h
    cases h

/-- As long as the request waits, reports are applied; then it is sent, or given up with a fault
that is its answer. -/
theorem At.issued_step (hj : j.Lawful) (hb : ∀ i ∈ w.queue, Backed w.happened i) {number : Nat}
    (queue : ∀ i ∈ w.queue, i.IsReport) (tasks : w.tasks = [{ number, request := j.request }])
    (hpast : plain w.happened = past) (work : j.work w.happened w.state w.queue)
    (hs : PlainSide.Step c w w') : j.At c past ticket w' := by
  subst hpast
  cases hs with
  | @apply i is n hq =>
    rw [hq] at queue hb work
    rw [List.forall_mem_cons] at queue hb
    refine .issued number queue.2 ?_ (plain_append_applied _ _)
      (hj.work.next work queue.1 hb.1)
    rw [tasks, (Intent.IsAside.report queue.1).request?]
    rfl
  | report hs is hp hi =>
    exact .issued number (List.forall_mem_append.mpr ⟨queue, hi⟩) tasks (plain_append_of_nil hp)
      (hj.work.mono (hj.work.more work hi) hs)
  | @call task q h hb hq =>
    -- the job's request is the only one there is to send
    rw [tasks, List.mem_singleton] at h
    subst h
    refine .called number queue ?_ hq ?_ (hj.work.mono work _)
    · simp [tasks, Task.mark]
    · simp [plain, Happening.isPlain, hj.plain]
  | answer h hbegun =>
    -- what has not begun is not answered
    rw [tasks, List.mem_singleton] at h
    subst h
    cases hbegun
  | @giveUp task fault h =>
    rw [tasks, List.mem_singleton] at h
    subst h
    have ht : w.tasks.filter (·.number != number) = [] := by simp [tasks]
    simp only [ht]
    -- nothing was sent, so nothing is added to what has happened
    have hnil : w.happened ++ [] = w.happened := List.append_nil _
    have hpast : plain (w.happened ++ []) = plain w.happened ++ [] := by simp
    have hat : j.At c (plain w.happened) ticket _ :=
      At.of_outcome hj (.given_up fault) queue hpast work
    rwa [hnil] at hat

/-- As long as the response is awaited, reports are applied; then it comes, with the outcome of
the request. -/
theorem At.called_step (hj : j.Lawful) (hb : ∀ i ∈ w.queue, Backed w.happened i) {number : Nat}
    {q : Http.Request} (queue : ∀ i ∈ w.queue, i.IsReport)
    (tasks : w.tasks = [{ number, request := j.request, begun := true }])
    (request : c.request? j.request.call = .ok q)
    (hpast : plain w.happened = past ++ [.sent j.request.call q])
    (work : j.work w.happened w.state w.queue) (hs : PlainSide.Step c w w') :
    j.At c past ticket w' := by
  cases hs with
  | @apply i is n hq =>
    rw [hq] at queue hb work
    rw [List.forall_mem_cons] at queue hb
    refine .called number queue.2 ?_ request
      ((plain_append_applied _ _).trans hpast) (hj.work.next work queue.1 hb.1)
    rw [tasks, (Intent.IsAside.report queue.1).request?]
    rfl
  | report hs is hp hi =>
    exact .called number (List.forall_mem_append.mpr ⟨queue, hi⟩) tasks request
      ((plain_append_of_nil hp).trans hpast) (hj.work.mono (hj.work.more work hi) hs)
  | call h hbegun | giveUp _ h hbegun =>
    -- what has begun is neither sent again nor given up
    rw [tasks, List.mem_singleton] at h
    subst h
    cases hbegun
  | @answer task q' h hbegun hq r =>
    rw [tasks, List.mem_singleton] at h
    subst h
    -- it is the response to what was sent
    cases request.symm.trans hq
    have ht : w.tasks.filter (·.number != number) = [] := by simp [tasks]
    simp only [ht]
    refine At.of_outcome hj (.answered hq r) queue ?_ work
    rw [plain_append, hpast]
    simp [plain, Happening.isPlain, hj.plain]

/-- As long as the intent that settles the job is in the queue, reports are applied before it;
then it is applied, and what comes behind it keeps it company. -/
theorem At.answered_step (hj : j.Lawful) (hb : ∀ i ∈ w.queue, Backed w.happened i)
    {a : j.request.call.Answer} {ex : List Happening} {before post after : List Intent}
    {i : Intent} (exchange : Exchange c j.request.call a ex)
    (queue : w.queue = before ++ i :: (post ++ after)) (hbefore : ∀ k ∈ before, k.IsReport)
    (hpost : ∀ k ∈ post, j.beside k) (hafter : ∀ k ∈ after, k.IsReport) (tasks : w.tasks = [])
    (hpast : plain w.happened = past ++ ex) (hplain : ∀ s t : State, s.request? t i = none)
    (work : j.work w.happened w.state before)
    (settles : ∀ {hs s is}, j.work hs s [] → Backed hs i → (∀ k ∈ is, k.IsReport) →
      j.done a (hs ++ [.applied i]) (s.after i) (post ++ is))
    (hs : PlainSide.Step c w w') : j.At c past ticket w' := by
  cases hs with
  | @apply k is n hq =>
    rw [queue] at hq
    rcases before with - | ⟨b, before⟩
    · -- it is the turn of the answer
      obtain ⟨rfl, rfl⟩ := List.cons.inj hq
      refine .ended (.settled exchange ⟨?_, ?_, (plain_append_applied _ _).trans hpast,
        settles work (hb _ (queue ▸ List.mem_cons_self)) hafter⟩)
      · exact List.forall_mem_append.mpr ⟨hpost, fun k hk => hj.beside.report k (hafter k hk)⟩
      · rw [tasks, hplain]
        rfl
    · -- the answer moves up
      obtain ⟨rfl, rfl⟩ := List.cons.inj hq
      rw [List.forall_mem_cons] at hbefore
      refine .answered before post after exchange rfl hbefore.2 hpost hafter ?_
        ((plain_append_applied _ _).trans hpast) hplain
        (hj.work.next work hbefore.1 (hb b (queue ▸ List.mem_cons_self))) settles
      rw [tasks, (Intent.IsAside.report hbefore.1).request?]
      rfl
  | report hs is hp hi =>
    refine .answered before post (after ++ is) exchange ?_ hbefore hpost
      (List.forall_mem_append.mpr ⟨hafter, hi⟩) tasks ((plain_append_of_nil hp).trans hpast) hplain
      (hj.work.mono work hs) settles
    simp [queue]
  | call h | answer h | giveUp _ h =>
    rw [tasks] at h
    cases h

/-- Nothing more happens to a job that is over. -/
theorem Over.step (hj : j.Lawful) (hb : ∀ i ∈ w.queue, Backed w.happened i)
    (h : j.Over c past w) (hs : PlainSide.Step c w w') : j.Over c past w' := by
  cases h with
  | settled exchange idle => exact .settled exchange (idle.step hj.beside (hj.done _) hb hs)
  | alone idle => exact .alone (idle.step hj.beside hj.alone hb hs)

/-- A move behind the command leaves a job at its stage or takes it to the next one. -/
theorem At.step (hj : j.Lawful) (hcoh : w.state.Coherent)
    (hb : ∀ i ∈ w.queue, Backed w.happened i) (h : j.At c past ticket w)
    (hs : PlainSide.Step c w w') : j.At c past ticket w' := by
  cases h with
  | wished before after queue hbefore hafter tasks past soon ahead =>
    exact At.wished_step hj hcoh hb queue hbefore hafter tasks past soon ahead hs
  | issued number queue tasks past work => exact At.issued_step hj hb queue tasks past work hs
  | called number queue tasks request past work =>
    exact At.called_step hj hb queue tasks request past work hs
  | answered before post after exchange queue hbefore hpost hafter tasks past plain work settles =>
    exact At.answered_step hj hb exchange queue hbefore hpost hafter tasks past plain work settles
      hs
  | ended h => exact .ended (h.step hj hb hs)

end Job

end Cli

end RunControl
