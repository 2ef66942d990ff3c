/-
RunControl/Proofs/Cli/Mandate.lean

What a command may send, and how it waits for a job.

A `Mandate` says which plain requests a command may send, in which order, and what has to have
happened before each of them.  Between two jobs a command rests (`Resting`): no plain request is
asked for, and something is known of the state and of what is still in the queue.  It sends the
wish of the next job (`Job.Waiting`), and whatever moves behind it, it waits until the job has
ended (`Job.Ended`).  `Dialogue.meets_ask` is the rule for this part of an outline.
-/
import RunControl.Proofs.Cli.Job

namespace RunControl

namespace Cli

/-! ### Mandates -/

/-- What a request is about that is sent. -/
def Happening.subject? : Happening → Option Resource
  | sent call _ => some call.resource
  | _ => none

/-- What the requests are about that were sent. -/
def subjectsOf (hs : List Happening) : List Resource :=
  hs.filterMap Happening.subject?

@[simp] theorem subjectsOf_append (hs hs' : List Happening) :
    subjectsOf (hs ++ hs') = subjectsOf hs ++ subjectsOf hs' :=
  List.filterMap_append

/-- Which plain requests a command may send, and what it may print. -/
structure Mandate where
  /-- What the requests are about, in their order; the command may stop after any of them. -/
  order : List Resource
  /-- What has to have happened before a call is sent. -/
  may : List Happening → Call → Prop
  /-- Lines that may have been printed, the newest first. -/
  shows : List Happening → List String → Prop
  shows_append : ∀ {hs lines}, shows hs lines → ∀ hs', shows (hs ++ hs') lines

/-- Before every plain request that was sent, what has to have happened has. -/
def Permitted (may : List Happening → Call → Prop) (hs : List Happening) : Prop :=
  ∀ before call q after, hs = before ++ .sent call q :: after → call.isPlain = true →
    may before call

/-- A command has kept to its mandate so far. -/
structure Mandate.Kept (m : Mandate) (x : Scene) : Prop where
  sound : Sound x
  order : subjectsOf (plain x.happened) <+: m.order
  permitted : Permitted m.may x.happened
  shows : m.shows x.happened x.printed

/-- To keep to a mandate at any time, and to end in certain ways. -/
def Mandate.contract (m : Mandate) (client : Client) (ends : Ending → Scene → Prop) :
    Contract where
  client
  always := m.Kept
  ends

theorem permitted_nil (may : List Happening → Call → Prop) : Permitted may [] := by
  intro before call q after h
  simp at h

variable {m : Mandate} {c : Client} {ends : Ending → Scene → Prop} {past hs : List Happening}
  {lines : List String} {ticket : Nat} {beside : Intent → Prop} {P : Fact} {x : Scene}
  {store : Store}

/-- Only what has been permitted is sent, if every plain request that waits to be sent is. -/
theorem Permitted.move {may : List Happening → Call → Prop} (h : Permitted may x.happened)
    (hwait : ∀ task ∈ x.plainSide.tasks, task.begun = false → may x.happened task.request.call)
    (hm : Move c x.store hs store) : Permitted may (x.happened ++ hs) := by
  intro before call q after hl hp
  cases hm with
  | call htask hb hq =>
    rcases State.concat_eq_append_cons_iff.mp hl with ⟨rfl, heq, -⟩ | ⟨rest, -, hl⟩
    · cases heq
      exact hwait _ (Store.mem_plainTasks.mpr ⟨htask, hp⟩) hb
    · exact h _ _ _ _ hl hp
  | answer _ _ _ r | apply _ =>
    rcases State.concat_eq_append_cons_iff.mp hl with ⟨-, heq, -⟩ | ⟨rest, -, hl⟩
    · cases heq
    · exact h _ _ _ _ hl hp
  | giveUp _ _ _ | fire _ | advance _ =>
    rw [List.append_nil] at hl
    exact h _ _ _ _ hl hp

/-! ### Between two jobs -/

/-- No plain request is asked for; `past` has happened to earlier ones. -/
structure Resting (m : Mandate) (beside : Intent → Prop) (past : List Happening)
    (lines : List String) (P : Fact) (x : Scene) : Prop where
  sound : Sound x
  order : subjectsOf past <+: m.order
  permitted : Permitted m.may x.happened
  shows : m.shows x.happened x.printed
  idle : Idle beside past P x.plainSide
  printed : x.printed = lines

namespace Resting

theorem kept (h : Resting m beside past lines P x) : m.Kept x where
  sound := h.sound
  order := by
    have hp : plain x.happened = past := h.idle.past
    rw [hp]
    exact h.order
  permitted := h.permitted
  shows := h.shows

theorem move (hbeside : Company beside) (hP : Lasting beside P) :
    Firm c (Resting m beside past lines P) := by
  intro x hs store h hm
  have hpermitted : Permitted m.may (x.happened ++ hs) := by
    refine h.permitted.move (fun task ht => ?_) hm
    rw [h.idle.tasks] at ht
    cases ht
  exact
    { sound := Sound.move x hs store h.sound hm
      order := h.order
      permitted := hpermitted
      shows := m.shows_append h.shows hs
      idle := h.idle.step hbeside hP h.sound.queue (hm.plainSide h.sound.held)
      printed := h.printed }

theorem firm (hbeside : Company beside) (hP : Lasting beside P) :
    (m.contract c ends).Firm (Resting m beside past lines P) :=
  ⟨fun _ h => h.kept, move hbeside hP⟩

theorem imp {beside' : Intent → Prop} {Q : Fact} (h : Resting m beside past lines P x)
    (hP : ∀ {hs s is}, P hs s is → (∀ i ∈ is, beside i) → Q hs s is)
    (hb : ∀ i, beside i → beside' i) : Resting m beside' past lines Q x :=
  { h with idle := h.idle.imp hP hb }

/-- Something else comes to be known of the scene. -/
theorem learn {beside' : Intent → Prop} {Q : Fact} (h : Resting m beside past lines P x)
    (hqueue : ∀ i ∈ x.store.queue, beside' i)
    (hQ : Q x.happened x.store.state x.store.queue) : Resting m beside' past lines Q x :=
  { h with idle := ⟨hqueue, h.idle.tasks, h.idle.past, hQ⟩ }

/-- Intents are sent that ask for no plain request. -/
theorem sendAll {beside' : Intent → Prop} {Q : Fact} {is : List Intent}
    (h : Resting m beside past lines P x) (hstatus : ∀ i ∈ is, i.status? = none)
    (hb : ∀ i, beside i → beside' i) (hi : ∀ i ∈ is, beside' i)
    (hP : ∀ {hs s js}, P hs s js → (∀ i ∈ js, beside i) → Q hs s (js ++ is)) :
    Resting m beside' past lines Q (x.sendAll is) := by
  have hq : (x.store.sendAll is).queue = x.store.queue ++ is := h.sound.queue_sendAll is
  refine ⟨h.sound.sendAll hstatus, h.order, h.permitted, h.shows, ⟨?_, ?_, h.idle.past, ?_⟩,
    h.printed⟩
  · show ∀ i ∈ (x.store.sendAll is).queue, beside' i
    rw [hq]
    exact List.forall_mem_append.mpr ⟨fun i hi => hb i (h.idle.queue i hi), hi⟩
  · exact (Store.plainTasks_sendAll _ _).trans h.idle.tasks
  · show Q x.happened (x.store.sendAll is).state (x.store.sendAll is).queue
    rw [hq, Store.state_sendAll]
    exact hP h.idle.fact h.idle.queue

end Resting

theorem company_asides : Company Intent.IsAside :=
  ⟨fun _ h => .report h, fun _ h => h⟩

/-- To keep to a mandate at any time, and to rest at the end; `fits` says with what past and after
what lines a command may end in a way. -/
def Mandate.restful (m : Mandate) (client : Client)
    (fits : List Happening → List String → Ending → Prop) : Contract :=
  m.contract client fun e x => ∃ past lines, fits past lines e ∧
    Resting m Intent.IsAside past lines (fun _ _ _ => True) x

variable {fits : List Happening → List String → Ending → Prop} {e : Ending}

theorem Mandate.firm_restful (e : Ending) :
    (m.restful c fits).Firm ((m.restful c fits).ends e) := by
  refine .exists fun past => .exists fun lines => ?_
  have hrest : (m.restful c fits).Firm (Resting m Intent.IsAside past lines fun _ _ _ => True) :=
    Resting.firm company_asides (.const True)
  exact ⟨fun x hx => hrest.always x hx.2,
    fun x hs store hx hm => ⟨hx.1, hrest.firm x hs store hx.2 hm⟩⟩

/-- A command that rests may end. -/
theorem Resting.may_end (hx : Resting m beside past lines P x) (hbeside : Company beside)
    (h : fits past lines e) : (m.restful c fits).ends e x :=
  ⟨past, lines, h, hx.imp (fun _ _ => trivial) hbeside.aside⟩

/-! ### During a job -/

/-- The ticket of the intent that is sent next does not become smaller. -/
theorem ticket_le_of_move (h : Sound x) (hm : Move c x.store hs store) :
    x.store.ticket ≤ store.ticket := by
  have hstep := hm.plainSide h.held
  have hle : x.plainSide.applied + x.plainSide.queue.length
      ≤ (x.moved hs store).plainSide.applied + (x.moved hs store).plainSide.queue.length := by
    generalize (x.moved hs store).plainSide = w' at hstep ⊢
    cases hstep with
    | @apply i queue number hq =>
      rw [hq, List.length_cons]
      show x.plainSide.applied + (queue.length + 1) ≤ x.plainSide.applied + 1 + queue.length
      omega
    | report hs is hp hi | answer _ _ _ _ | giveUp _ _ _ => simp
    | call => exact Nat.le_refl _
  exact hle

theorem Exchange.subjectsOf {call : Call} {a : call.Answer} {ex : List Happening}
    (h : Exchange c call a ex) : subjectsOf ex <+: [call.resource] := by
  cases h with
  | answered hq r => exact List.prefix_refl _
  | given_up fault => exact List.nil_prefix

theorem Exchange.eq_of_ok {call : Call} {a : call.Answer} {reply : call.resource.Reply}
    {ex : List Happening} (h : Exchange c call a ex) (ha : a = .ok reply) :
    ∃ q r, ex = [.sent call q, .answered call (some r)] ∧ c.request? call = .ok q ∧
      call.read r = .ok reply := by
  cases h with
  | @answered q hq r =>
    cases r with
    | none => cases ha
    | some r => exact ⟨q, r, rfl, hq, ha⟩
  | given_up fault => cases ha

/-- No reply has come back for a call; perhaps it was not even sent. -/
inductive Missed (call : Call) : List Happening → Prop
  | unsent : Missed call []
  | unanswered (q : Http.Request) {r : Option Http.Response}
    (h : ∀ r' reply, r = some r' → call.read r' ≠ .ok reply) :
    Missed call [.sent call q, .answered call r]

theorem Exchange.missed {call : Call} {a : call.Answer} {ex : List Happening}
    (h : Exchange c call a ex) (ha : ∀ reply, a ≠ .ok reply) : Missed call ex := by
  cases h with
  | answered hq r =>
    refine .unanswered _ ?_
    rintro r' reply rfl hr
    exact ha reply hr
  | given_up fault => exact .unsent

/-- A state was published when something was known of the one that it stands for. -/
def Seen (P : Fact) (hs : List Happening) (s : State) : Prop :=
  ∃ t is, P hs t is ∧ { s with config := t.config, profiles := t.profiles } = t

theorem Seen.mono {s : State} (h : Seen P hs s) (hP : Lasting beside P) (hs' : List Happening) :
    Seen P (hs ++ hs') s := by
  obtain ⟨t, is, ht, hs⟩ := h
  exact ⟨t, is, hP.mono ht hs', hs⟩

namespace Job

variable {j : Job}

/-- A job that a command may do next. -/
structure Admitted (j : Job) (m : Mandate) (past : List Happening) : Prop where
  lawful : j.Lawful
  status : j.wish.status? = none
  order : subjectsOf past ++ [j.request.resource] <+: m.order
  may : ∀ {x : Scene}, Sound x → plain x.happened = past →
    j.work x.happened x.store.state x.store.queue → m.may x.happened j.request.call

/-- The wish of a job was sent as intent number `ticket`, and the command waits. -/
structure Waiting (j : Job) (m : Mandate) (c : Client) (past : List Happening)
    (lines : List String) (ticket : Nat) (x : Scene) : Prop where
  sound : Sound x
  permitted : Permitted m.may x.happened
  shows : m.shows x.happened x.printed
  stage : j.At c past ticket x.plainSide
  due : ticket ≤ x.store.ticket
  printed : x.printed = lines

/-- A job that is over. -/
inductive Ended (j : Job) (m : Mandate) (c : Client) (past : List Happening)
    (lines : List String) (x : Scene) : Prop
  | settled {a : j.request.call.Answer} {ex : List Happening}
    (exchange : Exchange c j.request.call a ex)
    (resting : Resting m j.beside (past ++ ex) lines (j.done a) x)
  | alone (resting : Resting m j.beside past lines j.alone x)

/-- A job sends one request at most. -/
theorem At.subjects {w : PlainSide} (h : j.At c past ticket w) :
    subjectsOf (plain w.happened) <+: subjectsOf past ++ [j.request.resource] := by
  have settled : ∀ {a : j.request.call.Answer} {ex : List Happening},
      Exchange c j.request.call a ex → plain w.happened = past ++ ex →
      subjectsOf (plain w.happened) <+: subjectsOf past ++ [j.request.resource] := by
    intro a ex exchange hp
    rw [hp, subjectsOf_append]
    exact (List.prefix_append_right_inj _).mpr exchange.subjectsOf
  have none : plain w.happened = past →
      subjectsOf (plain w.happened) <+: subjectsOf past ++ [j.request.resource] := by
    intro hp
    rw [hp]
    exact List.prefix_append ..
  cases h with
  | wished _ _ _ _ _ _ hp _ _ | issued _ _ _ hp _ => exact none hp
  | called _ _ _ _ hp _ =>
    rw [hp, subjectsOf_append]
    exact List.prefix_refl _
  | answered _ _ _ exchange _ _ _ _ _ hp _ _ _ => exact settled exchange hp
  | ended h =>
    cases h with
    | settled exchange idle => exact settled exchange idle.past
    | alone idle => exact none idle.past

/-- A plain request that waits to be sent is the one of the job. -/
theorem At.work_of_waiting {w : PlainSide} (h : j.At c past ticket w) {task : Task}
    (ht : task ∈ w.tasks) (hb : task.begun = false) :
    task.request = j.request ∧ plain w.happened = past ∧
      j.work w.happened w.state w.queue := by
  have nothing : w.tasks = [] → task.request = j.request ∧ plain w.happened = past ∧
      j.work w.happened w.state w.queue := by
    intro hn
    rw [hn] at ht
    cases ht
  cases h with
  | wished _ _ _ _ _ hn _ _ _ | answered _ _ _ _ _ _ _ _ hn _ _ _ _ => exact nothing hn
  | issued _ _ tasks hp work =>
    rw [tasks, List.mem_singleton] at ht
    subst ht
    exact ⟨rfl, hp, work⟩
  | called _ _ tasks _ _ _ =>
    rw [tasks, List.mem_singleton] at ht
    subst ht
    cases hb
  | ended h =>
    cases h with
    | settled _ idle | alone idle => exact nothing idle.tasks

namespace Waiting

/-- While a job is under way, everything that moves keeps to the mandate, and the job goes on. -/
theorem firm (h : j.Admitted m past) :
    (m.contract c ends).Firm (j.Waiting m c past lines ticket) := by
  refine ⟨fun x hx => ⟨hx.sound, hx.stage.subjects.trans h.order, hx.permitted, hx.shows⟩, ?_⟩
  intro x hs store hx hm
  have hpermitted : Permitted m.may (x.happened ++ hs) := by
    refine hx.permitted.move (fun task ht hb => ?_) hm
    obtain ⟨hq, hp, hw⟩ := hx.stage.work_of_waiting ht hb
    rw [hq]
    exact h.may hx.sound hp hw
  exact
    { sound := Sound.move x hs store hx.sound hm
      permitted := hpermitted
      shows := m.shows_append hx.shows hs
      stage := hx.stage.step h.lawful hx.sound.coherent hx.sound.queue (hm.plainSide hx.sound.held)
      due := Nat.le_trans hx.due (ticket_le_of_move hx.sound hm)
      printed := hx.printed }

/-- The wish of the job is sent. -/
theorem of_resting (h : j.Admitted m past) (hx : Resting m j.beside past lines j.ahead x) :
    j.Waiting m c past lines (x.store.sendAll [j.wish]).ticket (x.sendAll [j.wish]) := by
  have hq : (x.store.sendAll [j.wish]).queue = x.store.queue ++ [j.wish] :=
    hx.sound.queue_sendAll [j.wish]
  refine ⟨hx.sound.sendAll (List.forall_mem_singleton.mpr h.status), hx.permitted, hx.shows, ?_,
    Nat.le_refl _, hx.printed⟩
  refine .wished x.store.queue [] hq hx.idle.queue (List.forall_mem_nil _)
    ((Store.plainTasks_sendAll _ _).trans hx.idle.tasks) hx.idle.past ?_ ?_
  · show (x.store.sendAll [j.wish]).applied + _ < (x.store.sendAll [j.wish]).ticket
    rw [Store.ticket, hq, List.length_append]
    exact Nat.add_lt_add_left (Nat.lt_succ_self _) _
  · show j.ahead x.happened (x.store.sendAll [j.wish]).state x.store.queue
    rw [Store.state_sendAll]
    exact hx.idle.fact

/-- When the job is over, what was sent for it is the next in the order. -/
theorem ended (hx : j.Waiting m c past lines ticket x) (h : j.Admitted m past)
    (ho : j.Over c past x.plainSide) : j.Ended m c past lines x := by
  have hpast : subjectsOf past <+: m.order := (List.prefix_append ..).trans h.order
  cases ho with
  | settled exchange idle =>
    refine .settled exchange ⟨hx.sound, ?_, hx.permitted, hx.shows, idle, hx.printed⟩
    rw [subjectsOf_append]
    exact ((List.prefix_append_right_inj _).mpr exchange.subjectsOf).trans h.order
  | alone idle => exact .alone ⟨hx.sound, hpast, hx.permitted, hx.shows, idle, hx.printed⟩

end Waiting

end Job

/-! ### Rules -/

namespace Dialogue

/-- A command sends the wish of a job, and goes on when the job is over. -/
theorem meets_ask {j : Job} {wanted : State → Bool} {mid : State → Scene → Prop}
    (h : j.Admitted m past) (hmid : ∀ s, (m.contract c ends).Firm (mid s))
    (hwork : ∀ {x is}, Sound x → j.work x.happened x.store.state is →
      wanted x.store.published = false)
    (hover : ∀ {x}, j.Ended m c past lines x → wanted x.store.published = true →
      mid x.store.published x)
    (hrest : ∀ {x}, j.Ended m c past lines x → x.store.AtRest →
      wanted x.store.published = true) :
    (ask [j.wish] wanted).Meets (m.contract c ends) mid
      (Resting m j.beside past lines j.ahead) := by
  refine ⟨j.Waiting m c past lines, mid, fun _ => Job.Waiting.firm h, hmid,
    fun x hx => Job.Waiting.of_resting h hx, ?_, ?_, fun s x hx => hx⟩
  · -- the command goes on: the wish has been applied and the work is done, so the job is over
    intro ticket x hx hticket hw
    have awaited : ∀ {is}, ¬j.work x.happened x.store.state is := fun hwork' => by
      rw [hwork hx.sound hwork'] at hw
      cases hw
    cases hx.stage with
    | wished before _ _ _ _ _ _ soon _ =>
      change x.store.applied + before.length < ticket at soon
      omega
    | issued _ _ _ _ work | called _ _ _ _ _ work => exact absurd work awaited
    | answered _ _ _ _ _ _ _ _ _ _ _ work _ => exact absurd work awaited
    | ended ho => exact hover (hx.ended h ho) hw
  · -- the store is at rest: nothing is left that could stand for the job
    intro ticket x hx hr
    have htasks : x.plainSide.tasks = [] := by
      show x.store.tasks.filter _ = []
      rw [hr.tasks]
      rfl
    have hqueue : x.plainSide.queue = [] := hr.queue
    cases hx.stage with
    | wished _ _ queue => simp [queue] at hqueue
    | issued _ _ tasks | called _ _ tasks =>
      rw [tasks] at htasks
      cases htasks
    | answered _ _ _ _ queue => simp [queue] at hqueue
    | ended ho =>
      refine ⟨?_, hrest (hx.ended h ho) hr⟩
      have hdue := hx.due
      rwa [Store.ticket, hr.queue] at hdue

variable {post : Unit → Scene → Prop} {line : String} {next : Dialogue Unit}

/-- A command that rests sends an intent that asks for no plain request. -/
theorem meets_tell {beside' : Intent → Prop} {Q : Fact} {i : Intent} (hbeside : Company beside')
    (hQ : Lasting beside' Q) (hstatus : i.status? = none) (hb : ∀ i, beside i → beside' i)
    (hi : beside' i)
    (hP : ∀ {hs s js}, P hs s js → (∀ i ∈ js, beside i) → Q hs s (js ++ [i])) :
    (tell i).Meets (m.contract c ends) (fun _ => Resting m beside' past lines Q)
      (Resting m beside past lines P) :=
  ⟨_, Resting.firm hbeside hQ, fun _ hx =>
    hx.sendAll (List.forall_mem_singleton.mpr hstatus) hb (List.forall_mem_singleton.mpr hi) hP,
    fun _ hx => hx⟩

/-- A command that rests prints a line. -/
theorem meets_print (hbeside : Company beside) (hP : Lasting beside P)
    (hshows : ∀ x, Resting m beside past lines P x → m.shows x.happened (line :: lines))
    (hends : ∀ reason x, Resting m beside past lines P x → ends (.refused reason) x)
    (hnext : next.Meets (m.contract c ends) post (Resting m beside past (line :: lines) P)) :
    (print line next).Meets (m.contract c ends) post (Resting m beside past lines P) := by
  refine ⟨_, Resting.firm hbeside hP, fun x hx => ⟨?_, fun reason => hends reason x hx⟩, hnext⟩
  have hprinted : (x.print line).printed = line :: lines := congrArg (line :: ·) hx.printed
  refine ⟨hx.sound.print line, hx.order, hx.permitted, ?_, hx.idle, hprinted⟩
  rw [hprinted]
  exact hshows x hx

/-- A command that rests looks at the state. -/
theorem meets_present (hbeside : Company beside) (hP : Lasting beside P) :
    present.Meets (m.contract c ends) (fun _ => Resting m beside past lines P)
      (Resting m beside past lines P) :=
  ⟨fun _ => Resting m beside past lines P, fun _ => Resting.firm hbeside hP, fun _ hx => hx,
    fun _ _ hx => hx⟩

/-- A failure that was noted ends the dialogue. -/
theorem meets_refuse {k : Contract} {s : State} {r : Resource} {what : String}
    {post failed : Scene → Prop} (hfail : ∀ message x, failed x → k.ends (.failed message) x) :
    (refuse s r what).Meets k (fun _ => post)
      fun x => if s.errors.get r = none then post x else failed x := by
  unfold refuse
  split
  · next f h =>
    intro x hx
    simp only [h, reduceCtorEq, if_false] at hx
    exact hfail _ x hx
  · next h =>
    intro x hx
    simpa only [h, if_true] using hx

end Dialogue

/-! ### Sessions -/

/-- At the beginning a command rests. -/
theorem resting_initial (interval : Nat) (hshows : m.shows [] []) (hP : P [] {} []) :
    Resting m beside [] [] P { happened := [], store := .initial interval, printed := [] } where
  sound := sound_initial interval []
  order := List.nil_prefix
  permitted := permitted_nil _
  shows := hshows
  idle := ⟨List.forall_mem_nil _, rfl, rfl, hP⟩
  printed := rfl

/-- A session keeps to the mandate of its command, and ends as it may. -/
theorem Session.keeps_mandate {d : Dialogue Unit} {timeout interval : Nat} {output : Output}
    {t : Session} (hbeside : Company beside) (hP : Lasting beside P) (hshows : m.shows [] [])
    (hpre : P [] {} [])
    (hd : d.Meets (m.restful c fits) (fun _ => (m.restful c fits).ends .completed)
      (Resting m beside [] [] P))
    (hrun : Run { client := c, timeout, store := .initial interval, output,
                  activity := .talking d } hs t) :
    m.Kept (t.scene hs) ∧ ∀ e, t.activity = .over e → (m.restful c fits).ends e (t.scene hs) :=
  keeps_contract Mandate.firm_restful rfl rfl (Resting.firm hbeside hP)
    (resting_initial interval hshows hpre) hd hrun

end Cli

end RunControl
