/-
RunControl/Proofs/Cli/Fetch.lean

Errands: the jobs of a command, and what is told of them by the marks and the failures.  The mark
of its resource is set while a request is under way, and when it is gone, there is a failure
exactly if no reply was received (`Errand.job`).  Only what is peculiar to an errand has to be
proved for each one (`Errand.Lawful`).

When an errand is over, the dialogue goes on with the reply, or it fails (`Errand.meets_fetch`).
-/
import RunControl.Proofs.Cli.Mandate

namespace RunControl

/-! ### What is refused -/

namespace State

variable {s : State} {i : Intent} {r : Resource}

theorem errors_after_of_refuses (h : i.asks? = some r) (hf : s.refuses i = true) :
    (s.after i).errors.get r ≠ none := by
  cases i with
  | startRun device =>
    cases h
    obtain ⟨b, hb⟩ := Option.isSome_iff_exists.mp hf
    simp [after, startRun, hb, withError]
  | deleteDevice device =>
    cases h
    have hb : s.isBusy device = true := hf
    simp [after, deleteDevice, hb, withError]
  | _ => cases hf

theorem request?_of_refuses (hf : s.refuses i = true) : s.request? (s.after i) i = none := by
  have he := effects_of_refuses hf
  rw [effects, List.append_eq_nil_iff] at he
  simpa using he.1

end State

namespace Cli

variable {m : Mandate} {c : Client} {ends : Ending → Scene → Prop} {past hs : List Happening}
  {lines : List String} {x : Scene}

/-! ### Errands -/

/-- A job without what the marks and the failures tell of it. -/
structure Errand where
  wish : Intent
  request : Request
  /-- What may be in the queue beside the wish and the answer. -/
  beside : Intent → Prop
  ahead : Fact
  work : Fact
  done : request.call.resource.Reply → Fact

namespace Errand

/-- What is peculiar to an errand. -/
structure Lawful (e : Errand) : Prop where
  beside : Company e.beside
  asks : e.wish.asks? = some e.request.resource
  sends : ∀ s : State, s.refuses e.wish = false → s.loading.get e.request.resource = false →
    s.request? (s.after e.wish) e.wish = some e.request
  followUp : ∀ i ∈ e.request.followUp, e.beside i
  ahead : Lasting e.beside e.ahead
  work : Lasting Intent.IsReport e.work
  done : ∀ reply, Lasting e.beside (e.done reply)
  grant : ∀ {hs s is}, s.Coherent → s.refuses e.wish = false → e.ahead hs s [] →
    (∀ i ∈ is, i.IsReport) → e.work (hs ++ [.applied e.wish]) (s.after e.wish) is
  deliver : ∀ {hs s is} reply, e.work hs s [] → Backed hs (e.request.settlement reply) →
    (∀ i ∈ is, i.IsReport) →
    e.done reply (hs ++ [.applied (e.request.settlement reply)])
      (s.after (e.request.settlement reply)) (e.request.followUp ++ is)

variable {e : Errand}

/-- An errand with what the marks and the failures tell of it. -/
def job (e : Errand) : Job where
  wish := e.wish
  request := e.request
  beside := e.beside
  ahead hs s is := s.loading = .const false ∧ e.ahead hs s is
  work hs s is :=
    s.loading = (PerResource.const false).set e.request.resource true ∧ e.work hs s is
  done a hs s is :=
    s.loading = .const false ∧
      (s.errors.get e.request.resource = none ↔ ∃ reply, a = .ok reply) ∧
      ∀ reply, a = .ok reply → e.done reply hs s is
  alone _ s _ := s.loading = .const false ∧ s.errors.get e.request.resource ≠ none

namespace Lawful

theorem resource_ne (he : e.Lawful) : e.request.resource ≠ .systemStatus :=
  Intent.ne_systemStatus_of_asks? he.asks

theorem status (he : e.Lawful) : e.wish.status? = none := by
  have ha := he.asks
  cases hw : e.wish <;> first | rfl | (rw [hw] at ha; cases ha)

/-- When an answer is applied, the mark is taken away. -/
theorem loading_settled (he : e.Lawful) {s : State} {i : Intent}
    (hi : i.settles? = some e.request.resource)
    (hl : s.loading = (PerResource.const false).set e.request.resource true) :
    (s.after i).loading = .const false := by
  rw [State.loading_after_of_settles? hi he.resource_ne, hl]
  ext r
  rw [PerResource.get_set, PerResource.get_const]
  split
  · rfl
  · next h => rw [PerResource.get_set_of_ne _ h, PerResource.get_const]

/-- An errand keeps the law of jobs.  Its mark is set when the wish is applied and taken away by
whatever settles the request, and the error tells which of the two it was. -/
theorem job (he : e.Lawful) : e.job.Lawful where
  beside := he.beside
  plain := Call.isPlain_iff.mpr he.resource_ne
  ahead := (Lasting.loading he.beside.aside _).and he.ahead
  work := (Lasting.loading (fun _ => .report) _).and he.work
  done a := (Lasting.loading he.beside.aside _).and
    ((Lasting.error he.beside.aside he.resource_ne fun f => f = none ↔ ∃ reply, a = .ok reply).and
      (.all fun reply => (he.done reply).imp))
  alone := (Lasting.loading he.beside.aside _).and
    (Lasting.error he.beside.aside he.resource_ne fun f => f ≠ none)
  grant := by
    intro hs s is hcoh ⟨hl, ha⟩ hi
    rcases hf : s.refuses e.wish with - | -
    · -- nothing is marked before, so the request is sent
      have hmark : s.loading.get e.request.resource = false := by rw [hl, PerResource.get_const]
      refine .inl ⟨he.sends s hf hmark, ?_, he.grant hcoh hf ha hi⟩
      show (s.after e.wish).loading = _
      rw [State.loading_after_of_asks? he.asks hf, hl]
    · -- refused: the error is there, and no mark
      refine .inr ⟨State.request?_of_refuses hf, ?_, State.errors_after_of_refuses he.asks hf⟩
      show (s.after e.wish).loading = _
      rw [State.loading_after_of_refuses hf, hl]
  settle := by
    have hr := he.resource_ne
    rintro (fault | reply)
    · -- a fault is settled by the failure that comes last
      obtain ⟨pre, ho, hpre⟩ := Request.failureIntents_eq e.request.resource fault
      refine ⟨pre, _, [], (Request.outcome_error hr fault).trans ho, hpre, List.forall_mem_nil _,
        fun _ _ => rfl, ?_⟩
      rintro hs s is ⟨hl, -⟩ - -
      refine ⟨he.loading_settled (if_neg hr) hl, ?_, nofun⟩
      rw [State.errors_after_failed, PerResource.get_set_self]
      simp
    · -- a reply is settled at once, and may ask for more
      have hsettles := e.request.settles?_settlement reply
      refine ⟨[], _, _, e.request.outcome_ok reply, List.forall_mem_nil _, he.followUp,
        e.request.request?_settlement reply, ?_⟩
      rintro hs s is ⟨hl, hw⟩ hb hi
      refine ⟨he.loading_settled hsettles hl, ?_, ?_⟩
      · rw [State.errors_after_of_settles? hsettles hr (e.request.settlement_ne_failed reply),
          PerResource.get_set_self]
        exact ⟨fun _ => ⟨reply, rfl⟩, fun _ => rfl⟩
      · rintro _ ⟨⟩
        exact he.deliver reply hw hb hi

end Lawful

/-- The facts of an errand that has brought a reply. -/
def after (e : Errand) (reply : e.request.call.resource.Reply) : Fact :=
  fun hs s is => s.loading = .const false ∧ e.done reply hs s is

/-- What has happened to an errand that has brought a reply. -/
structure Success (e : Errand) (c : Client) where
  reply : e.request.call.resource.Reply
  happened : List Happening
  exchange : Exchange c e.request.call (.ok reply) happened

/-- No reply has come back, and none will. -/
def Fruitless (e : Errand) (m : Mandate) (past : List Happening) (lines : List String)
    (x : Scene) : Prop :=
  ∃ ex, Missed e.request.call ex ∧
    Resting m e.beside (past ++ ex) lines (fun _ _ _ => True) x

/-- A reply has come back, and `s` was published when it had been applied. -/
def Fruitful (e : Errand) (m : Mandate) (c : Client) (past : List Happening)
    (lines : List String) (s : State) (x : Scene) : Prop :=
  ∃ g : e.Success c, Seen (e.done g.reply) x.happened s ∧
    Resting m e.beside (past ++ g.happened) lines (e.after g.reply) x

/-- When an errand is over, the failures tell whether a reply has come back. -/
theorem fruitful_or_fruitless (h : e.job.Ended m c past lines x) :
    if x.store.published.errors.get e.request.resource = none then
      e.Fruitful m c past lines x.store.published x
    else e.Fruitless m past lines x := by
  have herrors : ∀ {beside past P}, Resting m beside past lines P x →
      x.store.published.errors = x.store.state.errors := fun hx => hx.sound.errors_published
  cases h with
  | @settled a ex exchange resting =>
    obtain ⟨hl, he, hd⟩ : e.job.done a x.happened x.store.state x.store.queue := resting.idle.fact
    rw [herrors resting]
    split
    · next hn =>
      obtain ⟨reply, rfl⟩ := he.mp hn
      refine ⟨⟨reply, ex, exchange⟩, ⟨_, _, hd reply rfl, resting.sound.published⟩, ?_⟩
      exact resting.imp (fun h _ => ⟨h.1, h.2.2 reply rfl⟩) fun _ hi => hi
    · next hn =>
      refine ⟨ex, ?_, resting.imp (fun _ _ => trivial) fun _ hi => hi⟩
      exact exchange.missed fun reply ha => hn (he.mpr ⟨reply, ha⟩)
  | alone resting =>
    obtain ⟨-, he⟩ : e.job.alone x.happened x.store.state x.store.queue := resting.idle.fact
    rw [herrors resting, if_neg he]
    refine ⟨[], .unsent, ?_⟩
    rw [List.append_nil]
    exact resting.imp (fun _ _ => trivial) fun _ hi => hi

theorem Lawful.firm_fruitful (he : e.Lawful) (s : State) :
    (m.contract c ends).Firm (e.Fruitful m c past lines s) := by
  refine .exists fun g => ?_
  have hrest : (m.contract c ends).Firm
      (Resting m e.beside (past ++ g.happened) lines (e.after g.reply)) :=
    Resting.firm he.beside ((Lasting.loading he.beside.aside _).and (he.done g.reply))
  exact ⟨fun x hx => hrest.always x hx.2,
    fun x hs store hx hm => ⟨hx.1.mono (he.done g.reply) hs, hrest.firm x hs store hx.2 hm⟩⟩

theorem Lawful.firm_fruitless (he : e.Lawful) :
    (m.contract c ends).Firm (e.Fruitless m past lines) := by
  refine .exists fun ex => ?_
  have hrest : (m.contract c ends).Firm
      (Resting m e.beside (past ++ ex) lines fun _ _ _ => True) :=
    Resting.firm he.beside (.const True)
  exact ⟨fun x hx => hrest.always x hx.2,
    fun x hs store hx hm => ⟨hx.1, hrest.firm x hs store hx.2 hm⟩⟩

/-- The mark of an errand that is over has been taken away. -/
theorem isLoading_of_ended (he : e.Lawful) (h : e.job.Ended m c past lines x) :
    x.store.published.isLoading e.request.resource = false := by
  have unmarked : ∀ {beside past P}, Resting m beside past lines P x →
      x.store.state.loading = .const false →
      x.store.published.isLoading e.request.resource = false := by
    intro beside past P hx hl
    rw [State.isLoading, if_neg he.resource_ne, hx.sound.loading_published, hl,
      PerResource.get_const]
  cases h with
  | settled _ resting => exact unmarked resting resting.idle.fact.1
  | alone resting => exact unmarked resting resting.idle.fact.1

open Dialogue in
/-- A thing is fetched, or a command is given: the dialogue goes on when a reply has come back,
and fails if none has. -/
theorem meets_fetch (he : e.Lawful) (h : e.job.Admitted m past)
    (hends : ∀ message x, e.Fruitless m past lines x → ends (.failed message) x) :
    (fetch e.wish e.request.resource).Meets (m.contract c ends) (e.Fruitful m c past lines)
      (Resting m e.beside past lines e.job.ahead) := by
  have hask : (ask [e.wish] fun s => !s.isLoading e.request.resource).Meets (m.contract c ends)
      (fun s x => if s.errors.get e.request.resource = none then e.Fruitful m c past lines s x
        else e.Fruitless m past lines x)
      (Resting m e.beside past lines e.job.ahead) := by
    refine meets_ask h (fun s => .ite (he.firm_fruitful s) he.firm_fruitless) ?_
      (fun hx _ => e.fruitful_or_fruitless hx) fun hx _ => by rw [isLoading_of_ended he hx]; rfl
    rintro x is hx ⟨hl, -⟩
    rw [State.isLoading, if_neg he.resource_ne, hx.loading_published, hl, PerResource.get_set_self]
    rfl
  show ((ask [e.wish] fun s => !s.isLoading e.request.resource).bind fun s =>
    (refuse s e.request.resource _).bind fun _ => Dialogue.done s).Meets _ _ _
  exact hask.bind fun s => (meets_refuse hends).bind fun _ x hx => hx

/-- What comes after a fetch may use the reply. -/
theorem meets_fetch_bind {β : Type} {f : State → Dialogue β} {post : β → Scene → Prop}
    (he : e.Lawful) (h : e.job.Admitted m past)
    (hends : ∀ message x, e.Fruitless m past lines x → ends (.failed message) x)
    (hf : ∀ (g : e.Success c) s, (∃ hs, Seen (e.done g.reply) hs s) →
      (f s).Meets (m.contract c ends) post
        (Resting m e.beside (past ++ g.happened) lines (e.after g.reply))) :
    ((fetch e.wish e.request.resource).bind f).Meets (m.contract c ends) post
      (Resting m e.beside past lines e.job.ahead) :=
  (meets_fetch he h hends).bind fun s =>
    (Dialogue.Meets.exists fun g => Dialogue.Meets.exists fun hseen => hf g s hseen).mono
      fun _ ⟨g, hseen, hx⟩ => ⟨g, ⟨_, hseen⟩, hx⟩

/-- An errand that a command may run next. -/
theorem Lawful.admitted (he : e.Lawful)
    (horder : subjectsOf past ++ [e.request.resource] <+: m.order)
    (hmay : ∀ {x : Scene}, Sound x → plain x.happened = past →
      e.work x.happened x.store.state x.store.queue → m.may x.happened e.request.call) :
    e.job.Admitted m past where
  lawful := he.job
  status := he.status
  order := horder
  may hx hp hw := hmay hx hp hw.2

namespace Success

variable (g : e.Success c)

theorem replied : Replied g.happened e.request.call g.reply := by
  obtain ⟨q, r, h, -, hr⟩ := g.exchange.eq_of_ok rfl
  rw [h]
  exact ⟨r, List.mem_cons_of_mem _ (List.mem_singleton_self _), hr⟩

theorem subjectsOf_happened : subjectsOf g.happened = [e.request.resource] := by
  obtain ⟨q, r, h, -, -⟩ := g.exchange.eq_of_ok rfl
  rw [h]
  rfl

/-- Nothing else is answered in an errand. -/
theorem call_of_answered {call : Call} {r : Option Http.Response}
    (hm : .answered call r ∈ g.happened) : call = e.request.call := by
  obtain ⟨q, r', h, -, -⟩ := g.exchange.eq_of_ok rfl
  rw [h] at hm
  rcases List.mem_cons.mp hm with hm | hm
  · cases hm
  · cases List.mem_singleton.mp hm
    rfl

end Success

end Errand

end Cli

end RunControl
