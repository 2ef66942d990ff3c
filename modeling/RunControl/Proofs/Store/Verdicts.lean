/-
RunControl/Proofs/Store/Verdicts.lean

What becomes of an intent that asks for something.  It is refused when the store takes it off the
queue, or a request is sent; then the client replies, or it fails (`Verdict`).

The intents that a request comes to reach the store one by one, with others in between, and
`Course` says how many of them have been applied.  When the one has been applied that settles the
request, the failure that is kept of the resource is the one that belongs to the answer
(`Course.verdict`), and the request owes nothing any more (`Course.not_owes`).  An intent has one
verdict, because each request is answered once (`Verdict.unique`).
-/
import RunControl.Proofs.Store.Owing

namespace RunControl

namespace Traffic

variable {t u w : Traffic} {a : Act} {post : List Act} {who : Sender} {k : Nat} {q : Request}
  {i j : Intent}

/-! ### The request -/

/-- How far a request has got by what has happened since it was sent. -/
inductive Course (k : Nat) (q : Request) (post : List Act) (u : Traffic) : Prop
  | underWay (here : u.store.UnderWay k q)
      (nothing : sentBy (.request k) (dequeued post) ++ u.pending (.request k) = [])
  | answered (answer : q.call.Answer) (mem : .plans (.request k) (outcome q answer) ∈ post)
      (all : sentBy (.request k) (dequeued post) ++ u.pending (.request k) = outcome q answer)

/-- What was taken of a sender, and is to come, grows by what it sets out to send. -/
theorem Step.sentBy_append_pending (hs : Step t a u) (ho : u.store.isClosed = false)
    (post : List Act) (who : Sender) :
    sentBy who (dequeued (post ++ [a])) ++ u.pending who
      = sentBy who (dequeued post) ++ t.pending who ++ a.plan who := by
  rw [dequeued_append, dequeued_singleton, sentBy_append, List.append_assoc, hs.pending ho who,
    List.append_assoc]

theorem Course.step (h : Course k q post t) (hs : Step t a u) (ht : Orderly t)
    (ho : u.store.isClosed = false) (hr : q.resource ≠ .systemStatus)
    (hgone : ∀ is, .plans (.request k) is ∈ post → k ∉ t.store.numbers) :
    Course k q (post ++ [a]) u := by
  have hall := hs.sentBy_append_pending ho post (.request k)
  rcases hp : a.plan (.request k) with - | ⟨j, js⟩
  · rw [hp, List.append_nil] at hall
    cases h with
    | underWay here nothing =>
      exact .underWay ((hs.underWay ht ho hr).mpr (.inl ⟨here, hp⟩)) (hall.trans nothing)
    | answered answer mem all =>
      exact .answered answer (List.mem_append_left _ mem) (hall.trans all)
  · -- the request is answered in this very step
    obtain ⟨q', answer, hq', rfl⟩ := hs.of_plan_request (hp ▸ List.mem_cons_self)
    cases h with
    | underWay here nothing =>
      obtain rfl := here.eq hq' (ht.held (hs.isOpen ho)).toNumbered
      rw [nothing, Act.plan, if_pos rfl, List.nil_append] at hall
      exact .answered answer (List.mem_append_right _ (List.mem_singleton_self _)) hall
    | answered answer' mem all => exact absurd hq'.mem_numbers (hgone _ mem)

/-! ### How it ends -/

/-- When the store takes the intent off the queue in `w`, it sends a request. -/
structure Issues (w : Traffic) (i : Intent) (q : Request) : Prop where
  request : w.store.state.request? (w.store.state.after i) i = some q
  sent : w.store.applyNext.UnderWay w.store.sent q

/-- What has become of an intent that the store takes off the queue in `w`, by what has happened
since: the message that is left. -/
inductive Verdict (w : Traffic) (i : Intent) (post : List Act) : Option String → Prop
  /-- It is refused, and nothing is to be done. -/
  | refused {f : Failure} (refused : w.store.state.refusal? i = some f)
      (idle : w.store.state.effects (w.store.state.after i) i = []) :
      Verdict w i post (some f.message)
  /-- It issues a request, the client replies, and the reply has been applied. -/
  | replied {q : Request} {reply : q.call.resource.Reply}
      (issued : w.Issues i q)
      (answered : .plans (.request w.store.sent) (outcome q (.ok reply)) ∈ post)
      (applied : (.request w.store.sent, q.settlement reply) ∈ dequeued post) :
      Verdict w i post none
  /-- It issues a request, the client fails, and all has been applied that reports the fault. -/
  | failed {q : Request} {e : Fault}
      (issued : w.Issues i q)
      (answered : .plans (.request w.store.sent) (outcome q (.error e)) ∈ post)
      (applied : ∀ j ∈ outcome q (.error e), (.request w.store.sent, j) ∈ dequeued post) :
      Verdict w i post (some e.text)

namespace Verdict

variable {m m' : Option String}

theorem mono {post' : List Act} (h : Verdict w i post m) (hp : post ⊆ post') :
    Verdict w i post' m := by
  have hd : dequeued post ⊆ dequeued post' := List.filterMap_subset _ hp
  cases h with
  | refused refused idle => exact .refused refused idle
  | replied issued answered applied => exact .replied issued (hp answered) (hd applied)
  | failed issued answered applied =>
    exact .failed issued (hp answered) fun j hj => hd (applied j hj)

theorem effects_ne_nil (h : w.Issues i q) :
    w.store.state.effects (w.store.state.after i) i ≠ [] := by
  rw [State.effects, h.request]
  exact List.cons_ne_nil _ _

/-- There is one verdict, if each request is answered once. -/
theorem unique (h : Verdict w i post m) (h' : Verdict w i post m')
    (honce : ∀ is js, .plans (.request w.store.sent) is ∈ post →
      .plans (.request w.store.sent) js ∈ post → is = js) : m = m' := by
  have plain : ∀ {q}, w.Issues i q → q.resource ≠ .systemStatus := by
    intro q hq
    refine Call.isPlain_iff.mp ?_
    rw [Request.isPlain_call, State.cycle?_of_request? hq.request]
    rfl
  have same : ∀ {q q'}, w.Issues i q → w.Issues i q' → q = q' := by
    intro q q' hq hq'
    exact Option.some.inj (hq.request.symm.trans hq'.request)
  -- what is refused issues nothing, and one request has one answer, with a reply or with a fault
  cases h with
  | @refused f refused idle =>
    cases h' with
    | refused refused' =>
      rw [refused] at refused'
      rw [Option.some.inj refused']
    | replied issued => exact absurd idle (effects_ne_nil issued)
    | failed issued => exact absurd idle (effects_ne_nil issued)
  | replied issued answered =>
    cases h' with
    | refused _ idle => exact absurd idle (effects_ne_nil issued)
    | replied => rfl
    | failed issued' answered' =>
      obtain rfl := same issued issued'
      exact absurd (honce _ _ answered answered') (Request.outcome_ok_ne_error (plain issued) _ _)
  | failed issued answered =>
    cases h' with
    | refused _ idle => exact absurd idle (effects_ne_nil issued)
    | replied issued' answered' =>
      obtain rfl := same issued issued'
      exact absurd (honce _ _ answered' answered) (Request.outcome_ok_ne_error (plain issued) _ _)
    | failed issued' answered' =>
      obtain rfl := same issued issued'
      rw [Request.text_eq_of_outcome_error (plain issued) (honce _ _ answered answered')]

end Verdict

/-- When the intent is taken that settles a request, what the request has come to has been taken
up to there. -/
theorem Course.split (h : Course k q post t) (hs : Step t (.takes (.request k) j) u)
    (ho : u.store.isClosed = false) :
    ∃ answer front, .plans (.request k) (outcome q answer) ∈ post ∧
      outcome q answer = front ++ j :: u.pending (.request k) ∧
      sentBy (.request k) (dequeued (post ++ [.takes (.request k) j])) = front ++ [j] := by
  have hp : j :: u.pending (.request k) = t.pending (.request k) := by
    have hp := hs.pending ho (.request k)
    change sentBy (.request k) [(.request k, j)] ++ _ = _ ++ [] at hp
    rwa [sentBy_singleton_self, List.append_nil] at hp
  cases h with
  | underWay here nothing =>
    rw [← hp] at nothing
    simp at nothing
  | answered answer mem all =>
    refine ⟨answer, sentBy (.request k) (dequeued post), mem, ?_, ?_⟩
    · rw [hp, all]
    · rw [dequeued_append, sentBy_append, dequeued_singleton]
      exact congrArg _ (sentBy_singleton_self ..)

/-- When the intent has been applied that settles a request, the failure that is kept is the one
that belongs to the answer. -/
theorem Course.verdict (h : Course w.store.sent q post t)
    (hs : Step t (.takes (.request w.store.sent) j) u) (ht : Orderly t)
    (ho : u.store.isClosed = false) (hr : q.resource ≠ .systemStatus)
    (hset : j.settles? = some q.resource)
    (issued : w.Issues i q) :
    Verdict w i (post ++ [.takes (.request w.store.sent) j])
      ((u.store.state.errors.get q.resource).map Failure.message) := by
  obtain ⟨answer, front, mem, hsplit, hsent⟩ := h.split hs ho
  have hmem := List.mem_append_left [.takes (.request w.store.sent) j] mem
  rw [hs.state_of_takes ht]
  cases answer with
  | ok reply =>
    -- no failure is left, and the reply itself was taken last
    obtain rfl : j = q.settlement reply :=
      Request.eq_settlement_of_mem (hsplit ▸ List.mem_append_right _ List.mem_cons_self) hset
    rw [State.errors_after_of_settles? hset hr (q.settlement_ne_failed reply),
      PerResource.get_set_self]
    refine .replied issued hmem (mem_sentBy.mp ?_)
    rw [hsent]
    exact List.mem_append_right _ (List.mem_singleton_self _)
  | error e =>
    -- the failure comes last of what reports the fault, so all of it has been taken
    obtain ⟨rfl, hnil⟩ := Request.eq_failed_of_outcome hr hsplit hset
    rw [State.errors_after_failed, PerResource.get_set_self]
    refine .failed issued hmem fun i hi => mem_sentBy.mp ?_
    rw [hsent]
    rwa [hsplit, hnil] at hi

/-- Nothing is owed by a request any more when the intent has been applied that settles it. -/
theorem Course.not_owes (h : Course k q post t) (hs : Step t (.takes (.request k) j) u)
    (ho : u.store.isClosed = false) (hset : j.settles? = some q.resource)
    (hgone : ∀ is, .plans (.request k) is ∈ post → k ∉ u.store.numbers) :
    ¬u.Owes q.resource (.request k) := by
  obtain ⟨answer, front, mem, hsplit, -⟩ := h.split hs ho
  rintro (⟨k', q', hk, hq', -⟩ | ⟨j', hj', hset'⟩)
  · cases hk
    exact hgone _ mem hq'.mem_numbers
  · exact Request.settles?_ne_of_outcome hsplit hset j' hj' hset'

end Traffic

end RunControl
