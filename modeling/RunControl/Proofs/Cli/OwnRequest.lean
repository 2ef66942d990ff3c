/-
RunControl/Proofs/Cli/OwnRequest.lean

A fetch reports what its own request came to.  A caller sends one intent and waits until the mark
of a resource is gone; then it looks whether a failure is kept of the resource.  Nobody owes an
answer about the resource when the caller asks, and nobody else has a request issued about it
while the caller waits (`Alone`).

The caller goes through few stages (`Stage`).  Its intent is in the queue, and the caller cannot
be given anything before it is applied; a request is under way or its outcome is still to come,
and the mark keeps the caller waiting; or the outcome has been applied, or the intent refused, and
the failure that is kept is the one that belongs to it (`Verdict`).  If the store ends before, the
caller is never given anything.  Every step keeps the caller at its stage or leads it on to the
next (`Alone.stage`).

Main statement: `Cli.fetch_reports`.
-/
import RunControl.Cli.Commands
import RunControl.Proofs.Store.Verdicts
import RunControl.Proofs.Store.Waiting

namespace RunControl

namespace Traffic

variable {t t₁ u : Traffic} {a : Act} {acts during post : List Act} {who : Sender} {r : Resource}
  {n k : Nat} {q : Request} {i j : Intent} {v v' : Visit}

/-! ### A caller that is left alone -/

/-- Nobody owes an answer about a resource. -/
def Clear (t : Traffic) (r : Resource) : Prop :=
  ∀ who, ¬t.Owes r who

/-- A caller may be given a state at once. -/
def CanReturn (t : Traffic) (n : Nat) : Prop :=
  ∃ state u, Step t (.returns n state) u

/-- The intent that the store takes next is the last one of a caller that waits. -/
def IsNext (t : Traffic) (n : Nat) : Prop :=
  ∃ v, t.visits n = some v ∧ v.ticket = t.store.applied + 1

/-- What happens leaves a resource to a caller that waits. -/
structure Spares (n : Nat) (r : Resource) (t : Traffic) (a : Act) : Prop where
  /-- The caller does not ask anew. -/
  asks : ∀ e, a ≠ .asks n e
  /-- No caller makes up an answer. -/
  claims : ∀ m, ∀ j ∈ a.plan (.caller m), j.settles? ≠ some r
  /-- Nobody else has a request issued. -/
  issues : ∀ who j, a = .takes who j → ¬t.IsNext n → t.store.state.sends? j ≠ some r
  /-- Nor is anybody else refused one when the caller may be given its state: of a resource one
  failure is kept, and the refusal would take its place. -/
  refused : ∀ who j, a = .takes who j → t.CanReturn n →
    ¬(j.asks? = some r ∧ t.store.state.refuses j = true)

/-- A run in which a resource is left to a caller that waits. -/
inductive Alone (n : Nat) (r : Resource) (t : Traffic) : List Act → Traffic → Prop
  | refl : Alone n r t [] t
  | tail {acts : List Act} {a : Act} {u v : Traffic} :
      Alone n r t acts u → Step u a v → Spares n r u a → Alone n r t (acts ++ [a]) v

theorem Alone.run (h : Alone n r t acts u) : Run t acts u := by
  induction h with
  | refl => exact .refl
  | tail _ hstep _ ih => exact ih.tail hstep

/-- Who owes an answer when the caller's own intent is not taken has owed it before. -/
theorem Spares.owes_of (hsp : Spares n r t a) (hs : Step t a u) (h : Orderly t)
    (ho : u.store.isClosed = false) (hr : r ≠ .systemStatus)
    (hnext : a.taken? = none ∨ ¬t.IsNext n) (hw : u.Owes r who) : t.Owes r who := by
  rcases hs.owes_of h ho hr hw with hw | ⟨m, -, j, hj, hset⟩ | ⟨w, j, ha, -, hsend⟩
  · exact hw
  · exact absurd hset (hsp.claims m j hj)
  · subst ha
    exact absurd hsend (hsp.issues w j rfl (hnext.resolve_left nofun))

theorem Spares.of_puts : Spares n r t (.puts who j) :=
  ⟨fun _ => nofun, fun _ _ hj => absurd hj List.not_mem_nil, fun _ _ => nofun, fun _ _ => nofun⟩

theorem Spares.of_plans {is : List Intent}
    (h : ∀ m, who = .caller m → ∀ j ∈ is, j.settles? ≠ some r) :
    Spares n r t (.plans who is) := by
  refine ⟨fun _ => nofun, fun m j hj => ?_, fun _ _ => nofun, fun _ _ => nofun⟩
  rw [Act.plan] at hj
  split at hj
  · next hw => exact h m hw j hj
  · cases hj

theorem Spares.of_takes (hsends : t.IsNext n ∨ t.store.state.sends? j ≠ some r)
    (hrefuses : t.store.state.refuses j = false) : Spares n r t (.takes who j) := by
  refine ⟨fun _ => nofun, fun _ _ hj => absurd hj List.not_mem_nil, ?_, ?_⟩
  · rintro _ _ ⟨⟩ hnext
    exact hsends.resolve_left hnext
  · rintro _ _ ⟨⟩ - ⟨-, hf⟩
    rw [hrefuses] at hf
    cases hf

theorem Owes.of_queued {queued : List (Sender × Intent)} (hq : t.queued = (who, j) :: queued)
    (hset : j.settles? = some r) : t.Owes r who := by
  refine .inr ⟨j, List.mem_append_left _ (mem_sentBy.mpr ?_), hset⟩
  rw [hq]
  exact List.mem_cons_self

/-! ### Stages -/

/-- The store took the intent off the queue in `w` that a caller waits for, and `post` has happened
since. -/
structure Taken (n : Nat) (i : Intent) (t : Traffic) (during post : List Act) (w : Traffic) :
    Prop where
  split : ∃ pre, during = pre ++ .takes (.caller n) i :: post ∧ Run t pre w
  next : w.IsNext n

theorem Taken.tail {w : Traffic} (h : Taken n i t during post w) (a : Act) :
    Taken n i t (during ++ [a]) (post ++ [a]) w := by
  obtain ⟨pre, rfl, hrun⟩ := h.split
  exact ⟨⟨pre, by simp, hrun⟩, h.next⟩

theorem Taken.subset {w : Traffic} (h : Taken n i t during post w) : post ⊆ during := by
  obtain ⟨pre, rfl, -⟩ := h.split
  exact fun _ hm => List.mem_append_right _ (List.mem_cons_of_mem _ hm)

/-- Where the intent of a caller is that has not been applied. -/
inductive Place (n : Nat) (i : Intent) (v : Visit) (t : Traffic) : Prop
  | unsent (unsent : t.unsent (.caller n) = [i]) (ticket : v.ticket = 0)
  | queued {front rest : List (Sender × Intent)}
      (queued : t.queued = front ++ (.caller n, i) :: rest) (done : t.unsent (.caller n) = [])
      (ticket : v.ticket = t.store.applied + front.length + 1)

/-- A caller whose intent has not been applied is not given a state. -/
theorem Place.not_ready (h : Place n i v t) : ¬Ready n v t := by
  intro hready
  cases h with
  | unsent unsent ticket =>
    rw [hready.done] at unsent
    cases unsent
  | queued queued done ticket =>
    have happlied := hready.applied
    rw [ticket] at happlied
    omega

/-- How far a caller has got that has sent an intent about a resource and waits, by what has
happened since it asked. -/
inductive Stage (n : Nat) (i : Intent) (r : Resource) (t : Traffic) (during : List Act) (v : Visit)
    (u : Traffic) : Prop
  /-- Its intent has not been applied. -/
  | ahead (isOpen : u.store.isClosed = false) (place : Place n i v u) (clear : u.Clear r)
      (mark : u.store.state.loading.get r = false)
  /-- Its request has been sent, and the outcome has not been applied. -/
  | away {w : Traffic} {post : List Act} {q : Request} (isOpen : u.store.isClosed = false)
      (taken : Taken n i t during post w)
      (issued : w.Issues i q) (about : q.resource = r)
      (course : Course w.store.sent q post u)
      (alone : ∀ who, u.Owes r who → who = .request w.store.sent)
      (mark : u.store.state.loading.get r = true)
      (done : u.unsent (.caller n) = []) (applied : v.ticket ≤ u.store.applied)
  /-- The outcome has been applied, or the intent has been refused. -/
  | back {w : Traffic} {post : List Act} (taken : Taken n i t during post w)
      (verdict : Verdict w i post ((u.store.state.errors.get r).map Failure.message))
      (clear : u.store.isClosed = false → u.Clear r)
      (mark : u.store.state.loading.get r = false)
      (done : u.unsent (.caller n) = []) (applied : v.ticket ≤ u.store.applied)
  /-- The store has ended before that. -/
  | lost (isClosed : u.store.isClosed = true) (never : ¬Ready n v u)

/-! ### From stage to stage -/

/-- Where the intent is does not change as long as its caller and the store stand by. -/
theorem Place.still (h : Place n i v t) (hst : Still n t a u) : Place n i v u := by
  cases h with
  | unsent unsent ticket => exact .unsent (hst.unsent.trans unsent) ticket
  | queued queued done ticket =>
    obtain ⟨more, hq⟩ := hst.queued
    have happlied : u.store.applied = t.store.applied := congrArg Front.applied hst.front
    rw [queued, List.append_assoc, List.cons_append] at hq
    exact .queued hq.symm (hst.unsent.trans done) (happlied ▸ ticket)

/-- What a caller that waits for a mark to go is ready for. -/
theorem Ready.mark (h : Ready n v t) (ht : Orderly t) (hr : r ≠ .systemStatus)
    (hwanted : v.errand.wanted = fun s => !s.isLoading r) :
    t.store.state.loading.get r = false := by
  have h := h.wanted
  rw [hwanted] at h
  simpa [State.isLoading, hr, ht.published.loading_eq] using h

/-- When the mark is gone, the caller wants what is published. -/
theorem wanted_of_mark (ht : Orderly t) (hr : r ≠ .systemStatus)
    (hwanted : v.errand.wanted = fun s => !s.isLoading r)
    (hm : t.store.state.loading.get r = false) : v.errand.wanted t.store.published = true := by
  rw [hwanted]
  simpa [State.isLoading, hr, ht.published.loading_eq] using hm

/-- The store takes an intent off the queue: that of the caller, or another one. -/
theorem Place.take {s : Store} {queued : List (Sender × Intent)} (h : Place n i v t)
    (first : t.queued = (who, j) :: queued) (happlied : s.applied = t.store.applied + 1) :
    v.ticket = t.store.applied + 1 ∧ who = .caller n ∧ j = i ∧ t.unsent (.caller n) = [] ∨
      v.ticket ≠ t.store.applied + 1 ∧ Place n i v { t with store := s, queued } := by
  cases h with
  | unsent unsent ticket =>
    refine .inr ⟨?_, .unsent unsent ticket⟩
    rw [ticket]
    exact (Nat.succ_ne_zero _).symm
  | @queued front rest hqueued done ticket =>
    rw [first] at hqueued
    cases front with
    | nil =>
      -- it is the turn of the caller's intent
      obtain ⟨he, -⟩ := List.cons.inj hqueued
      cases he
      exact .inl ⟨ticket, rfl, rfl, done⟩
    | cons x front =>
      -- the intent moves up
      obtain ⟨-, rfl⟩ := List.cons.inj hqueued
      rw [List.length_cons] at ticket
      refine .inr ⟨by omega, .queued rfl done ?_⟩
      show v.ticket = s.applied + front.length + 1
      omega

namespace Stage

/-- The store applies the intent of the caller. -/
theorem of_taken (hs : Step t (.takes (.caller n) i) u) (ht : Orderly t)
    (hopen : t.store.isClosed = false) (ho : u.store.isClosed = false) (hask : i.asks? = some r)
    (clear : t.Clear r) (mark : t.store.state.loading.get r = false)
    (taken : Taken n i t₁ during [] t) (done : u.unsent (.caller n) = [])
    (applied : v.ticket ≤ u.store.applied) : Stage n i r t₁ during v u := by
  have hr := Intent.ne_systemStatus_of_asks? hask
  have hstate := hs.state_of_takes ht
  have owes : ∀ {who}, u.Owes r who →
      who = .request t.store.sent ∧ t.store.state.sends? i = some r := by
    intro who hw
    rcases hs.owes_of ht ho hr hw with hw | ⟨m, -, j, hj, -⟩ | ⟨_, _, ha, hwho, hsend⟩
    · exact absurd hw (clear who)
    · cases hj
    · cases ha
      exact ⟨hwho, hsend⟩
  -- nobody owes anything before, so the intent issues a request unless it is refused
  rcases hf : t.store.state.refusal? i with - | f
  · have hrefuses : t.store.state.refuses i = false := by
      rw [← State.isSome_refusal?, hf]
      rfl
    have hsends := State.sends?_eq_some_iff.mpr ⟨hask, hrefuses, fun _ => mark⟩
    obtain ⟨q, hq, hqr⟩ := Option.map_eq_some_iff.mp hsends
    have hunder : u.store.UnderWay t.store.sent q :=
      (hs.underWay ht ho (hqr ▸ hr)).mpr (.inr ⟨_, i, rfl, rfl, hq⟩)
    have hsent : t.store.applyNext.UnderWay t.store.sent q := by
      cases hs
      exact hunder
    -- nothing has come from the request yet
    have hpending := hs.pending ho (.request t.store.sent)
    rw [ht.fresh hopen _ (Nat.le_refl _)] at hpending
    refine .away ho taken ⟨hq, hsent⟩ hqr (.underWay hunder (List.append_eq_nil_iff.mp hpending).2)
      (fun who hw => (owes hw).1) ?_ done applied
    rw [hstate, State.loading_after_of_asks? hask hrefuses]
    exact PerResource.get_set_self ..
  · have hrefuses : t.store.state.refuses i = true := by
      rw [← State.isSome_refusal?, hf]
      rfl
    refine .back taken ?_ (fun _ who hw => ?_) ?_ done applied
    · rw [hstate, State.errors_after_of_refusal? hask hf]
      exact .refused hf (State.effects_of_refuses hrefuses)
    · obtain ⟨-, hnot, -⟩ := State.sends?_eq_some_iff.mp (owes hw).2
      rw [hrefuses] at hnot
      cases hnot
    · rw [hstate, State.loading_after_of_refuses hrefuses]
      exact mark

/-- Somebody else does something, or the caller stands by. -/
theorem still (h : Stage n i r t₁ during v t) (hst : Still n t a u) (hs : Step t a u)
    (hsp : Spares n r t a) (ht : Orderly t) (hr : r ≠ .systemStatus)
    (hgone : ∀ k is, .plans (.request k) is ∈ during → k ∉ t.store.numbers) :
    Stage n i r t₁ (during ++ [a]) v u := by
  have hclosed : u.store.isClosed = t.store.isClosed := Store.isClosed_eq_of_front hst.front
  have happlied : u.store.applied = t.store.applied := congrArg Front.applied hst.front
  have owes : u.store.isClosed = false → ∀ {who}, u.Owes r who → t.Owes r who := fun ho _ hw =>
    hsp.owes_of hs ht ho hr (.inl hst.taken?) hw
  cases h with
  | ahead isOpen place clear mark =>
    -- nobody comes to owe anything that did not before
    have ho := hclosed.trans isOpen
    exact .ahead ho (place.still hst) (fun who hw => clear who (owes ho hw)) (hst.state ▸ mark)
  | away isOpen taken issued about course alone mark done applied =>
    -- the request may be answered, which is part of its course
    have ho := hclosed.trans isOpen
    refine .away ho (taken.tail a) issued about ?_ (fun who hw => alone who (owes ho hw))
      (hst.state ▸ mark) (hst.unsent.trans done) (happlied ▸ applied)
    exact course.step hs ht ho (about ▸ hr) fun is hm => hgone _ is (taken.subset hm)
  | back taken verdict clear mark done applied =>
    refine .back (taken.tail a) ?_ (fun ho who hw => ?_) (hst.state ▸ mark)
      (hst.unsent.trans done) (happlied ▸ applied)
    · rw [hst.state]
      exact verdict.mono (List.subset_append_left _ _)
    · exact clear (hclosed.symm.trans ho) who (owes ho hw)
  | lost isClosed never =>
    exact .lost (hclosed.trans isClosed) fun hready => never (hready.of_still hst)

/-- The caller puts its intent into the queue. -/
theorem put {rest : List Intent} (h : Stage n i r t₁ during v t) (ht : Orderly t)
    (next : t.unsent (.caller n) = j :: rest) (hopen : t.store.isClosed = false)
    (hs : Step t (.puts (.caller n) j) (t.put (.caller n) j rest))
    (hsp : Spares n r t (.puts (.caller n) j)) (hr : r ≠ .systemStatus) :
    Stage n i r t₁ (during ++ [.puts (.caller n) j])
      (if rest = [] then { v with ticket := (t.store.send j).ticket } else v)
      (t.put (.caller n) j rest) := by
  have notDone : t.unsent (.caller n) ≠ [] := by
    rw [next]
    exact List.cons_ne_nil _ _
  cases h with
  | ahead isOpen place clear mark =>
    -- it goes to the end of the queue, and its ticket counts all that is in front
    cases place with
    | queued queued done ticket => exact absurd done notDone
    | unsent unsent ticket =>
      rw [next] at unsent
      obtain ⟨rfl, rfl⟩ := List.cons.inj unsent
      have ho : (t.put (.caller n) j []).store.isClosed = false :=
        (Store.isClosed_send ..).trans hopen
      refine .ahead ho (.queued rfl (Function.update_self ..) ?_) ?_ ?_
      · show (t.store.send j).ticket = (t.store.send j).applied + t.queued.length + 1
        simp [Store.ticket, Store.send, hopen, ht.queue, Nat.add_assoc]
      · exact fun who hw => clear who (hsp.owes_of hs ht ho hr (.inl rfl) hw)
      · show (t.store.send j).state.loading.get r = false
        rw [Store.state_send]
        exact mark
  | away isOpen taken issued about course alone mark done applied => exact absurd done notDone
  | back taken verdict clear mark done applied => exact absurd done notDone
  | lost isClosed never =>
    rw [isClosed] at hopen
    cases hopen

/-- The store applies the intent that settles the request of the caller. -/
theorem of_settles {w : Traffic} (hs : Step t (.takes (.request w.store.sent) j) u)
    (ht : Orderly t) (ho : u.store.isClosed = false) (hset : j.settles? = some r)
    (hr : r ≠ .systemStatus) (taken : Taken n i t₁ during post w) (issued : w.Issues i q)
    (about : q.resource = r) (course : Course w.store.sent q post t)
    (alone : ∀ who, u.Owes r who → who = .request w.store.sent)
    (done : u.unsent (.caller n) = []) (applied : v.ticket ≤ u.store.applied)
    (hgone : ∀ k is, .plans (.request k) is ∈ during → k ∉ u.store.numbers) :
    Stage n i r t₁ (during ++ [.takes (.request w.store.sent) j]) v u := by
  subst about
  refine .back (taken.tail _) (course.verdict hs ht ho hr hset issued) (fun _ who hw => ?_) ?_ done
    applied
  · obtain rfl := alone who hw
    exact course.not_owes hs ho hset (fun is hm => hgone _ is (taken.subset hm)) hw
  · rw [hs.state_of_takes ht, State.loading_after_of_settles? hset hr]
    exact PerResource.get_set_self ..

/-- Nobody asks for a resource behind the back of a caller that may be given its state. -/
theorem asks?_ne_of_ready (hsp : Spares n r t (.takes who j)) (hv : t.visits n = some v)
    (hready : Ready n v t) (hnext : ¬t.IsNext n) (mark : t.store.state.loading.get r = false) :
    j.asks? ≠ some r := by
  intro ha
  rcases hf : t.store.state.refuses j with - | -
  · exact hsp.issues who j rfl hnext (State.sends?_eq_some_iff.mpr ⟨ha, hf, fun _ => mark⟩)
  · exact hsp.refused who j rfl ⟨_, _, hready.receive hv⟩ ⟨ha, hf⟩

/-- The store takes an intent off the queue. -/
theorem take (h : Stage n i r t₁ during v t) (hv : t.visits n = some v)
    (hwanted : v.errand.wanted = fun s => !s.isLoading r) {queued : List (Sender × Intent)}
    (first : t.queued = (who, j) :: queued)
    (hs : Step t (.takes who j) { t with store := t.store.applyNext, queued })
    (hsp : Spares n r t (.takes who j)) (ht : Orderly t) (hask : i.asks? = some r)
    (hrun : Run t₁ during t)
    (hgone : ∀ k is, .plans (.request k) is ∈ during → k ∉ t.store.numbers)
    (hgone' : ∀ k is, .plans (.request k) is ∈ during → k ∉ t.store.applyNext.numbers) :
    Stage n i r t₁ (during ++ [.takes who j]) v
      { t with store := t.store.applyNext, queued } := by
  have hr := Intent.ne_systemStatus_of_asks? hask
  have hopen := ht.isOpen_of_queued first
  have ho : t.store.applyNext.isClosed = false := (Store.isClosed_applyNext _).trans hopen
  have hstate : t.store.applyNext.state = t.store.state.after j := hs.state_of_takes ht
  have happlied : t.store.applyNext.applied = t.store.applied + 1 := by
    rw [Store.applyNext_of_queue (ht.queue_eq first), Store.applied_apply]
  have notNext : v.ticket ≠ t.store.applied + 1 → ¬t.IsNext n := by
    rintro hne ⟨v', hv', hticket⟩
    rw [Option.some.inj (hv.symm.trans hv')] at hne
    exact hne hticket
  have owes : ¬t.IsNext n → ∀ {w}, Owes { t with store := t.store.applyNext, queued } r w →
      t.Owes r w := fun hnext _ hw => hsp.owes_of hs ht ho hr (.inr hnext) hw
  have unmarked : ¬t.IsNext n → t.store.state.loading.get r = false →
      t.store.applyNext.state.loading.get r = false := by
    intro hnext mark
    rw [hstate]
    exact State.loading_after_of_sends?_ne hr mark (hsp.issues who j rfl hnext)
  cases h with
  | ahead isOpen place clear mark =>
    -- the intent is the caller's own, or one that issues nothing about the resource
    rcases place.take first happlied with ⟨ticket, rfl, rfl, done⟩ | ⟨hne, hplace⟩
    · refine of_taken hs ht hopen ho hask clear mark ⟨⟨during, rfl, hrun⟩, v, hv, ticket⟩ done ?_
      exact Nat.le_of_eq (ticket.trans happlied.symm)
    · have hnext := notNext hne
      exact .ahead ho hplace (fun w hw => clear w (owes hnext hw)) (unmarked hnext mark)
  | away isOpen taken issued about course alone mark done applied =>
    have hnext : ¬t.IsNext n := notNext (by omega)
    have applied' : v.ticket ≤ t.store.applyNext.applied := by omega
    have alone' := fun w hw => alone w (owes hnext hw)
    -- what settles the resource comes from the request of the caller
    by_cases hset : j.settles? = some r
    · obtain rfl := alone who (.of_queued first hset)
      exact of_settles hs ht ho hset hr taken issued about course alone' done applied' hgone'
    · refine .away ho (taken.tail _) issued about ?_ alone' ?_ done applied'
      · exact course.step hs ht ho (about ▸ hr) fun is hm => hgone _ is (taken.subset hm)
      · show t.store.applyNext.state.loading.get r = true
        rw [hstate]
        exact State.loading_after_of_settles?_ne hr mark hset
  | back taken verdict clear mark done applied =>
    have hnext : ¬t.IsNext n := notNext (by omega)
    have applied' : v.ticket ≤ t.store.applyNext.applied := by omega
    -- the caller may be given its state, so nobody settles the resource or is refused it
    have hclear := clear hopen
    have hready : Ready n v t := ⟨done, applied, wanted_of_mark ht hr hwanted mark⟩
    have hasks := asks?_ne_of_ready hsp hv hready hnext mark
    have hset : j.settles? ≠ some r := fun hset => hclear who (.of_queued first hset)
    refine .back (taken.tail _) ?_ (fun _ w hw => hclear w (owes hnext hw)) (unmarked hnext mark)
      done applied'
    show Verdict _ i _ ((t.store.applyNext.state.errors.get r).map Failure.message)
    rw [hstate, State.get_errors_after hr hasks hset]
    exact verdict.mono (List.subset_append_left _ _)
  | lost isClosed never =>
    rw [isClosed] at hopen
    cases hopen

/-- The store ends. -/
theorem close (h : Stage n i r t₁ during v t) (ht : Orderly t) (hr : r ≠ .systemStatus)
    (hwanted : v.errand.wanted = fun s => !s.isLoading r) :
    Stage n i r t₁ (during ++ [.other]) v { t with store := t.store.close, queued := [] } := by
  have hc : t.store.close.isClosed = true := Store.isClosed_close _
  have hstate : t.store.close.state = t.store.state := Store.state_close _
  have happlied : t.store.close.applied = t.store.applied :=
    congrArg Front.applied t.store.front_close
  have hpublished : t.store.close.published = t.store.published :=
    congrArg Front.published t.store.front_close
  have ready : Ready n v { t with store := t.store.close, queued := [] } → Ready n v t :=
    fun h => ⟨h.done, happlied ▸ h.applied, hpublished ▸ h.wanted⟩
  cases h with
  | ahead isOpen place clear mark => exact .lost hc fun h => place.not_ready (ready h)
  | away isOpen taken issued about course alone mark done applied =>
    -- the mark stays for good
    refine .lost hc fun h => ?_
    rw [(ready h).mark ht hr hwanted] at mark
    cases mark
  | back taken verdict clear mark done applied =>
    -- the verdict is published already
    refine .back (taken.tail _) ?_ (fun ho => absurd ho (Store.not_isOpen_close _)) ?_ done
      (happlied ▸ applied)
    · show Verdict _ i _ ((t.store.close.state.errors.get r).map Failure.message)
      rw [hstate]
      exact verdict.mono (List.subset_append_left _ _)
    · show t.store.close.state.loading.get r = false
      rw [hstate]
      exact mark
  | lost isClosed never => exact .lost hc fun h => never (ready h)

end Stage

/-! ### The whole wait -/

/-- A fetch: an intent about a resource, and the wait until nothing is awaited about it. -/
def fetching (i : Intent) (r : Resource) : Errand where
  intents := [i]
  wanted s := !s.isLoading r

variable {interval : Nat} {before : List Act}

/-- When a caller asks, it is at the first stage, unless the store has ended. -/
theorem Stage.of_asks (ht : Orderly t) (hask : i.asks? = some r) (hclear : t.Clear r)
    (hs : Step t (.asks n (fetching i r)) u) (hv : u.visits n = some v) :
    v.errand = fetching i r ∧ Stage n i r u [] v u := by
  have hr := Intent.ne_systemStatus_of_asks? hask
  -- who asks plans an intent, and no intent that asks settles anything
  have howes : u.store.isClosed = false → u.Clear r := by
    intro ho who hw
    rcases hs.owes_of ht ho hr hw with hw | ⟨m, -, j, hj, hset⟩ | ⟨w, j, ha, -⟩
    · exact hclear who hw
    · rw [Act.plan] at hj
      split at hj
      · rw [List.mem_singleton.mp hj, Intent.settles?_of_asks? hask] at hset
        cases hset
      · cases hj
    · cases ha
  cases hs with
  | ask _ away done =>
    change Function.update t.visits n _ n = some v at hv
    rw [Function.update_self] at hv
    obtain rfl := Option.some.inj hv
    have hunsent : (t.plan (.caller n) [i]).unsent (.caller n) = [i] := by
      simp [plan, done]
    refine ⟨rfl, ?_⟩
    rcases ho : t.store.isClosed with - | -
    · -- a mark would stand for an answer that is owed
      refine .ahead ho (.unsent hunsent rfl) (howes ho) (Bool.eq_false_iff.mpr fun hl => ?_)
      obtain ⟨who, hw⟩ := ht.marked ho r hr hl
      exact hclear who hw
    · -- nobody puts an intent into the queue of a store that has ended
      refine .lost ho fun hready => ?_
      have hdone : (t.plan (.caller n) [i]).unsent (.caller n) = [] := hready.done
      rw [hunsent] at hdone
      cases hdone

/-- As long as it waits, a caller that is left alone is at one of the stages. -/
theorem Alone.stage (hrun : Run { store := Store.initial interval } before t)
    (hask : i.asks? = some r) (hclear : t.Clear r) (hstart : Step t (.asks n (fetching i r)) t₁)
    (h : Alone n r t₁ during u) :
    ∀ v, u.visits n = some v → v.errand = fetching i r ∧ Stage n i r t₁ during v u := by
  have hr := Intent.ne_systemStatus_of_asks? hask
  -- by induction on what happens meanwhile; the numbers of requests are those of the whole run
  induction h with
  | refl => exact fun v hv => Stage.of_asks hrun.orderly hask hclear hstart hv
  | @tail during a u u' halone hstep hsp ih =>
    intro v' hv'
    obtain ⟨v, hv⟩ := hstep.visits_of hv' hsp.asks
    obtain ⟨herrand, hstage⟩ := ih v hv
    have hwanted : v.errand.wanted = fun s => !s.isLoading r := by
      rw [herrand]
      rfl
    have hu := (hrun.tail hstart).trans halone.run
    have hgone : ∀ k is, .plans (.request k) is ∈ during → k ∉ u.store.numbers :=
      fun k is hm => (hu.retired.2 k is (List.mem_append_right _ hm)).2
    have hgone' : ∀ k is, .plans (.request k) is ∈ during → k ∉ u'.store.numbers :=
      fun k is hm => ((hu.tail hstep).retired.2 k is
        (List.mem_append_left _ (List.mem_append_right _ hm))).2
    cases hstep.view hv hv' with
    | still hst => exact ⟨herrand, hstage.still hst hstep hsp hu.orderly hr hgone⟩
    | put next isOpen =>
      refine ⟨?_, hstage.put hu.orderly next isOpen hstep hsp hr⟩
      split <;> exact herrand
    | take first =>
      exact ⟨herrand, hstage.take hv hwanted first hstep hsp hu.orderly hask halone.run hgone
        hgone'⟩
    | close => exact ⟨herrand, hstage.close hu.orderly hr hwanted⟩

/-- As long as the store goes on, a caller waits for its own intent, or for its own request, or
is given what is published. -/
theorem Stage.awaits (h : Stage n i r t during v u) (hu : Orderly u)
    (ho : u.store.isClosed = false) (hr : r ≠ .systemStatus) (hv : u.visits n = some v)
    (hwanted : v.errand.wanted = fun s => !s.isLoading r) :
    i ∈ u.pending (.caller n) ∨
      (∃ w post, Taken n i t during post w ∧ u.Owes r (.request w.store.sent)) ∨
      Step u (.returns n u.store.published) (u.leave n) := by
  cases h with
  | ahead isOpen place clear mark =>
    left
    cases place with
    | unsent unsent ticket =>
      refine List.mem_append_right _ ?_
      rw [unsent]
      exact List.mem_singleton_self i
    | queued queued done ticket =>
      refine List.mem_append_left _ (mem_sentBy.mpr ?_)
      rw [queued]
      exact List.mem_append_right _ List.mem_cons_self
  | away isOpen taken issued about course alone mark done applied =>
    -- the mark stands for an answer that is owed, and nobody but the request owes one
    obtain ⟨who, hw⟩ := hu.marked ho r hr mark
    exact .inr (.inl ⟨_, _, taken, alone who hw ▸ hw⟩)
  | back taken verdict clear mark done applied =>
    exact .inr (.inr (Ready.receive ⟨done, applied, wanted_of_mark hu hr hwanted mark⟩ hv))
  | lost isClosed never =>
    rw [isClosed] at ho
    cases ho

end Traffic

namespace Cli

open Traffic

variable {interval n : Nat} {before during : List Act} {t t₁ u : Traffic} {i : Intent}
  {r : Resource}

/-- What a fetch makes of the state that it is given. -/
theorem fetch_eq (i : Intent) (r : Resource) :
    fetch i r = .await [i] (fun s => !s.isLoading r) fun s =>
      match (s.errors.get r).map Failure.message with
      | none => .done s
      | some m => .fail ("fetch " ++ r.name ++ ": " ++ m) := by
  show Dialogue.await [i] _ _ = _
  congr 1
  funext s
  show (Dialogue.refuse s r _).bind _ = _
  unfold Dialogue.refuse
  cases s.errors.get r <;> rfl

/-- A fetch reports what its own request came to, whatever it asks for: to fetch something, to
start a run, or to change the devices.  Nobody owes an answer about the resource when it asks, and
nobody else has a request issued about it before the fetch is given a state; other requests and
their answers may come in between at any time.  When it is given a state, the store has taken its
intent, and there is one verdict on that.  If the intent was refused, nothing was sent, and the
fetch fails with the refusal.  If the client replied to the request that the intent issued, the
reply has been applied, and the fetch goes on.  If the client failed, all has been applied that
reports the fault, and the fetch fails with its text.

As long as the store goes on, the fetch waits for nothing else: its intent has still to be
applied, or its request to be settled, or it can be given what is published. -/
theorem fetch_reports (h : Run { store := Store.initial interval } before t)
    (hask : i.asks? = some r) (hclear : t.Clear r)
    (hstart : Step t (.asks n (fetching i r)) t₁) (halone : Alone n r t₁ during u) :
    ∃ next, fetch i r = .await [i] (fun s => !s.isLoading r) next ∧
      (∀ state v, Step u (.returns n state) v →
        ∃ w post m, Taken n i t₁ during post w ∧ (∀ m', Verdict w i post m' ↔ m' = m) ∧
          next state =
            match m with
            | none => .done state
            | some m => .fail ("fetch " ++ r.name ++ ": " ++ m)) ∧
      (u.store.isClosed = false → u.visits n ≠ none →
        i ∈ u.pending (.caller n) ∨
        (∃ w post, Taken n i t₁ during post w ∧ u.Owes r (.request w.store.sent)) ∨
        Step u (.returns n u.store.published) (u.leave n)) := by
  have hr := Intent.ne_systemStatus_of_asks? hask
  have hu := (h.tail hstart).trans halone.run
  have hstage := halone.stage h hask hclear hstart
  refine ⟨_, fetch_eq i r, fun state v hreturns => ?_, fun ho hvisits => ?_⟩
  · -- the caller is given a state, so it is at the last stage
    obtain ⟨visit, hv⟩ : ∃ visit, u.visits n = some visit := by
      cases hreturns with
      | receive here => exact ⟨_, here⟩
    obtain ⟨herrand, hstage⟩ := hstage visit hv
    obtain ⟨hready, rfl⟩ := hreturns.ready hv
    cases hstage with
    | ahead isOpen place clear mark => exact absurd hready place.not_ready
    | away isOpen taken issued about course alone mark done applied =>
      rw [hready.mark hu.orderly hr (by rw [herrand]; rfl)] at mark
      cases mark
    | @back w post taken verdict clear mark done applied =>
      -- another verdict would need another answer to the same request
      refine ⟨w, post, _, taken, fun m => ⟨fun hm => ?_, fun hm => hm ▸ verdict⟩, ?_⟩
      · have hsub : post ⊆ before ++ [.asks n (fetching i r)] ++ during :=
          fun _ hm => List.mem_append_right _ (taken.subset hm)
        exact hm.unique verdict fun is js hi hj => hu.answered_once (hsub hi) (hsub hj)
      · rw [hu.orderly.published.errors_eq]
    | lost isClosed never => exact absurd hready never
  · obtain ⟨visit, hv⟩ := Option.ne_none_iff_exists'.mp hvisits
    obtain ⟨herrand, hstage⟩ := hstage visit hv
    exact hstage.awaits hu.orderly ho hr hv (by rw [herrand]; rfl)

/-- The profiles are fetched by another caller meanwhile, and the backend fails to tell the
devices. -/
theorem fetch_reports_once_failed :
    let fault : Fault := .backend 500 "down"
    let failed : Intent := .failed .devices (.ofFault fault)
    let during : List Act :=
      [.plans (.caller 1) [.fetchProfiles], .puts (.caller 1) .fetchProfiles,
        .puts (.caller 0) .fetchDevices, .takes (.caller 1) .fetchProfiles,
        .takes (.caller 0) .fetchDevices, .plans (.request 1) [failed],
        .puts (.request 1) failed, .takes (.request 1) failed]
    let t : Traffic := { store := Store.initial 5000 }
    ∃ t₁ u state v next, t.Clear .devices ∧
      Step t (.asks 0 (fetching .fetchDevices .devices)) t₁ ∧ Alone 0 .devices t₁ during u ∧
      Step u (.returns 0 state) v ∧
      fetch .fetchDevices .devices = .await [.fetchDevices] (fun s => !s.isLoading .devices) next ∧
      next state = .fail "fetch devices: backend error (500): down" ∧
      ∃ w post m, Taken 0 .fetchDevices t₁ during post w ∧ Verdict w .fetchDevices post (some m) ∧
        "fetch " ++ Resource.devices.name ++ ": " ++ m
          = "fetch devices: backend error (500): down" := by
  intro fault failed during t
  -- nobody owes anything at the beginning
  have hclear : t.Clear .devices := by
    rintro who (⟨k, q, -, ⟨task, hm, -⟩, -⟩ | ⟨j, hj, -⟩)
    · cases hm
    · cases hj
  -- both callers put their intents into the queue, the other one first
  let t₁ : Traffic := { t.plan (.caller 0) [.fetchDevices] with
    visits := Function.update t.visits 0 (some { errand := fetching .fetchDevices .devices }) }
  have hstart : Step t (.asks 0 (fetching .fetchDevices .devices)) t₁ := .ask _ rfl rfl
  have hput := (Alone.refl (n := 0) (r := .devices) (t := t₁)).tail
    (.dispatch (n := 1) .fetchProfiles rfl rfl) (.of_plans fun _ _ => by decide)
    |>.tail (@Step.put _ (.caller 1) .fetchProfiles [] rfl rfl) .of_puts
    |>.tail (@Step.put _ (.caller 0) .fetchDevices [] rfl rfl) .of_puts
  -- the store issues both requests
  have hasked := hput.tail (.take rfl) (.of_takes (.inr (by decide +kernel)) (by decide +kernel))
    |>.tail (.take rfl) (.of_takes (.inl ⟨_, rfl, by decide +kernel⟩) (by decide +kernel))
  -- the second request fails, and the failure is applied
  let task : Task := { number := 1, request := .devices }
  have hanswered := hasked.tail (@Step.answer _ task (by decide +kernel) (.error fault))
    (.of_plans fun _ => nofun)
    |>.tail (@Step.put _ (.request 1) failed [] rfl rfl) .of_puts
    |>.tail (.take rfl) (.of_takes (.inr (by decide +kernel)) (by decide +kernel))
  suffices given : ∀ u, Alone 0 .devices t₁ during u →
      Step u (.returns 0 u.store.published) (u.leave 0) →
      u.store.published.errors.get .devices = some (.ofFault fault) → _ from
    given _ hanswered (.receive rfl rfl (by decide +kernel) (by decide +kernel)) (by decide +kernel)
  intro u halone hreturns herror
  obtain ⟨next, hnext, hreports, -⟩ := fetch_reports .refl rfl hclear hstart halone
  obtain ⟨w, post, m, htaken, hverdict, hm⟩ := hreports _ _ hreturns
  have hfail : next u.store.published = .fail "fetch devices: backend error (500): down" := by
    obtain ⟨-, -, rfl⟩ := Dialogue.await.inj (hnext.symm.trans (fetch_eq ..))
    simp only [herror]
    rfl
  refine ⟨t₁, u, _, _, next, hclear, hstart, halone, hreturns, hnext, hfail, w, post, ?_⟩
  rw [hfail] at hm
  cases m with
  | none => cases hm
  | some m => exact ⟨m, htaken, (hverdict _).mpr rfl, (Dialogue.fail.inj hm).symm⟩

end Cli

end RunControl
