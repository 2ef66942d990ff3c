/-
RunControl/Proofs/Store/Replays.lean

What is published replays the queue.  Whoever sends to the store, and however their intents
come between each other, the intents that are dequeued are the beginning of those that were
enqueued (`Followed`); each sender keeps to its own order (`Scripted`); and while a caller
waits, all that it has put into the queue since it asked lies before its ticket (`Awaits`).
Every step keeps these three (`Sound.step`).

So what is published is at any time the replay of the intents that were dequeued, and a caller
is never given a state that lacks one of its own intents (`Run.published_replays`).  Nor is it
kept waiting for something to be published: when nothing is left in the queue, it is given
what was published last, if it wants that (`Run.receive`).

The runs in which every party sends at once all that it has to send are among these
(`Run.of_store`).
-/
import RunControl.Proofs.State.Reports
import RunControl.Proofs.Store.Published
import RunControl.Proofs.Store.Traffic

namespace RunControl

namespace Traffic

variable {t u : Traffic} {acts : List Act} {a : Act} {who w : Sender} {i : Intent}
  {is rest : List Intent} {n : Nat} {v : Visit}

/-! ### The store follows the queue -/

/-- The store has applied the intents that were dequeued, and publishes what they have come
to; the others are in the queue, unless the store has ended. -/
structure Followed (acts : List Act) (t : Traffic) : Prop where
  publishes : t.store.Publishes ((dequeued acts).map Prod.snd)
  queue : t.store.queue = t.queued.map Prod.snd
  order : dequeued acts ++ t.queued <+: enqueued acts
  whole : t.store.isClosed = false → dequeued acts ++ t.queued = enqueued acts

namespace Followed

/-- Nothing is put into the queue or taken off it. -/
theorem still (h : Followed acts t) (hstate : u.store.state = t.store.state)
    (hfront : u.store.front = t.store.front) (hqueue : u.store.queue = t.store.queue)
    (hqueued : u.queued = t.queued) (hp : a.put? = none) (ht : a.taken? = none) :
    Followed (acts ++ [a]) u := by
  have henq : enqueued (acts ++ [a]) = enqueued acts := enqueued_concat_of_none hp
  have hdeq : dequeued (acts ++ [a]) = dequeued acts := dequeued_concat_of_none ht
  refine ⟨?_, ?_, ?_, fun ho => ?_⟩
  · rw [hdeq]
    exact h.publishes.of_front hstate hfront
  · rw [hqueue, hqueued, h.queue]
  · rw [hdeq, henq, hqueued]
    exact h.order
  · rw [hdeq, henq, hqueued]
    exact h.whole ((Store.isClosed_eq_of_front hfront).symm.trans ho)

theorem fifo (h : Followed acts t) : dequeued acts <+: enqueued acts :=
  (List.prefix_append _ _).trans h.order

theorem put (h : Followed acts t) (ho : t.store.isClosed = false) :
    Followed (acts ++ [.puts who i]) (t.put who i rest) := by
  have hdeq : dequeued (acts ++ [.puts who i]) = dequeued acts := dequeued_concat_of_none rfl
  have hwhole : dequeued (acts ++ [.puts who i]) ++ (t.put who i rest).queued
      = enqueued (acts ++ [.puts who i]) := by
    rw [hdeq, Traffic.put, ← List.append_assoc, h.whole ho]
    simp [Act.put?]
  refine ⟨?_, ?_, hwhole ▸ List.prefix_refl _, fun _ => hwhole⟩
  · rw [hdeq]
    exact h.publishes.of_front (Store.state_send _ i) (Store.front_send _ i)
  · show (t.store.send i).queue = (t.queued ++ [(who, i)]).map Prod.snd
    simp [Store.send, ho, h.queue]

/-- What is taken moves from the queue to what has been taken; nothing is lost in between. -/
theorem take (h : Followed acts t) {queued : List (Sender × Intent)}
    (hq : t.queued = (who, i) :: queued) :
    Followed (acts ++ [.takes who i]) { t with store := t.store.applyNext, queued } := by
  have hqueue : t.store.queue = i :: queued.map Prod.snd := by rw [h.queue, hq]; rfl
  have hdeq : dequeued (acts ++ [.takes who i]) = dequeued acts ++ [(who, i)] := by
    simp [Act.taken?]
  have henq : enqueued (acts ++ [.takes who i]) = enqueued acts := enqueued_concat_of_none rfl
  have hmoved : dequeued acts ++ [(who, i)] ++ queued = dequeued acts ++ t.queued := by
    simp [hq]
  refine ⟨?_, Store.queue_applyNext hqueue, ?_, fun ho => ?_⟩
  · show t.store.applyNext.Publishes _
    rw [hdeq, List.map_append]
    exact h.publishes.applyNext hqueue
  · rw [hdeq, henq, hmoved]
    exact h.order
  · change t.store.applyNext.isClosed = false at ho
    rw [Store.isClosed_applyNext] at ho
    rw [hdeq, henq, hmoved]
    exact h.whole ho

/-- When the store ends, what is left in the queue is lost: what was taken is only a front part
of what was put in from then on. -/
theorem close (h : Followed acts t) (ho : t.store.isClosed = false) :
    Followed (acts ++ [.other]) { t with store := t.store.close, queued := [] } := by
  have hclose : t.store.close
      = { t.store.releaseTimer.releaseFetch with queue := [], isClosed := true } := by
    simp [Store.close, ho]
  have hdeq : dequeued (acts ++ [.other]) = dequeued acts := dequeued_concat_of_none rfl
  have henq : enqueued (acts ++ [.other]) = enqueued acts := enqueued_concat_of_none rfl
  refine ⟨?_, ?_, ?_, fun hopen => ?_⟩
  · have hreleased : t.store.releaseTimer.releaseFetch.Publishes ((dequeued acts).map Prod.snd) :=
      h.publishes.of_front ((Store.state_releaseFetch _).trans (Store.state_releaseTimer _))
        ((Store.front_releaseFetch _).trans (Store.front_releaseTimer _))
    show t.store.close.Publishes _
    rw [hdeq, hclose]
    exact ⟨hreleased.state, hreleased.published, hreleased.applied⟩
  · show t.store.close.queue = []
    rw [hclose]
  · rw [hdeq, henq, List.append_nil]
    exact (List.prefix_append _ _).trans h.order
  · change t.store.close.isClosed = false at hopen
    rw [hclose] at hopen
    cases hopen

end Followed

/-! ### Each sender keeps to its order -/

/-- What a sender has put into the queue is the beginning of what it has set out to send, and
the rest it has still to send, unless the store has ended. -/
structure Scripted (acts : List Act) (t : Traffic) : Prop where
  sent : ∀ who, sentBy who (enqueued acts) <+: planned who acts
  rest : t.store.isClosed = false →
    ∀ who, sentBy who (enqueued acts) ++ t.unsent who = planned who acts

namespace Scripted

/-- One sender sets out to send intents, or none does. -/
theorem plan (h : Scripted acts t) (hp : a.put? = none)
    (ha : ∀ w, a.plan w = if who = w then is else [])
    (hclosed : u.store.isClosed = t.store.isClosed)
    (hunsent : u.unsent = Function.update t.unsent who (t.unsent who ++ is)) :
    Scripted (acts ++ [a]) u := by
  have henq : enqueued (acts ++ [a]) = enqueued acts := enqueued_concat_of_none hp
  refine ⟨fun w => ?_, fun ho w => ?_⟩
  · rw [henq, planned_concat]
    exact (h.sent w).trans (List.prefix_append _ _)
  · rw [henq, planned_concat, ha, ← h.rest (hclosed.symm.trans ho) w, hunsent]
    by_cases hw : who = w
    · subst hw
      rw [Function.update_self, if_pos rfl, List.append_assoc]
    · rw [Function.update_of_ne (Ne.symm hw), if_neg hw, List.append_nil]

/-- Nobody sets out to send anything. -/
theorem still (h : Scripted acts t) (hp : a.put? = none) (ha : ∀ w, a.plan w = [])
    (hrest : u.store.isClosed = false → t.store.isClosed = false ∧ u.unsent = t.unsent) :
    Scripted (acts ++ [a]) u := by
  have henq : enqueued (acts ++ [a]) = enqueued acts := enqueued_concat_of_none hp
  refine ⟨fun w => ?_, fun ho w => ?_⟩
  · rw [henq, planned_concat, ha, List.append_nil]
    exact h.sent w
  · obtain ⟨ho, hunsent⟩ := hrest ho
    rw [henq, planned_concat, ha, List.append_nil, hunsent]
    exact h.rest ho w

theorem put (h : Scripted acts t) (hnext : t.unsent who = i :: rest)
    (ho : t.store.isClosed = false) : Scripted (acts ++ [.puts who i]) (t.put who i rest) := by
  have henq : enqueued (acts ++ [.puts who i]) = enqueued acts ++ [(who, i)] := by
    simp [Act.put?]
  have hrest : ∀ w, sentBy w (enqueued (acts ++ [.puts who i])) ++ (t.put who i rest).unsent w
      = planned w (acts ++ [.puts who i]) := by
    intro w
    have hw := h.rest ho w
    rw [henq, planned_concat, sentBy_append, ← hw, Traffic.put]
    by_cases hw : w = who
    · subst hw
      simp [sentBy_singleton_self, hnext, Act.plan]
    · simp [sentBy_singleton_of_ne (Ne.symm hw), Function.update_of_ne hw, Act.plan]
  exact ⟨fun w => hrest w ▸ List.prefix_append _ _, fun _ => hrest⟩

end Scripted

/-! ### A caller that waits -/

/-- A caller has asked and has not been answered. Since then it has put some of its intents
into the queue and has yet to send the others; once it has sent all, none of them lies behind
its ticket. -/
def Awaits (acts : List Act) (unsent : List Intent) (n : Nat) (v : Visit) : Prop :=
  ∃ earlier since, acts = earlier ++ .asks n v.errand :: since ∧ (∀ e, .asks n e ∉ since) ∧
    sentBy (.caller n) (enqueued since) ++ unsent = v.errand.intents ∧
    v.ticket ≤ (enqueued acts).length ∧
    (unsent = [] →
      sentBy (.caller n) ((enqueued since).drop (v.ticket - (enqueued earlier).length)) = [])

theorem awaits_ask (acts : List Act) (n : Nat) (e : Errand) :
    Awaits (acts ++ [.asks n e]) e.intents n { errand := e } :=
  ⟨acts, [], rfl, fun _ => List.not_mem_nil, rfl, Nat.zero_le _, fun _ => by simp [enqueued]⟩

namespace Awaits

/-- Somebody else does something. -/
theorem other (h : Awaits acts rest n v) (ha : ∀ e, a ≠ .asks n e)
    (hp : sentBy (.caller n) a.put?.toList = []) : Awaits (acts ++ [a]) rest n v := by
  obtain ⟨earlier, since, rfl, hno, hsent, hle, hbehind⟩ := h
  refine ⟨earlier, since ++ [a], by simp, ?_, ?_, ?_, fun hr => ?_⟩
  · intro e hm
    rcases List.mem_append.mp hm with hm | hm
    · exact hno e hm
    · exact ha e (List.mem_singleton.mp hm).symm
  · rw [enqueued_append, enqueued_singleton, sentBy_append, hp, List.append_nil, hsent]
  · rw [enqueued_append, List.length_append]
    exact Nat.le_add_right_of_le hle
  · rw [enqueued_append, enqueued_singleton, List.drop_append, sentBy_append, hbehind hr]
    exact sentBy_drop_eq_nil (k := 0) hp (Nat.zero_le _)

/-- The caller puts its next intent into the queue; with the last one it gets a ticket. -/
theorem put (h : Awaits acts (i :: rest) n v) {ticket : Nat}
    (ht : ticket = (enqueued acts).length + 1) :
    Awaits (acts ++ [.puts (.caller n) i]) rest n (if rest = [] then { v with ticket } else v) := by
  obtain ⟨earlier, since, rfl, hno, hsent, hle, -⟩ := h
  let since' := since ++ [.puts (.caller n) i]
  have hacts : earlier ++ .asks n v.errand :: since ++ [.puts (.caller n) i]
      = earlier ++ .asks n v.errand :: since' := by
    simp [since']
  have hother : ∀ e, .asks n e ∉ since' := by
    intro e hm
    rcases List.mem_append.mp hm with hm | hm
    · exact hno e hm
    · cases List.mem_singleton.mp hm
  have hsent' : sentBy (.caller n) (enqueued since') ++ rest = v.errand.intents := by
    rw [← hsent, enqueued_append, sentBy_append, List.append_assoc]
    simp [Act.put?, sentBy]
  -- the ticket is the number of all intents that have been put into the queue
  have hticket : ticket = (enqueued earlier).length + (enqueued since').length := by
    rw [ht, enqueued_cut, enqueued_append, List.length_append, List.length_append]
    rfl
  rw [hacts]
  by_cases hr : rest = []
  · rw [if_pos hr]
    refine ⟨earlier, since', rfl, hother, hsent', ?_, fun _ => ?_⟩
    · rw [enqueued_cut, List.length_append]
      exact Nat.le_of_eq hticket
    · show sentBy _ ((enqueued since').drop (ticket - _)) = []
      rw [hticket, Nat.add_sub_cancel_left, List.drop_length, sentBy_nil]
  · rw [if_neg hr]
    refine ⟨earlier, since', rfl, hother, hsent', ?_, fun h => absurd h hr⟩
    rw [enqueued_cut, List.length_append, ← hticket, ht]
    exact Nat.le_succ_of_le hle

/-- When the store has got to the ticket, it has applied all intents of the caller. -/
theorem dequeued_of_ticket_le (h : Awaits acts [] n v) (hf : Followed acts t)
    (hle : v.ticket ≤ t.store.applied) :
    ∃ earlier since, acts = earlier ++ .asks n v.errand :: since ∧ (∀ e, .asks n e ∉ since) ∧
      sentBy (.caller n) ((dequeued acts).drop (enqueued earlier).length) = v.errand.intents := by
  obtain ⟨earlier, since, hacts, hno, hsent, -, hbehind⟩ := h
  refine ⟨earlier, since, hacts, hno, ?_⟩
  have henq : enqueued acts = enqueued earlier ++ enqueued since := by
    rw [hacts, enqueued_cut]
  have hdeq := List.prefix_iff_eq_take.mp hf.fifo
  have happlied : (dequeued acts).length = t.store.applied := by
    rw [hf.publishes.applied, List.length_map]
  rw [hdeq, happlied, henq, List.drop_take, List.drop_left]
  -- of the caller's intents none is left out
  have hlater := Nat.sub_le_sub_right hle (enqueued earlier).length
  have hleft := sentBy_drop_eq_nil (hbehind rfl) hlater
  rw [← List.append_nil (sentBy _ (List.take _ _)), ← hleft, ← sentBy_append,
    List.take_append_drop, ← hsent, List.append_nil]

end Awaits

/-! ### Runs -/

/-- What holds after every step of every run. -/
structure Sound (acts : List Act) (t : Traffic) : Prop where
  followed : Followed acts t
  scripted : Scripted acts t
  awaits : ∀ n v, t.visits n = some v → Awaits acts (t.unsent (.caller n)) n v

theorem sound_initial (interval : Nat) : Sound [] { store := Store.initial interval } where
  followed := ⟨⟨rfl, .inl rfl, rfl⟩, rfl, List.prefix_refl _, fun _ => rfl⟩
  scripted := ⟨fun _ => List.prefix_refl _, fun _ _ => rfl⟩
  awaits _ _ hv := by cases hv

namespace Sound

/-- The store does something that nobody can tell. -/
theorem still (h : Sound acts t) {s : Store} (hstate : s.state = t.store.state)
    (hfront : s.front = t.store.front) (hqueue : s.queue = t.store.queue) :
    Sound (acts ++ [.other]) { t with store := s } where
  followed := h.followed.still hstate hfront hqueue rfl rfl rfl
  scripted := h.scripted.still rfl (fun _ => rfl) fun ho =>
    ⟨(Store.isClosed_eq_of_front hfront).symm.trans ho, rfl⟩
  awaits n v hv := (h.awaits n v hv).other (fun _ => nofun) rfl

/-- A sender sets out to send intents that is not a caller that waits. -/
theorem plan (h : Sound acts t) {s : Store} (hstate : s.state = t.store.state)
    (hfront : s.front = t.store.front) (hqueue : s.queue = t.store.queue)
    (haway : ∀ n, who = .caller n → t.visits n = none) :
    Sound (acts ++ [.plans who is]) ({ t with store := s }.plan who is) where
  followed := h.followed.still hstate hfront hqueue rfl rfl rfl
  scripted := h.scripted.plan rfl (fun _ => rfl) (Store.isClosed_eq_of_front hfront) rfl
  awaits n v hv := by
    change t.visits n = some v at hv
    have hne : (.caller n : Sender) ≠ who := by
      rintro rfl
      rw [haway n rfl] at hv
      cases hv
    show Awaits _ (Function.update t.unsent who _ (.caller n)) n v
    rw [Function.update_of_ne hne]
    exact (h.awaits n v hv).other (fun _ => nofun) rfl

/-- A caller sets out to send intents, and waits from then on. -/
theorem ask (h : Sound acts t) (e : Errand) (done : t.unsent (.caller n) = []) :
    Sound (acts ++ [.asks n e]) { t.plan (.caller n) e.intents with
      visits := Function.update t.visits n (some { errand := e }) } where
  followed := h.followed.still rfl rfl rfl rfl rfl rfl
  scripted := h.scripted.plan rfl (fun _ => rfl) rfl rfl
  awaits m v hv := by
    change Function.update t.visits n (some { errand := e }) m = some v at hv
    show Awaits _ (Function.update t.unsent (.caller n) _ (.caller m)) m v
    by_cases hm : m = n
    · subst hm
      rw [Function.update_self] at hv ⊢
      cases hv
      rw [done]
      exact awaits_ask acts m e
    · rw [Function.update_of_ne hm] at hv
      rw [Function.update_of_ne fun hc => hm (Sender.caller.inj hc)]
      refine (h.awaits m v hv).other ?_ rfl
      rintro _ ⟨⟩
      exact hm rfl

theorem put (h : Sound acts t) (hnext : t.unsent who = i :: rest)
    (ho : t.store.isClosed = false) : Sound (acts ++ [.puts who i]) (t.put who i rest) where
  followed := h.followed.put ho
  scripted := h.scripted.put hnext ho
  awaits n v hv := by
    obtain ⟨v, hv', rfl⟩ := Option.map_eq_some_iff.mp hv
    have hn := h.awaits n v hv'
    by_cases hw : who = .caller n
    · subst hw
      -- the ticket counts what was applied and what is in the queue, so all that was put there
      have hticket : (t.store.send i).ticket = (enqueued acts).length + 1 := by
        rw [← h.followed.whole ho, List.length_append]
        simp [Store.ticket, Store.send, ho, h.followed.publishes.applied, h.followed.queue,
          Nat.add_assoc]
      rw [hnext] at hn
      simp only [true_and, Traffic.put, Function.update_self]
      exact hn.put hticket
    · have hunsent : (t.put who i rest).unsent (.caller n) = t.unsent (.caller n) :=
        Function.update_of_ne (Ne.symm hw) _ _
      rw [if_neg fun hc => hw hc.1, hunsent]
      exact hn.other (fun _ he => by cases he) (sentBy_singleton_of_ne hw i)

/-- A caller does not wait any more; it may also give up what it has still to send, if the store
has ended. -/
theorem leave (h : Sound acts t) {unsent : Sender → List Intent}
    (hunsent : ∀ w, w ≠ .caller n → unsent w = t.unsent w)
    (hrest : t.store.isClosed = false → unsent = t.unsent)
    (hp : a.put? = none) (ht : a.taken? = none) (ha : ∀ w, a.plan w = [])
    (hn : ∀ m e, a ≠ .asks m e) :
    Sound (acts ++ [a]) { t.leave n with unsent } where
  followed := h.followed.still rfl rfl rfl rfl hp ht
  scripted := h.scripted.still hp ha fun ho => ⟨ho, hrest ho⟩
  awaits m v hv := by
    change Function.update t.visits n none m = some v at hv
    by_cases hm : m = n
    · rw [hm, Function.update_self] at hv
      cases hv
    · rw [Function.update_of_ne hm] at hv
      show Awaits _ (unsent (.caller m)) m v
      rw [hunsent _ fun hc => hm (Sender.caller.inj hc)]
      exact (h.awaits m v hv).other (hn m) (by rw [hp]; rfl)

theorem take (h : Sound acts t) {queued : List (Sender × Intent)}
    (hq : t.queued = (who, i) :: queued) :
    Sound (acts ++ [.takes who i]) { t with store := t.store.applyNext, queued } where
  followed := h.followed.take hq
  scripted := h.scripted.still rfl (fun _ => rfl) fun ho =>
    ⟨(Store.isClosed_applyNext _).symm.trans ho, rfl⟩
  awaits n v hv := (h.awaits n v hv).other (fun _ => nofun) rfl

theorem close (h : Sound acts t) (ho : t.store.isClosed = false) :
    Sound (acts ++ [.other]) { t with store := t.store.close, queued := [] } where
  followed := h.followed.close ho
  scripted := h.scripted.still rfl (fun _ => rfl) fun _ => ⟨ho, rfl⟩
  awaits n v hv := (h.awaits n v hv).other (fun _ => nofun) rfl

/-- Every step keeps it so. -/
theorem step (h : Sound acts t) (hs : Step t a u) : Sound (acts ++ [a]) u := by
  cases hs with
  | dispatch i away done =>
    refine h.plan (s := t.store) rfl rfl rfl ?_
    rintro _ ⟨⟩
    exact away
  | ask e away done => exact h.ask e done
  | put next isOpen => exact h.put next isOpen
  | receive here done applied wanted =>
    exact h.leave (fun _ _ => rfl) (fun _ => rfl) rfl rfl (fun _ => rfl) fun _ _ => nofun
  | giveUp done =>
    exact h.leave (fun _ _ => rfl) (fun _ => rfl) rfl rfl (fun _ => rfl) fun _ _ => nofun
  | fail isClosed =>
    refine h.leave (fun w hw => Function.update_of_ne hw _ _) (fun ho => ?_) rfl rfl
      (fun _ => rfl) fun _ _ => nofun
    rw [isClosed] at ho
    cases ho
  | start mem => exact h.still rfl rfl rfl
  | @answer task mem answer => exact h.plan (s := t.store.retire task) rfl rfl rfl fun _ => nofun
  | @ring alarm mem => exact h.plan (s := t.store.ring alarm) rfl rfl rfl fun _ => nofun
  | advance ms => exact h.still rfl rfl rfl
  | take first => exact h.take first
  | close isOpen => exact h.close isOpen

end Sound

variable {interval : Nat}

theorem Run.sound (h : Run { store := Store.initial interval } acts t) : Sound acts t := by
  induction h with
  | refl => exact sound_initial interval
  | tail _ hstep ih => exact ih.step hstep

/-- A run in which every party sends at once what it has to send is such a run, and the intents
that are applied in it are the ones that are dequeued. -/
theorem Run.of_store {admits : Intent → Prop} {s : Store}
    (h : Store.Run admits (Store.initial interval) is s) :
    ∃ acts t, Run { store := Store.initial interval } acts t ∧ Resting t ∧ t.store = s ∧
      (dequeued acts).map Prod.snd = is := by
  induction h with
  | refl => exact ⟨[], _, .refl, ⟨rfl, fun _ => rfl, fun _ => rfl⟩, rfl, rfl⟩
  | tail _ hstep ih =>
    obtain ⟨acts, t, hrun, hrest, rfl, rfl⟩ := ih
    -- what is sent at once dequeues nothing
    have sent : ∀ s, (∃ acts' u, Run t acts' u ∧ Resting u ∧ u.store = s ∧ dequeued acts' = []) →
        ∃ acts' u, Run { store := Store.initial interval } acts' u ∧ Resting u ∧ u.store = s ∧
          (dequeued acts').map Prod.snd = (dequeued acts).map Prod.snd ++ [] := by
      rintro s ⟨acts', u, hr, hu, hs, hd⟩
      exact ⟨acts ++ acts', u, hrun.trans hr, hu, hs, by simp [hd]⟩
    cases hstep with
    | @send i _ => exact sent _ (hrest.send i)
    | start hm =>
      exact sent _ ⟨_, _, Run.refl.tail (.start hm), ⟨hrest.isOpen, hrest.unsent, hrest.visits⟩,
        rfl, rfl⟩
    | finish hm answer => exact sent _ (hrest.finish hm answer)
    | fire hm => exact sent _ (hrest.fire hm)
    | advance ms =>
      exact sent _ ⟨_, _, Run.refl.tail (.advance ms), ⟨hrest.isOpen, hrest.unsent, hrest.visits⟩,
        rfl, rfl⟩
    | @apply i queue hq =>
      have hqueued := hrun.sound.followed.queue
      rw [hq] at hqueued
      obtain ⟨⟨who, j⟩, queued, hcons, rfl, -⟩ := List.map_eq_cons_iff.mp hqueued.symm
      refine ⟨_, _, hrun.tail (.take hcons), ⟨?_, hrest.unsent, hrest.visits⟩, rfl, ?_⟩
      · exact (Store.isClosed_applyNext _).trans hrest.isOpen
      · simp [Act.taken?]

/-- A caller that is given a state had asked for it: it wants the state, and the state is the
replay of what had been dequeued by then, its own intents among them. -/
theorem Run.returned (h : Run { store := Store.initial interval } acts t)
    {before after : List Act} {state : State} (hacts : acts = before ++ .returns n state :: after) :
    ∃ e earlier since, before = earlier ++ .asks n e :: since ∧ (∀ e', .asks n e' ∉ since) ∧
      e.wanted state = true ∧
      state.Alike (State.replay {} ((dequeued before).map Prod.snd)) ∧
      sentBy (.caller n) ((dequeued before).drop (enqueued earlier).length) = e.intents := by
  induction h generalizing after with
  | refl => simp at hacts
  | @tail acts a t u hrun hstep ih =>
    rcases State.concat_eq_append_cons_iff.mp hacts with ⟨rfl, rfl, -⟩ | ⟨rest, -, hacts⟩
    · cases hstep with
      | @receive _ v here done applied wanted =>
        have hv := hrun.sound.awaits n v here
        rw [done] at hv
        obtain ⟨earlier, since, hasked, hno, hown⟩ :=
          hv.dequeued_of_ticket_le hrun.sound.followed applied
        exact ⟨v.errand, earlier, since, hasked, hno, wanted,
          hrun.sound.followed.publishes.alike_replay, hown⟩
    · exact ih hacts

/-- A caller that has sent everything need not wait for anything to be published: when nothing
is left in the queue, it is given what was published last, if it wants that. -/
theorem Run.receive (h : Run { store := Store.initial interval } acts t)
    (ho : t.store.isClosed = false) (hv : t.visits n = some v) (hu : t.unsent (.caller n) = [])
    (hq : t.store.queue = []) (hw : v.errand.wanted t.store.published = true) :
    Step t (.returns n t.store.published) (t.leave n) := by
  obtain ⟨-, -, -, -, -, hle, -⟩ := h.sound.awaits n v hv
  have hf := h.sound.followed
  have hqueued : t.queued = [] := by
    have := hf.queue
    rw [hq] at this
    exact List.map_eq_nil_iff.mp this.symm
  have hall : enqueued acts = dequeued acts := by
    rw [← hf.whole ho, hqueued, List.append_nil]
  refine .receive hv hu ?_ hw
  rwa [hf.publishes.applied, List.length_map, ← hall]

/-- Any number of callers, requests and timers send to the store.  What is published is at any
time the replay of the intents that were dequeued.  Those are, in order, the beginning of the
ones that were enqueued; and of each sender they are the beginning of what it set out to send.
When a caller is given a state, it wants that state; the state is the replay of the intents
that had been dequeued by then; and of the caller's own, those that were dequeued since it asked
are exactly the ones that it asked to be applied. -/
theorem Run.published_replays (h : Run { store := Store.initial interval } acts t) :
    t.store.published.Alike (State.replay {} ((dequeued acts).map Prod.snd)) ∧
    dequeued acts <+: enqueued acts ∧
    (∀ who, sentBy who (dequeued acts) <+: planned who acts) ∧
    ∀ before n state after, acts = before ++ .returns n state :: after →
      ∃ e earlier since, before = earlier ++ .asks n e :: since ∧ (∀ e', .asks n e' ∉ since) ∧
        e.wanted state = true ∧
        state.Alike (State.replay {} ((dequeued before).map Prod.snd)) ∧
        sentBy (.caller n) ((dequeued before).drop (enqueued earlier).length) = e.intents := by
  have hs := h.sound
  refine ⟨hs.followed.publishes.alike_replay, hs.followed.fifo, fun who => ?_,
    fun before n state after hacts => h.returned hacts⟩
  exact (sentBy_mono who hs.followed.fifo).trans (hs.scripted.sent who)

/-- A caller sends an intent that changes nothing, and another caller one that does; the first
is given the state that the other has brought about. -/
theorem published_replays_once_unchanged :
    let e : Errand := { intents := [.setStopRun false], wanted := fun s => s.interface.menuOpen }
    let before : List Act :=
      [.asks 0 e, .plans (.caller 1) [.toggleMenu], .puts (.caller 1) .toggleMenu,
        .puts (.caller 0) (.setStopRun false), .takes (.caller 1) .toggleMenu,
        .takes (.caller 0) (.setStopRun false)]
    ∃ t state, Run { store := Store.initial 5000 } (before ++ [.returns 0 state]) t ∧
      t.store.applied = 2 ∧ t.store.revision = 1 ∧ e.wanted state = true ∧
      state.Alike (State.replay {} [.toggleMenu, .setStopRun false]) ∧
      sentBy (.caller 0) (dequeued before) = e.intents := by
  intro e before
  have hasked := Run.refl (t := { store := Store.initial 5000 }) |>.tail (.ask (n := 0) e rfl rfl)
    |>.tail (.dispatch (n := 1) .toggleMenu rfl rfl)
  have hput := hasked.tail (@Step.put _ (.caller 1) .toggleMenu [] rfl rfl)
    |>.tail (@Step.put _ (.caller 0) (.setStopRun false) [] rfl rfl)
  have hwanted := hput.tail (.take rfl) |>.tail (.take rfl)
  have hrun := hwanted.tail (.receive (n := 0) rfl rfl (by decide) (by decide +kernel))
  obtain ⟨-, -, -, hgiven⟩ := Run.published_replays hrun
  obtain ⟨e', earlier, since, hasks, -, hwants, halike, hown⟩ := hgiven before 0 _ [] rfl
  have hdequeued : (dequeued before).map Prod.snd = [.toggleMenu, .setStopRun false] := rfl
  rw [hdequeued] at halike
  -- the caller asked first of all, and only once
  rcases earlier with - | ⟨a, earlier⟩
  · obtain ⟨⟨-, rfl⟩, -⟩ : (0 = 0 ∧ e = e') ∧ _ = since := by simpa [before] using hasks
    exact ⟨_, _, hrun, by decide +kernel, by decide +kernel, hwants, halike, hown⟩
  · have hm : Act.asks 0 e' ∈ before.tail := by
      rw [hasks]
      simp
    simp [before] at hm

end Traffic

/-- When every party sends at once what it has to send, what is published is the replay of the
intents that are applied. -/
theorem Store.Run.alike_replay {admits : Intent → Prop} {interval : Nat} {is : List Intent}
    {s : Store} (h : Store.Run admits (Store.initial interval) is s) :
    s.published.Alike (State.replay {} is) := by
  obtain ⟨acts, t, hrun, -, rfl, rfl⟩ := Traffic.Run.of_store h
  exact hrun.sound.followed.publishes.alike_replay

end RunControl
