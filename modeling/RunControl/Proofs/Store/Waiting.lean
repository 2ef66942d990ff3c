/-
RunControl/Proofs/Store/Waiting.lean

A step as a caller sees it that waits.  The caller may be given what is published when it has sent
everything, the store has got to its ticket, and it wants that state (`Ready`).  Of the many steps
of the parties only few make a difference to it (`View`): it puts an intent into the queue, the
store takes one off, or the store ends.  In all others somebody else does something, or the caller
stands by (`Still`).
-/
import RunControl.Proofs.Store.Replays

namespace RunControl

namespace Traffic

variable {t u : Traffic} {a : Act} {n : Nat} {v v' : Visit}

/-! ### A caller that waits -/

/-- A caller that waits may be given a state at once. -/
structure Ready (n : Nat) (v : Visit) (t : Traffic) : Prop where
  done : t.unsent (.caller n) = []
  applied : v.ticket ≤ t.store.applied
  wanted : v.errand.wanted t.store.published = true

theorem Step.ready {state : State} (hs : Step t (.returns n state) u) (hv : t.visits n = some v) :
    Ready n v t ∧ state = t.store.published := by
  cases hs with
  | receive here done applied wanted =>
    obtain rfl := Option.some.inj (here.symm.trans hv)
    exact ⟨⟨done, applied, wanted⟩, rfl⟩

theorem Ready.receive (h : Ready n v t) (hv : t.visits n = some v) :
    Step t (.returns n t.store.published) (t.leave n) :=
  .receive hv h.done h.applied h.wanted

/-! ### Steps -/

theorem unsent_plan_of_ne {who w : Sender} (h : who ≠ w) (is : List Intent) :
    (t.plan w is).unsent who = t.unsent who :=
  Function.update_of_ne h _ _

/-- Somebody else does something, or the caller stands by. -/
structure Still (n : Nat) (t : Traffic) (a : Act) (u : Traffic) : Prop where
  unsent : u.unsent (.caller n) = t.unsent (.caller n)
  queued : t.queued <+: u.queued
  state : u.store.state = t.store.state
  front : u.store.front = t.store.front
  taken? : a.taken? = none

/-- A step as a caller sees it that waits before and after. -/
inductive View (n : Nat) (v : Visit) (t : Traffic) : Act → Traffic → Visit → Prop
  | still {a : Act} {u : Traffic} (h : Still n t a u) : View n v t a u v
  /-- The caller puts an intent into the queue. -/
  | put {j : Intent} {rest : List Intent} (next : t.unsent (.caller n) = j :: rest)
      (isOpen : t.store.isClosed = false) :
      View n v t (.puts (.caller n) j) (t.put (.caller n) j rest)
        (if rest = [] then { v with ticket := (t.store.send j).ticket } else v)
  /-- The store takes an intent off the queue. -/
  | take {who : Sender} {j : Intent} {queued : List (Sender × Intent)}
      (first : t.queued = (who, j) :: queued) :
      View n v t (.takes who j) { t with store := t.store.applyNext, queued } v
  /-- The store ends. -/
  | close (isOpen : t.store.isClosed = false) :
      View n v t .other { t with store := t.store.close, queued := [] } v

theorem View.of_still (h : Still n t a u) (hv : t.visits n = some v) (hv' : u.visits n = some v')
    (hvisits : u.visits n = t.visits n) : View n v t a u v' := by
  rw [hvisits, hv] at hv'
  obtain rfl := Option.some.inj hv'
  exact .still h

/-- Another caller does not wait any more. -/
theorem View.of_leave {m : Nat} {unsent : Sender → List Intent} (hv : t.visits n = some v)
    (hv' : ({ t.leave m with unsent } : Traffic).visits n = some v')
    (hunsent : m ≠ n → unsent (.caller n) = t.unsent (.caller n)) (ha : a.taken? = none) :
    View n v t a { t.leave m with unsent } v' := by
  have hmn : m ≠ n := by
    rintro rfl
    change Function.update t.visits m none m = some v' at hv'
    rw [Function.update_self] at hv'
    cases hv'
  exact .of_still ⟨hunsent hmn, List.prefix_refl _, rfl, rfl, ha⟩ hv hv'
    (Function.update_of_ne hmn.symm _ _)

/-- Every step as a caller that waits sees it: it puts an intent into the queue, the store takes
one off or ends, or nothing changes for the caller. -/
theorem Step.view (hs : Step t a u) (hv : t.visits n = some v) (hv' : u.visits n = some v') :
    View n v t a u v' := by
  -- who is away is another caller
  have other : ∀ {m}, t.visits m = none → (.caller n : Sender) ≠ .caller m := by
    rintro m hm ⟨⟩
    rw [hv] at hm
    cases hm
  cases hs with
  | dispatch i away done =>
    refine .of_still ⟨?_, List.prefix_refl _, rfl, rfl, rfl⟩ hv hv' rfl
    exact unsent_plan_of_ne (other away) _
  | @ask m e away done =>
    refine .of_still ⟨?_, List.prefix_refl _, rfl, rfl, rfl⟩ hv hv' ?_
    · exact unsent_plan_of_ne (other away) _
    · exact Function.update_of_ne (fun h => other away (congrArg Sender.caller h)) _ _
  | @put who i rest next isOpen =>
    change (t.visits n).map _ = some v' at hv'
    rw [hv, Option.map_some] at hv'
    by_cases hw : who = .caller n
    · -- it is the caller's own intent
      subst hw
      rw [← Option.some.inj hv']
      simpa only [true_and] using View.put next isOpen
    · -- the intent of somebody else comes to the end of the queue
      rw [if_neg fun h => hw h.1] at hv'
      rw [← Option.some.inj hv']
      refine .still ⟨?_, List.prefix_append _ _, ?_, ?_, rfl⟩
      · exact Function.update_of_ne (Ne.symm hw) _ _
      · exact Store.state_send ..
      · exact Store.front_send ..
  | receive here done applied wanted => exact .of_leave hv hv' (fun _ => rfl) rfl
  | giveUp done => exact .of_leave hv hv' (fun _ => rfl) rfl
  | fail isClosed =>
    refine .of_leave hv hv' (fun hmn => ?_) rfl
    exact Function.update_of_ne (fun h => hmn (Sender.caller.inj h).symm) _ _
  | start mem => exact .of_still ⟨rfl, List.prefix_refl _, rfl, rfl, rfl⟩ hv hv' rfl
  | @answer task mem answer =>
    have hne : (.caller n : Sender) ≠ .request task.number := nofun
    exact .of_still ⟨unsent_plan_of_ne hne _, List.prefix_refl _, rfl, rfl, rfl⟩
      hv hv' rfl
  | @ring alarm mem =>
    have hne : (.caller n : Sender) ≠ .timer alarm.number := nofun
    exact .of_still ⟨unsent_plan_of_ne hne _, List.prefix_refl _, rfl, rfl, rfl⟩
      hv hv' rfl
  | advance ms => exact .of_still ⟨rfl, List.prefix_refl _, rfl, rfl, rfl⟩ hv hv' rfl
  | take first =>
    obtain rfl := Option.some.inj (hv.symm.trans hv')
    exact .take first
  | close isOpen =>
    obtain rfl := Option.some.inj (hv.symm.trans hv')
    exact .close isOpen

/-- What a caller is ready for after such a step, it was ready for before. -/
theorem Ready.of_still (h : Ready n v u) (hst : Still n t a u) : Ready n v t := by
  have hpublished : u.store.published = t.store.published := congrArg Front.published hst.front
  have happlied : u.store.applied = t.store.applied := congrArg Front.applied hst.front
  exact ⟨hst.unsent ▸ h.done, happlied ▸ h.applied, hpublished ▸ h.wanted⟩

/-- A caller that is there after a step was there before, unless it has just come. -/
theorem Step.visits_of (hs : Step t a u) (hu : u.visits n = some v') (ha : ∀ e, a ≠ .asks n e) :
    ∃ v, t.visits n = some v := by
  have left : ∀ {m}, Function.update t.visits m none n = some v' → ∃ v, t.visits n = some v := by
    intro m hm
    by_cases hmn : n = m
    · rw [hmn, Function.update_self] at hm
      cases hm
    · rw [Function.update_of_ne hmn] at hm
      exact ⟨v', hm⟩
  cases hs with
  | @ask m e away done =>
    change Function.update t.visits m _ n = some v' at hu
    by_cases hmn : n = m
    · subst hmn
      exact absurd rfl (ha e)
    · rw [Function.update_of_ne hmn] at hu
      exact ⟨v', hu⟩
  | put next isOpen =>
    obtain ⟨v, hv, -⟩ := Option.map_eq_some_iff.mp hu
    exact ⟨v, hv⟩
  | receive | giveUp | fail => exact left hu
  | dispatch | start | answer | ring | advance | take | close => exact ⟨v', hu⟩

end Traffic

end RunControl
