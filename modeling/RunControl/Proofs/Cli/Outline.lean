/-
RunControl/Proofs/Cli/Outline.lean

What is known at each point of a dialogue.  Between two moves of a command everybody else may
move, so an assertion at a point is of use only if no move behind the command can make it false
(`Contract.Firm`).  A dialogue meets its contract (`Dialogue.Meets`) when there is a firm
assertion for each of its points, each follows from the one before and from the move between
them, and each way to end gives what is to hold then.  Besides, it must not wait for something
that does not come: when the store has nothing more to do, what is waited for is there.

A session whose command meets its contract keeps to it in every run (`Session.keeps_contract`).
Outlines of dialogues in sequence are put together by `Dialogue.Meets.bind`.
-/
import RunControl.Proofs.Cli.Moves

namespace RunControl

/-- A store that has nothing to do before the timer goes off. -/
structure Store.AtRest (s : Store) : Prop where
  queue : s.queue = []
  tasks : s.tasks = []

namespace Cli

/-! ### Assertions -/

/-- What there is of a session besides its command. -/
structure Scene where
  happened : List Happening
  store : Store
  /-- The lines on standard output, the newest first. -/
  printed : List String

namespace Scene

/-- The scene after a move behind the command. -/
def moved (x : Scene) (hs : List Happening) (store : Store) : Scene :=
  { x with happened := x.happened ++ hs, store }

/-- The scene after the command has sent intents. -/
def sendAll (x : Scene) (is : List Intent) : Scene :=
  { x with store := x.store.sendAll is }

/-- The scene after the command has printed a line. -/
def print (x : Scene) (line : String) : Scene :=
  { x with printed := line :: x.printed }

end Scene

/-- What a command is to keep to. -/
structure Contract where
  client : Client
  /-- What holds at any time. -/
  always : Scene → Prop
  /-- What holds from the end on. -/
  ends : Ending → Scene → Prop

/-- An assertion that no move behind the command makes false. -/
def Firm (c : Client) (P : Scene → Prop) : Prop :=
  ∀ x hs store, P x → Move c x.store hs store → P (x.moved hs store)

/-- An assertion at a point of a dialogue. -/
structure Contract.Firm (k : Contract) (P : Scene → Prop) : Prop where
  always : ∀ x, P x → k.always x
  firm : Cli.Firm k.client P

theorem Contract.Firm.exists {k : Contract} {ι : Sort*} {P : ι → Scene → Prop}
    (h : ∀ i, k.Firm (P i)) : k.Firm fun x => ∃ i, P i x :=
  ⟨fun x ⟨i, hx⟩ => (h i).always x hx,
    fun x hs store ⟨i, hx⟩ hm => ⟨i, (h i).firm x hs store hx hm⟩⟩

theorem Contract.Firm.ite {k : Contract} {p : Prop} [Decidable p] {P Q : Scene → Prop}
    (hP : k.Firm P) (hQ : k.Firm Q) : k.Firm fun x => if p then P x else Q x := by
  split <;> assumption

/-! ### Outlines -/

namespace Dialogue

variable {α β : Type}

/-- From a point at which `pre` is known a dialogue can be outlined: it ends with a result for
which `post` is known, or in a way that the contract allows. -/
def Meets (k : Contract) (post : α → Scene → Prop) : Dialogue α → (pre : Scene → Prop) → Prop
  | .done a, pre => ∀ x, pre x → post a x
  | .fail message, pre => ∀ x, pre x → k.ends (.failed message) x
  | .print line next, pre =>
    ∃ mid, k.Firm mid ∧
      (∀ x, pre x → mid (x.print line) ∧ ∀ reason, k.ends (.refused reason) x) ∧
      Meets k post next mid
  | .warn _ next, pre => Meets k post next pre
  | .send intent next, pre =>
    ∃ mid, k.Firm mid ∧ (∀ x, pre x → mid (x.sendAll [intent])) ∧ Meets k post next mid
  | .await intents wanted next, pre =>
    ∃ (waiting : Nat → Scene → Prop) (mid : State → Scene → Prop),
      (∀ ticket, k.Firm (waiting ticket)) ∧ (∀ s, k.Firm (mid s)) ∧
      (∀ x, pre x →
        waiting (if intents.isEmpty then 0 else (x.store.sendAll intents).ticket)
          (x.sendAll intents)) ∧
      (∀ ticket x, waiting ticket x → ticket ≤ x.store.applied →
        wanted x.store.published = true → mid x.store.published x) ∧
      (∀ ticket x, waiting ticket x → x.store.AtRest →
        ticket ≤ x.store.applied ∧ wanted x.store.published = true) ∧
      ∀ s, Meets k post (next s) (mid s)
  | .look next, pre =>
    ∃ mid : State → Scene → Prop, (∀ s, k.Firm (mid s)) ∧
      (∀ x, pre x → mid x.store.published x) ∧ ∀ s, Meets k post (next s) (mid s)

variable {k : Contract} {post : α → Scene → Prop} {post' : β → Scene → Prop}
  {pre pre' : Scene → Prop}

/-- More may be known at the start. -/
theorem Meets.mono {d : Dialogue α} (h : d.Meets k post pre) (hpre : ∀ x, pre' x → pre x) :
    d.Meets k post pre' := by
  induction d generalizing pre pre' with
  | done a => exact fun x hx => h x (hpre x hx)
  | fail message => exact fun x hx => h x (hpre x hx)
  | print line next ih =>
    obtain ⟨mid, hfirm, hmid, hnext⟩ := h
    exact ⟨mid, hfirm, fun x hx => hmid x (hpre x hx), hnext⟩
  | warn line next ih => exact ih h hpre
  | send intent next ih =>
    obtain ⟨mid, hfirm, hmid, hnext⟩ := h
    exact ⟨mid, hfirm, fun x hx => hmid x (hpre x hx), hnext⟩
  | await intents wanted next ih =>
    obtain ⟨waiting, mid, hfirm, hfirm', hwait, hmid, hrest, hnext⟩ := h
    exact ⟨waiting, mid, hfirm, hfirm', fun x hx => hwait x (hpre x hx), hmid, hrest, hnext⟩
  | look next ih =>
    obtain ⟨mid, hfirm, hmid, hnext⟩ := h
    exact ⟨mid, hfirm, fun x hx => hmid x (hpre x hx), hnext⟩

/-- What is known at the start may depend on something that is not known. -/
theorem Meets.exists {ι : Sort*} {pre : ι → Scene → Prop} {d : Dialogue α}
    (h : ∀ i, d.Meets k post (pre i)) : d.Meets k post fun x => ∃ i, pre i x := by
  induction d generalizing pre with
  | done a | fail message => exact fun x ⟨i, hx⟩ => h i x hx
  | print line next ih =>
    choose mid hfirm hmid hnext using h
    exact ⟨fun x => ∃ i, mid i x, .exists hfirm,
      fun x ⟨i, hx⟩ => ⟨⟨i, (hmid i x hx).1⟩, (hmid i x hx).2⟩, ih hnext⟩
  | warn line next ih => exact ih h
  | send intent next ih =>
    choose mid hfirm hmid hnext using h
    exact ⟨fun x => ∃ i, mid i x, .exists hfirm, fun x ⟨i, hx⟩ => ⟨i, hmid i x hx⟩, ih hnext⟩
  | await intents wanted next ih =>
    choose waiting mid hfirm hfirm' hwait hmid hrest hnext using h
    exact ⟨fun ticket x => ∃ i, waiting i ticket x, fun s x => ∃ i, mid i s x,
      fun ticket => .exists fun i => hfirm i ticket, fun s => .exists fun i => hfirm' i s,
      fun x ⟨i, hx⟩ => ⟨i, hwait i x hx⟩,
      fun ticket x ⟨i, hx⟩ ht hw => ⟨i, hmid i ticket x hx ht hw⟩,
      fun ticket x ⟨i, hx⟩ hr => hrest i ticket x hx hr, fun s => ih s fun i => hnext i s⟩
  | look next ih =>
    choose mid hfirm hmid hnext using h
    exact ⟨fun s x => ∃ i, mid i s x, fun s => .exists fun i => hfirm i s,
      fun x ⟨i, hx⟩ => ⟨i, hmid i x hx⟩, fun s => ih s fun i => hnext i s⟩

/-- The outline of a sequence: the second part starts with what the first has come to. -/
theorem Meets.bind {d : Dialogue α} {f : α → Dialogue β} (h : d.Meets k post pre)
    (hf : ∀ a, (f a).Meets k post' (post a)) : (d.bind f).Meets k post' pre := by
  induction d generalizing pre with
  | done a => exact (hf a).mono h
  | fail message => exact h
  | print line next ih =>
    obtain ⟨mid, hfirm, hmid, hnext⟩ := h
    exact ⟨mid, hfirm, hmid, ih hnext⟩
  | warn line next ih => exact ih h
  | send intent next ih =>
    obtain ⟨mid, hfirm, hmid, hnext⟩ := h
    exact ⟨mid, hfirm, hmid, ih hnext⟩
  | await intents wanted next ih =>
    obtain ⟨waiting, mid, hfirm, hfirm', hwait, hmid, hrest, hnext⟩ := h
    exact ⟨waiting, mid, hfirm, hfirm', hwait, hmid, hrest, fun s => ih s (hnext s)⟩
  | look next ih =>
    obtain ⟨mid, hfirm, hmid, hnext⟩ := h
    exact ⟨mid, hfirm, hmid, fun s => ih s (hnext s)⟩

end Dialogue

/-! ### Sessions -/

namespace Session

/-- What there is of a session besides its command, after some things have happened. -/
def scene (s : Session) (hs : List Happening) : Scene where
  happened := hs
  store := s.store
  printed := s.printed

variable {k : Contract} {pre : Scene → Prop} {s t : Session} {hs hs' : List Happening}

/-- A session that has kept to the contract so far, and can go on so. -/
inductive OnCourse (k : Contract) (s : Session) (x : Scene) : Prop
  | talking {d : Dialogue Unit} {pre : Scene → Prop} (ha : s.activity = .talking d)
    (hfirm : k.Firm pre) (hpre : pre x) (hd : d.Meets k (fun _ => k.ends .completed) pre)
  | awaiting {ticket : Nat} {wanted : State → Bool} {next : State → Dialogue Unit}
    {waiting : Nat → Scene → Prop} {mid : State → Scene → Prop}
    (ha : s.activity = .awaiting ticket wanted next) (hfirm : k.Firm (waiting ticket))
    (hmid : ∀ s, k.Firm (mid s)) (hwait : waiting ticket x)
    (hwanted : ∀ x, waiting ticket x → ticket ≤ x.store.applied →
      wanted x.store.published = true → mid x.store.published x)
    (hrest : ∀ x, waiting ticket x → x.store.AtRest →
      ticket ≤ x.store.applied ∧ wanted x.store.published = true)
    (hnext : ∀ s, (next s).Meets k (fun _ => k.ends .completed) (mid s))
  | ended {e : Ending} (ha : s.activity = .over e) (hend : k.ends e x)

theorem OnCourse.holds (hends : ∀ e, k.Firm (k.ends e)) {x : Scene} (h : OnCourse k s x) :
    k.always x := by
  cases h with
  | talking _ hfirm hpre _ => exact hfirm.always _ hpre
  | awaiting _ hfirm _ hwait _ _ _ => exact hfirm.always _ hwait
  | ended _ hend => exact (hends _).always _ hend

/-- The command talks: the next point of its outline is reached. -/
theorem OnCourse.talk {d : Dialogue Unit} (hfirm : k.Firm pre) (hpre : pre (s.scene hs))
    (hd : d.Meets k (fun _ => k.ends .completed) pre) :
    OnCourse k (s.talk d) ((s.talk d).scene hs) := by
  cases d with
  | done a => exact .ended rfl (hd _ hpre)
  | fail message => exact .ended rfl (hd _ hpre)
  | print line next =>
    obtain ⟨mid, hmid, hprint, hnext⟩ := hd
    obtain ⟨hp, hrefused⟩ := hprint _ hpre
    show OnCourse k (s.put line (.talking next)) ((s.put line (.talking next)).scene hs)
    unfold put
    split
    · exact .talking rfl hmid hp hnext
    · exact .ended rfl (hrefused _)
  | warn line next => exact .talking rfl hfirm hpre hd
  | send intent next =>
    obtain ⟨mid, hmid, hsend, hnext⟩ := hd
    exact .talking rfl hmid (hsend _ hpre) hnext
  | await intents wanted next =>
    obtain ⟨waiting, mid, hwait, hmid, hsend, hwanted, hrest, hnext⟩ := hd
    exact .awaiting rfl (hwait _) hmid (hsend _ hpre) (hwanted _) (hrest _) hnext
  | look next =>
    obtain ⟨mid, hmid, hlook, hnext⟩ := hd
    exact .talking rfl (hmid _) (hlook _ hpre) (hnext _)

theorem OnCourse.proceed (h : OnCourse k s (s.scene hs)) (hp : s.proceed? = some t) :
    OnCourse k t (t.scene hs) := by
  unfold proceed? at hp
  cases h with
  | talking ha hfirm hpre hd =>
    rw [ha] at hp
    cases hp
    exact OnCourse.talk hfirm hpre hd
  | awaiting ha hfirm hmid hwait hwanted hrest hnext =>
    rw [ha] at hp
    simp only [Option.ite_none_right_eq_some, Bool.and_eq_true, decide_eq_true_eq] at hp
    obtain ⟨⟨hticket, hw⟩, ⟨⟩⟩ := hp
    exact .talking rfl (hmid _) (hwanted _ hwait hticket hw) (hnext _)
  | ended ha hend =>
    rw [ha] at hp
    cases hp

theorem OnCourse.move (hends : ∀ e, k.Firm (k.ends e)) {store : Store}
    (h : OnCourse k s (s.scene hs)) (hm : Move k.client s.store hs' store) :
    OnCourse k (s.moved hs' store) ((s.moved hs' store).scene (hs ++ hs')) := by
  cases h with
  | talking ha hfirm hpre hd => exact .talking ha hfirm (hfirm.firm _ _ _ hpre hm) hd
  | awaiting ha hfirm hmid hwait hwanted hrest hnext =>
    exact .awaiting ha hfirm hmid (hfirm.firm _ _ _ hwait hm) hwanted hrest hnext
  | ended ha hend => exact .ended ha ((hends _).firm _ _ _ hend hm)

theorem OnCourse.step (hends : ∀ e, k.Firm (k.ends e)) (hc : s.client = k.client)
    (h : OnCourse k s (s.scene hs)) (hstep : Step s hs' t) :
    OnCourse k t (t.scene (hs ++ hs')) := by
  cases hstep with
  | proceed hp =>
    rw [List.append_nil]
    exact h.proceed hp
  | move hm => exact h.move hends (hc ▸ hm)
  | interrupt =>
    -- only a watch takes notice
    have hi : s.interrupt = s := by
      unfold Session.interrupt
      cases h with
      | talking ha _ _ _ | awaiting ha _ _ _ _ _ _ | ended ha _ => rw [ha]
    rwa [List.append_nil, hi]

theorem OnCourse.run (hends : ∀ e, k.Firm (k.ends e)) (hc : s.client = k.client)
    (h : OnCourse k s (s.scene [])) (hrun : Run s hs t) : OnCourse k t (t.scene hs) := by
  induction hrun with
  | refl => exact h
  | tail hrun hstep ih => exact ih.step hends (hrun.fixed.client.trans hc) hstep

theorem OnCourse.ends {e : Ending} {x : Scene} (h : OnCourse k s x) (he : s.activity = .over e) :
    k.ends e x := by
  cases h with
  | ended ha hend =>
    rw [ha] at he
    cases he
    exact hend
  | talking ha _ _ _ | awaiting ha _ _ _ _ _ _ =>
    rw [ha] at he
    cases he

/-- A session keeps to the contract of its command: `always` holds after everything that may
happen, and when the command has ended, what the contract says of that ending. -/
theorem keeps_contract {d : Dialogue Unit} (hends : ∀ e, k.Firm (k.ends e))
    (hc : s.client = k.client) (ha : s.activity = .talking d) (hfirm : k.Firm pre)
    (hpre : pre (s.scene [])) (hd : d.Meets k (fun _ => k.ends .completed) pre)
    (h : Run s hs t) :
    k.always (t.scene hs) ∧ ∀ e, t.activity = .over e → k.ends e (t.scene hs) := by
  have hcourse : OnCourse k t (t.scene hs) :=
    OnCourse.run hends hc (.talking ha hfirm hpre hd) h
  exact ⟨hcourse.holds hends, fun e he => hcourse.ends he⟩

end Session

end Cli

end RunControl
