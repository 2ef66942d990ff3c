/-
RunControl/Proofs/Cli/StatusFetch.lean

How a command fetches the status.  It asks polling for it, waits until the first fetch of the
first cycle has been answered, and stops polling again unless it has come to its end by itself.

From the wish on, a status is on its way (`StatusToCome`): the wish is still in the queue, or the
one cycle has been opened, and then its first fetch runs, has failed, or has brought a status
that is real (`Heard`).  When polling has been stopped, or is about to be, no cycle stays open
(`Calm`), so that no status is taken over any more.
-/
import RunControl.Proofs.Cli.Fetch

namespace RunControl

/-! ### Polling while nothing is asked of it -/

namespace Poll

variable {p : Poll} {i : Intent}

theorem after_of_isIdle (h : i.IsReport) (hp : p.isIdle = true) : p.after i = p := by
  obtain ⟨phase, opened⟩ := p
  cases phase with
  | idle => cases h <;> rfl
  | _ => cases hp

theorem opened_after (h : i.IsReport) : (p.after i).opened = p.opened := by
  cases h with
  | statusFetched c status | statusFailed c failure =>
    simp only [after, complete]
    split
    · rfl
    · split <;> rfl
  | timerFired c =>
    simp only [after, tick]
    split <;> rfl
  | setMissing m => rfl

/-- Reports do not open a cycle. -/
theorem isPolling_after (h : i.IsReport) (hp : p.isPolling = false) :
    (p.after i).isPolling = false := by
  obtain ⟨phase, opened⟩ := p
  cases phase with
  | idle => rwa [after_of_isIdle h rfl]
  | polling c fetching => cases hp
  | stopping c =>
    cases h with
    | statusFetched d status | statusFailed d failure =>
      simp only [after, complete]
      split
      · contradiction
      · split <;> rfl
    | timerFired d | setMissing m => rfl

theorem isPolling_of_isIdle (hp : p.isIdle = true) : p.isPolling = false := by
  obtain ⟨phase, opened⟩ := p
  cases phase with
  | idle => rfl
  | _ => cases hp

theorem isPolling_stop (p : Poll) : p.stop.isPolling = false := by
  obtain ⟨phase, opened⟩ := p
  rcases phase with - | ⟨c, - | -⟩ | c <;> rfl

theorem exists_phase_of_isFetching (hp : p.isFetching = true) :
    ∃ c, p.phase = .polling c true := by
  unfold isFetching at hp
  split at hp
  · next c fetching h => exact ⟨c, hp ▸ h⟩
  · cases hp

/-- A fetch goes on running until its answer comes. -/
theorem isFetching_complete {c : Cycle} (hp : p.isFetching = true) (ha : p.accepts c = false)
    (done : Bool) : (p.complete c done).isFetching = true := by
  obtain ⟨d, hd⟩ := exists_phase_of_isFetching hp
  have hne : d ≠ c := by
    rintro rfl
    rw [accepts_iff.mpr hd] at ha
    cases ha
  simp [complete, isFetching, hd, hne]

theorem isFetching_tick (hp : p.isFetching = true) (c : Cycle) : (p.tick c).isFetching = true := by
  obtain ⟨d, hd⟩ := exists_phase_of_isFetching hp
  simp [tick, isFetching, hd]

end Poll

/-- A store at rest does not fetch the status. -/
theorem Store.Served.isFetching_eq_false {s : Store} (h : s.Served) (hr : s.AtRest) :
    s.state.poll.isFetching = false := by
  have hp := h.phase
  have hqueue : s.pollSide.queue = [] := hr.queue
  have hfetches : s.pollSide.fetches = [] := by
    show s.tasks.filterMap _ = []
    rw [hr.tasks]
    rfl
  unfold Poll.isFetching
  generalize s.state.poll.phase = phase at hp
  cases hp with
  | fetching answer =>
    rcases answer with ⟨number, h⟩ | ⟨i, h, -⟩
    · rw [hfetches] at h
      cases h
    · rw [hqueue] at h
      cases h
  | idle | waiting | stopping => rfl

namespace Cli

/-! ### What may be in the queue -/

/-- A report, or a certain wish. -/
def OrWish (wish i : Intent) : Prop :=
  i.IsReport ∨ i = wish

theorem company_reports : Company Intent.IsReport :=
  ⟨fun _ h => h, fun _ h => .report h⟩

theorem company_orWish {wish : Intent} (h : wish.IsAside) : Company (OrWish wish) where
  report _ hi := .inl hi
  aside i hi := by
    rcases hi with hi | rfl
    · exact .report hi
    · exact h

/-! ### A status on its way -/

/-- The fetch of the status has failed. -/
def StatusFailed (hs : List Happening) : Prop :=
  ∃ c failure, .applied (.statusFailed c failure) ∈ hs

/-- The status is being fetched, or the fetch has failed, or a status was reported. -/
inductive Heard (hs : List Happening) (s : State) : Prop
  | fetching (h : s.poll.isFetching = true)
  | failed (h : StatusFailed hs) (he : s.errors.get .systemStatus ≠ none)
  | reported (h : Reported hs s.status)

/-- The status has been asked for, and nobody has heard of it yet; or there has been an attempt
to fetch it. -/
inductive StatusToCome (hs : List Happening) (s : State) (is : List Intent) : Prop
  | asked (before after : List Intent) (poll : s.poll = {})
    (queue : is = before ++ .fetchStatus :: after) (hbefore : ∀ i ∈ before, i.IsReport)
    (hafter : ∀ i ∈ after, i.IsReport)
  | begun (queue : ∀ i ∈ is, i.IsReport) (opened : s.poll.opened = 1) (heard : Heard hs s)

/-- No cycle is open, or polling is about to be stopped. -/
def Calm (s : State) (is : List Intent) : Prop :=
  s.poll.isPolling = false ∨ .stopPolling ∈ is

variable {hs : List Happening} {s : State} {i : Intent} {is : List Intent}

theorem Heard.mono (h : Heard hs s) (hs' : List Happening) : Heard (hs ++ hs') s := by
  cases h with
  | fetching h => exact .fetching h
  | failed h he =>
    obtain ⟨c, failure, hm⟩ := h
    exact .failed ⟨c, failure, List.mem_append_left _ hm⟩ he
  | reported h => exact .reported (h.append_right hs')

/-- A report leaves the status alone, or brings one, or says that it could not be fetched. -/
theorem Heard.after (h : Heard hs s) (hi : i.IsReport) (hb : Backed hs i) :
    Heard (hs ++ [.applied i]) (s.after i) := by
  have keep : ∀ t : State, (s.poll.isFetching = true → t.poll.isFetching = true) →
      t.errors = s.errors → t.status = s.status → Heard (hs ++ [.applied i]) t := by
    intro t hp he hs
    cases h.mono [.applied i] with
    | fetching h => exact .fetching (hp h)
    | failed h he' => exact .failed h (by rwa [he])
    | reported h => exact .reported (by rwa [hs])
  cases hi with
  | statusFetched c status =>
    rcases ha : s.poll.accepts c with - | -
    · simp only [State.after, ha]
      exact keep _ (fun hp => Poll.isFetching_complete hp ha true) rfl rfl
    · simp only [State.after, ha, if_true]
      exact .reported ((hb status rfl).append_right _)
  | statusFailed c failure =>
    rcases ha : s.poll.accepts c with - | -
    · simp only [State.after, ha]
      exact keep _ (fun hp => Poll.isFetching_complete hp ha true) rfl rfl
    · refine .failed ⟨c, failure, List.mem_append_right _ (List.mem_singleton_self _)⟩ ?_
      simp [State.after, ha, State.acceptFailure, State.withError, State.onPoll]
  | timerFired c => exact keep _ (fun hp => Poll.isFetching_tick hp c) rfl rfl
  | setMissing m => exact keep _ id rfl rfl

/-- The status comes after the wish for it: until that is applied, nothing is polled; then the
cycle is open, and every report that ends the wait is one of the backend's or tells of a failure. -/
theorem lasting_statusToCome : Lasting (OrWish .fetchStatus) StatusToCome where
  next {hs s i is} h _ hb := by
    cases h with
    | asked before after poll queue hbefore hafter =>
      rcases before with - | ⟨j, before⟩
      · -- the first cycle is opened
        obtain ⟨rfl, rfl⟩ := List.cons.inj queue
        have hp : (s.after .fetchStatus).poll = Poll.openCycle {} := by
          rw [State.poll_after, poll]
          rfl
        exact .begun hafter (by rw [hp]; rfl) (.fetching (by rw [hp]; rfl))
      · -- a report before the wish finds nothing polled
        obtain ⟨rfl, rfl⟩ := List.cons.inj queue
        rw [List.forall_mem_cons] at hbefore
        refine .asked before after ?_ rfl hbefore.2 hafter
        rw [State.poll_after, Poll.after_of_isIdle hbefore.1 (by rw [poll]; rfl), poll]
    | begun queue opened heard =>
      rw [List.forall_mem_cons] at queue
      refine .begun queue.2 ?_ (heard.after queue.1 hb)
      rw [State.poll_after, Poll.opened_after queue.1, opened]
  more {hs s is js} h hj := by
    cases h with
    | asked before after poll queue hbefore hafter =>
      refine .asked before (after ++ js) poll ?_ hbefore (List.forall_mem_append.mpr ⟨hafter, hj⟩)
      simp [queue]
    | begun queue opened heard =>
      exact .begun (List.forall_mem_append.mpr ⟨queue, hj⟩) opened heard
  mono {hs s is} h hs' := by
    cases h with
    | asked before after poll queue hbefore hafter =>
      exact .asked before after poll queue hbefore hafter
    | begun queue opened heard => exact .begun queue opened (heard.mono hs')

/-- Before the first cycle there is nothing to report. -/
theorem lasting_unpolled : Lasting Intent.IsReport fun _ s _ => s.poll = {} :=
  .of_state fun s i hi h => by
    rw [State.poll_after, h]
    exact Poll.after_of_isIdle hi rfl

/-- Polling that has stopped, or is about to, does not begin again. -/
theorem lasting_calm : Lasting (OrWish .stopPolling) fun _ s is => Calm s is where
  next {hs s i is} h hi _ := by
    rcases hi with hi | rfl
    · refine h.imp (fun hp => ?_) fun hm => ?_
      · rw [State.poll_after]
        exact Poll.isPolling_after hi hp
      · refine (List.mem_cons.mp hm).resolve_left ?_
        rintro rfl
        cases hi
    · left
      rw [State.poll_after]
      exact Poll.isPolling_stop _
  more h _ := h.imp_right (List.mem_append_left _)
  mono h _ := h

/-- When the status has been fetched, the wish is gone, and either the attempt has failed or a
status was reported. -/
theorem StatusToCome.heard (h : StatusToCome hs s is) (hw : hasStatus s = true) :
    (∀ i ∈ is, i.IsReport) ∧
      ((StatusFailed hs ∧ s.errors.get .systemStatus ≠ none) ∨ Reported hs s.status) := by
  simp only [hasStatus, Bool.and_eq_true, bne_iff_ne, Bool.not_eq_true'] at hw
  cases h with
  | asked before after poll queue hbefore hafter =>
    rw [poll] at hw
    exact absurd rfl hw.1
  | begun queue opened heard =>
    refine ⟨queue, ?_⟩
    cases heard with
    | fetching h =>
      rw [hw.2] at h
      cases h
    | failed h he => exact .inl ⟨h, he⟩
    | reported h => exact .inr h

/-- At rest, what was awaited is there. -/
theorem StatusToCome.hasStatus_at_rest {x : Scene} (hx : Sound x)
    (h : StatusToCome x.happened x.store.state x.store.queue) (hr : x.store.AtRest) :
    hasStatus x.store.state = true := by
  obtain ⟨interval, hrun⟩ := hx.run
  have hf := hrun.served.isFetching_eq_false hr
  cases h with
  | asked before after poll queue hbefore hafter =>
    rw [hr.queue] at queue
    simp at queue
  | begun queue opened heard =>
    simp [hasStatus, opened, hf]

/-! ### The rule -/

variable {m : Mandate} {c : Client} {ends : Ending → Scene → Prop} {past : List Happening}
  {lines : List String} {p : State → Prop} {beside : Intent → Prop}

/-- The status that `t` shows was reported, and so was the one that there is now. -/
def Told (t : State) : Fact :=
  fun hs s _ => Reported hs t.status ∧ Reported hs s.status

/-- What is known when `t` has been seen, in which the status has been fetched or the attempt has
failed. -/
def Fetched (p : State → Prop) (t : State) : Fact :=
  fun hs s is => (p s ∧ (t.poll.isIdle = true → s.poll.isPolling = false)) ∧
    (t.errors.get .systemStatus = none → Told t hs s is)

/-- What is known when, besides, polling has been stopped or is about to be. -/
def Calmed (p : State → Prop) (t : State) : Fact :=
  fun hs s is => (p s ∧ Calm s is) ∧ (t.errors.get .systemStatus = none → Told t hs s is)

theorem lasting_told (t : State) : Lasting beside (Told t) :=
  .and (.of_happened fun _ hs' h => h.append_right hs') .reported

theorem lasting_fetched (hp : ∀ s i, i.IsAside → p s → p (s.after i)) (t : State) :
    Lasting Intent.IsReport (Fetched p t) := by
  have hidle : Lasting Intent.IsReport fun _ s _ => s.poll.isPolling = false :=
    .of_state fun s i hi h => by
      rw [State.poll_after]
      exact Poll.isPolling_after hi h
  exact ((Lasting.of_state fun s i hi => hp s i (.report hi)).and hidle.imp).and
    (lasting_told t).imp

theorem lasting_calmed (hp : ∀ s i, i.IsAside → p s → p (s.after i)) (t : State) :
    Lasting (OrWish .stopPolling) (Calmed p t) :=
  have hside : ∀ i, OrWish .stopPolling i → i.IsAside := (company_orWish .stopPolling).aside
  ((Lasting.of_state fun s i hi => hp s i (hside i hi)).and lasting_calm).and (lasting_told t).imp

namespace Dialogue

/-- The three parts of a fetch of the status. -/
theorem fetchStatus_eq :
    fetchStatus = (ask [.fetchStatus] hasStatus).bind fun t =>
      (if t.poll.isIdle = true then done () else tell .stopPolling).bind fun _ =>
        (refuse t .systemStatus "fetch system status").bind fun _ => done t := by
  refine congrArg (Dialogue.bind _) (funext fun t => ?_)
  split <;> rfl

/-- The status is asked for, and the first fetch of it awaited. -/
theorem meets_ask_status (hp : ∀ s i, i.IsAside → p s → p (s.after i)) :
    (ask [.fetchStatus] hasStatus).Meets (m.contract c ends)
      (fun t => Resting m Intent.IsReport past lines (Fetched p t))
      (Resting m Intent.IsReport past lines fun _ s _ => s.poll = {} ∧ p s) := by
  have hfirm : (m.contract c ends).Firm
      (Resting m (OrWish .fetchStatus) past lines fun hs s is => p s ∧ StatusToCome hs s is) :=
    Resting.firm (company_orWish .fetchStatus)
      ((Lasting.of_state fun s i hi => hp s i ((company_orWish .fetchStatus).aside i hi)).and
        lasting_statusToCome)
  refine ⟨fun ticket x =>
    Resting m (OrWish .fetchStatus) past lines (fun hs s is => p s ∧ StatusToCome hs s is) x ∧
      ticket ≤ x.store.ticket, _, fun ticket => ⟨fun x hx => hfirm.always x hx.1, ?_⟩,
    fun t => Resting.firm company_reports (lasting_fetched hp t), fun x hx => ⟨?_, Nat.le_refl _⟩,
    ?_, ?_, fun s x hx => hx⟩
  · -- others move
    intro x hs store hx hm
    exact ⟨hfirm.firm x hs store hx.1 hm, Nat.le_trans hx.2 (ticket_le_of_move hx.1.sound hm)⟩
  · -- the wish is sent
    refine hx.sendAll (List.forall_mem_singleton.mpr rfl) (fun i hi => .inl hi)
      (List.forall_mem_singleton.mpr (.inr rfl)) ?_
    rintro hs s is ⟨hpoll, hs⟩ hi
    exact ⟨hs, .asked is [] hpoll rfl hi (List.forall_mem_nil _)⟩
  · -- the command goes on with a state that has a status
    rintro ticket x ⟨hx, -⟩ - hw
    obtain ⟨hkeeps, hcome⟩ := hx.idle.fact
    have hpoll : x.store.published.poll = x.store.state.poll := hx.sound.poll_published
    rw [hasStatus, hpoll] at hw
    obtain ⟨hqueue, hheard⟩ := hcome.heard hw
    refine hx.learn hqueue ⟨⟨hkeeps, ?_⟩, fun he => ?_⟩
    · rw [hpoll]
      exact Poll.isPolling_of_isIdle
    · rw [hx.sound.errors_published] at he
      have hr : Reported x.happened x.store.state.status :=
        hheard.resolve_left fun h => h.2 he
      exact ⟨hx.sound.status_published ▸ hr, hr⟩
  · -- at rest there is such a state
    rintro ticket x ⟨hx, hdue⟩ hr
    rw [Store.ticket, hr.queue] at hdue
    refine ⟨hdue, ?_⟩
    rw [hasStatus, hx.sound.poll_published]
    exact hx.idle.fact.2.hasStatus_at_rest hx.sound hr

/-- Polling is stopped unless it has come to its end. -/
theorem meets_stop (hp : ∀ s i, i.IsAside → p s → p (s.after i)) (t : State) :
    (if t.poll.isIdle = true then done () else tell .stopPolling).Meets (m.contract c ends)
      (fun _ => Resting m (OrWish .stopPolling) past lines (Calmed p t))
      (Resting m Intent.IsReport past lines (Fetched p t)) := by
  split
  · next hi =>
    intro x hx
    exact hx.imp (fun h _ => ⟨⟨h.1.1, .inl (h.1.2 hi)⟩, h.2⟩) fun i hi => .inl hi
  · refine meets_tell (company_orWish .stopPolling) (lasting_calmed hp t) rfl
      (fun i hi => .inl hi) (.inr rfl) ?_
    intro hs s is h _
    exact ⟨⟨h.1.1, .inr (List.mem_append_right _ (List.mem_singleton_self _))⟩, h.2⟩

/-- The status is fetched: the dialogue goes on with one that was reported, and polling comes to
rest, or it fails. -/
theorem meets_fetchStatus (hp : ∀ s i, i.IsAside → p s → p (s.after i))
    (hends : ∀ message x, Resting m (OrWish .stopPolling) past lines (fun _ _ _ => True) x →
      ends (.failed message) x) :
    fetchStatus.Meets (m.contract c ends)
      (fun t => Resting m (OrWish .stopPolling) past lines
        fun hs s is => (p s ∧ Calm s is) ∧ Told t hs s is)
      (Resting m Intent.IsReport past lines fun _ s _ => s.poll = {} ∧ p s) := by
  rw [fetchStatus_eq]
  refine (meets_ask_status hp).bind fun t => (meets_stop hp t).bind fun _ => ?_
  refine Meets.bind ((meets_refuse hends).mono fun x hx => ?_) fun _ x hx => hx
  split
  · next he => exact hx.imp (fun h _ => ⟨h.1, h.2 he⟩) fun _ hi => hi
  · exact hx.imp (fun _ _ => trivial) fun _ hi => hi

/-- The end of a command that has changed a run: polling is stopped, and two lines are printed. -/
theorem meets_announce {fits : List Happening → List String → Ending → Prop} {title line : String}
    {p : List Happening → Prop} (hp : ∀ hs hs', p hs → p (hs ++ hs'))
    (hbeside : ∀ i, beside i → OrWish .stopPolling i)
    (htitle : ∀ hs, p hs → m.shows hs [title]) (hline : ∀ hs, p hs → m.shows hs [line, title])
    (hrefused : ∀ lines reason, fits past lines (.refused reason))
    (hcompleted : fits past [line, title] .completed) :
    ((tell .stopPolling).bind fun _ => printAll [title, line]).Meets (m.restful c fits)
      (fun _ => (m.restful c fits).ends .completed)
      (Resting m beside past [] fun hs _ _ => p hs) := by
  have hcompany : Company (OrWish .stopPolling) := company_orWish .stopPolling
  have hlasting : Lasting (OrWish .stopPolling) fun hs _ _ => p hs := .of_happened hp
  have hends : ∀ {lines} reason x,
      Resting m (OrWish .stopPolling) past lines (fun hs _ _ => p hs) x →
      (m.restful c fits).ends (.refused reason) x :=
    fun reason _ hx => hx.may_end hcompany (hrefused _ reason)
  refine (meets_tell hcompany hlasting rfl hbeside (.inr rfl) fun h _ => h).bind fun _ => ?_
  refine meets_print hcompany hlasting (fun x hx => htitle _ hx.idle.fact) hends ?_
  refine meets_print hcompany hlasting (fun x hx => hline _ hx.idle.fact) hends fun x hx => ?_
  exact hx.may_end hcompany hcompleted

end Dialogue

end Cli

end RunControl
