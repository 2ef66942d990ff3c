/-
RunControl/Proofs/Cli/Printed.lean

Where the statuses come from that are printed.  A status line shows a status that the backend has
returned in this session, with two exceptions in which it may show the one that a session starts
with: the first line of a watch, because a watch prints as soon as the first cycle is open; and
the line after a run has been stopped, if the status could not be fetched after that
(`status_lines_reported`).  The first exception comes about in every watch that sees the state in
which the cycle is opened (`watch_prints_blank`).

The commands that fetch a status once are outlined (`meets_showStatus`, `meets_stopRun`, and
`meets_start` for the start of a run).  A watch is no dialogue; what it has printed and what it
remembers of it is an invariant of its runs (`Watched`).
-/
import RunControl.Proofs.Cli.Start

namespace RunControl

namespace Cli

variable {c : Client} {hs hs' past : List Happening} {x : Scene} {s t : Session}

/-! ### Lines that show a status -/

/-- The lines of an order that show a status, in a list of all its lines. -/
def Order.statusLines : Order → List String → List String
  | .status, lines | .watch, lines => lines
  | .start .., lines | .stop, lines => lines.tail
  | _, _ => []

/-- Whether an order prints one status line if it succeeds. -/
def Order.showsOnce : Order → Bool
  | .status | .start .. | .stop => true
  | _ => false

/-- When the status line number `n` may show a status that nobody has reported. -/
def Order.MayBeBlank : Order → List Happening → Nat → Prop
  | .watch, _, n => n = 0
  | .stop, hs, _ => StatusFailed hs
  | _, _, _ => False

/-- A line shows a status that was reported, or else, if `blank` says so, the one at the
beginning. -/
def Shows (hs : List Happening) (blank : Prop) (line : String) : Prop :=
  ∃ status, line = statusLine status ∧ (Reported hs status ∨ status = {} ∧ blank)

theorem Shows.mono {blank blank' : Prop} {line : String} (h : Shows hs blank line)
    (hsub : hs ⊆ hs') (hblank : blank → blank') : Shows hs' blank' line := by
  obtain ⟨status, rfl, hr⟩ := h
  exact ⟨status, rfl, hr.imp (·.mono hsub) (.imp_right hblank)⟩

theorem StatusFailed.mono (h : StatusFailed hs) (hsub : hs ⊆ hs') : StatusFailed hs' := by
  obtain ⟨cycle, failure, hm⟩ := h
  exact ⟨cycle, failure, hsub hm⟩

/-- The contract of a command that prints so many lines if it succeeds. -/
def Mandate.printing (m : Mandate) (count : Nat) (c : Client) : Contract :=
  m.restful c fun _ lines e => e = .completed → lines.length = count

/-! ### Showing the status -/

/-- What the command that shows the status is held to: it sends no plain request. -/
def statusMandate : Mandate where
  order := []
  may _ _ := True
  shows hs lines := ∀ line ∈ lines, Shows hs False line
  shows_append h _ line hl := (h line hl).mono (List.subset_append_left ..) id

open Dialogue in
/-- The line that is printed shows a status that was reported.  If the fetch fails, the command
ends without one. -/
theorem meets_showStatus :
    showStatus.Meets (statusMandate.printing 1 c)
      (fun _ => (statusMandate.printing 1 c).ends .completed)
      (Resting statusMandate Intent.IsReport [] [] fun _ s _ => s.poll = {} ∧ True) := by
  have hcompany : Company (OrWish .stopPolling) := company_orWish .stopPolling
  have hfail : ∀ message x,
      Resting statusMandate (OrWish .stopPolling) [] [] (fun _ _ _ => True) x →
      (statusMandate.printing 1 c).ends (.failed message) x :=
    fun _ _ hx => hx.may_end hcompany nofun
  refine (meets_fetchStatus (fun _ _ _ _ => trivial) hfail).bind fun t => ?_
  have hlasting : Lasting (OrWish .stopPolling)
      fun hs s is => (True ∧ Calm s is) ∧ Told t hs s is :=
    ((Lasting.const True).and lasting_calm).and (lasting_told t)
  have hrefused : ∀ reason x, Resting statusMandate (OrWish .stopPolling) [] []
      (fun hs s is => (True ∧ Calm s is) ∧ Told t hs s is) x →
      (statusMandate.printing 1 c).ends (.refused reason) x :=
    fun _ _ hx => hx.may_end hcompany nofun
  refine meets_print hcompany hlasting (fun x hx => ?_) hrefused fun x hx => ?_
  · exact List.forall_mem_singleton.mpr ⟨t.status, rfl, .inl hx.idle.fact.2.1⟩
  · exact hx.may_end hcompany fun _ => rfl

/-! ### Stopping a run -/

/-- What the command that stops a run is held to. -/
def stopMandate : Mandate where
  order := [.stopRun]
  may _ _ := True
  shows hs lines := ∀ line ∈ lines.dropLast, Shows hs (StatusFailed hs) line
  shows_append h hs' line hl :=
    have hsub : _ ⊆ _ ++ hs' := List.subset_append_left ..
    (h line hl).mono hsub (·.mono hsub)

/-- No cycle has been opened, and no attempt to stop a run has failed. -/
def Untried : Fact :=
  fun _ s _ => s.poll = {} ∧ s.errors.get .stopRun = none

theorem lasting_untried : Lasting Intent.IsReport Untried :=
  lasting_unpolled.and (.error (fun _ => .report) (by decide) (· = none))

/-- A run is stopped; after that the status is fetched. -/
def halt : Errand where
  wish := .stopRun
  request := .stopRun
  beside := OrWish .fetchStatus
  ahead hs s is := Untried hs s is ∧ ∀ i ∈ is, i.IsReport
  work := Untried
  done _ := StatusToCome

/-- Each stage of stopping a run follows from the one before.  No cycle is open until the reply
comes; then the status is asked for, and only reports are in the queue beside that. -/
theorem lawful_halt : halt.Lawful where
  beside := company_orWish .fetchStatus
  asks := rfl
  sends s _ hl := by
    change s.loading.get .stopRun = false at hl
    have hb : s.begins (s.after .stopRun) .stopRun = true := by
      rw [State.begins_after rfl, hl]
      rfl
    exact if_pos hb
  followUp := List.forall_mem_singleton.mpr (.inr rfl)
  ahead :=
    -- before the wish, the queue has nothing but reports in it
    { next := fun ⟨hu, hq⟩ _ hb => by
        rw [List.forall_mem_cons] at hq
        exact ⟨lasting_untried.next hu hq.1 hb, hq.2⟩
      more := fun ⟨hu, hq⟩ hj =>
        ⟨lasting_untried.more hu hj, List.forall_mem_append.mpr ⟨hq, hj⟩⟩
      mono := fun ⟨hu, hq⟩ hs' => ⟨lasting_untried.mono hu hs', hq⟩ }
  work := lasting_untried
  done _ := lasting_statusToCome
  grant := by
    rintro hs s is - - ⟨⟨hp, hn⟩, -⟩ -
    refine ⟨?_, hn⟩
    show (s.after .stopRun).poll = {}
    rw [State.poll_after, Poll.after_of_asks? rfl, hp]
  deliver := by
    rintro hs s is - ⟨hp, -⟩ - hi
    refine .asked [] is ?_ rfl (List.forall_mem_nil _) hi
    show (s.after .runStopped).poll = {}
    rw [State.poll_after, hp]
    rfl

/-- The line about a status that could be fetched, or about the one at the beginning. -/
def Printable (s : State) (hs : List Happening) : Prop :=
  Shows hs (StatusFailed hs) (statusLine s.status)

theorem Printable.append {s : State} (h : Printable s hs) (hs' : List Happening) :
    Printable s (hs ++ hs') :=
  Shows.mono h (List.subset_append_left ..) (·.mono (List.subset_append_left ..))

/-- A status that has been fetched, or could not be, may be printed. -/
theorem Sound.printable (hx : Sound x)
    (h : StatusToCome x.happened x.store.state x.store.queue)
    (hw : hasStatus x.store.published = true) :
    (∀ i ∈ x.store.queue, i.IsReport) ∧ Printable x.store.published x.happened := by
  rw [hasStatus, hx.poll_published] at hw
  obtain ⟨hqueue, hheard⟩ := h.heard hw
  refine ⟨hqueue, _, rfl, ?_⟩
  rw [hx.status_published]
  rcases hheard with ⟨hf, -⟩ | hr
  · exact hx.status.symm.imp_right fun hb => ⟨hb, hf⟩
  · exact .inl hr

/-- The order to stop the run has been answered, and the status is there. -/
def Halted (s : State) (x : Scene) : Prop :=
  ∃ past, Resting stopMandate Intent.IsReport past [] (fun hs _ _ => Printable s hs) x

open Dialogue in
/-- A run is stopped and the status awaited, unless the order fails. -/
theorem meets_ask_stopRun :
    (ask [.stopRun] fun s =>
      (s.errors.get .stopRun).isSome || (!s.isLoading .stopRun && hasStatus s)).Meets
      (stopMandate.printing 2 c)
      (fun s x => if s.errors.get .stopRun = none then Halted s x
        else halt.Fruitless stopMandate [] [] x)
      (Resting stopMandate halt.beside [] [] halt.job.ahead) := by
  have hadmitted : halt.job.Admitted stopMandate [] :=
    lawful_halt.admitted (List.prefix_refl _) fun _ _ _ => trivial
  refine meets_ask hadmitted (fun s => .ite ?_ lawful_halt.firm_fruitless) ?_ ?_ ?_
  · -- what may be printed stays so
    have hlasting : Lasting Intent.IsReport fun hs _ _ => Printable s hs :=
      .of_happened fun _ hs' h => h.append hs'
    exact .exists fun past => Resting.firm company_reports hlasting
  · -- the state that is published with the wish is not wanted: the mark is set, and no error is
    rintro x is hx ⟨hl, -, hn⟩
    have hmark : x.store.published.isLoading .stopRun = true := by
      show x.store.published.loading.get .stopRun = true
      rw [hx.loading_published, hl]
      exact PerResource.get_set_self ..
    rw [hx.errors_published, hn, hmark]
    rfl
  · -- a state that is wanted has an error, or a status that may be printed
    intro x hx hw
    have hover := Errand.fruitful_or_fruitless hx
    change if x.store.published.errors.get .stopRun = none then _ else _ at hover
    split at hover
    · next hn =>
      obtain ⟨g, -, hrest⟩ := hover
      rw [hn, Option.isSome_none, Bool.false_or, Bool.and_eq_true] at hw
      obtain ⟨hqueue, hprint⟩ := hrest.sound.printable hrest.idle.fact.2 hw.2
      rw [if_pos hn]
      exact ⟨_, hrest.learn hqueue hprint⟩
    · next hn =>
      rw [if_neg hn]
      exact hover
  · -- at rest the state is wanted: the order has failed, or the status is there
    intro x hx hr
    have hover := Errand.fruitful_or_fruitless hx
    change if x.store.published.errors.get .stopRun = none then _ else _ at hover
    split at hover
    · obtain ⟨g, -, hrest⟩ := hover
      have hs : hasStatus x.store.published = true := by
        rw [hasStatus, hrest.sound.poll_published]
        exact hrest.idle.fact.2.hasStatus_at_rest hrest.sound hr
      have hmark : x.store.published.isLoading .stopRun = false :=
        Errand.isLoading_of_ended lawful_halt hx
      rw [hs, hmark]
      exact Bool.or_true _
    · next hn => rw [Option.isSome_iff_ne_none.mpr hn, Bool.true_or]

open Dialogue in
/-- The command that stops a run prints two lines, the second with a status that may be printed. -/
theorem meets_stopRun :
    stop.Meets (stopMandate.printing 2 c) (fun _ => (stopMandate.printing 2 c).ends .completed)
      (Resting stopMandate halt.beside [] [] halt.job.ahead) := by
  have hrefuse : ∀ s, (refuse s .stopRun "stop testrun").Meets (stopMandate.printing 2 c)
      (fun _ => Halted s) fun x =>
        if s.errors.get .stopRun = none then Halted s x else halt.Fruitless stopMandate [] [] x :=
    fun s => meets_refuse fun _ _ ⟨_, _, hx⟩ => hx.may_end lawful_halt.beside nofun
  refine meets_ask_stopRun.bind fun s => (hrefuse s).bind fun _ => Meets.exists fun past => ?_
  exact meets_announce (p := Printable s) (fun _ hs' h => h.append hs') (fun _ hi => .inl hi)
    (fun _ _ => List.forall_mem_nil _) (fun _ h => List.forall_mem_singleton.mpr h)
    nofun fun _ => rfl

/-! ### Watching -/

/-- A status that was reported is kept until another one is. -/
theorem Reported.move {store : Store} (hx : Sound x)
    (h : Reported x.happened x.store.state.status) (hm : Move c x.store hs store) :
    Reported (x.happened ++ hs) store.state.status := by
  have hstep : ∀ {w}, PlainSide.Step c x.plainSide w → Reported w.happened w.state.status := by
    intro w hstep
    cases hstep with
    | @apply i queue number hq =>
      have hb : Backed x.happened i := hx.queue i <| by
        rw [show x.store.queue = i :: queue from hq]
        exact List.mem_cons_self
      have hlasting : Lasting (fun _ => True) fun hs s _ => Reported hs s.status := .reported
      exact @Lasting.next _ _ hlasting _ _ _ queue h trivial hb
    | report hs is hp hi => exact h.append_right hs
    | call | answer => exact h.append_right _
    | giveUp => exact h
  exact hstep (hm.plainSide hx.held)

/-- What a watch remembers of the statuses that it has printed: once it has printed another one than
the one at the beginning, every later status was reported. -/
structure Watch.Recalls (w : Watch) (x : Scene) : Prop where
  nothing : w.last = none → x.printed = []
  last : ∀ status, w.last = some status →
    status = {} ∨ Reported x.happened x.store.state.status

/-- What holds of a watch at any time. -/
structure Watched (hs : List Happening) (s : Session) : Prop where
  sound : Sound (s.scene hs)
  shows : ∀ n line, s.printed.reverse[n]? = some line → Shows hs (n = 0) line
  recalls : (∃ e, s.activity = .over e) ∨
    ∃ seen w, s.activity = .watching seen w ∧ Watch.Recalls w (s.scene hs)

namespace Watched

/-- A line is printed or refused.  Only the first line of a watch may show the status at the
beginning, so what is printed already decides what the line may be. -/
theorem put {line : String} {activity : Activity} (h : Watched hs s)
    (hline : Shows hs (s.printed = []) line)
    (hnext : (∃ e, activity = .over e) ∨ ∃ seen w, activity = .watching seen w ∧
      Watch.Recalls w ((s.scene hs).print line)) : Watched hs (s.put line activity) := by
  unfold Session.put
  split
  · refine ⟨h.sound.print line, fun n l hl => ?_, hnext⟩
    simp only [List.reverse_cons] at hl
    rcases Nat.lt_trichotomy n s.printed.reverse.length with hn | rfl | hn
    · -- a line that was printed before
      rw [List.getElem?_append_left hn] at hl
      exact h.shows n l hl
    · -- the new line
      rw [List.getElem?_concat_length] at hl
      cases hl
      exact hline.mono (List.Subset.refl _) fun hn => by rw [hn]; rfl
    · rw [List.getElem?_eq_none (by rw [List.length_append]; exact hn)] at hl
      cases hl
  · exact ⟨h.sound, h.shows, .inl ⟨_, rfl⟩⟩

/-- The watch goes on, if there is another state to be seen. -/
theorem see (h : Watched hs s) {w : Watch} (hw : Watch.Recalls w (s.scene hs)) :
    Watched hs (s.see w) := by
  have hstatus : s.store.published.status = s.store.state.status := h.sound.status_published
  have hreal : s.store.state.status = {} ∨ Reported hs s.store.state.status := h.sound.status
  unfold Session.see
  dsimp only
  rcases hnews : w.isNews s.store.published with - | -
  · -- nothing is printed, and nothing else is remembered
    have hline : w.line? s.store.published = none := by simp [Watch.line?, hnews]
    have hafter : w.after s.store.published = w := by simp [Watch.after, hnews]
    rw [hline, hafter]
    refine ⟨h.sound, h.shows, ?_⟩
    dsimp only
    split
    · split <;> exact .inl ⟨_, rfl⟩
    · exact .inr ⟨_, w, rfl, hw⟩
  · -- the status is printed, and remembered if the watch goes on
    have hline : w.line? s.store.published = some (statusLine s.store.published.status) := by
      simp [Watch.line?, hnews]
    rw [hline, Watch.after_of_isNews hnews]
    refine h.put ⟨_, rfl, ?_⟩ ?_
    · rw [hstatus]
      rcases hreal with hblank | hr
      · -- the status at the beginning is news only if nothing has been printed
        rcases hlast : w.last with - | status
        · exact .inr ⟨hblank, hw.nothing hlast⟩
        · rcases hw.last status hlast with rfl | hr
          · simp [Watch.isNews, hlast, hstatus, hblank] at hnews
          · exact .inl hr
      · exact .inl hr
    · split
      · split <;> exact .inl ⟨_, rfl⟩
      · refine .inr ⟨_, _, rfl, by rintro ⟨⟩, ?_⟩
        rintro _ ⟨⟩
        rw [hstatus]
        exact hreal

/-- A watch looks, is interrupted, or lets others move, who take no reported status away. -/
theorem step (h : Watched hs s) (hstep : Session.Step s hs' t) : Watched (hs ++ hs') t := by
  cases hstep with
  | proceed hp =>
    rw [List.append_nil]
    rcases h.recalls with ⟨e, ha⟩ | ⟨seen, w, ha, hw⟩
    · simp [Session.proceed?, ha] at hp
    · simp only [Session.proceed?, ha] at hp
      split at hp
      · cases hp
      · cases hp
        exact h.see hw
  | @move hs' store hm =>
    have hsub : hs ⊆ hs ++ hs' := List.subset_append_left ..
    refine ⟨h.sound.move _ _ _ hm, fun n line hl => (h.shows n line hl).mono hsub id, ?_⟩
    refine h.recalls.imp_right ?_
    rintro ⟨seen, w, ha, hw⟩
    refine ⟨seen, w, ha, hw.nothing, ?_⟩
    exact fun status hl => (hw.last status hl).imp_right fun hr => hr.move h.sound hm
  | interrupt =>
    rw [List.append_nil]
    unfold Session.interrupt
    split
    · exact ⟨h.sound, h.shows, .inl ⟨_, rfl⟩⟩
    · exact h

theorem run (h : Watched [] s) (hrun : Session.Run s hs t) : Watched hs t := by
  induction hrun with
  | refl => exact h
  | tail _ hstep ih => exact ih.step hstep

end Watched

/-- A watch begins with the wish for a status. -/
theorem watched_initial {timeout interval : Nat} {output : Output} :
    Watched [] { client := c, timeout, store := (Store.initial interval).sendAll [.fetchStatus],
                 output, activity := .watching 0 {} } where
  sound := (sound_initial interval []).sendAll (List.forall_mem_singleton.mpr rfl)
  shows := nofun
  recalls := .inr ⟨0, {}, rfl, fun _ => rfl, nofun⟩

/-! ### Sessions -/

/-- Every status line shows a status that the backend has returned, but for the first line of a
watch, and the line after a run has been stopped if the fetch of the status has failed; these may
show the status at the beginning instead.  An order that is to show the status once does so if it
succeeds. -/
theorem status_lines_reported {w : Surroundings} {settings : Settings} {order : Order}
    (h : Program.ofOrder w settings order = .ok s) (hrun : Session.Run s hs t) :
    (∀ n line, (order.statusLines t.printed.reverse)[n]? = some line →
      Shows hs (order.MayBeBlank hs n) line) ∧
    (order.showsOnce = true → t.activity = .over .completed →
      (order.statusLines t.printed.reverse).length = 1) := by
  obtain ⟨client, timeout, interval, rfl⟩ := Program.ofOrder_eq_ok h
  have mem_of_tail : ∀ {lines : List String} {n : Nat} {line}, lines.reverse.tail[n]? = some line →
      line ∈ lines.dropLast := by
    intro lines n line hl
    rw [List.tail_reverse] at hl
    exact List.mem_reverse.mp (List.mem_of_getElem? hl)
  have length_tail : ∀ {lines : List String}, lines.length = 2 → lines.reverse.tail.length = 1 := by
    intro lines hl
    rw [List.length_tail, List.length_reverse, hl]
  cases order with
  | status =>
    -- all lines are about statuses
    obtain ⟨hkept, hend⟩ := Session.keeps_mandate company_reports
      (lasting_unpolled.and (.const True)) (List.forall_mem_nil _) ⟨rfl, trivial⟩ meets_showStatus
      hrun
    refine ⟨fun n line hl => ?_, fun _ he => ?_⟩
    · exact hkept.shows line (List.mem_reverse.mp (List.mem_of_getElem? hl))
    · obtain ⟨_, lines, hlength, hx⟩ := hend _ he
      show t.printed.reverse.length = 1
      rw [List.length_reverse, show t.printed = lines from hx.printed, hlength rfl]
  | watch => exact ⟨(watched_initial.run hrun).shows, nofun⟩
  | start address firmware =>
    -- the first line is about the device
    obtain ⟨hkept, hend⟩ := Session.keeps_mandate company_reports lawful_gatherHost.job.ahead
      (List.forall_mem_nil _) ⟨rfl, rfl, rfl⟩ meets_start hrun
    refine ⟨fun n line hl => ?_, fun _ he => ?_⟩
    · obtain ⟨status, hr, hs⟩ := hkept.shows line (mem_of_tail hl)
      exact ⟨status, hs, .inl hr⟩
    · obtain ⟨_, lines, ⟨-, hlength⟩, hx⟩ := hend _ he
      exact length_tail ((congrArg List.length hx.printed).trans hlength)
  | stop =>
    -- the first line is about the order
    obtain ⟨hkept, hend⟩ := Session.keeps_mandate lawful_halt.beside lawful_halt.job.ahead
      (List.forall_mem_nil _) ⟨rfl, ⟨rfl, rfl⟩, List.forall_mem_nil _⟩ meets_stopRun hrun
    refine ⟨fun n line hl => hkept.shows line (mem_of_tail hl), fun _ he => ?_⟩
    obtain ⟨_, lines, hlength, hx⟩ := hend _ he
    exact length_tail ((congrArg List.length hx.printed).trans (hlength rfl))
  | _ => exact ⟨nofun, nofun⟩

/-- A run in progress is shown as the backend reports it. -/
theorem status_lines_reported_while_running :
    let w : Surroundings :=
      { arguments := [], environment := fun _ => none, home := none, file := fun _ => .missing }
    let backend : Session.Backend := fun _ _ _ =>
      some { status := 200, body := "\x7b\"status\":\"In Progress\"\x7d".toUTF8.toList }
    ∃ s, Program.ofOrder w {} .status = .ok s ∧ ∃ turns hs,
      Session.Run s hs (s.run backend none turns) ∧
      (s.run backend none turns).printed = ["In Progress\t-\t0/0 tests"] ∧
      Shows hs False "In Progress\t-\t0/0 tests" := by
  intro w backend
  have hrehearsed : ((Program.ofOrder w {} .status).toOption.bind fun s =>
      (s.run backend none 20).outcome?.map (·.printed)) = some ["In Progress\t-\t0/0 tests"] := by
    unfold w backend
    decide +kernel
  rcases hs : Program.ofOrder w {} .status with message | s
  · rw [hs] at hrehearsed
    cases hrehearsed
  · rw [hs] at hrehearsed
    obtain ⟨o, ho, hprinted⟩ := Option.map_eq_some_iff.mp hrehearsed
    obtain ⟨turns, hs', e, hrun, he⟩ : Session.Ends backend s := by
      obtain ⟨client, timeout, interval, rfl⟩ := Program.ofOrder_eq_ok hs
      exact Session.ends_of_meets (k := statusMandate.printing 1 client) rfl rfl nofun
        (Resting.firm company_reports (lasting_unpolled.and (.const True)))
        (resting_initial interval (List.forall_mem_nil _) ⟨rfl, trivial⟩) meets_showStatus
    obtain ⟨o', ho'⟩ := Session.exists_outcome? he
    cases Session.outcome?_run_unique ho ho'
    obtain ⟨-, -, -, hreverse, -⟩ := Session.outcome?_eq_some ho'
    rw [hprinted] at hreverse
    have hlines : (s.run backend none turns).printed = ["In Progress\t-\t0/0 tests"] := by
      rw [← List.reverse_reverse (Session.printed _), ← hreverse]
      rfl
    refine ⟨s, rfl, turns, hs', hrun, hlines, ?_⟩
    exact (status_lines_reported hs hrun).1 0 _ (by rw [hlines]; rfl)

/-- A watch that sees the state in which the first cycle is opened prints the status that it begins
with. -/
theorem watch_prints_blank {w : Surroundings} {settings : Settings}
    (h : Program.ofOrder w settings .watch = .ok s) (ho : w.output = .taken) :
    ∃ t, Session.Run s [.applied .fetchStatus] t ∧ t.printed = [statusLine {}] := by
  obtain ⟨client, timeout, interval, rfl⟩ := Program.ofOrder_eq_ok h
  rw [ho]
  exact ⟨_, (Session.Run.refl.tail (.move (.apply rfl))).tail (.proceed rfl), rfl⟩

/-- The first line of a watch may show a status that nobody has reported. -/
theorem watch_shows_initial_status :
    let w : Surroundings :=
      { arguments := [], environment := fun _ => none, home := none, file := fun _ => .missing }
    ∃ s hs t, Program.ofOrder w {} .watch = .ok s ∧ Session.Run s hs t ∧
      Order.statusLines .watch t.printed.reverse = ["Idle\t-\t0/0 tests"] ∧
      ¬Shows hs False "Idle\t-\t0/0 tests" := by
  intro w
  have hok : (Program.ofOrder w {} .watch).toOption.isSome = true := by
    unfold w
    decide +kernel
  rcases hs : Program.ofOrder w {} .watch with message | s
  · rw [hs] at hok
    cases hok
  · obtain ⟨t, hrun, hprinted⟩ := watch_prints_blank hs rfl
    refine ⟨s, _, t, rfl, hrun, ?_, ?_⟩
    · rw [hprinted]
      decide +kernel
    · -- nothing has come back yet
      rintro ⟨status, -, (⟨r, hm, -⟩ | ⟨device, r, hm, -⟩) | ⟨-, ⟨⟩⟩⟩
      · cases List.mem_singleton.mp hm
      · cases List.mem_singleton.mp hm

end Cli

end RunControl
