/-
RunControl/Proofs/Cli/SingleWrite.lean

Commands that write once.  A dialogue that wishes for one write at most, and not before it has
seen devices that allow it, is told by its tree (`Dialogue.WritesOnce`); nothing is said there of
when the store does its work.

A session with such a dialogue stays in one of two stages: it browses and may still come to its
write, or the write was ordered and the command is silent from then on (`Session.Frugal`).  Each
step keeps it there, and so it sends one write at most in every run, after the backend has
returned devices that allow it.
-/
import RunControl.Proofs.Cli.Writes

namespace RunControl

namespace Cli

variable {may : List Device → Call → Prop} {c : Client} {hs hs' : List Happening} {i : Intent}
  {call : Call} {x : Scene} {is : List Intent}

/-! ### What a command sends -/

theorem Browsing.sendAll (h : Browsing x.plainSide) (hx : Sound x) (hi : ∀ i ∈ is, i.Harmless) :
    Browsing (x.sendAll is).plainSide := by
  rw [Scene.plainSide_sendAll hx]
  have hmore := h.more [] rfl (fun i hm => ⟨(hi i hm).write, fun d => .inl ((hi i hm).devices d)⟩)
    h.tasks
  rwa [List.append_nil] at hmore

/-- A write is wished for. -/
theorem Browsing.order (h : Browsing x.plainSide) (hx : Sound x) (hi : i.write? = some call)
    (ha : Allowed may x.happened call) : Ordered may (x.sendAll [i]).plainSide := by
  rw [Scene.plainSide_sendAll hx]
  refine ⟨call, ?_, ha⟩
  have hnone := h.writes_eq_nil
  rw [PlainSide.writes, List.append_eq_nil_iff, List.append_eq_nil_iff] at hnone
  obtain ⟨hsent, htasks, hqueue⟩ := hnone
  rw [PlainSide.writes, hsent, htasks, List.filterMap_append, hqueue, List.filterMap_cons_some hi]
  exact List.Subperm.refl _

theorem Ordered.sendAll (h : Ordered may x.plainSide) (hx : Sound x)
    (hi : ∀ i ∈ is, i.Harmless) : Ordered may (x.sendAll is).plainSide := by
  rw [Scene.plainSide_sendAll hx]
  obtain ⟨call, hwrites, hallowed⟩ := h
  refine ⟨call, ?_, hallowed⟩
  have hnone : is.filterMap Intent.write? = [] :=
    List.filterMap_eq_nil_iff.mpr fun i hm => (hi i hm).write
  rwa [PlainSide.writes, List.filterMap_append, hnone, List.append_nil]

/-! ### Dialogues that write once -/

namespace Dialogue

variable {α : Type}

/-- A dialogue that wishes for no write. -/
def Silent : Dialogue α → Prop
  | done _ | fail _ => True
  | print _ next | warn _ next => next.Silent
  | send intent next => intent.Harmless ∧ next.Silent
  | await intents _ next => (∀ i ∈ intents, i.Harmless) ∧ ∀ s, (next s).Silent
  | look next => ∀ s, (next s).Silent

/-- A dialogue that wishes for one write at most, and waits for it, after it has seen devices that
allow it; `seen` are those that it has seen last. -/
def WritesOnce (may : List Device → Call → Prop) : (seen : List Device) → Dialogue α → Prop
  | _, done _ | _, fail _ => True
  | seen, print _ next | seen, warn _ next => next.WritesOnce may seen
  | seen, send intent next => intent.Harmless ∧ next.WritesOnce may seen
  | seen, await intents _ next =>
    (∀ i ∈ intents, i.Harmless) ∧ (∀ s, (next s).WritesOnce may s.devices) ∨
      ∃ i call, intents = [i] ∧ i.write? = some call ∧ may seen call ∧ ∀ s, (next s).Silent
  | _, look next => ∀ s, (next s).WritesOnce may s.devices

theorem silent_printAll (lines : List String) : (printAll lines).Silent := by
  induction lines with
  | nil => trivial
  | cons line lines ih => exact ih

end Dialogue

/-- A command that wishes for no write any more. -/
def Activity.Silent : Activity → Prop
  | talking d => d.Silent
  | awaiting _ _ next => ∀ s, (next s).Silent
  | .watching _ _ | .over _ => True

/-- A command that wishes for one write at most, after it has seen devices that allow it. -/
def Activity.WritesOnce (may : List Device → Call → Prop) (hs : List Happening) : Activity → Prop
  | talking d => ∃ seen, Returned hs seen ∧ d.WritesOnce may seen
  | awaiting _ _ next => ∀ s, (next s).WritesOnce may s.devices
  | .watching _ _ | .over _ => True

theorem Activity.WritesOnce.append {a : Activity} (h : a.WritesOnce may hs)
    (hs' : List Happening) : a.WritesOnce may (hs ++ hs') := by
  cases a with
  | talking d =>
    obtain ⟨seen, hreturned, hd⟩ := h
    exact ⟨seen, hreturned.append hs', hd⟩
  | _ => exact h

/-! ### Sessions that write once -/

theorem Sound.devices_published (h : Sound x) :
    x.store.published.devices = x.store.state.devices := by
  conv_rhs => rw [← h.published]

namespace Session

variable {s t : Session}

/-- A session that has sent one write at most, and not before it was allowed, and goes on so. -/
structure Frugal (may : List Device → Call → Prop) (hs : List Happening) (s : Session) :
    Prop where
  sound : Sound (s.scene hs)
  permitted : Permitted (fun before call => call.isWrite = true → Allowed may before call) hs
  stage : Browsing (s.scene hs).plainSide ∧ s.activity.WritesOnce may hs ∨
    Ordered may (s.scene hs).plainSide ∧ s.activity.Silent

namespace Frugal

/-- The command goes on without sending anything. -/
theorem still (h : Frugal may hs s) (hstore : t.store = s.store)
    (hfirst : Browsing (s.scene hs).plainSide → s.activity.WritesOnce may hs →
      t.activity.WritesOnce may hs)
    (hthen : s.activity.Silent → t.activity.Silent) : Frugal may hs t := by
  have hscene : (t.scene hs).plainSide = (s.scene hs).plainSide := by
    rw [Scene.plainSide, Scene.plainSide, scene, scene, hstore]
  refine ⟨?_, h.permitted, ?_⟩
  · -- what is printed does not matter
    obtain ⟨hrun, hpublishes, hqueue, hstatus⟩ := h.sound
    rw [scene, hstore]
    exact ⟨hrun, hpublishes, hqueue, hstatus⟩
  · rw [hscene]
    exact h.stage.imp (fun h => ⟨h.1, hfirst h.1 h.2⟩) fun h => ⟨h.1, hthen h.2⟩

/-- The command prints a line, or ends because the line is refused. -/
theorem put (h : Frugal may hs s) (line : String) {activity : Activity}
    (hfirst : s.activity.WritesOnce may hs → activity.WritesOnce may hs)
    (hthen : s.activity.Silent → activity.Silent) : Frugal may hs (s.put line activity) := by
  unfold Session.put
  split
  · exact h.still rfl (fun _ => hfirst) hthen
  · exact h.still rfl (fun _ _ => trivial) fun _ => trivial

/-- The command looks at what is published. -/
theorem look (h : Frugal may hs s) {next : State → Dialogue Unit}
    (ht : t = { s with activity := .talking (next s.store.published) })
    (hfirst : s.activity.WritesOnce may hs → ∀ u, (next u).WritesOnce may u.devices)
    (hthen : s.activity.Silent → ∀ u, (next u).Silent) : Frugal may hs t := by
  subst ht
  refine h.still rfl (fun hw ha => ⟨s.store.published.devices, ?_, hfirst ha _⟩)
    fun ha => hthen ha _
  have hdevices : s.store.published.devices = s.store.state.devices := h.sound.devices_published
  rw [hdevices]
  exact hw.devices

/-- The command sends intents. -/
theorem sendAll (h : Frugal may hs s) (hstore : t.store = s.store.sendAll is)
    (hstatus : ∀ i ∈ is, i.status? = none)
    (hstage : Browsing ((s.scene hs).sendAll is).plainSide ∧ t.activity.WritesOnce may hs ∨
      Ordered may ((s.scene hs).sendAll is).plainSide ∧ t.activity.Silent) :
    Frugal may hs t := by
  have hscene : (t.scene hs).plainSide = ((s.scene hs).sendAll is).plainSide := by
    rw [Scene.plainSide, Scene.plainSide, scene, scene, Scene.sendAll, hstore]
  refine ⟨?_, h.permitted, ?_⟩
  · obtain ⟨hrun, hpublishes, hqueue, hs⟩ := h.sound.sendAll hstatus
    rw [scene, hstore]
    exact ⟨hrun, hpublishes, hqueue, hs⟩
  · rw [hscene]
    exact hstage

/-- The command sends intents that are harmless, and stays in its stage. -/
theorem ask (h : Frugal may hs s) (hi : ∀ i ∈ is, i.Harmless)
    (hstore : t.store = s.store.sendAll is)
    (hstage : Browsing (s.scene hs).plainSide ∧ t.activity.WritesOnce may hs ∨
      Ordered may (s.scene hs).plainSide ∧ t.activity.Silent) : Frugal may hs t := by
  apply h.sendAll hstore fun i hm => (hi i hm).status
  rcases hstage with ⟨hb, ha⟩ | ⟨ho, ha⟩
  · exact .inl ⟨hb.sendAll h.sound hi, ha⟩
  · exact .inr ⟨ho.sendAll h.sound hi, ha⟩

/-- What a command does next keeps it frugal, by what the next node of its dialogue is. -/
theorem talk {d : Dialogue Unit} (h : Frugal may hs s) (ha : s.activity = .talking d) :
    Frugal may hs (s.talk d) := by
  have hfirst : s.activity.WritesOnce may hs → ∃ seen, Returned hs seen ∧ d.WritesOnce may seen :=
    fun hw => by rwa [ha] at hw
  have hthen : s.activity.Silent → d.Silent := fun hw => by rwa [ha] at hw
  cases d with
  | done _ | fail _ => exact h.still rfl (fun _ _ => trivial) fun _ => trivial
  | print line next => exact h.put line hfirst hthen
  | warn line next => exact h.still rfl (fun _ => hfirst) hthen
  | look next =>
    apply h.look rfl _ hthen
    intro hw
    obtain ⟨_, _, hd⟩ := hfirst hw
    exact hd
  | send intent next =>
    rcases h.stage with ⟨hb, hw⟩ | ⟨ho, hw⟩
    · obtain ⟨seen, hseen, hi, hd⟩ := hfirst hw
      exact h.ask (List.forall_mem_singleton.mpr hi) rfl (.inl ⟨hb, seen, hseen, hd⟩)
    · obtain ⟨hi, hd⟩ := hthen hw
      exact h.ask (List.forall_mem_singleton.mpr hi) rfl (.inr ⟨ho, hd⟩)
  | await intents wanted next =>
    rcases h.stage with ⟨hb, hw⟩ | ⟨ho, hw⟩
    · obtain ⟨seen, hseen, ⟨hi, hd⟩ | ⟨i, call, rfl, hi, hmay, hd⟩⟩ := hfirst hw
      · exact h.ask hi rfl (.inl ⟨hb, hd⟩)
      · -- this is the write: the stage changes here, and nowhere else
        apply h.sendAll rfl (List.forall_mem_singleton.mpr (Intent.status?_of_write? hi))
        exact .inr ⟨hb.order h.sound hi ⟨seen, hseen, hmay⟩, hd⟩
    · obtain ⟨hi, hd⟩ := hthen hw
      exact h.ask hi rfl (.inr ⟨ho, hd⟩)

/-- A command that talks, goes on after a wait, or looks at a state while it watches. -/
theorem proceed (h : Frugal may hs s) (hp : s.proceed? = some t) : Frugal may hs t := by
  unfold proceed? at hp
  split at hp
  · next ha =>
    cases hp
    exact h.talk ha
  · next ticket wanted next ha =>
    obtain ⟨-, hp⟩ := Option.ite_none_right_eq_some.mp hp
    exact h.look (Option.some.inj hp).symm (fun hw => by rwa [ha] at hw)
      (fun hw => by rwa [ha] at hw)
  · -- a watch sends nothing
    obtain ⟨-, hp⟩ := Option.ite_none_left_eq_some.mp hp
    cases hp
    unfold see
    dsimp only
    generalize ha : (if Watch.isOver _ = true then _ else _ : Activity) = activity
    have hquiet : activity.WritesOnce may hs ∧ activity.Silent := by
      subst ha
      split
      · split <;> exact ⟨trivial, trivial⟩
      · exact ⟨trivial, trivial⟩
    split
    · exact h.put _ (fun _ => hquiet.1) fun _ => hquiet.2
    · exact h.still rfl (fun _ _ => hquiet.1) fun _ => hquiet.2
  · cases hp

theorem step (h : Frugal may hs s) (hstep : Step s hs' t) : Frugal may (hs ++ hs') t := by
  cases hstep with
  | proceed hp =>
    rw [List.append_nil]
    exact h.proceed hp
  | @move _ store hm =>
    have hplain := hm.plainSide (x := s.scene hs) h.sound.held
    refine ⟨Sound.move _ _ _ h.sound hm, ?_, ?_⟩
    · -- only a write that waits to be sent could be sent, so it is the one that was ordered
      refine h.permitted.move (x := s.scene hs) (fun task ht hb hw => ?_) hm
      rcases h.stage with ⟨hbrowsing, -⟩ | ⟨hordered, -⟩
      · rw [hbrowsing.tasks task ht] at hw
        cases hw
      · exact hordered.allowed ht hb hw
    · exact h.stage.imp (fun h => ⟨h.1.step hplain, h.2.append hs'⟩)
        fun h => ⟨h.1.step hplain, h.2⟩
  | interrupt =>
    rw [List.append_nil]
    unfold Session.interrupt
    split
    · exact h.still rfl (fun _ _ => trivial) fun _ => trivial
    · exact h

theorem run (h : Frugal may [] s) (hrun : Run s hs t) : Frugal may hs t := by
  induction hrun with
  | refl => exact h
  | tail _ hstep ih => exact ih.step hstep

/-- One write was sent at most. -/
theorem length_writesOf_le (h : Frugal may hs s) : (writesOf hs).length ≤ 1 := by
  rcases h.stage with ⟨hbrowsing, -⟩ | ⟨⟨call, hwrites, -⟩, -⟩
  · have hnone : writesOf hs = [] := hbrowsing.sent
    rw [hnone]
    exact Nat.zero_le 1
  · exact ((List.sublist_append_left _ _).subperm.trans hwrites).length_le

end Frugal

theorem frugal_initial {timeout interval : Nat} {output : Output} {d : Dialogue Unit}
    (hd : d.WritesOnce may []) :
    Frugal may [] { client := c, timeout, store := .initial interval, output,
                    activity := .talking d } where
  sound := sound_initial interval []
  permitted := permitted_nil _
  stage := .inl
    ⟨⟨.inl rfl, List.forall_mem_nil _, List.forall_mem_nil _, rfl⟩, [], .inl rfl, hd⟩

end Session

end Cli

end RunControl
