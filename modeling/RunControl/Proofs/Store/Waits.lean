/-
RunControl/Proofs/Store/Waits.lean

What the phase waits for is always on its way, and once only.

`PollSide.Sound` ties the phase to the fetches, the timers and the queue:

* while the phase waits for an answer (`Answering`), the fetch runs or else its
  answer is in the queue, and nothing else is fetched;
* while the phase waits for the timer (`Waking`), the timer runs or else its
  report is in the queue, and no other timer runs;
* in front of the answer that the phase waits for there may be old reports of
  the timer, but behind it there is none (`TicksFirst`), so that none is left
  when the timer is started again.

A new cycle starts out with no answer in the queue, because every answer there
is of a cycle with a smaller number; this is where the counter must not have come
round to 0.  Each operation keeps `Sound`, and so does each turn of polling
(`Sound.turn`); `Run.sound` puts them together for whole runs.
-/
import RunControl.Proofs.Store.PollSide

namespace RunControl

/-! ### Reports in the queue -/

namespace Intent

/-- How many intents report a cycle, where `f` reads the report of one. -/
def countReports (f : Intent → Option Cycle) (is : List Intent) (c : Cycle) : Nat :=
  is.countP fun i => f i = some c

/-- Whatever comes behind an answer of a cycle's fetch has a property. -/
def BehindAnswer (p : Intent → Prop) (is : List Intent) (c : Cycle) : Prop :=
  is.Pairwise fun i j => i.answers? = some c → p j

/-- No report of a cycle's timer comes behind an answer of its fetch. -/
def TicksFirst (is : List Intent) (c : Cycle) : Prop :=
  is.Pairwise fun i j => i.answers? = some c → j.tick? ≠ some c

variable {f : Intent → Option Cycle} {p : Intent → Prop} {is js : List Intent} {i : Intent}
  {c : Cycle}

theorem countReports_eq_zero : countReports f is c = 0 ↔ ∀ i ∈ is, f i ≠ some c := by
  simp [countReports, List.countP_eq_zero]

theorem countReports_append :
    countReports f (is ++ js) c = countReports f is c + countReports f js c :=
  List.countP_append ..

theorem countReports_cons_of_ne (h : f i ≠ some c) :
    countReports f (i :: is) c = countReports f is c :=
  List.countP_cons_of_neg (by simpa using h)

theorem countReports_cons_of_eq (h : f i = some c) :
    countReports f (i :: is) c = countReports f is c + 1 :=
  List.countP_cons_of_pos (by simpa using h)

theorem countReports_tail (h : countReports f (i :: is) c = 0) : countReports f is c = 0 := by
  rw [countReports_eq_zero] at h ⊢
  exact fun j hj => h j (List.mem_cons_of_mem _ hj)

theorem BehindAnswer.of_noAnswer (h : countReports answers? is c = 0) : BehindAnswer p is c := by
  rw [countReports_eq_zero] at h
  exact List.pairwise_of_forall_mem_list fun i hi _ _ ha => absurd ha (h i hi)

theorem BehindAnswer.append (h : BehindAnswer p is c) (hj : ∀ j ∈ js, p j) :
    BehindAnswer p (is ++ js) c := by
  refine List.pairwise_append.mpr ⟨h, ?_, fun i _ j hm _ => hj j hm⟩
  exact List.pairwise_of_forall_mem_list fun i _ j hm _ => hj j hm

theorem BehindAnswer.tail (h : BehindAnswer p (i :: is) c) : BehindAnswer p is c :=
  (List.pairwise_cons.mp h).2

theorem BehindAnswer.forall_tail (h : BehindAnswer p (i :: is) c) (hi : i.answers? = some c) :
    ∀ j ∈ is, p j :=
  fun j hj => (List.pairwise_cons.mp h).1 j hj hi

theorem TicksFirst.of_noAnswer (h : countReports answers? is c = 0) : TicksFirst is c :=
  BehindAnswer.of_noAnswer h

theorem TicksFirst.append (h : TicksFirst is c) (hj : countReports tick? js c = 0) :
    TicksFirst (is ++ js) c :=
  BehindAnswer.append h (countReports_eq_zero.mp hj)

theorem TicksFirst.tail (h : TicksFirst (i :: is) c) : TicksFirst is c :=
  BehindAnswer.tail h

theorem TicksFirst.noTick_tail (h : TicksFirst (i :: is) c) (hi : i.answers? = some c) :
    countReports tick? is c = 0 :=
  countReports_eq_zero.mpr (BehindAnswer.forall_tail h hi)

end Intent

namespace PollSide

open Intent

/-! ### Waiting for an answer -/

/-- The fetch of `c` runs, and no other, and the store keeps hold of it. -/
def FetchRuns (w : PollSide) (c : Cycle) : Prop :=
  ∃ n, w.fetches = [(n, c)] ∧ w.heldFetch = some n

/-- The fetch of `c` runs or else its answer is in the queue; no other fetch runs. -/
def Answering (w : PollSide) (c : Cycle) : Prop :=
  (w.FetchRuns c ∧ countReports answers? w.queue c = 0) ∨
    (w.fetches = [] ∧ countReports answers? w.queue c = 1)

variable {w w' : PollSide} {c : Cycle} {i : Intent} {queue is : List Intent}

/-- Other intents may come to the queue or leave it. -/
theorem Answering.of_count (h : w.Answering c)
    (hn : countReports answers? queue c = countReports answers? w.queue c) :
    { w with queue }.Answering c := by
  rcases h with ⟨hf, ha⟩ | ⟨hf, ha⟩
  · exact .inl ⟨hf, hn.trans ha⟩
  · exact .inr ⟨hf, hn.trans ha⟩

theorem Answering.enqueue (h : w.Answering c) (hi : countReports answers? is c = 0) :
    (w.enqueue is).Answering c := by
  refine h.of_count ?_
  rw [countReports_append, hi, Nat.add_zero]

theorem Answering.next (h : w.Answering c) (hq : w.queue = i :: queue)
    (hi : i.answers? ≠ some c) : { w with queue }.Answering c := by
  refine h.of_count ?_
  rw [hq, countReports_cons_of_ne hi]

/-- A fetch that is answered is the one that is waited for. -/
theorem Answering.answer {number : Nat} {d : Cycle} (h : w.Answering c)
    (hm : (number, d) ∈ w.fetches) (hi : i.answers? = some d) :
    d = c ∧ (w.answer number i).Answering c := by
  rcases h with ⟨⟨n, hf, -⟩, ha⟩ | ⟨hf, -⟩
  · rw [hf, List.mem_singleton] at hm
    cases hm
    refine ⟨rfl, .inr ⟨?_, ?_⟩⟩
    · simp [PollSide.answer, hf]
    · rw [PollSide.answer, countReports_append, ha, countReports_cons_of_eq hi]
      rfl
  · rw [hf] at hm
    cases hm

/-- When the answer comes to be applied, the fetch is over and no other answer of
the cycle is left. -/
theorem Answering.received (h : w.Answering c) (hq : w.queue = i :: queue)
    (hi : i.answers? = some c) : w.fetches = [] ∧ countReports answers? queue c = 0 := by
  have hn : countReports answers? w.queue c = countReports answers? queue c + 1 := by
    rw [hq, countReports_cons_of_eq hi]
  rcases h with ⟨-, ha⟩ | ⟨hf, ha⟩
  · omega
  · exact ⟨hf, by omega⟩

theorem Answering.fetches_abandon (h : w.Answering c) : w.abandon.fetches = [] := by
  rcases h with ⟨⟨n, hf, hh⟩, -⟩ | ⟨hf, -⟩
  · simp [PollSide.abandon, hf, hh]
  · simp [PollSide.abandon, hf]

theorem answering_fetch (hf : w.fetches = []) (ha : countReports answers? w.queue c = 0)
    (number : Nat) : (w.fetch number c).Answering c := by
  refine .inl ⟨⟨number, ?_, rfl⟩, ha⟩
  simp [fetch, hf]

/-! ### Waiting for the timer -/

/-- The timer of `c` runs, and no other, and the store keeps hold of it. -/
def TimerRuns (w : PollSide) (c : Cycle) : Prop :=
  ∃ a, w.alarms = [a] ∧ a.what = c ∧ w.heldTimer = some a.number

/-- The timer of `c` runs or else its report is in the queue; no other timer runs. -/
def Waking (w : PollSide) (c : Cycle) : Prop :=
  (w.TimerRuns c ∧ countReports tick? w.queue c = 0) ∨
    (w.alarms = [] ∧ countReports tick? w.queue c = 1)

theorem Waking.of_count (h : w.Waking c)
    (hn : countReports tick? queue c = countReports tick? w.queue c) :
    { w with queue }.Waking c := by
  rcases h with ⟨hr, ht⟩ | ⟨hr, ht⟩
  · exact .inl ⟨hr, hn.trans ht⟩
  · exact .inr ⟨hr, hn.trans ht⟩

theorem Waking.enqueue (h : w.Waking c) (hi : countReports tick? is c = 0) :
    (w.enqueue is).Waking c := by
  refine h.of_count ?_
  rw [countReports_append, hi, Nat.add_zero]

theorem Waking.next (h : w.Waking c) (hq : w.queue = i :: queue) (hi : i.tick? ≠ some c) :
    { w with queue }.Waking c := by
  refine h.of_count ?_
  rw [hq, countReports_cons_of_ne hi]

theorem Waking.fire {a : Alarm Cycle} (h : w.Waking c) (ha : a ∈ w.alarms) :
    (w.fire a).Waking c := by
  rcases h with ⟨⟨b, hb, rfl, -⟩, ht⟩ | ⟨hr, -⟩
  · rw [hb, List.mem_singleton] at ha
    subst ha
    refine .inr ⟨?_, ?_⟩
    · simp [PollSide.fire, hb]
    · rw [PollSide.fire, countReports_append, ht]
      simp [countReports, tick?]
  · rw [hr] at ha
    cases ha

theorem Waking.alarms_release (h : w.Waking c) : w.release.alarms = [] := by
  rcases h with ⟨⟨a, ha, -, hh⟩, -⟩ | ⟨ha, -⟩
  · simp [PollSide.release, ha, hh]
  · simp [PollSide.release, ha]

theorem alarms_release_of_nil (h : w.alarms = []) : w.release.alarms = [] := by
  simp [release, h]

theorem waking_arm {a : Alarm Cycle} (ha : w.alarms = [])
    (ht : countReports tick? w.queue a.what = 0) : (w.arm a).Waking a.what := by
  refine .inl ⟨⟨a, ?_, rfl, rfl⟩, ht⟩
  simp [arm, alarms_release_of_nil ha]

/-! ### What fits a phase -/

/-- What is on its way is what the phase waits for. -/
inductive Fits (w : PollSide) : Phase → Prop
  | idle (fetches : w.fetches = []) (alarms : w.alarms = []) : Fits w .idle
  | fetching {c : Cycle} (answering : w.Answering c) (alarms : w.alarms = [])
      (first : TicksFirst w.queue c) : Fits w (.polling c true)
  | waiting {c : Cycle} (fetches : w.fetches = []) (noAnswer : countReports answers? w.queue c = 0)
      (waking : w.Waking c) : Fits w (.polling c false)
  | stopping {c : Cycle} (answering : w.Answering c) (alarms : w.alarms = []) : Fits w (.stopping c)

variable {phase : Phase}

/-- Intents that report nothing come to the queue. -/
theorem Fits.enqueue (h : w.Fits phase) (hi : ∀ i ∈ is, i.IsPlain) :
    (w.enqueue is).Fits phase := by
  have ha : ∀ c, countReports answers? is c = 0 := fun c =>
    countReports_eq_zero.mpr fun i hm => by simp [(hi i hm).1]
  have ht : ∀ c, countReports tick? is c = 0 := fun c =>
    countReports_eq_zero.mpr fun i hm => by simp [(hi i hm).2]
  cases h with
  | idle fetches alarms => exact .idle fetches alarms
  | fetching answering alarms first =>
    exact .fetching (answering.enqueue (ha _)) alarms (first.append (ht _))
  | waiting fetches noAnswer waking =>
    refine .waiting fetches ?_ (waking.enqueue (ht _))
    rw [PollSide.enqueue, countReports_append, noAnswer, ha]
  | stopping answering alarms => exact .stopping (answering.enqueue (ha _)) alarms

/-- A fetch runs only for the cycle of the phase; its answer comes to the queue. -/
theorem Fits.answer {number : Nat} (h : w.Fits phase) (hm : (number, c) ∈ w.fetches)
    (hi : i.answers? = some c) : phase.cycle? = some c ∧ (w.answer number i).Fits phase := by
  cases h with
  | idle fetches alarms =>
    rw [fetches] at hm
    cases hm
  | fetching answering alarms first =>
    obtain ⟨rfl, hw⟩ := answering.answer hm hi
    refine ⟨rfl, .fetching hw alarms (first.append ?_)⟩
    simp [countReports, tick?_of_answers? hi]
  | waiting fetches noAnswer waking =>
    rw [fetches] at hm
    cases hm
  | stopping answering alarms =>
    obtain ⟨rfl, hw⟩ := answering.answer hm hi
    exact ⟨rfl, .stopping hw alarms⟩

/-- A timer goes off only while the phase waits for it. -/
theorem Fits.fire {a : Alarm Cycle} (h : w.Fits phase) (ha : a ∈ w.alarms) :
    (w.fire a).Fits phase := by
  cases h with
  | idle fetches alarms | fetching _ alarms _ | stopping _ alarms =>
    rw [alarms] at ha
    cases ha
  | waiting fetches noAnswer waking =>
    refine .waiting fetches ?_ (waking.fire ha)
    rw [PollSide.fire, countReports_append, noAnswer]
    rfl

/-- An intent that the phase does not wait for leaves the queue. -/
theorem Fits.next (h : w.Fits phase) (hq : w.queue = i :: queue)
    (ha : ∀ c, i.answers? = some c → phase ≠ .polling c true ∧ phase ≠ .stopping c)
    (ht : ∀ c, i.tick? = some c → phase ≠ .polling c false) : { w with queue }.Fits phase := by
  cases h with
  | idle fetches alarms => exact .idle fetches alarms
  | fetching answering alarms first =>
    rw [hq] at first
    exact .fetching (answering.next hq fun hc => (ha _ hc).1 rfl) alarms first.tail
  | waiting fetches noAnswer waking =>
    refine .waiting fetches ?_ (waking.next hq fun hc => ht _ hc rfl)
    rw [hq] at noAnswer
    exact countReports_tail noAnswer
  | stopping answering alarms =>
    exact .stopping (answering.next hq fun hc => (ha _ hc).2 rfl) alarms

/-- Polling takes a turn.  What it asks for is what it waits for from then on, and what it waited
for before has come or is not waited for any more. -/
theorem Fits.turn {p q : Poll} {as : List Poll.Action} (h : w.Fits p.phase)
    (hq : w.queue = i :: queue) (hfresh : countReports answers? w.queue ⟨p.opened⟩ = 0)
    (ht : Poll.Turn p i q as) (hw : Acts { w with queue } as w') : w'.Fits q.phase := by
  rw [hq] at hfresh
  have hnew := countReports_tail hfresh
  cases ht with
  | keep answer tick stop =>
    cases hw
    exact h.next hq answer tick
  | opened phase plain =>
    rw [phase] at h
    cases h with | idle fetches alarms =>
    cases hw.one with | fetch number =>
    exact .fetching (answering_fetch (w := { w with queue }) fetches hnew _) alarms
      (.of_noAnswer hnew)
  | superseded phase plain =>
    rw [phase] at h
    cases h with | stopping answering alarms =>
    obtain ⟨v, hv, hw⟩ := hw.two
    cases hv
    cases hw with | fetch number =>
    -- the fetch of the old cycle is given up, if it has not been answered yet
    have hold := (answering.next hq (by simp [plain.1])).fetches_abandon
    exact .fetching (answering_fetch hold hnew _) alarms (.of_noAnswer hnew)
  | refetched phase noAnswer tick =>
    rw [phase] at h
    cases h with | waiting fetches none waking =>
    obtain ⟨v, hv, hw⟩ := hw.two
    cases hv
    cases hw with | fetch number =>
    -- a report of the timer may be left, but no answer is in front of it
    rw [hq] at none
    have hc := countReports_tail none
    have hr : ({ w with queue } : PollSide).release.alarms = [] := waking.alarms_release
    exact .fetching (answering_fetch (w := { w with queue }.release) fetches hc _) hr
      (.of_noAnswer hc)
  | answered phase answer =>
    rw [phase] at h
    cases h with | fetching answering alarms first =>
    cases hw.one with | startTimer a =>
    -- whatever the timer has reported before is in front of the answer, and gone
    obtain ⟨hf, ha⟩ := answering.received hq answer
    rw [hq] at first
    exact .waiting hf ha (waking_arm (w := { w with queue }) alarms (first.noTick_tail answer))
  | ended phase answer =>
    -- the answer has come
    rw [phase] at h
    cases h with | fetching answering alarms first =>
    cases hw
    exact .idle (answering.received hq answer).1 alarms
  | stopped phase stop =>
    -- the answer is still on its way
    rw [phase] at h
    cases h with | fetching answering alarms first =>
    cases hw.one
    have ha := answering.next hq (by simp [stop.isPlain.1])
    exact .stopping ha (alarms_release_of_nil (w := { w with queue }) alarms)
  | halted phase stop =>
    -- the timer is called off
    rw [phase] at h
    cases h with | waiting fetches none waking =>
    cases hw.one
    exact .idle fetches waking.alarms_release
  | dropped phase answer =>
    rw [phase] at h
    cases h with | stopping answering alarms =>
    cases hw
    exact .idle (answering.received hq answer).1 alarms

/-! ### Soundness -/

/-- What is on its way is what the phase waits for, and the cycles that are to be
heard of have been opened. -/
structure Sound (w : PollSide) (p : Poll) : Prop where
  current : ∀ c, p.phase.cycle? = some c → c.number < p.opened
  answered : ∀ i ∈ w.queue, ∀ c, i.answers? = some c → c.number < p.opened
  fits : w.Fits p.phase

variable {p q : Poll}

theorem Sound.enqueue (h : w.Sound p) (hi : ∀ i ∈ is, i.IsPlain) : (w.enqueue is).Sound p := by
  refine ⟨h.current, List.forall_mem_append.mpr ⟨h.answered, ?_⟩, h.fits.enqueue hi⟩
  intro i hm c hc
  rw [(hi i hm).1] at hc
  cases hc

theorem Sound.answer {number : Nat} (h : w.Sound p) (hm : (number, c) ∈ w.fetches)
    (hi : i.answers? = some c) : (w.answer number i).Sound p := by
  obtain ⟨hp, hf⟩ := h.fits.answer hm hi
  refine ⟨h.current, List.forall_mem_append.mpr ⟨h.answered, List.forall_mem_singleton.mpr ?_⟩, hf⟩
  -- the new answer is of the cycle that the phase names
  intro d hd
  rw [hi] at hd
  cases hd
  exact h.current c hp

theorem Sound.fire {a : Alarm Cycle} (h : w.Sound p) (ha : a ∈ w.alarms) :
    (w.fire a).Sound p := by
  have hn : ∀ c, (Intent.timerFired a.what).answers? = some c → c.number < p.opened := nofun
  refine ⟨h.current, ?_, h.fits.fire ha⟩
  exact List.forall_mem_append.mpr ⟨h.answered, List.forall_mem_singleton.mpr hn⟩

/-- No answer of the cycle that comes next is in the queue. -/
theorem Sound.fresh (h : w.Sound p) : countReports answers? w.queue ⟨p.opened⟩ = 0 := by
  refine countReports_eq_zero.mpr fun i hi hc => ?_
  exact UInt64.lt_irrefl _ (h.answered i hi _ hc)

/-- Polling takes a turn, and the counter does not come round. -/
theorem Sound.turn {as : List Poll.Action} (h : w.Sound p) (hq : w.queue = i :: queue)
    (ht : Poll.Turn p i q as) (hw : Acts { w with queue } as w') (hle : p.opened ≤ q.opened) :
    w'.Sound q := by
  refine ⟨?_, ?_, h.fits.turn hq h.fresh ht hw⟩
  · intro c hc
    rcases ht.cycle? hc with hc | ⟨rfl, rfl⟩
    · exact UInt64.lt_of_lt_of_le (h.current c hc) hle
    · -- a new cycle has the number that the counter had before
      refine UInt64.lt_of_le_of_ne hle ?_
      show p.opened ≠ p.opened + 1
      simp
  · intro j hj d hd
    rw [hw.queue_eq] at hj
    exact UInt64.lt_of_lt_of_le (h.answered j (hq ▸ List.mem_cons_of_mem _ hj) d hd) hle

end PollSide

namespace Store

/-- A store in which what is on its way is what polling waits for. -/
structure Sound (s : Store) : Prop where
  numbered : s.Numbered
  polling : s.pollSide.Sound s.state.poll

theorem sound_initial (interval : Nat) : (initial interval).Sound := by
  refine ⟨numbered_initial interval, ?_, ?_, .idle rfl rfl⟩
  · intro c hc
    cases hc
  · intro i hi
    cases hi

variable {s t : Store} {is : List Intent}

/-- Every operation of every party keeps a store sound, unless the counter of
cycles comes round. -/
theorem Sound.step (h : s.Sound) (hs : Step Intent.IsPlain s is t)
    (hle : s.state.poll.opened ≤ t.state.poll.opened) : t.Sound := by
  refine ⟨h.numbered.step hs, ?_⟩
  have ho := h.numbered.isOpen
  have hp := h.polling
  rw [hs.state_eq] at hle ⊢
  cases hs with
  | send hi =>
    rw [pollSide_send ho]
    exact hp.enqueue (by simpa using hi)
  | start hm =>
    rw [pollSide_start]
    exact hp
  | @finish task hm answer =>
    -- only the answer of a status fetch is a report to polling
    rcases hc : task.request.cycle? with - | c
    · obtain ⟨is, hi, hf⟩ := pollSide_finish_plain h.numbered hm hc answer
      rw [hf]
      exact hp.enqueue hi
    · obtain ⟨i, hi, hf⟩ := pollSide_finish_status ho hc answer
      rw [hf]
      exact hp.answer (mem_fetches_iff.mpr ⟨task, hm, rfl, hc⟩) hi
  | fire hm =>
    rw [pollSide_fire ho]
    exact hp.fire hm
  | advance ms => exact hp
  | @apply i queue hq =>
    have ha := acts_applyNext hq
    rw [State.replay_cons, State.replay_nil, State.poll_after] at hle ⊢
    rw [State.poll_after] at ha
    exact hp.turn hq (Poll.turn _ _) ha hle

/-- What is on its way is what polling waits for, in every run in which fewer than
2 ^ 64 cycles are opened. -/
theorem Run.sound {interval : Nat} (h : Run Intent.IsPlain (initial interval) is s)
    (hn : (State.cycles {} is).length < UInt64.size) : s.Sound := by
  induction h with
  | refl => exact sound_initial interval
  | @tail is js t u hr hs ih =>
    have hn' := State.length_cycles_lt_of_append hn
    -- as long as the counter counts the opened cycles, it does not go down
    refine (ih hn').step hs ?_
    have ht : t.state = State.replay {} is := hr.state_eq
    have hu : u.state = State.replay {} (is ++ js) := (hr.tail hs).state_eq
    rw [ht, hu, UInt64.le_iff_toNat_le, State.opened_replay_toNat hn', State.opened_replay_toNat hn]
    exact State.length_cycles_le ..

end Store

end RunControl
