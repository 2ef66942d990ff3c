/-
RunControl/Proofs/State/Deletion.lean

Deleting a device while a run of it is under way.  A wish to delete a device is refused if
the device is under test, and only then (`State.isBusy_iff_runOf`); a run that was asked for
but has not been answered has no device yet.

`State.Underway` follows a start from the moment its request is sent until something ends
the run or says that the start failed.  The mark of the start divides that time in two
(`Underway.loading_startRun_iff`).  Once the start is answered, a wish to delete the device
is refused, and nothing changes but the failure that it leaves behind.  While the start is
outstanding the wish is let through (`State.deletion_refused_iff_started`), although a run
counts as active from the time it is asked for (`State.isRunActive`).  So a device can be
deleted while its run is being started (`State.deleted_while_starting`).
-/
import RunControl.Proofs.State.Start
import RunControl.Proofs.State.UnderTest

namespace RunControl

/-- The device that the answer to a start names. -/
def Intent.started? : Intent → Option Device
  | .runStarted device _ => some device
  | _ => none

theorem Intent.started?_eq_none_iff {i : Intent} :
    i.started? = none ↔ ∀ device status, i ≠ .runStarted device status := by
  cases i <;> simp [started?]

theorem Intent.settles?_eq_startRun_iff {i : Intent} :
    i.settles? = some .startRun ↔ i.started? ≠ none ∨ ∃ failure, i = .failed .startRun failure := by
  cases i with
  | failed r failure =>
    simp only [settles?, started?, ne_eq, not_true_eq_false, false_or, failed.injEq]
    constructor
    · intro h
      obtain ⟨-, h⟩ := Option.ite_none_left_eq_some.mp h
      exact ⟨failure, Option.some.inj h, rfl⟩
    · rintro ⟨_, rfl, -⟩
      rfl
  | _ => simp [settles?, started?]

namespace State

variable {s : State} {is before after : List Intent} {i : Intent} {d x : Device}

/-! ### What is refused -/

theorem isBusy_iff :
    s.isBusy x = true ↔
      ∃ d, s.underTest = some d ∧ d.hasAddress x.address = true ∧ s.isRunActive = true := by
  unfold isBusy
  cases s.underTest <;> simp

theorem isRunActive_of_running (h : s.status.isTerminal = false) : s.isRunActive = true := by
  rw [isRunActive, h]
  rfl

/-- While a run is active, no other one is started. -/
theorem refuses_of_isRunActive (h : i.asks? = some .startRun) (ha : s.isRunActive = true) :
    s.refuses i = true := by
  have hb : s.blocker?.isSome = true := by
    unfold blocker?
    cases s.isSettingMissing <;> cases s.roleCheck.isValid <;> cases s.hasDevices <;> simp [ha]
  cases i with
  | startRun device => exact hb
  | _ => cases h

/-- A wish to delete a device is refused exactly while a run goes on of a device with its
address. -/
theorem isBusy_iff_runOf (hu : ∀ device, .setUnderTest device ∉ is) :
    (State.replay {} is).isBusy x = true ↔ ∃ d, RunOf is d ∧ d.hasAddress x.address = true := by
  rw [isBusy_iff]
  constructor
  · rintro ⟨d, hd, hx, -⟩
    exact ⟨d, (underTest_replay hu).mp hd, hx⟩
  · rintro ⟨d, hd, hx⟩
    exact ⟨d, (underTest_replay hu).mpr hd, hx, isRunActive_of_running hd.running⟩

/-- A wish that is refused leaves a failure behind, and nothing else. -/
theorem after_deleteDevice_of_isBusy (h : s.isBusy x = true) :
    s.after (.deleteDevice x) =
      { s with errors := s.errors.set .deleteDevice (some busyDevice) } := by
  simp only [after, deleteDevice, h, if_true]
  rfl

/-- The request to delete a device is sent if the wish is not refused and no other one is
under way. -/
theorem send_deleteDevice_mem_effects :
    .send (.deleteDevice x) ∈ s.effects (s.after (.deleteDevice x)) (.deleteDevice x) ↔
      s.isBusy x = false ∧ s.loading.get .deleteDevice = false := by
  have hq : s.request? (s.after (.deleteDevice x)) (.deleteDevice x) = some (.deleteDevice x) ↔
      s.begins (s.after (.deleteDevice x)) .deleteDevice = true := by
    simp [request?]
  have hb : s.begins (s.after (.deleteDevice x)) .deleteDevice =
      (!s.loading.get .deleteDevice && !s.isBusy x) := begins_after rfl
  rw [send_mem_effects_iff rfl, hq, hb, Bool.and_eq_true, Bool.not_eq_true', Bool.not_eq_true']
  exact and_comm

/-! ### From the request for a run to its end -/

theorem underTest_after_of_not_ends (hu : ∀ device, i ≠ .setUnderTest device) (he : ¬s.Ends i) :
    (s.after i).underTest = i.started?.or s.underTest := by
  rcases hs : i.started? with - | e
  · rw [underTest_after_of_neither hu (Intent.started?_eq_none_iff.mp hs) he]
    rfl
  · cases i with
    | runStarted device status =>
      obtain rfl : device = e := Option.some.inj hs
      exact underTest_after_runStarted s device
        (Bool.eq_false_iff.mpr fun ht => he (.runStarted device ht))
    | _ => cases hs

theorem underTest_eq_none_of_terminal (hu : ∀ device, .setUnderTest device ∉ is)
    (h : (State.replay {} is).status.isTerminal = true) :
    (State.replay {} is).underTest = none := by
  refine Option.eq_none_iff_forall_ne_some.mpr fun e he => ?_
  have hrun := ((underTest_replay hu).mp he).running
  rw [h] at hrun
  cases hrun

/-- After a list of intents the request for a run of a device was sent; none of the intents
that came then has ended a run or says that the start failed. -/
structure Underway (before : List Intent) (d : Device) (after : List Intent) : Prop where
  sent : .send (.startRun d) ∈ (State.replay {} before).effects
    ((State.replay {} before).after (.startRun d)) (.startRun d)
  notFailed : ∀ failure, .failed .startRun failure ∉ after
  notEnded : ∀ pre j post, after = pre ++ j :: post →
    ¬(State.replay {} (before ++ .startRun d :: pre)).Ends j

namespace Underway

theorem of_concat (h : Underway before d (after ++ [i])) : Underway before d after where
  sent := h.sent
  notFailed failure hm := h.notFailed failure (List.mem_append_left _ hm)
  notEnded pre j post hl := h.notEnded pre j (post ++ [i]) (by simp [hl])

theorem not_ends (h : Underway before d (after ++ [i])) :
    ¬(State.replay {} (before ++ .startRun d :: after)).Ends i :=
  h.notEnded after i [] rfl

/-- The request was sent, so the start was not blocked. -/
theorem ready (h : Underway before d after) : (State.replay {} before).Ready := by
  obtain ⟨-, hs⟩ := send_startRun_mem_effects.mp h.sent
  exact (sends?_startRun_iff (coherent_initial.replay before) d).mp hs

/-- The device under test is the one that the last answer to a start names; until a start is
answered there is none. -/
theorem underTest_eq (h : Underway before d after)
    (hu : ∀ device, .setUnderTest device ∉ before ++ .startRun d :: after) :
    (State.replay {} (before ++ .startRun d :: after)).underTest =
      (after.filterMap Intent.started?).getLast? := by
  induction after using List.reverseRecOn with
  | nil =>
    -- a run can only be asked for while none goes on, and asking names no device
    have hb : (State.replay {} before).underTest = none :=
      underTest_eq_none_of_terminal (fun device hm => hu device (by simp [hm])) h.ready.terminal
    have he : ¬(State.replay {} before).Ends (.startRun d) := by
      intro he
      cases he
    rw [replay_append, replay_cons, replay_nil, underTest_after_of_not_ends (by simp) he, hb]
    rfl
  | append_singleton after i ih =>
    have hl : before ++ .startRun d :: (after ++ [i]) = before ++ .startRun d :: after ++ [i] := by
      simp
    rw [hl] at hu ⊢
    have ih := ih h.of_concat fun device hm => hu device (List.mem_append_left _ hm)
    have hi : ∀ device, i ≠ .setUnderTest device := by
      rintro device rfl
      exact hu device (by simp)
    have hlast : ([i].filterMap Intent.started?).getLast? = i.started? := by
      cases hs : i.started? <;> simp [hs]
    rw [replay_append, replay_cons, replay_nil, underTest_after_of_not_ends hi h.not_ends, ih,
      List.filterMap_append, List.getLast?_append, hlast]

/-- The run is active all the time: first it is being started, then its device is under test. -/
theorem isRunActive (h : Underway before d after)
    (hu : ∀ device, .setUnderTest device ∉ before ++ .startRun d :: after)
    (hl : (State.replay {} (before ++ .startRun d :: after)).loading.get .startRun = true ↔
      after.filterMap Intent.started? = []) :
    (State.replay {} (before ++ .startRun d :: after)).isRunActive = true := by
  rcases hs : after.filterMap Intent.started? with - | ⟨e, es⟩
  · rw [State.isRunActive, hl.mpr hs, Bool.or_true]
  · -- a start was answered, so a device is under test
    have hd := h.underTest_eq hu
    rw [hs] at hd
    have hlast := List.getLast?_eq_some_getLast (List.cons_ne_nil e es)
    exact isRunActive_of_running ((underTest_replay hu).mp (hd.trans hlast)).running

/-- The mark of the start is set until a start is answered. -/
theorem loading_startRun_iff (h : Underway before d after)
    (hu : ∀ device, .setUnderTest device ∉ before ++ .startRun d :: after) :
    (State.replay {} (before ++ .startRun d :: after)).loading.get .startRun = true ↔
      after.filterMap Intent.started? = [] := by
  induction after using List.reverseRecOn with
  | nil =>
    -- the request sets the mark
    have hb : (State.replay {} before).blocker? = none :=
      (blocker?_eq_none_iff (coherent_initial.replay before)).mpr h.ready
    have hl : (State.replay {} (before ++ [.startRun d])).loading.get .startRun = true := by
      rw [replay_append, replay_cons, replay_nil, get_loading_after _ _ (by decide)]
      simp [Intent.settles?, Intent.asks?, refuses, hb]
    exact iff_of_true hl rfl
  | append_singleton after i ih =>
    have hl : before ++ .startRun d :: (after ++ [i]) = before ++ .startRun d :: after ++ [i] := by
      simp
    rw [hl] at hu ⊢
    have hu' : ∀ device, .setUnderTest device ∉ before ++ .startRun d :: after :=
      fun device hm => hu device (List.mem_append_left _ hm)
    have ih := ih h.of_concat hu'
    have hactive := h.of_concat.isRunActive hu' ih
    rw [replay_append, replay_cons, replay_nil, get_loading_after _ _ (by decide),
      List.filterMap_append]
    rcases hs : i.started? with - | e
    · -- the run is active: so no other one is asked for, and what has been said stays
      have hsettle : i.settles? ≠ some .startRun := by
        rw [Ne, Intent.settles?_eq_startRun_iff]
        rintro (hne | ⟨f, rfl⟩)
        · exact hne hs
        · exact h.notFailed f (by simp)
      have hask : ¬(i.asks? = some .startRun ∧
          (State.replay {} (before ++ .startRun d :: after)).refuses i = false) := by
        rintro ⟨ha, hr⟩
        rw [refuses_of_isRunActive ha hactive] at hr
        cases hr
      rw [if_neg hsettle, if_neg hask, ih]
      simp [hs]
    · -- an answer to the start clears the mark
      have hsettle : i.settles? = some .startRun :=
        Intent.settles?_eq_startRun_iff.mpr (.inl (by simp [hs]))
      rw [if_pos hsettle]
      simp [hs]

end Underway

/-! ### Deletion -/

/-- A run of a device was asked for, and nothing has ended it or said that its start failed.
If the start has been answered, a wish to delete the device that the answer names is refused,
by whatever case its address is written: nothing is to be done, and the failure that says so is
all that changes.  If it has not, a wish to delete any device is let through. -/
theorem deletion_refused_iff_started (h : Underway before d after)
    (hu : ∀ device, .setUnderTest device ∉ before ++ .startRun d :: after) :
    let s := State.replay {} (before ++ .startRun d :: after)
    (s.loading.get .startRun = false →
      ∃ e, (after.filterMap Intent.started?).getLast? = some e ∧
        ∀ x : Device, e.hasAddress x.address = true →
          s.effects (s.after (.deleteDevice x)) (.deleteDevice x) = [] ∧
          s.after (.deleteDevice x) =
            { s with errors := s.errors.set .deleteDevice (some busyDevice) }) ∧
    (s.loading.get .startRun = true → ∀ x : Device,
      (.send (.deleteDevice x) ∈ s.effects (s.after (.deleteDevice x)) (.deleteDevice x) ↔
        s.loading.get .deleteDevice = false)) := by
  intro s
  have hloading := h.loading_startRun_iff hu
  have hd := h.underTest_eq hu
  have hactive := h.isRunActive hu hloading
  refine ⟨fun hl => ?_, fun hl x => ?_⟩
  · -- a start was answered: its device is under test, so it is found to be busy
    have hne : after.filterMap Intent.started? ≠ [] := by
      intro hnil
      rw [hloading.mpr hnil] at hl
      cases hl
    refine ⟨_, List.getLast?_eq_some_getLast hne, fun x hx => ?_⟩
    rw [List.getLast?_eq_some_getLast hne] at hd
    have hb : s.isBusy x = true := isBusy_iff.mpr ⟨_, hd, hx, hactive⟩
    exact ⟨effects_of_refuses hb, after_deleteDevice_of_isBusy hb⟩
  · -- none was answered: without a device under test no device is busy
    rw [hloading.mp hl] at hd
    have hb : s.isBusy x = false := by
      rw [← Bool.not_eq_true, isBusy_iff]
      rintro ⟨e, he, -⟩
      cases he.symm.trans hd
    rw [send_deleteDevice_mem_effects]
    exact and_iff_right hb

/-- A run is started, and its device is to be deleted under an address in capitals. -/
theorem deletion_refused_once_started :
    let d : Device := { address := "aa:01" }
    let before : List Intent :=
      [.devicesFetched [d], .rolesFetched { internet := some "eth0", device := some "eth1" }]
    let after : List Intent := [.runStarted d { stage := .inProgress }]
    let s := State.replay {} (before ++ .startRun d :: after)
    Underway before d after ∧ (∀ device, .setUnderTest device ∉ before ++ .startRun d :: after) ∧
      (s.after (.deleteDevice { address := "AA:01" })).errors.get .deleteDevice = some busyDevice ∧
      (s.after (.deleteDevice { address := "AA:01" })).devices = [d] := by
  intro d before after s
  have hrun : Underway before d after :=
    { sent := by decide
      notFailed := by simp [after]
      notEnded := by
        intro pre j post hl he
        rcases (concat_eq_append_cons_iff (l := [])).mp hl with ⟨-, rfl, -⟩ | ⟨rest, -, hl⟩
        · cases he with | runStarted _ terminal =>
          cases terminal
        · simp at hl }
  have hu : ∀ device, .setUnderTest device ∉ before ++ .startRun d :: after := by
    simp [before, after]
  obtain ⟨e, he, hx⟩ := (deletion_refused_iff_started hrun hu).1 rfl
  obtain rfl : d = e := Option.some.inj he
  obtain ⟨-, hafter⟩ := hx { address := "AA:01" } (by decide)
  refine ⟨hrun, hu, ?_, ?_⟩
  · rw [hafter]
    exact PerResource.get_set_self _ _ _
  · rw [hafter]
    rfl

/-- A device is to be deleted while its run is being started: the request is sent, and when
both requests have been answered, a device is under test that is registered no longer. -/
theorem deleted_while_starting :
    let d : Device := { address := "aa:01" }
    let before : List Intent :=
      [.devicesFetched [d], .rolesFetched { internet := some "eth0", device := some "eth1" }]
    let s := State.replay {} (before ++ [.startRun d])
    let t := s.replay
      [.deleteDevice d, .runStarted d { stage := .inProgress }, .deviceDeleted d.address]
    Underway before d [] ∧
      .send (.deleteDevice d) ∈ s.effects (s.after (.deleteDevice d)) (.deleteDevice d) ∧
      (s.after (.deleteDevice d)).errors.get .deleteDevice = none ∧
      t.underTest = some d ∧ t.devices = [] := by
  intro d before s t
  have hrun : Underway before d [] :=
    { sent := by decide
      notFailed := by simp
      notEnded := by simp }
  exact ⟨hrun, by decide, by decide, rfl, by decide⟩

end State

end RunControl
