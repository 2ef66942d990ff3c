/-
RunControl/Proofs/State/Coherence.lean

The parts of a state that repeat others say the same as these (`Coherent`), after
every list of intents (`coherent_replay`).

Each part of a step keeps a state coherent, or makes it so again: `withDevices`
writes the devices together with both notes of whether there are any, `recheck`
follows every change of the roles or of the host's interfaces, and `withMissing`
takes over what the state says about devices.  A step is put together from these
parts, so its proof follows its definition.
-/
import RunControl.State.Step

namespace RunControl

namespace State

/-- The parts of a state that repeat others say the same. -/
structure Coherent (s : State) : Prop where
  hasDevices : s.hasDevices = true ↔ s.devices ≠ []
  hasProfiles : s.hasProfiles = true ↔ s.profiles ≠ []
  roleCheck : s.roleCheck = RoleCheck.derive s.roles s.host
  /-- A note of a missing setting says about devices what the state says. -/
  missing : ∀ m, s.missing = some m → m.hasDevices = s.hasDevices
  /-- The status is fetched by polling, which keeps account of it on its own. -/
  loading : s.loading.get .systemStatus = false

theorem coherent_initial : Coherent {} where
  hasDevices := by simp
  hasProfiles := by simp
  roleCheck := by decide
  missing := nofun
  loading := PerResource.get_const _ _

namespace Coherent

variable {s : State}

/-! ### Parts that change nothing that is repeated -/

theorem onInterface (h : s.Coherent) (f : Interface → Interface) : (s.onInterface f).Coherent :=
  ⟨h.hasDevices, h.hasProfiles, h.roleCheck, h.missing, h.loading⟩

theorem onPoll (h : s.Coherent) (f : Poll → Poll) : (s.onPoll f).Coherent :=
  ⟨h.hasDevices, h.hasProfiles, h.roleCheck, h.missing, h.loading⟩

theorem withStatus (h : s.Coherent) (status : RunStatus) : (s.withStatus status).Coherent :=
  ⟨h.hasDevices, h.hasProfiles, h.roleCheck, h.missing, h.loading⟩

theorem withError (h : s.Coherent) (r : Resource) (f : Failure) : (s.withError r f).Coherent :=
  ⟨h.hasDevices, h.hasProfiles, h.roleCheck, h.missing, h.loading⟩

theorem withoutError (h : s.Coherent) (r : Resource) : (s.withoutError r).Coherent :=
  ⟨h.hasDevices, h.hasProfiles, h.roleCheck, h.missing, h.loading⟩

theorem withUnderTest (h : s.Coherent) (underTest : Option Device) :
    { s with underTest }.Coherent :=
  ⟨h.hasDevices, h.hasProfiles, h.roleCheck, h.missing, h.loading⟩

theorem withConfig (h : s.Coherent) (config : Option SystemConfig) : { s with config }.Coherent :=
  ⟨h.hasDevices, h.hasProfiles, h.roleCheck, h.missing, h.loading⟩

theorem withVersion (h : s.Coherent) (version : Option SystemVersion) :
    { s with version }.Coherent :=
  ⟨h.hasDevices, h.hasProfiles, h.roleCheck, h.missing, h.loading⟩

/-! ### What is awaited -/

/-- An answer is never awaited by way of a mark for the status. -/
theorem await (h : s.Coherent) {r : Resource} (hr : r ≠ .systemStatus) : (s.await r).Coherent := by
  refine ⟨h.hasDevices, h.hasProfiles, h.roleCheck, h.missing, ?_⟩
  show (s.loading.set r true).get .systemStatus = false
  rw [PerResource.get_set_of_ne _ hr.symm, h.loading]

theorem unmark (h : s.Coherent) (r : Resource) :
    { s with loading := s.loading.set r false }.Coherent := by
  refine ⟨h.hasDevices, h.hasProfiles, h.roleCheck, h.missing, ?_⟩
  show (s.loading.set r false).get .systemStatus = false
  rw [PerResource.get_set]
  split
  · rfl
  · exact h.loading

theorem settle (h : s.Coherent) (r : Resource) : (s.settle r).Coherent :=
  (h.unmark r).withoutError r

/-! ### What is repeated -/

theorem withProfiles (h : s.Coherent) (profiles : List Profile) :
    { s with profiles, hasProfiles := !profiles.isEmpty }.Coherent := by
  refine ⟨h.hasDevices, ?_, h.roleCheck, h.missing, h.loading⟩
  show (!profiles.isEmpty) = true ↔ profiles ≠ []
  simp

/-- The roles are checked whenever they change, or the host's interfaces do. -/
theorem recheck (h : s.Coherent) (roles : Roles) (host : Option HostInterfaces) :
    (State.recheck { s with roles, host }).Coherent :=
  ⟨h.hasDevices, h.hasProfiles, rfl, h.missing, h.loading⟩

theorem withDevices (h : s.Coherent) (devices : List Device) :
    (s.withDevices devices).Coherent := by
  refine ⟨?_, h.hasProfiles, h.roleCheck, ?_, h.loading⟩
  · show (!devices.isEmpty) = true ↔ devices ≠ []
    simp
  · intro m hm
    obtain ⟨m', -, rfl⟩ := Option.map_eq_some_iff.mp hm
    rfl

theorem withMissing (h : s.Coherent) (missing : Option MissingSetting) :
    (s.withMissing missing).Coherent := by
  refine ⟨h.hasDevices, h.hasProfiles, h.roleCheck, ?_, h.loading⟩
  intro m hm
  obtain ⟨m', -, rfl⟩ := Option.map_eq_some_iff.mp hm
  rfl

/-! ### Steps -/

theorem acceptFailure (h : s.Coherent) (c : Cycle) (f : Failure) :
    (s.acceptFailure c f).Coherent := by
  unfold State.acceptFailure
  refine (Coherent.withError ?_ ..).onPoll _
  split
  · exact h.withMissing _
  · exact h

theorem acceptConfig (h : s.Coherent) (config : SystemConfig) :
    (s.acceptConfig config).Coherent := by
  unfold State.acceptConfig
  refine Coherent.settle (Coherent.withConfig ?_ _) _
  exact ((h.onInterface _).withMissing _).recheck _ _

theorem startRun (h : s.Coherent) : s.startRun.Coherent := by
  unfold State.startRun
  split
  · exact h.withError ..
  · exact (h.withoutError _).await (by decide)

theorem runStarted (h : s.Coherent) (device : Device) (status : RunStatus) :
    (s.runStarted device status).Coherent := by
  unfold State.runStarted
  refine ((Coherent.onInterface ?_ _).settle _).onPoll _
  split
  · exact h.withStatus _
  · exact (h.withStatus _).withUnderTest _

theorem deleteDevice (h : s.Coherent) (device : Device) : (s.deleteDevice device).Coherent := by
  unfold State.deleteDevice
  split
  · exact h.withError ..
  · exact (h.withoutError _).await (by decide)

theorem requestFailed (h : s.Coherent) (r : Resource) (f : Failure) :
    (s.requestFailed r f).Coherent := by
  unfold State.requestFailed
  split
  · exact ((h.unmark r).withError r f).onInterface _
  · exact (h.unmark r).withError r f

/-- Every intent keeps a state coherent. -/
theorem after (h : s.Coherent) (i : Intent) : (s.after i).Coherent := by
  -- in each case the lemmas stand in the order in which the step is put together
  cases i with
  | toggleMenu | setFocusNavigation _ | setHasConnectionSettings _ | setAddDeviceOpen _
  | setStopRun _ | setWaitNoticeOpen _ | setStartRunOpen _ | setStatusText _ =>
    simp only [State.after]
    exact h.onInterface _
  | fetchInterfaces | fetchConfig | fetchDevices | fetchProfiles | fetchVersion
  | createDevice _ | editDevice _ _ => exact h.await (by decide)
  | rolesFetched roles => exact (h.recheck _ _).settle _
  | hostFetched host => exact (h.recheck _ _).settle _
  | setMissing missing => exact h.withMissing _
  | configFetched config => exact h.acceptConfig _
  | devicesFetched devices => exact (h.withDevices _).settle _
  | setUnderTest device => exact h.withUnderTest _
  | profilesFetched profiles => exact (h.withProfiles _).settle _
  | fetchStatus | timerFired _ | stopPolling => exact h.onPoll _
  | statusFetched c status =>
    simp only [State.after]
    split
    · exact ((h.withStatus _).withoutError _).onPoll _
    · exact h.onPoll _
  | statusFailed c failure =>
    simp only [State.after]
    split
    · exact h.acceptFailure ..
    · exact h.onPoll _
  | setStatus status =>
    simp only [State.after]
    split
    · exact (h.withStatus _).onPoll _
    · exact h.withStatus _
  | failed r failure => exact h.requestFailed ..
  | versionFetched version => exact (h.withVersion _).settle _
  | startRun device => exact h.startRun
  | runStarted device status => exact h.runStarted ..
  | stopRun => exact (h.onInterface _).await (by decide)
  | runStopped => exact (((h.onPoll _).withUnderTest _).onInterface _).settle _
  | deviceCreated device => exact ((h.withDevices _).onInterface _).settle _
  | deviceEdited address device => exact ((h.withDevices _).onInterface _).settle _
  | deleteDevice device => exact h.deleteDevice _
  | deviceDeleted address => exact (h.withDevices _).settle _

/-- So does every list of intents. -/
theorem replay (h : s.Coherent) (is : List Intent) : (s.replay is).Coherent := by
  induction is generalizing s with
  | nil => exact h
  | cons i is ih => exact ih (h.after i)

end Coherent

/-- After every list of intents, the parts of the state that repeat others say the
same. -/
theorem coherent_replay (is : List Intent) : (State.replay {} is).Coherent :=
  coherent_initial.replay is

end State

end RunControl
