/-
RunControl/Proofs/State/Start.lean

When a run is asked for.  `State.Ready` says in terms of the data alone what has to
be given: no setting is missing, the two roles name different interfaces that the
host has, there is a device, the status is terminal and no start is under way.  The
state itself looks at notes of these data instead (`roleCheck`, `hasDevices`), which
is the same for every state that intents can reach, as these are coherent
(`State.blocker?_eq_none_iff`).

So a request to start a run is sent exactly when one is asked for in a state that is
ready; in any other state the wish is refused, and nothing else happens
(`State.startRun_sent_iff_ready`).
-/
import RunControl.Proofs.State.Coherence
import RunControl.Proofs.State.Requests

namespace RunControl

/-! ### Usable roles -/

namespace Roles

/-- A role names an interface: its text is `name` but for the blanks around it, and the
host has `name`, as far as its interfaces are known. -/
structure Names (host : Option HostInterfaces) (role : Option String) (name : String) : Prop where
  text : ∃ text, role = some text ∧ Text.trim text = name
  notBlank : name ≠ ""
  present : ∀ interfaces, host = some interfaces → interfaces.contains name = true

/-- The two roles name different interfaces. -/
def Usable (roles : Roles) (host : Option HostInterfaces) : Prop :=
  ∃ internet device, Names host roles.internet internet ∧ Names host roles.device device ∧
    internet ≠ device

end Roles

namespace RoleCheck

open Roles

variable {host : Option HostInterfaces} {role : Option String} {name : String}

theorem nameOf?_eq_some_iff {text : String} :
    nameOf? text = some name ↔ Text.trim text = name ∧ name ≠ "" := by
  simp only [nameOf?, Option.ite_none_left_eq_some, Option.some.injEq, String.isEmpty_iff]
  constructor
  · rintro ⟨hne, rfl⟩
    exact ⟨rfl, hne⟩
  · rintro ⟨rfl, hne⟩
    exact ⟨hne, rfl⟩

/-- A candidate is what a role names, if the host has it or has not been asked yet. -/
theorem candidate?_eq_some_iff : candidate? host role = some name ↔ Names host role name := by
  constructor
  · intro h
    obtain ⟨text, hr, h⟩ := Option.bind_eq_some_iff.mp h
    obtain ⟨n, hn, h⟩ := Option.bind_eq_some_iff.mp h
    obtain ⟨ht, hb⟩ := nameOf?_eq_some_iff.mp hn
    cases host with
    | none =>
      cases h
      exact ⟨⟨text, hr, ht⟩, hb, nofun⟩
    | some interfaces =>
      obtain ⟨hc, h⟩ := Option.ite_none_right_eq_some.mp h
      cases h
      refine ⟨⟨text, hr, ht⟩, hb, ?_⟩
      rintro _ ⟨⟩
      exact hc
  · rintro ⟨⟨text, hr, ht⟩, hb, hh⟩
    refine Option.bind_eq_some_iff.mpr ⟨text, hr, ?_⟩
    refine Option.bind_eq_some_iff.mpr ⟨name, nameOf?_eq_some_iff.mpr ⟨ht, hb⟩, ?_⟩
    cases host with
    | none => rfl
    | some interfaces => exact if_pos (hh interfaces rfl)

/-- The check of the roles passes exactly the usable ones. -/
theorem isValid_derive_iff {roles : Roles} :
    (derive roles host).isValid = true ↔ roles.Usable host := by
  have hv : (derive roles host).isValid = true ↔
      ∃ a b, candidate? host roles.internet = some a ∧ candidate? host roles.device = some b ∧
        a ≠ b := by
    simp only [derive, isValid]
    cases candidate? host roles.internet <;> cases candidate? host roles.device <;> simp
  simp only [hv, candidate?_eq_some_iff, Usable]

end RoleCheck

namespace State

/-! ### States in which a run can be started -/

/-- All that a start needs, in terms of the data. -/
structure Ready (s : State) : Prop where
  noneMissing : ∀ m, s.missing = some m → m.isMissing = false
  roles : s.roles.Usable s.host
  devices : s.devices ≠ []
  terminal : s.status.isTerminal = true
  noStart : s.loading.get .startRun = false

variable {s : State} {i : Intent}

/-- What speaks against a start is read off notes; in a coherent state these say what the
data say. -/
theorem blocker?_eq_none_iff (h : s.Coherent) : s.blocker? = none ↔ s.Ready := by
  have hm : s.isSettingMissing = false ↔ ∀ m, s.missing = some m → m.isMissing = false := by
    unfold isSettingMissing
    cases s.missing <;> simp
  have hr : s.roleCheck.isValid = true ↔ s.roles.Usable s.host := by
    rw [h.roleCheck, RoleCheck.isValid_derive_iff]
  have ha : s.isRunActive = false ↔
      s.status.isTerminal = true ∧ s.loading.get .startRun = false := by
    simp [isRunActive]
  have hb : s.blocker? = none ↔ s.isSettingMissing = false ∧ s.roleCheck.isValid = true ∧
      s.hasDevices = true ∧ s.isRunActive = false := by
    unfold blocker?
    cases s.isSettingMissing <;> cases s.roleCheck.isValid <;> cases s.hasDevices <;>
      cases s.isRunActive <;> simp
  rw [hb, hm, hr, h.hasDevices, ha]
  constructor
  · rintro ⟨noneMissing, roles, devices, terminal, noStart⟩
    exact ⟨noneMissing, roles, devices, terminal, noStart⟩
  · rintro ⟨noneMissing, roles, devices, terminal, noStart⟩
    exact ⟨noneMissing, roles, devices, terminal, noStart⟩

/-! ### Starting a run -/

/-- A request to start a run is sent by nothing but the wish for one, and for the same
device. -/
theorem send_startRun_mem_effects {device : Device} :
    .send (.startRun device) ∈ s.effects (s.after i) i ↔
      i = .startRun device ∧ s.sends? i = some .startRun := by
  have hq : s.request? (s.after i) i = some (.startRun device) ↔
      i = .startRun device ∧ s.sends? i = some .startRun := by
    constructor
    · intro h
      refine ⟨?_, by rw [sends?, h]; rfl⟩
      cases i <;> simp_all [request?]
    · rintro ⟨rfl, h⟩
      obtain ⟨q, hq, -⟩ := Option.map_eq_some_iff.mp h
      obtain ⟨hb, -⟩ := Option.ite_none_right_eq_some.mp hq
      exact if_pos hb
  rw [send_mem_effects_iff rfl, hq]

/-- A start is sent exactly in a state that is ready. -/
theorem sends?_startRun_iff (h : s.Coherent) (device : Device) :
    s.sends? (.startRun device) = some .startRun ↔ s.Ready := by
  rw [sends?_eq_some_iff, ← blocker?_eq_none_iff h]
  constructor
  · rintro ⟨-, hf, -⟩
    simpa [refuses] using hf
  · intro hb
    refine ⟨rfl, by simp [refuses, hb], fun _ => ?_⟩
    exact ((blocker?_eq_none_iff h).mp hb).noStart

/-- A start that is refused leaves a failure behind, and nothing else. -/
theorem after_startRun_of_blocker? {b : Blocker} (device : Device) (h : s.blocker? = some b) :
    s.after (.startRun device) =
      { s with
        errors := s.errors.set .startRun (some { kind := .rejected, message := b.text }) } := by
  simp only [after, startRun, h]
  rfl

/-- In every state that intents can reach, a request to start a run is sent exactly if a run
is asked for, with the same device, and all that a start needs is given.  If something is
not given, nothing is to be done, and the refusal is all that changes. -/
theorem startRun_sent_iff_ready (is : List Intent) (i : Intent) :
    let s := State.replay {} is
    (∀ device, .send (.startRun device) ∈ s.effects (s.after i) i ↔
      i = .startRun device ∧ s.Ready) ∧
    ∀ device, i = .startRun device → ¬s.Ready →
      s.effects (s.after i) i = [] ∧
        ∃ b : Blocker, s.after i =
          { s with
            errors := s.errors.set .startRun (some { kind := .rejected, message := b.text }) } := by
  intro s
  have hs : s.Coherent := coherent_initial.replay is
  refine ⟨?_, ?_⟩
  · intro device
    rw [send_startRun_mem_effects]
    constructor
    · rintro ⟨rfl, h⟩
      exact ⟨rfl, (sends?_startRun_iff hs device).mp h⟩
    · rintro ⟨rfl, h⟩
      exact ⟨rfl, (sends?_startRun_iff hs device).mpr h⟩
  · rintro device rfl hr
    rw [← blocker?_eq_none_iff hs] at hr
    obtain ⟨b, hb⟩ := Option.ne_none_iff_exists'.mp hr
    have hf : s.refuses (.startRun device) = true := by simp [refuses, hb]
    exact ⟨effects_of_refuses hf, b, after_startRun_of_blocker? device hb⟩

/-- A run is started once there are a device and two roles, and not while the two roles
differ in nothing but blanks. -/
theorem startRun_sent_once_roles_differ :
    let device : Device := { address := "aa:01" }
    let prepare (internet : String) : List Intent :=
      [.devicesFetched [device], .rolesFetched { internet := some internet, device := some "eth1" }]
    let s := State.replay {} (prepare "eth0 ")
    let t := State.replay {} (prepare "eth1 ")
    .send (.startRun device) ∈ s.effects (s.after (.startRun device)) (.startRun device) ∧
      t.effects (t.after (.startRun device)) (.startRun device) = [] := by
  intro device prepare s t
  have hs : s.Ready :=
    { noneMissing := nofun
      roles := ⟨"eth0", "eth1", ⟨⟨_, rfl, by decide⟩, by decide, nofun⟩,
        ⟨⟨_, rfl, by decide⟩, by decide, nofun⟩, by decide⟩
      devices := List.cons_ne_nil _ _
      terminal := rfl
      noStart := rfl }
  have ht : ¬t.Ready := by
    intro h
    obtain ⟨a, b, ⟨⟨_, ⟨⟩, ha⟩, -, -⟩, ⟨⟨_, ⟨⟩, hb⟩, -, -⟩, hne⟩ := h.roles
    -- without the blanks both names are the same
    exact hne (ha.symm.trans ((by decide : Text.trim "eth1 " = Text.trim "eth1").trans hb))
  refine ⟨?_, ?_⟩
  · exact ((startRun_sent_iff_ready (prepare "eth0 ") (.startRun device)).1 device).mpr ⟨rfl, hs⟩
  · exact ((startRun_sent_iff_ready (prepare "eth1 ") (.startRun device)).2 device rfl ht).1

end State

end RunControl
