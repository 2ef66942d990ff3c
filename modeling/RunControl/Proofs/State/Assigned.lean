/-
RunControl/Proofs/State/Assigned.lean

Which interfaces play the two roles, and which of them can do so, after any history.

Three parts of a state are about interfaces: those that the host has, the configuration, and
the roles.  They change with the rest of the state left aside, like a machine of its own
(`State.wiring_after`).  Unless roles are assigned by hand, they are at every time those of the
configuration that came last (`State.wiring_replay`), in whichever order it and the host's
interfaces were fetched.

Names are trimmed twice on the way, once when the roles are taken from the configuration and
once when they are checked, and the two roles are compared only after those have been left out
that the host does not have.  Neither shows in the end: a role can be played exactly if its name
is not blank, is not the other role's name, and is known to the host as far as that is known
(`RoleCheck.passes_roles_iff`).

Main statement: `State.roles_follow_loads`.
-/
import Mathlib.Data.List.Induction
import RunControl.Proofs.State.Start
import RunControl.Proofs.Text.Trimming

namespace RunControl

/-! ### The two roles -/

/-- A role that an interface can play. -/
inductive Role where
  | internet
  | device
  deriving DecidableEq

namespace Role

/-- The other one of the two roles. -/
def other : Role → Role
  | internet => device
  | device => internet

end Role

/-- The name that a configuration has for a role, as it is written there. -/
def SystemConfig.written (c : SystemConfig) : Role → String
  | .internet => c.network.internetInterface
  | .device => c.network.deviceInterface

/-- The interface that plays a role. -/
def Roles.player? (roles : Roles) : Role → Option String
  | .internet => roles.internet
  | .device => roles.device

/-- Whether a role passes the check. -/
def RoleCheck.passes (check : RoleCheck) : Role → Bool
  | .internet => check.internet
  | .device => check.device

variable {host : Option HostInterfaces} {r : Role}

theorem SystemConfig.player?_roles (c : SystemConfig) (r : Role) :
    c.network.roles.player? r = nameOf? (c.written r) := by
  cases r <;> simp only [Roles.player?, Network.roles, SystemConfig.written]

theorem SystemConfig.player?_roles_eq_some_iff {c : SystemConfig} {name : String} :
    c.network.roles.player? r = some name ↔ Text.trim (c.written r) = name ∧ name ≠ "" := by
  rw [SystemConfig.player?_roles, RoleCheck.nameOf?_eq_some_iff]

/-! ### Which roles pass the check -/

/-- The name of a role is that of an interface that can play it, as far as the host is known,
and the other role has another name. -/
def SystemConfig.Playable (c : SystemConfig) (host : Option HostInterfaces) (r : Role) : Prop :=
  let name := Text.trim (c.written r)
  name ≠ "" ∧ name ≠ Text.trim (c.written r.other) ∧
    ∀ interfaces, host = some interfaces → interfaces.contains name = true

namespace RoleCheck

open Roles

/-- A role passes if it names an interface and the other one does not name the same. -/
theorem passes_derive_iff {roles : Roles} :
    (derive roles host).passes r = true ↔
      ∃ name, Names host (roles.player? r) name ∧ ¬Names host (roles.player? r.other) name := by
  simp only [← candidate?_eq_some_iff]
  cases r with
  | internet =>
    show (derive roles host).internet = true ↔ ∃ name, candidate? host roles.internet = some name ∧
      ¬candidate? host roles.device = some name
    unfold derive
    rcases candidate? host roles.internet with - | a
    · simp
    · -- the check compares the two the other way round
      by_cases hb : candidate? host roles.device = some a
      · simp [hb]
      · simp [hb, Ne.symm hb]
  | device =>
    show (derive roles host).device = true ↔ ∃ name, candidate? host roles.device = some name ∧
      ¬candidate? host roles.internet = some name
    unfold derive
    rcases candidate? host roles.device with - | b
    · simp
    · cases candidate? host roles.internet <;> simp

/-- A name from the configuration is trimmed before it is checked. -/
theorem names_player?_iff {c : SystemConfig} {name : String} :
    Names host (c.network.roles.player? r) name ↔ Text.trim (c.written r) = name ∧ name ≠ "" ∧
      ∀ interfaces, host = some interfaces → interfaces.contains name = true := by
  constructor
  · rintro ⟨⟨text, hr, ht⟩, hb, hp⟩
    obtain ⟨rfl, -⟩ := SystemConfig.player?_roles_eq_some_iff.mp hr
    rw [Text.trim_trim] at ht
    exact ⟨ht, hb, hp⟩
  · rintro ⟨rfl, hb, hp⟩
    exact ⟨⟨_, SystemConfig.player?_roles_eq_some_iff.mpr ⟨rfl, hb⟩, Text.trim_trim _⟩, hb, hp⟩

/-- That the host has an interface does not matter for the comparison of the roles: two roles
with the same name both have it or both have not. -/
theorem passes_roles_iff {c : SystemConfig} :
    (derive c.network.roles host).passes r = true ↔ c.Playable host r := by
  simp only [passes_derive_iff, names_player?_iff]
  constructor
  · rintro ⟨_, ⟨rfl, hb, hp⟩, hne⟩
    exact ⟨hb, fun he => hne ⟨he.symm, hb, hp⟩, hp⟩
  · rintro ⟨hb, hne, hp⟩
    exact ⟨_, ⟨rfl, hb, hp⟩, fun h => hne h.1.symm⟩

/-- Without roles, none passes. -/
theorem passes_derive_unassigned : (derive {} host).passes r = false := by
  cases r <;> rfl

end RoleCheck

/-! ### What is known about interfaces -/

/-- The parts of a state that are about interfaces, but for the check of the roles. -/
structure Wiring where
  host : Option HostInterfaces := none
  config : Option SystemConfig := none
  roles : Roles := {}

namespace Intent

/-- The configuration that an intent brings. -/
def config? : Intent → Option SystemConfig
  | .configFetched config => some config
  | _ => none

/-- The interfaces of the host that an intent brings. -/
def host? : Intent → Option HostInterfaces
  | .hostFetched host => some host
  | _ => none

end Intent

namespace Wiring

/-- The roles of a configuration, if there is one. -/
def rolesOf : Option SystemConfig → Roles
  | some config => config.network.roles
  | none => {}

/-- What becomes of what is known about interfaces with an intent. -/
def after (w : Wiring) : Intent → Wiring
  | .rolesFetched roles => { w with roles }
  | .hostFetched host =>
    { w with
      host := some host
      roles :=
        match w.config with
        | some config => config.network.roles
        | none => w.roles }
  | .configFetched config => { w with config := some config, roles := config.network.roles }
  | _ => w

end Wiring

namespace State

/-- What a state knows about interfaces. -/
def wiring (s : State) : Wiring where
  host := s.host
  config := s.config
  roles := s.roles

/-- What is known about interfaces depends on nothing else. -/
theorem wiring_after (s : State) (i : Intent) : (s.after i).wiring = s.wiring.after i := by
  -- where the other cases branch, neither branch touches it
  cases i with
  | configFetched config =>
    simp only [after, acceptConfig, settle, recheck, withMissing, onInterface, wiring,
      Wiring.after]
  | statusFetched c status =>
    simp only [after]
    split <;> rfl
  | statusFailed c failure =>
    simp only [after, acceptFailure]
    split
    · split <;> rfl
    · rfl
  | setStatus status =>
    simp only [after]
    split <;> rfl
  | failed r failure =>
    simp only [after, requestFailed]
    split <;> rfl
  | startRun device =>
    simp only [after, startRun]
    split <;> rfl
  | runStarted device status =>
    simp only [after, runStarted]
    split <;> rfl
  | deleteDevice device =>
    simp only [after, deleteDevice]
    split <;> rfl
  | _ => rfl

/-! ### Histories -/

/-- The configuration that came last. -/
def lastConfig? (is : List Intent) : Option SystemConfig :=
  (is.filterMap Intent.config?).getLast?

/-- The interfaces of the host that came last. -/
def lastHost? (is : List Intent) : Option HostInterfaces :=
  (is.filterMap Intent.host?).getLast?

theorem getLast?_filterMap_concat {α β : Type} (f : α → Option β) (l : List α) (a : α) :
    ((l ++ [a]).filterMap f).getLast? = (f a).or (l.filterMap f).getLast? := by
  rw [List.filterMap_append]
  cases h : f a with
  | none => simp [h]
  | some b => simp [h]

theorem lastConfig?_concat (is : List Intent) (i : Intent) :
    lastConfig? (is ++ [i]) = i.config?.or (lastConfig? is) :=
  getLast?_filterMap_concat ..

theorem lastHost?_concat (is : List Intent) (i : Intent) :
    lastHost? (is ++ [i]) = i.host?.or (lastHost? is) :=
  getLast?_filterMap_concat ..

/-- Unless roles are assigned by hand, all that is known about interfaces goes back to the
configuration and the host's interfaces that came last. -/
theorem wiring_replay {is : List Intent} (hr : ∀ roles, .rolesFetched roles ∉ is) :
    (State.replay {} is).wiring =
      { host := lastHost? is, config := lastConfig? is
        roles := Wiring.rolesOf (lastConfig? is) } := by
  induction is using List.reverseRecOn with
  | nil => rfl
  | append_singleton is i ih =>
    have hi : ∀ roles, i ≠ .rolesFetched roles := by
      rintro roles rfl
      exact hr roles (by simp)
    have hw := ih fun roles h => hr roles (List.mem_append_left _ h)
    rw [replay_append, replay_cons, replay_nil, wiring_after, hw, lastHost?_concat,
      lastConfig?_concat]
    cases i with
    | rolesFetched roles => exact absurd rfl (hi roles)
    | hostFetched host =>
      -- the roles are read off the configuration once more
      show Wiring.after _ (.hostFetched host) = _
      simp only [Wiring.after, Intent.host?, Intent.config?, Option.some_or, Option.none_or]
      cases lastConfig? is <;> rfl
    | configFetched config => rfl
    | _ => rfl

theorem passes_replay_iff {is : List Intent} (hr : ∀ roles, .rolesFetched roles ∉ is) {r : Role} :
    (State.replay {} is).roleCheck.passes r = true ↔
      ∃ c, lastConfig? is = some c ∧ c.Playable (lastHost? is) r := by
  have hw := wiring_replay hr
  have hhost : (State.replay {} is).host = lastHost? is := congrArg Wiring.host hw
  have hroles : (State.replay {} is).roles = Wiring.rolesOf (lastConfig? is) :=
    congrArg Wiring.roles hw
  rw [(coherent_initial.replay is).roleCheck, hhost, hroles]
  cases lastConfig? is with
  | none =>
    show (RoleCheck.derive {} _).passes r = true ↔ _
    simp [RoleCheck.passes_derive_unassigned]
  | some c =>
    show (RoleCheck.derive c.network.roles _).passes r = true ↔ _
    simp [RoleCheck.passes_roles_iff]

/-- Unless roles are assigned by hand, they follow the two loads that came last, in whichever
order these came and whatever else happened.  The roles are the names of the configuration,
trimmed and not blank, and there are none without a configuration.  A role passes the check
exactly if its name is not blank, is not the name of the other role, and is that of an interface
of the host, if these have been fetched.  So if both roles have one name, neither passes, and a
role that passes goes on to do so with every host that has more interfaces. -/
theorem roles_follow_loads {is : List Intent} (hr : ∀ roles, .rolesFetched roles ∉ is) :
    let s := State.replay {} is
    (∀ r name, s.roles.player? r = some name ↔
      ∃ c, lastConfig? is = some c ∧ Text.trim (c.written r) = name ∧ name ≠ "") ∧
    (∀ r, s.roleCheck.passes r = true ↔
      ∃ c, lastConfig? is = some c ∧ c.Playable (lastHost? is) r) ∧
    (∀ c, lastConfig? is = some c →
      Text.trim (c.written .internet) = Text.trim (c.written .device) →
        ∀ r, s.roleCheck.passes r = false) ∧
    ∀ js host host', (∀ roles, .rolesFetched roles ∉ js) → lastConfig? js = lastConfig? is →
      lastHost? is = some host → lastHost? js = some host' →
      (∀ name, host.contains name = true → host'.contains name = true) →
        ∀ r, s.roleCheck.passes r = true → (State.replay {} js).roleCheck.passes r = true := by
  intro s
  refine ⟨?_, fun r => passes_replay_iff hr, ?_, ?_⟩
  · -- which roles there are
    intro r name
    have hroles : s.roles = Wiring.rolesOf (lastConfig? is) :=
      congrArg Wiring.roles (wiring_replay hr)
    rw [hroles]
    cases lastConfig? is with
    | none => cases r <;> simp [Wiring.rolesOf, Roles.player?]
    | some c =>
      show c.network.roles.player? r = some name ↔ _
      simp [SystemConfig.player?_roles_eq_some_iff]
  · -- both roles with one name
    intro c hc hsame r
    refine Bool.eq_false_iff.mpr fun hp => ?_
    obtain ⟨c', hc', -, hne, -⟩ := (passes_replay_iff hr).mp hp
    obtain rfl : c = c' := Option.some.inj (hc.symm.trans hc')
    -- whichever role it is, the other one has the same name
    cases r with
    | internet => exact hne hsame
    | device => exact hne hsame.symm
  · -- a host with more interfaces
    intro js host host' hr' hconfig hhost hhost' hmore r hp
    obtain ⟨c, hc, hb, hne, hpresent⟩ := (passes_replay_iff hr).mp hp
    refine (passes_replay_iff hr').mpr ⟨c, hconfig.trans hc, hb, hne, ?_⟩
    intro interfaces hi
    obtain rfl : host' = interfaces := Option.some.inj (hhost'.symm.trans hi)
    exact hmore _ (hpresent host hhost)

/-- The host's interfaces come first, then two configurations.  The later one counts, its name
between blanks is found at the host, and the name that the host does not have is assigned but
cannot be used. -/
theorem roles_follow_loads_once_unplugged :
    let config (internet device : String) : SystemConfig :=
      { network := { internetInterface := internet, deviceInterface := device } }
    let is : List Intent := [.hostFetched (Dict.empty.insert "eth0" "08:00"),
      .configFetched (config "eth0" "eth0"), .configFetched (config " eth0 " "eth1")]
    let s := State.replay {} is
    s.roles.player? .internet = some "eth0" ∧ s.roleCheck.passes .internet = true ∧
      s.roles.player? .device = some "eth1" ∧ s.roleCheck.passes .device = false := by
  intro config is s
  have hr : ∀ roles, .rolesFetched roles ∉ is := by simp [is]
  obtain ⟨hroles, hpasses, -, -⟩ := roles_follow_loads hr
  refine ⟨?_, ?_, ?_, ?_⟩
  · exact (hroles _ _).mpr ⟨_, rfl, by decide, by decide⟩
  · refine (hpasses _).mpr ⟨_, rfl, by decide, by decide, ?_⟩
    rintro _ ⟨⟩
    decide
  · exact (hroles _ _).mpr ⟨_, rfl, by decide, by decide⟩
  · refine Bool.eq_false_iff.mpr fun hp => ?_
    obtain ⟨_, ⟨⟩, -, -, hpresent⟩ := (hpasses .device).mp hp
    have hno : (Dict.empty.insert "eth0" "08:00").contains (Text.trim "eth1") = false := by decide
    exact Bool.false_ne_true (hno.symm.trans (hpresent _ rfl))

end State

end RunControl
