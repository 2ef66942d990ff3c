/-
RunControl/Proofs/State/AnyOrder.lean

When a user interface comes up it asks for everything that can be fetched, and the answers
come in as they please.  The state in the end does not depend on their order, whatever it
was before and whichever of them are failures (`State.replay_flatMap_perm`).  The one
exception is a complete configuration next to a failure which says that there is none: the
one that comes last decides whether a setting is missing.

Most of what an answer writes, answers about other resources neither write nor read: the
marks, the failures, and what `State.own` lists.  There it is enough that an answer leaves
alone what is not its own (`Hearing.own_of_ne`), and that what it writes there depends on
nothing else (`Hearing.own_congr`).  The other parts, `State.joint`, have several writers.
What these learn from an answer is a `Finding`, and findings that agree commute
(`find_comm`).

`State.Hearing` lists what an answer can do to a state, one constructor for each kind; what
is said about answers is read off it.
-/
import Mathlib.Data.List.Nodup
import RunControl.Proofs.State.Requests

namespace RunControl

attribute [ext] State

/-- The values of two resources can be written in either order. -/
theorem PerResource.set_comm {α : Type} (t : PerResource α) {r r' : Resource} (h : r ≠ r')
    (a b : α) : (t.set r a).set r' b = (t.set r' b).set r a := by
  refine PerResource.ext fun r₀ => ?_
  simp only [get_set]
  split
  · next h' => rw [if_neg fun h'' => h (h''.symm.trans h')]
  · rfl

/-- What only answers about a resource write, besides its mark and its failure. -/
abbrev Resource.Own : Resource → Type
  | .systemConfig => Interface
  | .riskProfiles => List Profile × Bool
  | .systemVersion => Option SystemVersion
  | .systemStatus => RunStatus × Option Device × Poll
  | _ => Unit

/-! ### Answers and what they find -/

/-- What an answer tells those parts of a state that several answers write. -/
inductive Finding where
  | nothing
  | host (host : HostInterfaces)
  | config (config : SystemConfig)
  | devices (devices : List Device)
  | unconfigured

namespace Finding

/-- What a failure tells. -/
def ofFault (e : Fault) : Finding :=
  if (Failure.ofFault e).isUnconfigured then unconfigured else nothing

/-- What a finding is about that only one resource can tell. -/
def source? : Finding → Option Resource
  | host _ => some .interfaces
  | config _ => some .systemConfig
  | devices _ => some .devices
  | nothing | unconfigured => none

theorem source?_ofFault (e : Fault) : (ofFault e).source? = none := by
  unfold ofFault
  split <;> rfl

/-- Two findings are about different things and do not contradict each other: a configuration
is not complete where another answer says that there is none. -/
structure Agree (f f' : Finding) : Prop where
  source : f.source? = f'.source? → f.source? = none
  left : ∀ c, f = config c → f' = unconfigured → c.hasConnectionSettings = false
  right : ∀ c, f' = config c → f = unconfigured → c.hasConnectionSettings = false

theorem agree_nothing (f : Finding) : f.Agree nothing := by
  constructor
  · exact id
  · intro c _ h
    cases h
  · intro c h
    cases h

theorem Agree.symm {f f' : Finding} (h : f.Agree f') : f'.Agree f where
  source := fun hs => hs.trans (h.source hs.symm)
  left := h.right
  right := h.left

end Finding

/-- A request and the answer to it. -/
structure Delivery where
  request : Request
  answer : request.call.Answer

namespace Delivery

/-- What an answer is about. -/
def resource (d : Delivery) : Resource :=
  d.request.resource

/-- The intents that the request comes to. -/
def intents (d : Delivery) : List Intent :=
  outcome d.request d.answer

/-- An answer brings a configuration with the settings that a run needs. -/
def completes : Delivery → Bool
  | ⟨.systemConfig, .ok config⟩ => config.hasConnectionSettings
  | _ => false

/-- How the request failed. -/
def failure? (d : Delivery) : Option Failure :=
  match d.answer with
  | .error e => some (.ofFault e)
  | .ok _ => none

/-- An answer says that the backend has to be configured first. -/
def isUnconfigured (d : Delivery) : Bool :=
  d.failure?.any Failure.isUnconfigured

/-- An answer is wanted; those of a status fetch may come too late. -/
def isWanted (d : Delivery) (p : Poll) : Bool :=
  match d.request with
  | .systemStatus cycle => p.accepts cycle
  | _ => true

/-- What an answer tells if it is wanted. -/
def finding : Delivery → Finding
  | ⟨.interfaces, .ok host⟩ => .host host
  | ⟨.systemConfig, .ok config⟩ => .config config
  | ⟨.devices, .ok devices⟩ => .devices devices
  | ⟨_, .ok _⟩ => .nothing
  | ⟨_, .error e⟩ => .ofFault e

/-- What an answer tells a state in which polling stands at `p`. -/
def findingAt (d : Delivery) (p : Poll) : Finding :=
  if d.isWanted p then d.finding else .nothing

variable {d d' : Delivery} {r : Resource} {p q : Poll}

/-- Only answers of a status fetch depend on how polling stands. -/
theorem isWanted_congr (h : d.resource = .systemStatus → p = q) : d.isWanted p = d.isWanted q := by
  obtain ⟨request, answer⟩ := d
  cases request with
  | systemStatus c => rw [h rfl]
  | _ => rfl

theorem findingAt_congr (h : d.resource = .systemStatus → p = q) :
    d.findingAt p = d.findingAt q := by
  rw [findingAt, findingAt, isWanted_congr h]

theorem finding_error (q : Request) (e : Fault) : finding ⟨q, .error e⟩ = .ofFault e := by
  cases q <;> rfl

/-- A finding that has a source comes from an answer about it. -/
theorem resource_of_finding (h : d.finding.source? = some r) : d.resource = r := by
  obtain ⟨q, e | reply⟩ := d
  · rw [finding_error, Finding.source?_ofFault] at h
    cases h
  · cases q with
    | interfaces | systemConfig | devices =>
      cases h
      rfl
    | _ => cases h

theorem completes_of_finding {config : SystemConfig} (h : d.finding = .config config) :
    d.completes = config.hasConnectionSettings := by
  obtain ⟨q, e | reply⟩ := d
  · have hs := Finding.source?_ofFault e
    rw [← finding_error q, h] at hs
    cases hs
  · cases q with
    | systemConfig =>
      cases h
      rfl
    | _ => cases h

theorem isUnconfigured_of_finding (h : d.finding = .unconfigured) : d.isUnconfigured = true := by
  obtain ⟨q, e | reply⟩ := d
  · rw [finding_error, Finding.ofFault] at h
    split at h
    · next hu => exact hu
    · cases h
  · cases q <;> cases h

/-- Answers about different resources agree, unless one brings a complete configuration and
the other says that there is none. -/
theorem agree_of_ne (h : d.resource ≠ d'.resource)
    (hx : d.completes = true → d'.isUnconfigured = false)
    (hx' : d'.completes = true → d.isUnconfigured = false) (p q : Poll) :
    (d.findingAt p).Agree (d'.findingAt q) := by
  have incomplete : ∀ {e e' : Delivery}, (e.completes = true → e'.isUnconfigured = false) →
      ∀ c, e.finding = .config c → e'.finding = .unconfigured →
        c.hasConnectionSettings = false := by
    intro e e' hx c he he'
    rw [completes_of_finding he, isUnconfigured_of_finding he'] at hx
    refine Bool.eq_false_iff.mpr fun hc => ?_
    cases hx hc
  have key : d.finding.Agree d'.finding := by
    refine ⟨fun hs => ?_, incomplete hx, incomplete hx'⟩
    rcases hr : d.finding.source? with - | r
    · rfl
    · exact absurd ((resource_of_finding hr).trans (resource_of_finding (hs ▸ hr)).symm) h
  unfold findingAt
  split
  · split
    · exact key
    · exact Finding.agree_nothing _
  · exact (Finding.agree_nothing _).symm

end Delivery

namespace State

variable {s t s' t' : State} {d d' : Delivery} {r : Resource} {f f' : Finding}

/-! ### The parts that several answers write -/

/-- The parts of a state that several answers write, and nothing else. -/
def joint (s : State) : State where
  roles := s.roles
  host := s.host
  roleCheck := s.roleCheck
  missing := s.missing
  config := s.config
  devices := s.devices
  hasDevices := s.hasDevices

/-- The state with these parts as they are after a finding. -/
def find (s : State) : Finding → State
  | .nothing => s
  | .host host =>
    let roles :=
      match s.config with
      | some config => config.network.roles
      | none => s.roles
    recheck { s with host := some host, roles }
  | .config config =>
    let s := s.withMissing (if config.hasConnectionSettings then none else some settingMissing)
    { recheck { s with roles := config.network.roles } with config := some config }
  | .devices devices => s.withDevices devices
  | .unconfigured => s.withMissing (some settingMissing)

theorem joint_find (s : State) (f : Finding) : (s.find f).joint = s.joint.find f := by
  cases f <;> simp only [find, joint, recheck, withMissing, withDevices]

section
variable (s : State) (host : HostInterfaces) (config : SystemConfig) (devices : List Device)

/-- The roles come from the configuration, whether it comes before the host's interfaces or
after them. -/
theorem find_host_config :
    (s.find (.host host)).find (.config config) = (s.find (.config config)).find (.host host) := by
  simp only [find, recheck, withMissing]

theorem find_host_devices :
    (s.find (.host host)).find (.devices devices)
      = (s.find (.devices devices)).find (.host host) := by
  simp only [find, recheck, withDevices]

theorem find_host_unconfigured :
    (s.find (.host host)).find .unconfigured = (s.find .unconfigured).find (.host host) := by
  simp only [find, recheck, withMissing]

/-- What is noted about devices follows the devices. -/
theorem find_config_devices :
    (s.find (.config config)).find (.devices devices)
      = (s.find (.devices devices)).find (.config config) := by
  simp only [find, recheck, withMissing, withDevices, Option.map_map, Function.comp_def]

theorem find_config_unconfigured (h : config.hasConnectionSettings = false) :
    (s.find (.config config)).find .unconfigured
      = (s.find .unconfigured).find (.config config) := by
  simp only [find, recheck, withMissing, h, Bool.false_eq_true, if_false]

theorem find_devices_unconfigured :
    (s.find (.devices devices)).find .unconfigured
      = (s.find .unconfigured).find (.devices devices) := by
  simp only [find, withMissing, withDevices, Option.map_some]

end

/-- Findings that agree can be made in either order. -/
theorem find_comm (s : State) (h : f.Agree f') : (s.find f).find f' = (s.find f').find f := by
  -- two findings about the same thing do not agree; the other pairs have a lemma each
  cases f with
  | nothing => simp only [find]
  | host a =>
    cases f' with
    | nothing => simp only [find]
    | host _ => cases h.source rfl
    | config c => exact find_host_config s a c
    | devices ds => exact find_host_devices s a ds
    | unconfigured => exact find_host_unconfigured s a
  | config c =>
    cases f' with
    | nothing => simp only [find]
    | host a => exact (find_host_config s a c).symm
    | config _ => cases h.source rfl
    | devices ds => exact find_config_devices s c ds
    | unconfigured => exact find_config_unconfigured s c (h.left c rfl rfl)
  | devices ds =>
    cases f' with
    | nothing => simp only [find]
    | host a => exact (find_host_devices s a ds).symm
    | config c => exact (find_config_devices s c ds).symm
    | devices _ => cases h.source rfl
    | unconfigured => exact find_devices_unconfigured s ds
  | unconfigured =>
    cases f' with
    | nothing => simp only [find]
    | host a => exact (find_host_unconfigured s a).symm
    | config c => exact (find_config_unconfigured s c (h.right c rfl rfl)).symm
    | devices ds => exact (find_devices_unconfigured s ds).symm
    | unconfigured => rfl

/-! ### The parts that belong to one resource -/

/-- The parts of a state that only answers about a resource write. -/
def own (s : State) : (r : Resource) → r.Own
  | .systemConfig => s.interface
  | .riskProfiles => (s.profiles, s.hasProfiles)
  | .systemVersion => s.version
  | .systemStatus => (s.status, s.underTest, s.poll)
  | .interfaces | .devices | .startRun | .stopRun | .createDevice | .editDevice
  | .deleteDevice => ()

/-- Marks, failures, joint and own parts make up the whole state. -/
theorem eq_of_parts (hl : s.loading = t.loading) (he : s.errors = t.errors)
    (hj : s.joint = t.joint) (ho : ∀ r, s.own r = t.own r) : s = t := by
  have hrun : (s.status, s.underTest, s.poll) = (t.status, t.underTest, t.poll) := ho .systemStatus
  have hprofiles : (s.profiles, s.hasProfiles) = (t.profiles, t.hasProfiles) := ho .riskProfiles
  simp only [joint, State.mk.injEq] at hj
  simp only [Prod.mk.injEq] at hrun hprofiles
  obtain ⟨hroles, hhost, hcheck, hmissing, hconfig, hdevices, hany, -⟩ := hj
  exact State.ext hroles hhost hcheck hmissing hconfig hdevices hany hrun.2.1 hprofiles.1
    hprofiles.2 hrun.1 (ho .systemVersion) hrun.2.2 hl he (ho .systemConfig)

theorem own_find (s : State) (f : Finding) : (s.find f).own r = s.own r := by
  cases f <;> simp only [find, recheck, withMissing, withDevices] <;> cases r <;> simp only [own]

theorem loading_find (s : State) (f : Finding) : (s.find f).loading = s.loading := by
  cases f <;> simp only [find, recheck, withMissing, withDevices]

theorem errors_find (s : State) (f : Finding) : (s.find f).errors = s.errors := by
  cases f <;> simp only [find, recheck, withMissing, withDevices]

/-! ### What an answer does -/

/-- The state after an answer. -/
def hear (s : State) (d : Delivery) : State :=
  s.replay d.intents

theorem replay_flatMap (s : State) (ds : List Delivery) :
    s.replay (ds.flatMap Delivery.intents) = ds.foldl hear s := by
  induction ds generalizing s with
  | nil => rfl
  | cons d ds ih => rw [List.flatMap_cons, replay_append, List.foldl_cons, ← ih, hear]

/-- What an answer to a request for something that can be fetched does. -/
inductive Hearing (s : State) : Delivery → State → Prop
  | host (host : HostInterfaces) :
    Hearing s ⟨.interfaces, .ok host⟩ ((s.find (.host host)).settle .interfaces)
  | config (config : SystemConfig) :
    Hearing s ⟨.systemConfig, .ok config⟩
      (((s.find (.config config)).onInterface
        ({ · with hasConnectionSettings := config.hasConnectionSettings })).settle .systemConfig)
  | devices (devices : List Device) :
    Hearing s ⟨.devices, .ok devices⟩ ((s.find (.devices devices)).settle .devices)
  | profiles (profiles : List Profile) :
    Hearing s ⟨.riskProfiles, .ok profiles⟩
      (settle { s with profiles, hasProfiles := !profiles.isEmpty } .riskProfiles)
  | version (version : SystemVersion) :
    Hearing s ⟨.systemVersion, .ok version⟩
      (settle { s with version := some version } .systemVersion)
  | failure (q : Request) (e : Fault) (hq : q.resource ≠ .systemStatus)
      (hstop : q.resource ≠ .stopRun) :
    Hearing s ⟨q, .error e⟩ ((s.find (.ofFault e)).requestFailed q.resource (.ofFault e))
  | status (cycle : Cycle) (status : RunStatus) (h : s.poll.accepts cycle = true) :
    Hearing s ⟨.systemStatus cycle, .ok status⟩ (s.acceptStatus cycle status)
  | noStatus (cycle : Cycle) (e : Fault) (h : s.poll.accepts cycle = true) :
    Hearing s ⟨.systemStatus cycle, .error e⟩
      (((s.find (.ofFault e)).withError .systemStatus (.ofFault e)).onPoll
        (·.complete cycle (Failure.ofFault e).isUnconfigured))
  | late (cycle : Cycle) (answer : Resource.systemStatus.Answer)
      (h : s.poll.accepts cycle = false) :
    Hearing s ⟨.systemStatus cycle, answer⟩ (s.onPoll (·.complete cycle true))

theorem acceptConfig_eq (s : State) (config : SystemConfig) :
    s.acceptConfig config =
      ((s.find (.config config)).onInterface
        ({ · with hasConnectionSettings := config.hasConnectionSettings })).settle
          .systemConfig := by
  simp only [acceptConfig, find, recheck, withMissing, onInterface, settle]

theorem acceptFailure_eq (s : State) (cycle : Cycle) (e : Fault) :
    s.acceptFailure cycle (.ofFault e) =
      ((s.find (.ofFault e)).withError .systemStatus (.ofFault e)).onPoll
        (·.complete cycle (Failure.ofFault e).isUnconfigured) := by
  simp only [acceptFailure, Finding.ofFault]
  split <;> simp only [find]

theorem replay_failureIntents (s : State) (r : Resource) (e : Fault) :
    s.replay (failureIntents r e) = (s.find (.ofFault e)).requestFailed r (.ofFault e) := by
  simp only [failureIntents, Finding.ofFault]
  split <;> rfl

/-- The list is complete. -/
theorem hearing (s : State) (hd : d.resource.isCommand = false) : s.Hearing d (s.hear d) := by
  obtain ⟨q, e | reply⟩ := d
  · cases q with
    | systemStatus c =>
      -- reported together with its cycle, by an intent of its own
      show s.Hearing _ (s.after (.statusFailed c (.ofFault e)))
      cases h : s.poll.accepts c with
      | true =>
        simp only [after, h, if_true, acceptFailure_eq]
        exact .noStatus c e h
      | false =>
        simp only [after, h]
        exact .late c _ h
    | interfaces | systemConfig | devices | riskProfiles | systemVersion =>
      show s.Hearing _ (s.replay (failureIntents _ e))
      rw [replay_failureIntents]
      exact .failure _ e (by decide) (by decide)
    | _ => cases hd
  · cases q with
    | interfaces => exact .host reply
    | systemConfig =>
      have h : s.hear ⟨.systemConfig, .ok reply⟩ = _ := acceptConfig_eq s reply
      rw [h]
      exact .config reply
    | devices => exact .devices reply
    | riskProfiles => exact .profiles reply
    | systemVersion => exact .version reply
    | systemStatus c =>
      show s.Hearing _ (s.after (.statusFetched c reply))
      cases h : s.poll.accepts c with
      | true =>
        simp only [after, h, if_true]
        exact .status c reply h
      | false =>
        simp only [after, h]
        exact .late c _ h
    | _ => cases hd

/-! ### What of the state an answer changes -/

theorem joint_settle (s : State) (r : Resource) : (s.settle r).joint = s.joint := rfl

theorem joint_withError (s : State) (r : Resource) (f : Failure) :
    (s.withError r f).joint = s.joint := rfl

theorem joint_onInterface (s : State) (g : Interface → Interface) :
    (s.onInterface g).joint = s.joint := rfl

theorem joint_onPoll (s : State) (g : Poll → Poll) : (s.onPoll g).joint = s.joint := rfl

theorem own_settle (s : State) (r r' : Resource) : (s.settle r').own r = s.own r := by
  cases r <;> rfl

theorem own_withError (s : State) (r r' : Resource) (f : Failure) :
    (s.withError r' f).own r = s.own r := by
  cases r <;> rfl

theorem own_onInterface_of_ne (s : State) (h : r ≠ .systemConfig) (g : Interface → Interface) :
    (s.onInterface g).own r = s.own r := by
  cases r <;> first | rfl | exact absurd rfl h

theorem own_onPoll_of_ne (s : State) (h : r ≠ .systemStatus) (g : Poll → Poll) :
    (s.onPoll g).own r = s.own r := by
  cases r <;> first | rfl | exact absurd rfl h

theorem own_onInterface (s : State) (g : Interface → Interface) :
    (s.onInterface g).own .systemConfig = g (s.own .systemConfig) := rfl

theorem own_onPoll (s : State) (g : Poll → Poll) :
    (s.onPoll g).own .systemStatus =
      ((s.own .systemStatus).1, (s.own .systemStatus).2.1, g (s.own .systemStatus).2.2) := rfl

theorem requestFailed_of_ne (s : State) (h : r ≠ .stopRun) (f : Failure) :
    s.requestFailed r f = { s with loading := s.loading.set r false }.withError r f :=
  if_neg h

/-- A failure writes no part that belongs to a single resource. -/
theorem own_failure (s : State) {r' : Resource} (h : r' ≠ .stopRun) (f : Finding) (e : Failure) :
    ((s.find f).requestFailed r' e).own r = s.own r := by
  rw [requestFailed_of_ne _ h, own_withError, ← own_find s f]
  cases r <;> rfl

namespace Hearing

/-- Of what resources share, an answer writes only what has been found by it. -/
theorem joint (h : s.Hearing d t) : t.joint = (s.find (d.findingAt s.poll)).joint := by
  cases h with
  | host _ | devices _ => exact joint_settle ..
  | config _ => exact (joint_settle ..).trans (joint_onInterface ..)
  | profiles _ | version _ => rfl
  | failure q e hq hstop =>
    have hf : Delivery.findingAt ⟨q, .error e⟩ s.poll = .ofFault e := by
      cases q <;> first | rfl | exact absurd rfl hq
    rw [hf, requestFailed_of_ne _ hstop]
    exact joint_withError ..
  | status c status h =>
    have hf : Delivery.findingAt ⟨.systemStatus c, .ok status⟩ s.poll = .nothing := if_pos h
    rw [hf]
    rfl
  | noStatus c e h =>
    have hf : Delivery.findingAt ⟨.systemStatus c, .error e⟩ s.poll = .ofFault e := if_pos h
    rw [hf, joint_onPoll, joint_withError]
  | late c answer h =>
    have hf : Delivery.findingAt ⟨.systemStatus c, answer⟩ s.poll = .nothing :=
      if_neg (Bool.eq_false_iff.mp h)
    rw [hf]
    rfl

theorem loading (h : s.Hearing d t) :
    t.loading =
      if d.resource = .systemStatus then s.loading else s.loading.set d.resource false := by
  cases h with
  | host _ | config _ | devices _ =>
    simp only [settle, onInterface, loading_find]
    rfl
  | profiles _ | version _ => rfl
  | failure q e hq hstop =>
    simp only [requestFailed_of_ne _ hstop, withError, loading_find]
    exact (if_neg hq).symm
  | status _ _ _ | late _ _ _ => rfl
  | noStatus c e h =>
    simp only [onPoll, withError, loading_find]
    rfl

theorem errors (h : s.Hearing d t) :
    t.errors = if d.isWanted s.poll then s.errors.set d.resource d.failure? else s.errors := by
  cases h with
  | host _ | config _ | devices _ =>
    simp only [settle, onInterface, errors_find]
    rfl
  | profiles _ | version _ => rfl
  | failure q e hq hstop =>
    simp only [requestFailed_of_ne _ hstop, withError, errors_find]
    cases q <;> first | rfl | exact absurd rfl hq
  | status c status h => exact (if_pos h).symm
  | noStatus c e h =>
    simp only [onPoll, withError, errors_find]
    exact (if_pos h).symm
  | late c answer h => exact (if_neg (Bool.eq_false_iff.mp h)).symm

/-- An answer leaves alone what belongs to other resources. -/
theorem own_of_ne (h : s.Hearing d t) (hr : r ≠ d.resource) : t.own r = s.own r := by
  cases h with
  | host _ | devices _ => rw [own_settle, own_find]
  | config _ => rw [own_settle, own_onInterface_of_ne _ hr, own_find]
  | profiles _ | version _ =>
    rw [own_settle]
    cases r <;> first | rfl | exact absurd rfl hr
  | failure q e hq hstop => exact own_failure s hstop ..
  | status _ _ _ =>
    rw [acceptStatus, own_onPoll_of_ne _ hr]
    cases r <;> first | rfl | exact absurd rfl hr
  | late _ _ _ => exact own_onPoll_of_ne _ hr _
  | noStatus c e h => rw [own_onPoll_of_ne _ hr, own_withError, own_find]

/-- What an answer writes of its own parts depends on these only. -/
theorem own_congr (h : s.Hearing d t) (h' : s'.Hearing d t') (hr : d.resource = r)
    (hs : s.own r = s'.own r) : t.own r = t'.own r := by
  -- how polling stands, which decides about an answer of a status fetch, is such a part
  have hp : r = .systemStatus → s.poll = s'.poll := by
    rintro rfl
    exact congrArg (fun run => run.2.2) hs
  -- only of a status fetch can the same answer be heard in two ways, and there `hp` decides
  cases h with
  | host _ | devices _ =>
    cases h'
    rw [own_settle, own_settle, own_find, own_find, hs]
  | config _ =>
    cases h'
    obtain rfl : r = .systemConfig := hr.symm
    rw [own_settle, own_settle, own_onInterface, own_onInterface, own_find, own_find, hs]
  | profiles _ | version _ =>
    cases h'
    subst hr
    rfl
  | failure q e hq hstop =>
    cases h' with
    | failure => rw [own_failure _ hstop, own_failure _ hstop, hs]
    | noStatus => exact absurd rfl hq
    | late => exact absurd rfl hq
  | status c status ha =>
    -- polling stands the same in the other state, so the answer is wanted there as well
    obtain rfl : r = .systemStatus := hr.symm
    rw [hp rfl] at ha
    cases h' with
    | status =>
      have hu : s.underTest = s'.underTest := congrArg (fun run => run.2.1) hs
      simp only [acceptStatus, own, onPoll, withoutError, withStatus, hp, hu]
    | late _ _ hl => exact absurd ha (Bool.eq_false_iff.mp hl)
  | noStatus c e ha =>
    obtain rfl : r = .systemStatus := hr.symm
    rw [hp rfl] at ha
    cases h' with
    | failure _ _ hq _ => exact absurd rfl hq
    | noStatus =>
      rw [own_onPoll, own_onPoll, own_withError, own_withError, own_find, own_find, hs]
    | late _ _ hl => exact absurd ha (Bool.eq_false_iff.mp hl)
  | late c answer ha =>
    obtain rfl : r = .systemStatus := hr.symm
    rw [hp rfl] at ha
    cases h' with
    | failure _ _ hq _ => exact absurd rfl hq
    | status _ _ hw => exact absurd hw (Bool.eq_false_iff.mp ha)
    | noStatus _ _ hw => exact absurd hw (Bool.eq_false_iff.mp ha)
    | late => rw [own_onPoll, own_onPoll, hs]

end Hearing

/-! ### Any order -/

section
variable (s : State) (hd : d.resource.isCommand = false) (hd' : d'.resource.isCommand = false)
include hd

/-- Nothing but an answer of a status fetch has a say in polling. -/
theorem poll_hear (hne : d.resource ≠ d'.resource) (h : d'.resource = .systemStatus) :
    (s.hear d).poll = s.poll := by
  have ho := (hearing s hd).own_of_ne (h ▸ hne.symm)
  exact congrArg (fun run => run.2.2) ho

include hd'

theorem loading_hear_comm (hne : d.resource ≠ d'.resource) :
    ((s.hear d).hear d').loading = ((s.hear d').hear d).loading := by
  rw [(hearing (s.hear d) hd').loading, (hearing (s.hear d') hd).loading,
    (hearing s hd).loading, (hearing s hd').loading]
  -- polling keeps account of the status itself; other marks are taken away one by one
  split
  · split <;> rfl
  · split
    · rfl
    · exact PerResource.set_comm _ hne ..

theorem errors_hear_comm (hne : d.resource ≠ d'.resource) :
    ((s.hear d).hear d').errors = ((s.hear d').hear d).errors := by
  rw [(hearing (s.hear d) hd').errors, (hearing (s.hear d') hd).errors,
    (hearing s hd).errors, (hearing s hd').errors,
    Delivery.isWanted_congr (poll_hear s hd hne),
    Delivery.isWanted_congr (poll_hear s hd' hne.symm)]
  split
  · split
    · exact PerResource.set_comm _ hne ..
    · rfl
  · rfl

theorem joint_hear_comm (hne : d.resource ≠ d'.resource)
    (ha : (d.findingAt s.poll).Agree (d'.findingAt s.poll)) :
    ((s.hear d).hear d').joint = ((s.hear d').hear d).joint := by
  rw [(hearing (s.hear d) hd').joint, (hearing (s.hear d') hd).joint, joint_find, joint_find,
    (hearing s hd).joint, (hearing s hd').joint, joint_find, joint_find,
    Delivery.findingAt_congr (poll_hear s hd hne),
    Delivery.findingAt_congr (poll_hear s hd' hne.symm)]
  -- what each answer tells is the same before the other as after it
  exact find_comm _ ha

theorem own_hear_comm (hne : d.resource ≠ d'.resource) (r : Resource) :
    ((s.hear d).hear d').own r = ((s.hear d').hear d).own r := by
  have h := hearing s hd
  have h' := hearing s hd'
  have hh := hearing (s.hear d) hd'
  have hh' := hearing (s.hear d') hd
  -- the answer that the part belongs to finds it the same before and after the other
  by_cases hr : d.resource = r
  · have hr' : r ≠ d'.resource := hr ▸ hne
    rw [hh.own_of_ne hr']
    exact h.own_congr hh' hr (h'.own_of_ne hr').symm
  · rw [hh'.own_of_ne (Ne.symm hr)]
    by_cases hr' : d'.resource = r
    · exact hh.own_congr h' hr' (h.own_of_ne (Ne.symm hr))
    · rw [hh.own_of_ne (Ne.symm hr'), h.own_of_ne (Ne.symm hr), h'.own_of_ne (Ne.symm hr')]

/-- Two answers about different resources can come in either order. -/
theorem hear_comm (hne : d.resource ≠ d'.resource)
    (hx : d.completes = true → d'.isUnconfigured = false)
    (hx' : d'.completes = true → d.isUnconfigured = false) :
    (s.hear d).hear d' = (s.hear d').hear d :=
  eq_of_parts (loading_hear_comm s hd hd' hne) (errors_hear_comm s hd hd' hne)
    (joint_hear_comm s hd hd' hne (Delivery.agree_of_ne hne hx hx' ..))
    (own_hear_comm s hd hd' hne)

end

/-- The answers to requests for things that can be fetched, one for each at most, lead to the
same state in any order. -/
theorem replay_flatMap_perm (s : State) {ds ds' : List Delivery} (hp : ds.Perm ds')
    (hfetch : ∀ d ∈ ds, d.resource.isCommand = false)
    (hone : (ds.map Delivery.resource).Nodup)
    (hx : ∀ d ∈ ds, ∀ d' ∈ ds, d.resource ≠ d'.resource → d.completes = true →
      d'.isUnconfigured = false) :
    s.replay (ds.flatMap Delivery.intents) = s.replay (ds'.flatMap Delivery.intents) := by
  rw [replay_flatMap, replay_flatMap]
  refine hp.foldl_eq' (fun d hd d' hd' s => ?_) s
  by_cases hne : d.resource = d'.resource
  · -- there is only one answer about the resource
    rw [List.inj_on_of_nodup_map hone hd hd' hne]
  · exact hear_comm s (hfetch d hd) (hfetch d' hd') hne (hx d hd d' hd' hne)
      (hx d' hd' d hd (Ne.symm hne))

/-- The configuration is complete, the version cannot be had, and the run goes on: backwards,
the answers lead to the same state. -/
theorem replay_flatMap_reverse :
    let s := State.replay {} [.fetchVersion, .fetchStatus]
    let ds : List Delivery :=
      [⟨.interfaces, .ok (.ofList [("eth0", "lan"), ("eth1", "wan")])⟩,
        ⟨.systemConfig,
          .ok { network := { deviceInterface := "eth0", internetInterface := "eth1" } }⟩,
        ⟨.devices, .ok [{ address := "00:1e:42:35:73:c4" }]⟩,
        ⟨.riskProfiles, .ok []⟩,
        ⟨.systemVersion, .error (.transport "connection refused")⟩,
        ⟨.systemStatus ⟨0⟩, .ok { stage := .inProgress }⟩]
    s.replay (ds.flatMap Delivery.intents) = s.replay (ds.reverse.flatMap Delivery.intents) := by
  intro s ds
  exact replay_flatMap_perm s (List.reverse_perm ds).symm (by decide) (by decide) (by decide)

/-- A complete configuration and a failure that says there is none: the last one decides
whether a setting is missing. -/
example :
    let config : Delivery :=
      ⟨.systemConfig, .ok { network := { deviceInterface := "eth0" } }⟩
    let profiles : Delivery := ⟨.riskProfiles, .error (.unconfigured "not configured")⟩
    (State.replay {} (config.intents ++ profiles.intents)).isSettingMissing = true ∧
      (State.replay {} (profiles.intents ++ config.intents)).isSettingMissing = false := by
  decide

end State

end RunControl
