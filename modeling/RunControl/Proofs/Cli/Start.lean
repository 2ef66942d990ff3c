/-
RunControl/Proofs/Cli/Start.lean

What the command that starts a run does to the backend.  Everything that could speak against a
run is fetched first: the interfaces, the configuration, the devices, and the status.  The order
to start a run is sent once at most, and only if all of this has come back and nothing speaks
against it (`Cleared`).  In every run of the session this holds of every order that was sent, and
the command succeeds exactly if the backend has answered it with a status
(`start_sends_cleared`).

The outline of the command (`meets_start`) goes through its parts: three plain fetches that make
known one thing after the other (`gather`), the fetch of the status, after which polling comes to
rest, and the order itself (`launch`).  From the time polling rests no status is taken over, so
the one that was found terminal is the last one when the order is sent.
-/
import RunControl.Cli.Program
import RunControl.Proofs.Cli.Ends
import RunControl.Proofs.Cli.StatusFetch
import RunControl.Proofs.State.Start

namespace RunControl

/-! ### Polling and the status while nothing is asked of them -/

section
variable {p : Poll} {s : State} {i : Intent} {r : Resource}

theorem Poll.after_of_asks? (h : i.asks? = some r) : p.after i = p := by
  cases i <;> first | rfl | cases h

theorem State.status_after_of_asks? (h : i.asks? = some r) : (s.after i).status = s.status := by
  rw [status_after]
  cases i <;> first | rfl | cases h

/-- While no cycle is open, no status is taken over. -/
theorem State.status_after_of_isReport (h : i.IsReport) (hp : s.poll.isPolling = false) :
    (s.after i).status = s.status := by
  have hr : s.reported? i = none := by
    cases h with
    | statusFetched c status =>
      refine if_neg fun ha => ?_
      rw [Poll.isPolling, Poll.accepts_iff.mp ha] at hp
      cases hp
    | statusFailed | timerFired | setMissing => rfl
  rw [status_after, hr]
  rfl

end

namespace Cli

/-! ### Plain fetches -/

/-- What has been fetched is known, and polling has not begun. -/
def Knows (n : Known) : Fact :=
  fun _ s _ => s.poll = {} ∧ s.known = n

theorem lasting_knows (n : Known) : Lasting Intent.IsReport (Knows n) :=
  lasting_unpolled.and (.known (fun _ => .report) n)

/-- A fetch whose reply takes what is known from `n` to `bring reply`. -/
def gather (wish : Intent) (request : Request) (n : Known)
    (bring : request.call.resource.Reply → Known) : Errand where
  wish
  request
  beside := Intent.IsReport
  ahead := Knows n
  work := Knows n
  done reply := Knows (bring reply)

/-- A fetch that asks for nothing else is lawful if its reply leaves polling alone and brings what
it is said to bring. -/
theorem lawful_gather {wish : Intent} {request : Request} {n : Known}
    {bring : request.call.resource.Reply → Known} (hasks : wish.asks? = some request.resource)
    (hsends : ∀ s t : State, s.request? t wish = some request) (hlast : request.followUp = [])
    (hpoll : ∀ (p : Poll) reply, p.after (request.settlement reply) = p)
    (hbring : ∀ (s : State) reply, s.known = n →
      (s.after (request.settlement reply)).known = bring reply) :
    (gather wish request n bring).Lawful where
  beside := company_reports
  asks := hasks
  sends s _ _ := hsends s _
  followUp i hi := by
    rw [show (gather wish request n bring).request.followUp = [] from hlast] at hi
    cases hi
  ahead := lasting_knows n
  work := lasting_knows n
  done reply := lasting_knows (bring reply)
  grant := by
    rintro hs s is - - ⟨hp, hn⟩ -
    refine ⟨?_, ?_⟩
    · show (s.after wish).poll = {}
      rw [State.poll_after, Poll.after_of_asks? hasks, hp]
    · show (s.after wish).known = n
      rw [State.known_after_of_asks? hasks, hn]
  deliver := by
    rintro hs s is reply ⟨hp, hn⟩ - -
    have hp' : s.poll.after (request.settlement reply) = s.poll := hpoll s.poll reply
    exact ⟨(State.poll_after s _).trans (hp'.trans hp), hbring s reply hn⟩

/-- The interfaces of the host are fetched. -/
def gatherHost : Errand :=
  gather .fetchInterfaces .interfaces {} fun host => { host := some host }

/-- The configuration is fetched, which assigns the roles. -/
def gatherConfig (host : HostInterfaces) : Errand :=
  gather .fetchConfig .systemConfig { host := some host } fun config =>
    { host := some host, config := some config, roles := config.network.roles }

/-- What is known when the devices have been fetched as well. -/
def knownOf (host : HostInterfaces) (config : SystemConfig) (devices : List Device) : Known where
  host := some host
  config := some config
  roles := config.network.roles
  devices

/-- The devices are fetched. -/
def gatherDevices (host : HostInterfaces) (config : SystemConfig) : Errand :=
  gather .fetchDevices .devices (knownOf host config []) (knownOf host config)

theorem lawful_gatherHost : gatherHost.Lawful := by
  refine lawful_gather rfl (fun _ _ => rfl) rfl (fun _ _ => rfl) fun s host h => ?_
  obtain ⟨-, hconfig, hroles, hdevices⟩ := Known.mk.inj h
  show Known.mk _ _ _ _ = Known.mk _ _ _ _
  simp [State.after, State.acceptHost, State.recheck, State.settle, hconfig, hroles, hdevices,
    Request.settlement]

theorem lawful_gatherConfig (host : HostInterfaces) : (gatherConfig host).Lawful := by
  refine lawful_gather rfl (fun _ _ => rfl) rfl (fun _ _ => rfl) fun s config h => ?_
  obtain ⟨hhost, -, -, hdevices⟩ := Known.mk.inj h
  show Known.mk _ _ _ _ = Known.mk _ _ _ _
  simp [State.after, State.acceptConfig, State.withMissing, State.onInterface, State.recheck,
    State.settle, hhost, hdevices, Request.settlement]

theorem lawful_gatherDevices (host : HostInterfaces) (config : SystemConfig) :
    (gatherDevices host config).Lawful := by
  refine lawful_gather rfl (fun _ _ => rfl) rfl (fun _ _ => rfl) fun s devices h => ?_
  obtain ⟨hhost, hconfig, hroles, -⟩ := Known.mk.inj h
  show Known.mk _ _ _ _ = Known.mk _ _ _ _
  simp [State.after, State.withDevices, State.settle, hhost, hconfig, hroles, Request.settlement]

/-! ### The order to start a run -/

/-- A run is started, when `n` is known and polling is at rest or about to be. -/
def launch (device : Device) (n : Known) : Errand where
  wish := .startRun device
  request := .startRun device
  beside := OrWish .stopPolling
  ahead hs s is := (s.known = n ∧ Calm s is) ∧ Reported hs s.status
  work hs s _ :=
    (s.known = n ∧ n.roles.Usable n.host) ∧
      (s.poll.isPolling = false ∧ s.status.isTerminal = true) ∧ Reported hs s.status
  done _ hs s _ := Reported hs s.status

/-- Each stage of the order follows from the one before.  It is sent only if nothing blocks it, and
then the roles can be used and the last status is terminal; both stay so while the request is under
way, because polling has stopped and no report of a status is accepted any more. -/
theorem lawful_launch (device : Device) (n : Known) : (launch device n).Lawful where
  beside := company_orWish .stopPolling
  asks := rfl
  sends s hf hl := by
    -- it is neither refused nor under way, so it begins
    change s.loading.get .startRun = false at hl
    change s.refuses (.startRun device) = false at hf
    have hb : s.begins (s.after (.startRun device)) .startRun = true := by
      rw [State.begins_after rfl, hl, hf]
      rfl
    exact if_pos hb
  followUp := List.forall_mem_nil _
  ahead := ((Lasting.known (company_orWish .stopPolling).aside n).and lasting_calm).and .reported
  work := by
    refine ((Lasting.known (fun _ => .report) n).and (.const _)).and (.and ?_ .reported)
    -- reports leave the status alone as long as nobody polls
    refine .of_state fun s i hi h => ⟨?_, ?_⟩
    · rw [State.poll_after]
      exact Poll.isPolling_after hi h.1
    · rw [State.status_after_of_isReport hi h.1]
      exact h.2
  done _ := .reported
  grant := by
    rintro hs s is hcoh hf ⟨⟨hn, hcalm⟩, hr⟩ -
    -- that it is not refused means that nothing blocks it
    have hb : s.blocker? = none := by simpa [launch, State.refuses] using hf
    have hready := (State.blocker?_eq_none_iff hcoh).mp hb
    have hstatus : (s.after (.startRun device)).status = s.status :=
      State.status_after_of_asks? rfl
    -- the wish itself changes nothing but marks and errors
    refine ⟨⟨?_, ?_⟩, ⟨?_, ?_⟩, ?_⟩
    · exact (State.known_after_of_asks? rfl).trans hn
    · rw [← hn]
      exact hready.roles
    · show (s.after (.startRun device)).poll.isPolling = false
      rw [State.poll_after]
      exact hcalm.resolve_right (by simp)
    · show (s.after (.startRun device)).status.isTerminal = true
      rw [hstatus]
      exact hready.terminal
    · show Reported _ (s.after (.startRun device)).status
      rw [hstatus]
      exact hr.append_right _
  deliver := by
    intro hs s is status _ hb _
    show Reported _ (s.after (.runStarted device status)).status
    rw [State.status_after]
    exact (hb status rfl).append_right _

/-! ### What the command is held to -/

/-- What has to have happened before a run of `device` is started. -/
structure Cleared (address : String) (firmware : Option String) (before : List Happening)
    (device : Device) : Prop where
  /-- The two roles name different interfaces that the host has. -/
  roles : ∃ host config, Replied before .interfaces host ∧ Replied before .systemConfig config ∧
    config.network.roles.Usable (some host)
  /-- The device is the first one that is registered under the address, with the firmware from the
  command line if there is any. -/
  device : ∃ devices stored, Replied before .devices devices ∧
    devices.find? (·.hasAddress address) = some stored ∧
    device = { stored with firmware := firmware <|> stored.firmware }
  /-- The last status was reported to a fetch, and is terminal. -/
  status : ∃ status, Replied before .systemStatus status ∧
    (State.replay {} (intentsOf before)).status = status ∧ status.isTerminal = true

/-- A run was ordered, and the backend has answered with a status. -/
def Started (hs : List Happening) : Prop :=
  ∃ device q status, .sent (.startRun device) q ∈ hs ∧ Replied hs (.startRun device) status

/-- The backend has not been heard of an order to start a run. -/
def Unstarted (hs : List Happening) : Prop :=
  ∀ device r, .answered (.startRun device) r ∉ hs

/-- What the command that starts a run is held to. -/
def startMandate (address : String) (firmware : Option String) : Mandate where
  order := [.interfaces, .systemConfig, .devices, .startRun]
  may before call := ∀ device, call = .startRun device → Cleared address firmware before device
  shows hs lines := ∀ line ∈ lines.dropLast, ∃ status, Reported hs status ∧ line = statusLine status
  shows_append h hs' line hl :=
    have ⟨status, hr, hs⟩ := h line hl
    ⟨status, hr.append_right hs', hs⟩

/-- What has happened to plain requests and what has been printed when the command ends. -/
def StartEnds (past : List Happening) (lines : List String) : Ending → Prop
  | .completed => Started past ∧ lines.length = 2
  | .failed _ => ¬Started past
  | .refused _ => Started past

/-- The contract of the command that starts a run. -/
def startContract (c : Client) (address : String) (firmware : Option String) : Contract :=
  (startMandate address firmware).restful c StartEnds

variable {c : Client} {address : String} {firmware : Option String} {hs past ex : List Happening}
  {lines : List String} {beside : Intent → Prop} {P : Fact} {x : Scene}

theorem Unstarted.append (h : Unstarted past) (h' : Unstarted ex) : Unstarted (past ++ ex) :=
  fun device r hm => (List.mem_append.mp hm).elim (h device r) (h' device r)

theorem Unstarted.not_started (h : Unstarted past) : ¬Started past := by
  rintro ⟨device, -, -, -, r, hm, -⟩
  exact h device r hm

theorem Unstarted.not_started_of_missed {device : Device} (h : Unstarted past)
    (hm : Missed (.startRun device) ex) : ¬Started (past ++ ex) := by
  rintro ⟨d, -, status, -, r, ha, hr⟩
  rcases List.mem_append.mp ha with ha | ha
  · exact h d _ ha
  · cases hm with
    | unsent => cases ha
    | unanswered q hn =>
      rcases List.mem_cons.mp ha with ha | ha
      · cases ha
      · cases List.mem_singleton.mp ha
        exact hn r status rfl hr

theorem Missed.unstarted {call : Call} (h : Missed call ex) (hr : call.resource ≠ .startRun) :
    Unstarted ex := by
  intro device r hm
  cases h with
  | unsent => cases hm
  | unanswered q hn =>
    rcases List.mem_cons.mp hm with hm | hm
    · cases hm
    · cases List.mem_singleton.mp hm
      exact hr rfl

theorem Errand.Success.unstarted {e : Errand} (g : e.Success c)
    (h : e.request.resource ≠ .startRun) : Unstarted g.happened := by
  intro device r hm
  rw [Request.resource, ← g.call_of_answered hm] at h
  exact h rfl

theorem Errand.Success.started {device : Device} {n : Known} (g : (launch device n).Success c)
    (past : List Happening) : Started (past ++ g.happened) := by
  obtain ⟨q, r, h, -, -⟩ := g.exchange.eq_of_ok rfl
  have hq : .sent (.startRun device) q ∈ g.happened := by
    rw [h]
    exact List.mem_cons_self
  exact ⟨device, q, g.reply, List.mem_append_right _ hq,
    g.replied.mono (List.subset_append_right ..)⟩

/-- Before a run was started, a status can only have been reported to a fetch. -/
theorem Reported.replied_of_unstarted {hs : List Happening} {status : RunStatus}
    (h : Reported hs status) (hu : Unstarted (plain hs)) : Replied hs .systemStatus status := by
  refine h.resolve_right ?_
  rintro ⟨device, r, hm, -⟩
  exact hu device _ (List.mem_filter.mpr ⟨hm, rfl⟩)

/-! ### The outline -/

/-- What has happened to plain requests when everything has been fetched. -/
structure Prepared (past : List Happening) (host : HostInterfaces) (config : SystemConfig)
    (devices : List Device) : Prop where
  order : subjectsOf past = [.interfaces, .systemConfig, .devices]
  unstarted : Unstarted past
  host : Replied past .interfaces host
  config : Replied past .systemConfig config
  devices : Replied past .devices devices

theorem prepared_of_success (g₁ : gatherHost.Success c) (g₂ : (gatherConfig g₁.reply).Success c)
    (g₃ : (gatherDevices g₁.reply g₂.reply).Success c) :
    Prepared (g₁.happened ++ g₂.happened ++ g₃.happened) g₁.reply g₂.reply g₃.reply where
  order := by
    rw [subjectsOf_append, subjectsOf_append, g₁.subjectsOf_happened, g₂.subjectsOf_happened,
      g₃.subjectsOf_happened]
    rfl
  unstarted := ((g₁.unstarted nofun).append (g₂.unstarted nofun)).append (g₃.unstarted nofun)
  host := g₁.replied.mono fun _ hm => List.mem_append_left _ (List.mem_append_left _ hm)
  config := g₂.replied.mono fun _ hm => List.mem_append_left _ (List.mem_append_right _ hm)
  devices := g₃.replied.mono fun _ hm => List.mem_append_right _ hm

/-- The device that a run is started for, if `stored` is the one that is registered. -/
def chosen (firmware : Option String) (stored : Device) : Device :=
  { stored with firmware := firmware <|> stored.firmware }

section
variable {host : HostInterfaces} {config : SystemConfig} {devices : List Device} {stored : Device}

/-- While the order waits to be sent, all that it needs is given. -/
theorem Prepared.cleared (h : Prepared past host config devices)
    (hfind : devices.find? (·.hasAddress address) = some stored) (hx : Sound x)
    (hpast : plain x.happened = past)
    (hw : (launch (chosen firmware stored) (knownOf host config devices)).work
      x.happened x.store.state x.store.queue) :
    Cleared address firmware x.happened (chosen firmware stored) := by
  have hsub : past ⊆ x.happened := hpast ▸ List.filter_sublist.subset
  obtain ⟨⟨-, hroles⟩, ⟨-, hterminal⟩, hr⟩ := hw
  refine ⟨⟨host, config, h.host.mono hsub, h.config.mono hsub, hroles⟩,
    ⟨devices, stored, h.devices.mono hsub, hfind, rfl⟩,
    ⟨_, hr.replied_of_unstarted (hpast ▸ h.unstarted), ?_, hterminal⟩⟩
  rw [hx.publishes.state]

/-- What the command does when nothing speaks against the run. -/
def order (device : Device) : Dialogue Unit :=
  (fetch (.startRun device) .startRun).bind fun s =>
    (Dialogue.tell .stopPolling).bind fun _ =>
      Dialogue.printAll ["started testrun for " ++ device.displayName, statusLine s.status]

/-- The order is admitted when everything has been fetched and the device is registered. -/
theorem Prepared.admitted (h : Prepared past host config devices)
    (hfind : devices.find? (·.hasAddress address) = some stored) :
    (launch (chosen firmware stored) (knownOf host config devices)).job.Admitted
      (startMandate address firmware) past := by
  refine (lawful_launch _ _).admitted ?_ fun hx hp hw device hd => ?_
  · rw [h.order]
    exact List.prefix_refl _
  · cases hd
    exact h.cleared hfind hx hp hw

open Dialogue in
/-- What comes after the order has been accepted: no more polling, and two lines about the run. -/
theorem meets_announce_started (address : String) (firmware : Option String) {device : Device}
    {n : Known} (g : (launch device n).Success c) (past : List Happening) (s : State)
    (title : String) :
    ((tell .stopPolling).bind fun _ => printAll [title, statusLine s.status]).Meets
      (startContract c address firmware)
      (fun _ => (startContract c address firmware).ends .completed)
      (Resting (startMandate address firmware) (OrWish .stopPolling) (past ++ g.happened) []
        fun hs _ _ => Reported hs s.status) := by
  have hstarted : Started (past ++ g.happened) := g.started past
  refine meets_announce (fun _ hs' hr => hr.append_right hs') (fun _ hi => hi)
    (fun _ _ => List.forall_mem_nil _) (fun hs hr => ?_) (fun _ _ => hstarted) ⟨hstarted, rfl⟩
  -- all lines but the first are about a status that was reported
  exact List.forall_mem_singleton.mpr ⟨s.status, hr, rfl⟩

/-- When everything has been fetched, the command orders the run and says so; if the order is
missed, no run has been started. -/
theorem meets_order (h : Prepared past host config devices)
    (hfind : devices.find? (·.hasAddress address) = some stored) :
    (order (chosen firmware stored)).Meets (startContract c address firmware)
      (fun _ => (startContract c address firmware).ends .completed)
      (Resting (startMandate address firmware) (OrWish .stopPolling) past []
        (launch (chosen firmware stored) (knownOf host config devices)).job.ahead) := by
  have hfail : ∀ message x,
      (launch (chosen firmware stored) (knownOf host config devices)).Fruitless
        (startMandate address firmware) past [] x →
      (startContract c address firmware).ends (.failed message) x := by
    rintro message x ⟨ex, hm, hx⟩
    exact hx.may_end (company_orWish .stopPolling) (h.unstarted.not_started_of_missed hm)
  refine (Errand.meets_fetch (lawful_launch _ _) (h.admitted hfind) hfail).bind fun s => ?_
  have hannounce (g : (launch (chosen firmware stored) (knownOf host config devices)).Success c) :=
    meets_announce_started address firmware g past s
      ("started testrun for " ++ (chosen firmware stored).displayName)
  refine (Dialogue.Meets.exists hannounce).mono ?_
  -- the state that the fetch returns has a status that was reported
  rintro x ⟨g, ⟨t, is, hr, hs⟩, hx⟩
  have hstatus : s.status = t.status := by
    conv_rhs => rw [← hs]
  refine ⟨g, hx.learn hx.idle.queue ?_⟩
  rw [hstatus]
  exact hr

end

/-- Before the order, something else is fetched; if that fails, no run has been started. -/
theorem meets_gather {e : Errand} {f : State → Dialogue Unit} {post : Unit → Scene → Prop}
    (he : e.Lawful) (hr : e.request.resource ≠ .startRun) (hu : Unstarted past)
    (horder : subjectsOf past ++ [e.request.resource] <+: (startMandate address firmware).order)
    (hf : ∀ (g : e.Success c) s, (∃ hs, Seen (e.done g.reply) hs s) →
      (f s).Meets (startContract c address firmware) post
        (Resting (startMandate address firmware) e.beside (past ++ g.happened) []
          (e.after g.reply))) :
    ((fetch e.wish e.request.resource).bind f).Meets (startContract c address firmware) post
      (Resting (startMandate address firmware) e.beside past [] e.job.ahead) := by
  refine Errand.meets_fetch_bind he (he.admitted horder fun _ _ _ device hd => ?_) ?_ hf
  · rw [Request.resource, hd] at hr
    exact absurd rfl hr
  · rintro message x ⟨ex, hm, hx⟩
    exact hx.may_end (c := c) he.beside (hu.append (hm.unstarted hr)).not_started

/-- A run is not ordered if something speaks against it. -/
theorem meets_unless_blocked {d : Dialogue Unit} (hcompany : Company beside)
    (hP : Lasting beside P) (hu : Unstarted past)
    (hd : d.Meets (startContract c address firmware)
      (fun _ => (startContract c address firmware).ends .completed)
      (Resting (startMandate address firmware) beside past lines P)) :
    (Dialogue.present.bind fun t =>
      if let some blocker := t.blocker? then .fail ("cannot start testrun: " ++ blocker.text)
      else d).Meets (startContract c address firmware)
      (fun _ => (startContract c address firmware).ends .completed)
      (Resting (startMandate address firmware) beside past lines P) := by
  refine (Dialogue.meets_present hcompany hP).bind fun t => ?_
  split
  · intro x hx
    exact hx.may_end hcompany hu.not_started
  · exact hd

/-- The rest of the command, when everything but the status has been fetched. -/
theorem meets_after_devices {host : HostInterfaces} {config : SystemConfig}
    {devices : List Device} (h : Prepared past host config devices) :
    (fetchStatus.bind fun _ => (find devices address).bind fun stored =>
      Dialogue.present.bind fun t =>
        if let some blocker := t.blocker? then .fail ("cannot start testrun: " ++ blocker.text)
        else order (chosen firmware stored)).Meets (startContract c address firmware)
      (fun _ => (startContract c address firmware).ends .completed)
      (Resting (startMandate address firmware) Intent.IsReport past []
        fun _ s _ => s.poll = {} ∧ s.loading = .const false ∧
          s.known = knownOf host config devices) := by
  have hcompany : Company (OrWish .stopPolling) := company_orWish .stopPolling
  have hfail : ∀ message x, Resting (startMandate address firmware) (OrWish .stopPolling) past []
      (fun _ _ _ => True) x → (startContract c address firmware).ends (.failed message) x :=
    fun _ _ hx => hx.may_end hcompany h.unstarted.not_started
  refine (Dialogue.meets_fetchStatus ?_ hfail).bind fun t => ?_
  · -- the status is none of what has been fetched
    intro s i hi ⟨hl, hn⟩
    have hsame := State.samePlain_after s hi
    exact ⟨hsame.loading.trans hl, hsame.known.trans hn⟩
  unfold find
  split
  · -- the device is registered
    next stored hfind =>
    have hlaunch := lawful_launch (chosen firmware stored) (knownOf host config devices)
    refine (meets_unless_blocked hcompany hlaunch.job.ahead h.unstarted
      (meets_order h hfind)).mono fun x hx => hx.imp ?_ fun _ hi => hi
    rintro hs s is ⟨⟨⟨hl, hn⟩, hcalm⟩, -, hr⟩ -
    exact ⟨hl, ⟨hn, hcalm⟩, hr⟩
  · intro x hx
    exact hx.may_end hcompany h.unstarted.not_started

/-- What the command knows at each point, from its start to its end. -/
theorem meets_start :
    (start address firmware).Meets (startContract c address firmware)
      (fun _ => (startContract c address firmware).ends .completed)
      (Resting (startMandate address firmware) Intent.IsReport [] [] gatherHost.job.ahead) := by
  have hconfig : Resource.systemConfig ≠ .startRun := by decide
  have hdevices : Resource.devices ≠ .startRun := by decide
  -- the interfaces
  refine meets_gather lawful_gatherHost (by decide) nofun ⟨_, rfl⟩ fun g₁ _ _ => ?_
  have h₁ : subjectsOf g₁.happened = [.interfaces] := g₁.subjectsOf_happened
  have hu₁ : Unstarted g₁.happened := g₁.unstarted (by decide)
  -- the configuration
  refine meets_gather (lawful_gatherConfig g₁.reply) hconfig hu₁ ⟨[.devices, .startRun], ?_⟩
    fun g₂ _ _ => ?_
  · show (subjectsOf g₁.happened ++ [.systemConfig]) ++ _ = _
    rw [h₁]
    rfl
  have h₂ : subjectsOf g₂.happened = [.systemConfig] := g₂.subjectsOf_happened
  -- the devices
  refine meets_gather (lawful_gatherDevices g₁.reply g₂.reply) hdevices
    (hu₁.append (g₂.unstarted hconfig)) ⟨[.startRun], ?_⟩ fun g₃ s hseen => ?_
  · show (subjectsOf (g₁.happened ++ g₂.happened) ++ [.devices]) ++ _ = _
    rw [subjectsOf_append, h₁, h₂]
    rfl
  -- the device is looked for among those that came back
  have hfound : s.devices = g₃.reply := by
    obtain ⟨_, t, _, ⟨-, hn⟩, hs⟩ := hseen
    have hst : s.devices = t.devices := by
      conv_rhs => rw [← hs]
    exact hst.trans (congrArg Known.devices hn)
  rw [hfound]
  exact (meets_after_devices (prepared_of_success g₁ g₂ g₃)).mono fun x hx =>
    hx.imp (fun ⟨hl, hp, hn⟩ _ => ⟨hp, hl, hn⟩) fun _ hi => hi

/-! ### Sessions -/

/-- What is plain is all but the fetches of the status. -/
theorem subjectsOf_plain :
    subjectsOf (plain hs) = (subjectsOf hs).filter (· != .systemStatus) := by
  unfold subjectsOf plain
  rw [List.filterMap_filter, List.filter_filterMap]
  refine List.filterMap_congr fun h _ => ?_
  cases h with
  | sent call q => cases call <;> rfl
  | answered call r => cases call <;> rfl
  | applied i => rfl

/-- What a session of the command does to the backend. -/
structure SafeStart (c : Client) (address : String) (firmware : Option String)
    (hs : List Happening) : Prop where
  /-- Every request is the one that the client makes of its call. -/
  requests : ∀ call q, .sent call q ∈ hs → c.request? call = .ok q
  /-- But for fetches of the status, everything is sent in this order. -/
  order : (subjectsOf hs).filter (· != .systemStatus) <+:
    [.interfaces, .systemConfig, .devices, .startRun]
  once : (subjectsOf hs).count .startRun ≤ 1
  /-- Before a run is ordered, everything that it needs is given, and the order is for the device
  that was found. -/
  cleared : ∀ before device q after, hs = before ++ .sent (.startRun device) q :: after →
    Cleared address firmware before device ∧ q.method = .post ∧
      q.body = some (StartOrder.forDevice device).toJson

theorem Started.of_plain (h : Started (plain hs)) : Started hs := by
  obtain ⟨device, q, status, hm, hr⟩ := h
  exact ⟨device, q, status, List.filter_sublist.subset hm, hr.mono List.filter_sublist.subset⟩

theorem Started.plain (h : Started hs) : Started (plain hs) := by
  obtain ⟨device, q, status, hm, r, ha, hr⟩ := h
  exact ⟨device, q, status, List.mem_filter.mpr ⟨hm, rfl⟩, r, List.mem_filter.mpr ⟨ha, rfl⟩, hr⟩

/-- The order of a mandate leaves room for one order to start a run. -/
theorem count_startRun_le (h : (subjectsOf hs).filter (· != .systemStatus) <+:
    [.interfaces, .systemConfig, .devices, .startRun]) :
    (subjectsOf hs).count .startRun ≤ 1 := by
  rw [← List.count_filter (p := (· != Resource.systemStatus)) (by decide)]
  exact h.sublist.count_le _

/-- A session whose command keeps to its mandate is safe. -/
theorem safeStart_of_kept {s t : Session}
    (h : (startMandate address firmware).Kept (t.scene hs)) (hrun : Session.Run s hs t) :
    SafeStart s.client address firmware hs := by
  have horder := h.order
  rw [show (t.scene hs).happened = hs from rfl, subjectsOf_plain] at horder
  refine ⟨fun call q => hrun.request_eq, horder, count_startRun_le horder, ?_⟩
  intro before device q after he
  have hq : s.client.request? (.startRun device) = .ok q :=
    hrun.request_eq (he ▸ List.mem_append_right _ List.mem_cons_self)
  obtain ⟨hmethod, hbody⟩ := Client.request?_eq_ok hq
  exact ⟨h.permitted before _ q after he rfl device rfl, hmethod, hbody⟩

/-- A session that has ended as its contract says has succeeded exactly if a run was started and
the lines about it were taken. -/
theorem exit_eq_zero_iff {t : Session} {e : Ending} (he : t.activity = .over e)
    (hend : (startContract c address firmware).ends e (t.scene hs)) (hprints : t.Prints) :
    e.exit = 0 ↔ Started hs ∧ t.output = .taken := by
  obtain ⟨past, lines, hends, hx⟩ := hend
  have hpast : plain hs = past := hx.idle.past
  have hstarted : Started hs ↔ Started past := by
    rw [← hpast]
    exact ⟨Started.plain, Started.of_plain⟩
  rw [hstarted, ← Output.refusal?_eq_none_iff]
  cases e with
  | completed =>
    have hprinted : t.printed ≠ [] := by
      rw [show t.printed = lines from hx.printed]
      exact List.ne_nil_of_length_eq_add_one hends.2
    exact ⟨fun _ => ⟨hends.1, hprints.printed.resolve_right hprinted⟩, fun _ => rfl⟩
  | failed message => exact ⟨nofun, fun h => absurd h.1 hends⟩
  | refused reason =>
    refine ⟨nofun, fun h => ?_⟩
    rw [hprints.refused reason he] at h
    cases h.2

/-- The command that starts a run is safe against every backend.  Whatever comes back for its
requests, and whoever moves when: everything that is sent is as `SafeStart` says, and the command
succeeds exactly if a run was ordered and the backend has answered with a status, provided that
its lines are taken.  In front of every backend it comes to its end. -/
theorem start_sends_cleared {w : Surroundings} {settings : Settings} {s : Session}
    (h : Program.ofOrder w settings (.start address firmware) = .ok s) :
    (∀ hs t, Session.Run s hs t → SafeStart s.client address firmware hs ∧
      ∀ o, t.outcome? = some o →
        o.requests = requestsOf hs ∧ (o.exit = 0 ↔ Started hs ∧ s.output = .taken)) ∧
    ∀ backend, ∃ turns hs o, Session.Run s hs (s.run backend none turns) ∧
      (s.run backend none turns).outcome? = some o := by
  obtain ⟨client, timeout, interval, rfl⟩ := Program.ofOrder_eq_ok h
  have hstore : Program.store interval (.start address firmware) = .initial interval := by
    simp [Program.store, Store.initial]
  rw [hstore]
  have hahead : gatherHost.job.ahead [] {} [] := ⟨rfl, rfl, rfl⟩
  have hshows : (startMandate address firmware).shows [] [] := List.forall_mem_nil _
  have hlasting : Lasting Intent.IsReport gatherHost.job.ahead := lawful_gatherHost.job.ahead
  refine ⟨fun hs t hrun => ?_, fun backend => ?_⟩
  · -- what the outline promises holds of every run
    obtain ⟨hkept, hend⟩ :=
      Session.keeps_mandate company_reports hlasting hshows hahead meets_start hrun
    refine ⟨safeStart_of_kept hkept hrun, fun o ho => ?_⟩
    obtain ⟨e, he, hexit, -, hrequests⟩ := Session.outcome?_eq_some ho
    refine ⟨?_, ?_⟩
    · rw [hrequests, hrun.requests_eq]
      simp
    · rw [hexit, exit_eq_zero_iff he (hend e he) (hrun.prints ⟨.inr rfl, by rintro _ ⟨⟩⟩),
        hrun.fixed.output]
  · -- and the outline leads to an end
    obtain ⟨turns, hs, e, hrun, he⟩ : Session.Ends backend
        { client, timeout, store := .initial interval, output := w.output,
          activity := .talking (start address firmware) } :=
      Session.ends_of_meets rfl rfl (List.forall_mem_nil _) (Resting.firm company_reports hlasting)
        (resting_initial interval hshows hahead) meets_start
    obtain ⟨o, ho⟩ := Session.exists_outcome? he
    exact ⟨turns, hs, o, hrun, ho⟩

/-- A run is ordered once everything has been fetched and the status is that of an idle system,
and not while a run is in progress. -/
theorem start_sends_cleared_once_idle :
    let w : Surroundings :=
      { arguments := [], environment := fun _ => none, home := none, file := fun _ => .missing }
    let backend (status : String) : Session.Backend := fun _ earlier _ =>
      ["\x7b\"a\":\"\",\"b\":\"\"\x7d",
        "\x7b\"network\":\x7b\"device_intf\":\"a\",\"internet_intf\":\"b\"\x7d\x7d",
        "[\x7b\"mac_addr\":\"aa:01\"\x7d]", status, status][earlier.length]?.map fun text =>
          { status := 200, body := text.toUTF8.toList }
    ∃ s, Program.ofOrder w {} (.start "AA:01" none) = .ok s ∧
      (∃ turns hs, Session.Run s hs (s.run (backend "\x7b\"status\":\"Idle\"\x7d") none turns) ∧
        SafeStart s.client "AA:01" none hs ∧ Started hs) ∧
      ∃ turns hs,
        Session.Run s hs (s.run (backend "\x7b\"status\":\"In Progress\"\x7d") none turns) ∧
        SafeStart s.client "AA:01" none hs ∧ ¬Started hs := by
  intro w backend
  -- the command line that is run here is computed, and the theorem says what its exit code means
  have hexit : ∀ status code, ((Program.ofOrder w {} (.start "AA:01" none)).toOption.bind fun s =>
      (s.run (backend status) none 60).outcome?.map (·.exit)) = some code →
      ∃ s, Program.ofOrder w {} (.start "AA:01" none) = .ok s ∧
        ∃ turns hs, Session.Run s hs (s.run (backend status) none turns) ∧
          SafeStart s.client "AA:01" none hs ∧ (code = 0 ↔ Started hs ∧ s.output = .taken) := by
    intro status code h
    rcases hs : Program.ofOrder w {} (.start "AA:01" none) with message | s
    · rw [hs] at h
      cases h
    · rw [hs] at h
      obtain ⟨o, ho, rfl⟩ := Option.map_eq_some_iff.mp h
      obtain ⟨hruns, hends⟩ := start_sends_cleared hs
      obtain ⟨turns, hs', o', hrun, ho'⟩ := hends (backend status)
      obtain ⟨hsafe, hout⟩ := hruns hs' _ hrun
      cases Session.outcome?_run_unique ho ho'
      exact ⟨s, rfl, turns, hs', hrun, hsafe, (hout o ho').2⟩
  obtain ⟨s, hs, turns, hs₁, hrun, hsafe, hzero⟩ :=
    hexit "\x7b\"status\":\"Idle\"\x7d" 0 (by unfold w backend; decide +kernel)
  obtain ⟨t, ht, turns', hs₂, hrun', hsafe', hone⟩ :=
    hexit "\x7b\"status\":\"In Progress\"\x7d" 1 (by unfold w backend; decide +kernel)
  cases hs.symm.trans ht
  refine ⟨s, hs, ⟨turns, hs₁, hrun, hsafe, (hzero.mp rfl).1⟩, turns', hs₂, hrun', hsafe', ?_⟩
  exact fun hstarted => absurd (hone.mpr ⟨hstarted, (hzero.mp rfl).2⟩) (by decide)

end Cli

end RunControl
