/-
RunControl/Proofs/Cli/DeviceWrites.lean

What is written when a registered device is changed or deleted from the command line.  Both
commands fetch the devices, choose the first one that has the given address up to case, and wish
for one write about it (`writesOnce_registered`).  So they write once at most, and not before the
backend has returned devices among which there is such a one.

What a changed device is like is said name by name (`Amended`).  The modules are a map, and two
folds write to it; of each name the later fold decides, and within a fold it does not matter how
often a name comes and in which order (`DeviceChange.get?_switch`).
-/
import Mathlib.Data.List.Sort
import RunControl.Proofs.Cli.Ends
import RunControl.Proofs.Cli.SingleWrite

namespace RunControl

namespace Dict

variable {α : Type} {m n : Dict α} {k : String} {v : α}

theorem mem_entries_iff : (k, v) ∈ m.entries ↔ m.get? k = some v := by
  refine ⟨fun h => ?_, mem_entries_of_get?⟩
  obtain ⟨before, after, hl⟩ := List.append_of_mem h
  have hsorted : Entries.Sorted (before ++ (k, v) :: after) := hl ▸ m.sorted
  have hlater : ∀ e ∈ after, e.1 ≠ k := by
    intro e he hk
    have hlt : k < e.1 :=
      List.rel_of_pairwise_cons (List.pairwise_append.mp hsorted).2.1 he
    rw [hk] at hlt
    exact String.lt_irrefl k hlt
  rw [← ofList_entries m, hl]
  exact get?_ofList_of_last hlater

/-- Maps that bind the same values are equal. -/
theorem ext_get? (h : ∀ k, m.get? k = n.get? k) : m = n := by
  -- the order of the entries is that of the keys, so the entries are determined by which there are
  have : Std.Irrefl fun a b : String × α => a.1 < b.1 := ⟨fun a => String.lt_irrefl a.1⟩
  have : Std.Antisymm fun a b : String × α => a.1 < b.1 :=
    ⟨fun a b hab hba => absurd (String.lt_trans hab hba) (String.lt_irrefl a.1)⟩
  apply ext
  apply List.Pairwise.eq_of_mem_iff m.sorted n.sorted
  rintro ⟨k, v⟩
  rw [mem_entries_iff, mem_entries_iff, h]

end Dict

namespace Cli

/-! ### What becomes of a device -/

/-- A list of names switches on or off what it names, and nothing else. -/
theorem DeviceChange.get?_switch (enabled : Bool) (modules : Dict TestModule)
    (names : List String) (name : String) :
    (switch enabled modules names).get? name =
      if name ∈ names then some { enabled } else modules.get? name := by
  induction names generalizing modules with
  | nil => rfl
  | cons first names ih =>
    show (switch enabled (modules.insert first { enabled }) names).get? name = _
    rw [ih]
    by_cases hlater : name ∈ names
    · rw [if_pos hlater, if_pos (List.mem_cons_of_mem _ hlater)]
    · rw [if_neg hlater]
      by_cases hfirst : name = first
      · rw [hfirst, Dict.get?_insert_self, if_pos List.mem_cons_self]
      · rw [Dict.get?_insert_of_ne _ hfirst, if_neg fun h => ?_]
        exact (List.mem_cons.mp h).elim hfirst hlater

/-- The device that takes the place of a stored one.  What is given on the command line counts,
and where nothing is given, what was stored; a module that is to be switched off is off, whatever
else is said of it. -/
structure Amended (a : Arguments) (stored device : Device) : Prop where
  address : device.address = (a.value? "new-mac").getD stored.address
  manufacturer : device.manufacturer = (a.value? "manufacturer").getD stored.manufacturer
  model : device.model = (a.value? "model").getD stored.model
  firmware : device.firmware = stored.firmware
  modules : ∀ name, device.modules.get? name =
    if name ∈ a.values "disable" then some { enabled := false }
    else if name ∈ a.values "enable" then some { enabled := true }
    else stored.modules.get? name

/-- Command lines that say the same of a device, however often they name a module, and in which
order. -/
structure SameChange (a b : Arguments) : Prop where
  address : a.value? "new-mac" = b.value? "new-mac"
  manufacturer : a.value? "manufacturer" = b.value? "manufacturer"
  model : a.value? "model" = b.value? "model"
  enable : ∀ name, name ∈ a.values "enable" ↔ name ∈ b.values "enable"
  disable : ∀ name, name ∈ a.values "disable" ↔ name ∈ b.values "disable"

variable {a b : Arguments} {stored device device' : Device}

theorem amended_applyTo (a : Arguments) (stored : Device) :
    Amended a stored ((Order.change a).applyTo stored) where
  address := rfl
  manufacturer := rfl
  model := rfl
  firmware := rfl
  modules name := by
    show (DeviceChange.switch false (DeviceChange.switch true stored.modules (a.values "enable"))
      (a.values "disable")).get? name = _
    rw [DeviceChange.get?_switch, DeviceChange.get?_switch]

/-- The law determines the device. -/
theorem Amended.unique (hs : SameChange a b) (h : Amended a stored device)
    (h' : Amended b stored device') : device = device' := by
  have hmodules : device.modules = device'.modules := by
    apply Dict.ext_get?
    intro name
    rw [h.modules, h'.modules]
    simp only [hs.disable, hs.enable]
  have haddress : device.address = device'.address := by
    rw [h.address, h'.address, hs.address]
  have hmanufacturer : device.manufacturer = device'.manufacturer := by
    rw [h.manufacturer, h'.manufacturer, hs.manufacturer]
  have hmodel : device.model = device'.model := by
    rw [h.model, h'.model, hs.model]
  have hfirmware : device.firmware = device'.firmware := by
    rw [h.firmware, h'.firmware]
  cases device
  cases device'
  rw [Device.mk.injEq]
  exact ⟨haddress, hmanufacturer, hmodel, hfirmware, hmodules⟩

/-- A request that puts a changed device in the place of a stored one, under the address that is
stored; of the options that are given, order and repetition do not matter. -/
def Edits (c : Client) (a : Arguments) (stored : Device) (q : Http.Request) : Prop :=
  ∃ device, Amended a stored device ∧
    (∀ b, SameChange a b → (Order.change b).applyTo stored = device) ∧
    c.request? (.editDevice stored.address device) = .ok q ∧ q.method = .post ∧
    q.body = some (DeviceEdit.toJson { address := stored.address, device })

/-- A request that deletes a stored device as it is. -/
def Deletes (c : Client) (stored : Device) (q : Http.Request) : Prop :=
  c.request? (.deleteDevice stored) = .ok q ∧ q.method = .delete ∧ q.body = some stored.toJson

variable {c : Client} {q : Http.Request}

theorem edits_of_request? (h : c.request? (.editDevice stored.address
    ((Order.change a).applyTo stored)) = .ok q) : Edits c a stored q := by
  obtain ⟨hmethod, hbody⟩ := Client.request?_eq_ok h
  refine ⟨_, amended_applyTo a stored, fun b hb => ?_, h, hmethod, hbody⟩
  exact ((amended_applyTo a stored).unique hb (amended_applyTo b stored)).symm

theorem deletes_of_request? (h : c.request? (.deleteDevice stored) = .ok q) :
    Deletes c stored q := by
  obtain ⟨hmethod, hbody⟩ := Client.request?_eq_ok h
  exact ⟨h, hmethod, hbody⟩

/-! ### The commands -/

/-- A write about the first device that has an address. -/
def AboutFirst (address : String) (call : Device → Call) (devices : List Device) (c : Call) :
    Prop :=
  ∃ stored, devices.find? (·.hasAddress address) = some stored ∧ c = call stored

open Dialogue in
/-- A command that fetches the devices, chooses one and wishes for a write about it. -/
theorem writesOnce_registered (address : String) {wish : Device → Intent} {call : Device → Call}
    (hwish : ∀ d, (wish d).write? = some (call d)) (r : Resource) (line : Device → String) :
    ((registered address).bind fun stored => (fetch (wish stored) r).bind fun _ =>
      printAll [line stored]).WritesOnce (AboutFirst address call) [] := by
  refine .inl ⟨List.forall_mem_singleton.mpr ⟨rfl, rfl, fun _ => rfl⟩, fun s => ?_⟩
  -- the first answer: a failure that was noted ends the command, and so does a missing device
  show (((((refuse s .devices _).bind fun _ => done s).bind fun s => find s.devices address).bind
    _).WritesOnce _ _)
  rw [refuse]
  split
  · trivial
  · rw [bind_done, bind_done, find]
    split
    · next stored hfind =>
      refine .inr ⟨wish stored, call stored, rfl, hwish stored, ⟨stored, hfind, rfl⟩, fun t => ?_⟩
      -- the second answer: only lines are printed from here on
      show (((refuse t r _).bind fun _ => done t).bind fun _ => printAll _).Silent
      rw [refuse]
      split
      · trivial
      · exact silent_printAll _
    · trivial

theorem writesOnce_editDevice (address : String) (change : DeviceChange) :
    (editDevice address change).WritesOnce (AboutFirst address fun stored =>
      .editDevice stored.address (change.applyTo stored)) [] :=
  writesOnce_registered address (fun _ => rfl) .editDevice
    fun stored => "updated " ++ (change.applyTo stored).displayName

theorem writesOnce_deleteDevice (address : String) :
    (deleteDevice address).WritesOnce (AboutFirst address .deleteDevice) [] :=
  writesOnce_registered address (fun _ => rfl) .deleteDevice
    fun stored => "deleted " ++ stored.displayName

/-! ### Sessions -/

variable {w : Surroundings} {settings : Settings} {s t : Session} {hs : List Happening}
  {address : String} {call : Call}

theorem isPlain_of_isWrite (h : call.isWrite = true) : call.isPlain = true := by
  cases call with
  | systemStatus => cases h
  | _ => rfl

/-- Every write is a request with another method than a fetch has. -/
theorem countP_requestsOf (h : ∀ call q, .sent call q ∈ hs → q.method = call.method) :
    (requestsOf hs).countP (·.method != .get) = (writesOf hs).length := by
  induction hs with
  | nil => rfl
  | cons happening hs ih =>
    have ih := ih fun call q hm => h call q (List.mem_cons_of_mem _ hm)
    cases happening with
    | answered _ _ | applied _ => exact ih
    | sent call q =>
      have hmethod := h call q List.mem_cons_self
      show (q :: requestsOf hs).countP _ = ((Happening.sent call q :: hs).filterMap _).length
      rw [List.countP_cons, ih, hmethod, filterMap_cons_append]
      show (writesOf hs).length + (if call.isWrite = true then 1 else 0)
        = ((if call.isWrite = true then some call else none).toList ++ writesOf hs).length
      split <;> rfl

/-- One request at most has written, and not before the backend had returned devices among which
one has the address; it was about the first of these. -/
structure WritesAbout (address : String) (hs : List Happening)
    (writes : Device → Http.Request → Prop) : Prop where
  once : (requestsOf hs).countP (·.method != .get) ≤ 1
  registered : ∀ before call q after, hs = before ++ .sent call q :: after → q.method ≠ .get →
    ∃ roster stored, Replied before .devices roster ∧
      roster.find? (·.hasAddress address) = some stored ∧
      Text.lower stored.address = Text.lower address ∧ writes stored q

/-- A session whose dialogue writes once about the first device with an address. -/
theorem Session.Frugal.writesAbout {what : Device → Call} {writes : Device → Http.Request → Prop}
    (h : Frugal (AboutFirst address what) hs t)
    (hsent : ∀ call q, .sent call q ∈ hs → s.client.request? call = .ok q)
    (hwrites : ∀ stored q, s.client.request? (what stored) = .ok q → writes stored q) :
    WritesAbout address hs writes where
  once := by
    rw [countP_requestsOf fun call q hm => (Client.request?_eq_ok (hsent call q hm)).1]
    exact h.length_writesOf_le
  registered before call q after hl hq := by
    have hrequest : s.client.request? call = .ok q := by
      apply hsent
      rw [hl]
      exact List.mem_append_right _ List.mem_cons_self
    have hwrite : call.isWrite = true := by
      rw [(Client.request?_eq_ok hrequest).1] at hq
      exact bne_iff_ne.mpr hq
    obtain ⟨devices, hreturned, stored, hfind, rfl⟩ :=
      h.permitted before call q after hl (isPlain_of_isWrite hwrite) hwrite
    refine ⟨devices, stored, ?_, hfind, ?_, hwrites stored q hrequest⟩
    · -- no device would have been found if none had been returned
      refine hreturned.resolve_left fun hnone => ?_
      rw [hnone] at hfind
      cases hfind
    · have hfound : stored.hasAddress address = true :=
        List.find?_some (p := fun d : Device => d.hasAddress address) hfind
      exact Device.hasAddress_iff.mp hfound

/-- A command other than a watch that writes once makes a session that does. -/
theorem Program.frugal_of_order {order : Order} {d : Dialogue Unit}
    {may : List Device → Call → Prop} (h : Program.ofOrder w settings order = .ok s)
    (hd : Program.activity order = .talking d) (hmay : d.WritesOnce may [])
    (hrun : Session.Run s hs t) : Session.Frugal may hs t := by
  obtain ⟨client, timeout, interval, rfl⟩ := Program.ofOrder_eq_ok h
  have hstore : Program.store interval order = .initial interval := by
    cases order with
    | watch => cases hd
    | _ => simp [Program.store, Store.initial]
  rw [hstore, hd] at hrun
  exact (Session.frugal_initial hmay).run hrun

/-! ### From the command line -/

/-- A command line that is read is one that its order was taken from. -/
theorem Invocation.read_eq_ok {environment : String → Option String} {words : List String}
    {i : Invocation} (h : Invocation.read environment words = .ok i) :
    ∃ a, Arguments.read .program environment words = .ok a ∧ Order.of? a = some i.order := by
  unfold Invocation.read at h
  rcases ha : Arguments.read .program environment words with halt | a
  · rw [ha] at h
    cases h
  · rw [ha] at h
    rcases ho : Order.of? a with - | order
    · simp only [ho, bind, Except.bind] at h
      cases h
    · simp only [ho, bind, Except.bind] at h
      cases h
      exact ⟨a, rfl, ho⟩

/-- The program becomes a session only if the command line is well formed. -/
theorem Program.begin_eq_session (h : Program.begin w = .session s) :
    ∃ i settings, Invocation.read w.environment w.arguments = .ok i ∧
      Program.ofOrder w settings i.order = .ok s := by
  rcases hi : Invocation.read w.environment w.arguments with halt | i
  · simp only [Program.begin, hi] at h
    cases h
  rcases hp : Program.ofInvocation w i with message | program
  · simp only [Program.begin, hi, hp] at h
    cases h
  obtain rfl : program = .session s := by
    simpa only [Program.begin, hi, hp] using h
  -- settings that do not count, or a level that is none, would have ended it
  unfold Program.ofInvocation at hp
  rcases hs : Program.settings w i with message | settings
  · rw [hs] at hp
    cases hp
  rcases hl : LogFilter.check (Program.logLevel w i settings) with message | u
  · simp only [hs, hl, bind, Except.bind] at hp
    cases hp
  simp only [hs, hl, bind, Except.bind] at hp
  split at hp
  · cases hp
  · cases hp
  · next order horder =>
    rcases ho : Program.ofOrder w settings i.order with message | s'
    · rw [ho] at hp
      cases hp
    · rw [ho] at hp
      cases hp
      exact ⟨i, settings, rfl, ho⟩

/-- The commands that change or delete a registered device, on every command line and against
every backend.  They write once at most, and only if the backend has returned devices among which
one has the given address up to case; what is written is about the first of these, and under the
address as it is stored.  A changed device is as `Amended` says, and a device that is deleted is
sent as it was stored. -/
theorem device_write_once (ha : Arguments.read .program w.environment w.arguments = .ok a)
    (hbegin : Program.begin w = .session s) (hrun : Session.Run s hs t) :
    (a.path = ["device", "edit"] → ∃ address, a.value? "mac" = some address ∧
      WritesAbout address hs (Edits s.client a)) ∧
    (a.path = ["device", "delete"] → ∃ address, a.value? "mac" = some address ∧
      WritesAbout address hs (Deletes s.client)) := by
  obtain ⟨i, settings, hi, horder⟩ := Program.begin_eq_session hbegin
  obtain ⟨a', ha', hof⟩ := Invocation.read_eq_ok hi
  obtain rfl : a' = a := Except.ok.inj (ha'.symm.trans ha)
  have hsent : ∀ call q, .sent call q ∈ hs → s.client.request? call = .ok q :=
    fun _ _ hm => hrun.request_eq hm
  constructor
  · -- the command line gives an address and the change that is made to the device
    intro hpath
    simp only [Order.of?, hpath] at hof
    obtain ⟨address, hmac, hedit⟩ := Option.map_eq_some_iff.mp hof
    have hfrugal : Session.Frugal (AboutFirst address fun stored =>
        .editDevice stored.address ((Order.change a').applyTo stored)) hs t := by
      apply Program.frugal_of_order horder _ (writesOnce_editDevice address _) hrun
      rw [← hedit]
      rfl
    exact ⟨address, hmac, hfrugal.writesAbout hsent fun _ _ => edits_of_request?⟩
  · -- it gives an address, and the device stays as it is stored
    intro hpath
    simp only [Order.of?, hpath] at hof
    obtain ⟨address, hmac, hdelete⟩ := Option.map_eq_some_iff.mp hof
    have hfrugal : Session.Frugal (AboutFirst address .deleteDevice) hs t := by
      apply Program.frugal_of_order horder _ (writesOnce_deleteDevice address) hrun
      rw [← hdelete]
      rfl
    exact ⟨address, hmac, hfrugal.writesAbout hsent fun _ _ => deletes_of_request?⟩

/-- A device is found under its address in capitals, and then changed, or deleted. -/
theorem device_write_once_found :
    let w (words : List String) : Surroundings :=
      { arguments := words, environment := fun _ => none, home := some "/home/u",
        file := fun _ => .missing }
    let edit : List String :=
      ["device", "edit", "--mac", "AA:01", "--disable", "dns", "--enable", "tls", "--enable",
        "dns"]
    let delete : List String := ["device", "delete", "--mac", "AA:01"]
    (∃ a s hs t, Arguments.read .program (w edit).environment edit = .ok a ∧
      Program.begin (w edit) = .session s ∧ Session.Run s hs t ∧
      WritesAbout "AA:01" hs (Edits s.client a) ∧ ∃ q ∈ requestsOf hs, q.method = .post) ∧
    ∃ a s hs t, Arguments.read .program (w delete).environment delete = .ok a ∧
      Program.begin (w delete) = .session s ∧ Session.Run s hs t ∧
      WritesAbout "AA:01" hs (Deletes s.client) ∧ ∃ q ∈ requestsOf hs, q.method = .delete := by
  intro w edit delete
  let backend : Session.Backend := fun _ earlier _ =>
    some
      { status := 200
        body := (if earlier.isEmpty then "[\x7b\"mac_addr\":\"aa:01\"\x7d]" else "").toUTF8.toList }
  -- the turns of a session are computed, as long as it does not wait for the timer
  let sends (method : Http.Method) (s : Session) : Bool :=
    s.store.tasks.isEmpty && s.requests.isEmpty &&
      ((List.range 12).all fun n => match (s.run backend none n).turn with
        | .pause _ => false
        | _ => true) &&
      (s.run backend none 12).requests.any (·.method = method)
  have hrun : ∀ words method, (match Program.begin (w words) with
      | .session s => sends method s
      | .ended _ => false) = true →
      ∃ s hs t, Program.begin (w words) = .session s ∧ Session.Run s hs t ∧
        ∃ q ∈ requestsOf hs, q.method = method := by
    intro words method h
    rcases hb : Program.begin (w words) with outcome | s
    · rw [hb] at h
      cases h
    rw [hb] at h
    simp only [sends, Bool.and_eq_true, List.isEmpty_iff, List.all_eq_true, List.mem_range,
      List.any_eq_true, decide_eq_true_eq] at h
    obtain ⟨⟨⟨htasks, hrequests⟩, hpauses⟩, q, hq, hmethod⟩ := h
    have hfresh : s.Fresh := by
      intro task hm
      rw [htasks] at hm
      cases hm
    have hunpaused : ∀ n < 12, ∀ ms, (s.run backend none n).turn ≠ .pause ms := by
      intro n hn ms hp
      have h := hpauses n hn
      rw [hp] at h
      cases h
    obtain ⟨hs, hrun⟩ := Session.exists_run hfresh hunpaused
    rw [hrun.requests_eq, hrequests, List.append_nil, List.mem_reverse] at hq
    exact ⟨s, hs, _, rfl, hrun, q, hq, hmethod⟩
  -- and so are the path and the address on a command line
  have hread : ∀ words path, (Arguments.read .program (w words).environment words).toOption.map
      (fun a => (a.path, a.value? "mac")) = some (path, some "AA:01") →
      ∃ a, Arguments.read .program (w words).environment words = .ok a ∧ a.path = path ∧
        a.value? "mac" = some "AA:01" := by
    intro words path h
    rcases ha : Arguments.read .program (w words).environment words with halt | a
    · rw [ha] at h
      cases h
    · rw [ha] at h
      exact ⟨a, rfl, congrArg Prod.fst (Option.some.inj h), congrArg Prod.snd (Option.some.inj h)⟩
  constructor
  · obtain ⟨a, ha, hpath, hmac⟩ := hread edit ["device", "edit"]
      (by unfold w edit; decide +kernel)
    obtain ⟨s, hs, t, hbegin, hrun, hq⟩ := hrun edit .post
      (by unfold sends backend w edit; decide +kernel)
    obtain ⟨address, haddress, hwrites⟩ := (device_write_once ha hbegin hrun).1 hpath
    obtain rfl : "AA:01" = address := Option.some.inj (hmac.symm.trans haddress)
    exact ⟨a, s, hs, t, ha, hbegin, hrun, hwrites, hq⟩
  · obtain ⟨a, ha, hpath, hmac⟩ := hread delete ["device", "delete"]
      (by unfold w delete; decide +kernel)
    obtain ⟨s, hs, t, hbegin, hrun, hq⟩ := hrun delete .delete
      (by unfold sends backend w delete; decide +kernel)
    obtain ⟨address, haddress, hwrites⟩ := (device_write_once ha hbegin hrun).2 hpath
    obtain rfl : "AA:01" = address := Option.some.inj (hmac.symm.trans haddress)
    exact ⟨a, s, hs, t, ha, hbegin, hrun, hwrites, hq⟩

end Cli

end RunControl
