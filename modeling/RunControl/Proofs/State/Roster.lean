/-
RunControl/Proofs/State/Roster.lean

The addresses of the registered devices.  Four intents write the devices, and each reads
nothing of the state but the devices themselves (`State.devices_after`).  A device that is
added takes the place of all that have its address, and a device that is deleted leaves none
behind; so these two keep the addresses distinct (`Distinct`).  A device that is edited is
put where the first device with the old address stands, or else at the end, whether or not
another device has the new address already.

So an edit is the one thing that can make two devices share an address, and it does so
exactly if it clashes: if a device other than the edited one has the new address
(`State.distinct_replaceAddress_iff`).  Devices that have been fetched keep their addresses
distinct as long as no edit clashes (`State.distinct_replay_iff`).  An edit does clash when
the devices are fetched after the backend has carried it out and before its answer is
applied (`State.shared_address_of_overtaken_edit`).
-/
import Mathlib.Data.List.Induction
import RunControl.State.Step

namespace RunControl

namespace Device

variable {d e f : Device} {address : String}

theorem hasAddress_iff :
    d.hasAddress address = true ↔ Text.lower d.address = Text.lower address :=
  Text.alike_iff

theorem hasAddress_comm (d e : Device) : d.hasAddress e.address = e.hasAddress d.address :=
  Text.alike_comm _ _

/-- Of two devices with an address, each has the address of the other. -/
theorem hasAddress_of_hasAddress (hd : d.hasAddress address = true)
    (he : e.hasAddress address = true) : d.hasAddress e.address = true := by
  rw [hasAddress_iff] at hd he ⊢
  rw [hd, he]

end Device

namespace State

/-! ### Who writes the devices -/

/-- What becomes of the devices with an intent. -/
def devicesAfter (devices : List Device) : Intent → List Device
  | .devicesFetched fetched => fetched
  | .deviceCreated d => dropAddress devices d.address ++ [d]
  | .deviceEdited address d => replaceAddress address d devices
  | .deviceDeleted address => dropAddress devices address
  | _ => devices

/-- The devices after an intent depend on nothing but the devices before. -/
theorem devices_after (s : State) (i : Intent) :
    (s.after i).devices = devicesAfter s.devices i := by
  -- the cases that branch do so about something else
  cases i with
  | statusFetched c status =>
    simp only [after]
    split <;> rfl
  | statusFailed c failure =>
    simp only [after, acceptFailure]
    split
    · split <;> rfl
    · rfl
  | setStatus status =>
    simp only [after]
    split <;> rfl
  | configFetched config =>
    simp only [after, acceptConfig, settle, recheck, withMissing, onInterface]
    rfl
  | runStarted device status =>
    simp only [after, runStarted]
    split <;> rfl
  | failed r failure =>
    simp only [after, requestFailed]
    split <;> rfl
  | startRun device =>
    simp only [after, startRun]
    split <;> rfl
  | deleteDevice device =>
    simp only [after, deleteDevice]
    split <;> rfl
  | _ => rfl

/-! ### Distinct addresses -/

/-- No two devices have the same address, up to ASCII case. -/
def Distinct (devices : List Device) : Prop :=
  devices.Pairwise fun d e => d.hasAddress e.address = false

/-- A device other than those with the one address has the other address. -/
def Clashes (devices : List Device) (address : String) (d : Device) : Prop :=
  ∃ e ∈ devices, e.hasAddress address = false ∧ e.hasAddress d.address = true

variable {devices : List Device} {address : String} {d e : Device} {i : Intent}

theorem distinct_cons :
    Distinct (d :: devices) ↔
      (∀ e ∈ devices, d.hasAddress e.address = false) ∧ Distinct devices :=
  List.pairwise_cons

theorem mem_dropAddress :
    e ∈ dropAddress devices address ↔ e ∈ devices ∧ e.hasAddress address = false := by
  simp [dropAddress]

theorem Distinct.dropAddress (h : Distinct devices) (address : String) :
    Distinct (dropAddress devices address) :=
  List.Pairwise.filter _ h

/-- A device can be put behind those that do not have its address. -/
theorem Distinct.append_singleton (h : Distinct devices)
    (hd : ∀ e ∈ devices, e.hasAddress d.address = false) : Distinct (devices ++ [d]) := by
  refine List.pairwise_append.mpr ⟨h, List.pairwise_singleton _ _, fun e he f hf => ?_⟩
  rw [List.mem_singleton.mp hf]
  exact hd e he

/-- Of distinct devices one has an address at most: without the first that has it, none does. -/
theorem Distinct.not_hasAddress (h : Distinct (d :: devices)) (hd : d.hasAddress address = true) :
    ∀ e ∈ devices, e.hasAddress address = false := by
  intro e he
  refine Bool.eq_false_iff.mpr fun hea => ?_
  have hde := (distinct_cons.mp h).1 e he
  rw [Device.hasAddress_of_hasAddress hd hea] at hde
  cases hde

/-- An edit leaves the devices that do not have the old address. -/
theorem mem_replaceAddress (h : Distinct devices) :
    e ∈ replaceAddress address d devices ↔
      e = d ∨ (e ∈ devices ∧ e.hasAddress address = false) := by
  induction devices with
  | nil => simp [replaceAddress]
  | cons f devices ih =>
    unfold replaceAddress
    cases hf : f.hasAddress address with
    | true =>
      -- the device that is replaced, and by distinctness the only one
      have hothers := h.not_hasAddress hf
      rw [if_pos rfl, List.mem_cons]
      refine or_congr_right ⟨fun he => ⟨List.mem_cons_of_mem _ he, hothers e he⟩, ?_⟩
      rintro ⟨he, hne⟩
      rcases List.mem_cons.mp he with rfl | he
      · rw [hf] at hne
        cases hne
      · exact he
    | false =>
      rw [if_neg (by simp), List.mem_cons, ih (distinct_cons.mp h).2, List.mem_cons]
      constructor
      · rintro (rfl | rfl | ⟨he, hne⟩)
        · exact .inr ⟨.inl rfl, hf⟩
        · exact .inl rfl
        · exact .inr ⟨.inr he, hne⟩
      · rintro (rfl | ⟨rfl | he, hne⟩)
        · exact .inr (.inl rfl)
        · exact .inl rfl
        · exact .inr (.inr ⟨he, hne⟩)

theorem not_clashes_iff :
    ¬Clashes devices address d ↔
      ∀ e ∈ devices, e.hasAddress address = false → e.hasAddress d.address = false := by
  simp [Clashes]

/-- An edit keeps the addresses distinct exactly if it does not clash. -/
theorem distinct_replaceAddress_iff (h : Distinct devices) :
    Distinct (replaceAddress address d devices) ↔ ¬Clashes devices address d := by
  induction devices with
  | nil => simp [replaceAddress, Distinct, Clashes]
  | cons f devices ih =>
    obtain ⟨hf, hrest⟩ := distinct_cons.mp h
    rw [not_clashes_iff]
    unfold replaceAddress
    cases hfa : f.hasAddress address with
    | true =>
      -- the first device is the one that goes, so the others must leave the new address free
      have hothers := h.not_hasAddress hfa
      rw [if_pos rfl, distinct_cons, and_iff_left hrest]
      constructor
      · intro hd e he hea
        rcases List.mem_cons.mp he with rfl | he
        · rw [hfa] at hea
          cases hea
        · rw [Device.hasAddress_comm]
          exact hd e he
      · intro hd e he
        rw [Device.hasAddress_comm]
        exact hd e (List.mem_cons_of_mem _ he) (hothers e he)
    | false =>
      -- the first device stays: it must leave the new address free, and so must the others
      rw [if_neg (by simp), distinct_cons, ih hrest, not_clashes_iff, List.forall_mem_cons,
        imp_iff_right hfa]
      refine and_congr_left fun _ => ⟨fun hd => ?_, fun hd e he => ?_⟩
      · exact hd d ((mem_replaceAddress hrest).mpr (.inl rfl))
      · rcases (mem_replaceAddress hrest).mp he with rfl | ⟨he, -⟩
        · exact hd
        · exact hf e he

/-! ### Steps and runs -/

/-- One intent keeps the addresses distinct: the devices that it brings must be distinct, and
if it edits a device, it must not clash. -/
theorem distinct_devicesAfter_iff (h : Distinct devices)
    (hf : ∀ fetched, i = .devicesFetched fetched → Distinct fetched) :
    Distinct (devicesAfter devices i) ↔
      ∀ address d, i = .deviceEdited address d → ¬Clashes devices address d := by
  cases i with
  | devicesFetched fetched => exact iff_of_true (hf fetched rfl) (by simp)
  | deviceCreated d =>
    refine iff_of_true ?_ (by simp)
    exact (h.dropAddress _).append_singleton fun e he => (mem_dropAddress.mp he).2
  | deviceEdited address d =>
    refine (distinct_replaceAddress_iff h).trans ⟨?_, fun hc => hc address d rfl⟩
    rintro hc _ _ ⟨⟩
    exact hc
  | deviceDeleted address => exact iff_of_true (h.dropAddress address) (by simp)
  | _ => exact iff_of_true h (by simp)

variable {s : State} {is : List Intent}

/-- Distinct addresses stay distinct as long as no edit clashes. -/
theorem distinct_replay (hs : Distinct s.devices)
    (hf : ∀ fetched, .devicesFetched fetched ∈ is → Distinct fetched)
    (hc : ∀ before address d after, is = before ++ .deviceEdited address d :: after →
      ¬Clashes (s.replay before).devices address d) :
    Distinct (s.replay is).devices := by
  induction is using List.reverseRecOn with
  | nil => exact hs
  | append_singleton is i ih =>
    have hbefore : Distinct (s.replay is).devices := by
      refine ih (fun fetched hm => hf fetched (List.mem_append_left _ hm)) ?_
      intro before address d after hl
      exact hc before address d (after ++ [i]) (by simp [hl])
    rw [replay_append, replay_cons, replay_nil, devices_after]
    refine (distinct_devicesAfter_iff hbefore ?_).mpr ?_
    · rintro fetched rfl
      exact hf fetched (by simp)
    · rintro address d rfl
      exact hc is address d [] rfl

/-- Devices are fetched, created, edited and deleted in any order, and no two that are fetched
together share an address.  Then no two devices ever share one, unless an edit clashes, and an
edit that clashes makes two devices share one. -/
theorem distinct_replay_iff (hf : ∀ fetched, .devicesFetched fetched ∈ is → Distinct fetched) :
    (∀ before after, is = before ++ after → Distinct (State.replay {} before).devices) ↔
      ∀ before address d after, is = before ++ .deviceEdited address d :: after →
        ¬Clashes (State.replay {} before).devices address d := by
  constructor
  · intro h before address d after hl
    -- the addresses are distinct before the edit and after it
    have hbefore := h before _ hl
    have hafter := h (before ++ [.deviceEdited address d]) after (by simp [hl])
    rw [replay_append, replay_cons, replay_nil, devices_after] at hafter
    exact (distinct_replaceAddress_iff hbefore).mp hafter
  · intro hc before after hl
    refine distinct_replay List.Pairwise.nil
      (fun fetched hm => hf fetched (hl ▸ List.mem_append_left _ hm)) ?_
    intro pre address d post hpre
    exact hc pre address d (post ++ after) (by simp [hl, hpre])

/-- A device is edited and then created once more, under its new address in capitals. -/
theorem distinct_once_recreated :
    let is : List Intent :=
      [.devicesFetched [{ address := "aa:01" }, { address := "cc:03" }],
        .deviceEdited "AA:01" { address := "bb:02" }, .deviceCreated { address := "BB:02" },
        .deviceDeleted "cc:03"]
    (∀ fetched, .devicesFetched fetched ∈ is → Distinct fetched) ∧
      (State.replay {} is).devices.length = 1 ∧
      ∀ before after, is = before ++ after → Distinct (State.replay {} before).devices := by
  intro is
  have hf : ∀ fetched, .devicesFetched fetched ∈ is → Distinct fetched := by
    intro fetched hm
    obtain rfl : fetched = [{ address := "aa:01" }, { address := "cc:03" }] := by
      simpa [is] using hm
    simp only [Distinct]
    decide
  refine ⟨hf, by decide, (distinct_replay_iff hf).mpr ?_⟩
  intro before address d after hl
  -- the second intent is the only edit
  rcases before with - | ⟨i, - | ⟨j, before⟩⟩
  · simp [is] at hl
  · obtain ⟨rfl, ⟨rfl, rfl⟩, -⟩ : _ = i ∧ ("AA:01" = address ∧ _ = d) ∧ _ = after := by
      simpa [is] using hl
    simp only [Clashes]
    decide
  · have hm : Intent.deviceEdited address d ∈
        [.deviceCreated { address := "BB:02" }, .deviceDeleted "cc:03"] := by
      simp only [is, List.cons_append, List.cons.injEq] at hl
      rw [hl.2.2]
      simp
    simp at hm

/-- A device is edited, and before the answer comes, the devices are fetched as the edit has
left them.  Then the answer puts the edited device beside itself. -/
theorem shared_address_of_overtaken_edit :
    let d : Device := { address := "aa:01" }
    let e : Device := { address := "bb:02" }
    let is : List Intent :=
      [.devicesFetched [d], .editDevice d.address e, .fetchDevices, .devicesFetched [e],
        .deviceEdited d.address e]
    (∀ fetched, .devicesFetched fetched ∈ is → Distinct fetched) ∧
      (State.replay {} is).devices = [e, e] ∧ ¬Distinct (State.replay {} is).devices := by
  intro d e is
  have hdevices : (State.replay {} is).devices = [e, e] := by decide
  refine ⟨?_, hdevices, ?_⟩
  · intro fetched hm
    obtain rfl | rfl : fetched = [d] ∨ fetched = [e] := by simpa [is] using hm
    · exact List.pairwise_singleton _ _
    · exact List.pairwise_singleton _ _
  · rw [hdevices]
    simp only [Distinct]
    decide

end State

end RunControl
