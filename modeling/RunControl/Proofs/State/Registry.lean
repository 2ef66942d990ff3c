/-
RunControl/Proofs/State/Registry.lean

The registered devices as a finite map.  While no two devices share an address, the list of
them says the same as a map from addresses to devices, the addresses lowered (`registry`):
what the device intents do to the list, they do to the map by replacing it, by inserting and
by erasing (`registryAfter`).

The list says more than the map, as its devices stand in an order.  A device that is created
comes last, one that is edited keeps its place, and whatever an intent is not about keeps its
value and its order (`Follows`).

Main statement: both hold along every history in which no edit clashes
(`State.registry_replay`).
-/
import Mathlib.Data.Finmap
import RunControl.Proofs.State.Roster

namespace RunControl

/-- A finite map from addresses, their ASCII letters lowered, to devices. -/
abbrev Registry :=
  Finmap fun _ : String => Device

/-- The address of a device with its ASCII letters lowered. -/
def Device.key (d : Device) : String :=
  Text.lower d.address

/-- Whether an intent replaces, adds, changes or removes a device that has the address of
this one. -/
def Intent.concerns (e : Device) : Intent → Bool
  | .devicesFetched _ => true
  | .deviceCreated d => e.hasAddress d.address
  | .deviceEdited address d => e.hasAddress address || e.hasAddress d.address
  | .deviceDeleted address => e.hasAddress address
  | _ => false

namespace State

/-- The devices of a list by their addresses. -/
def registry (devices : List Device) : Registry :=
  (devices.map fun d => (⟨d.key, d⟩ : Σ _ : String, Device)).toFinmap

/-- What becomes of the registered devices with an intent, as a map. -/
def registryAfter (m : Registry) : Intent → Registry
  | .devicesFetched fetched => registry fetched
  | .deviceCreated d => m.insert d.key d
  | .deviceEdited address d => (m.erase (Text.lower address)).insert d.key d
  | .deviceDeleted address => m.erase (Text.lower address)
  | _ => m

variable {devices : List Device} {address key : String} {d e : Device} {i : Intent} {n : Nat}

/-! ### The map of a list -/

theorem hasAddress_iff_key : e.hasAddress address = true ↔ e.key = Text.lower address :=
  Device.hasAddress_iff

theorem not_hasAddress_iff_key : e.hasAddress address = false ↔ e.key ≠ Text.lower address := by
  rw [← Bool.not_eq_true, hasAddress_iff_key]

theorem lookup_registry (devices : List Device) (key : String) :
    (registry devices).lookup key = devices.find? fun d => d.key = key := by
  rw [registry, Finmap.dlookup_list_toFinmap]
  induction devices with
  | nil => rfl
  | cons d devices ih =>
    rw [List.map_cons, List.find?_cons]
    by_cases h : d.key = key
    · subst h
      rw [List.dlookup_cons_eq]
      simp
    · rw [List.dlookup_cons_ne _ _ (Ne.symm h), ih]
      simp [h]

/-- Of distinct devices, the map holds each under its address. -/
theorem lookup_registry_eq_some_iff (h : Distinct devices) :
    (registry devices).lookup key = some e ↔ e ∈ devices ∧ e.key = key := by
  rw [lookup_registry]
  constructor
  · intro he
    exact ⟨List.mem_of_find?_eq_some he, by simpa using List.find?_some he⟩
  · rintro ⟨hm, rfl⟩
    induction devices with
    | nil => cases hm
    | cons d devices ih =>
      obtain ⟨hd, hrest⟩ := distinct_cons.mp h
      rw [List.find?_cons]
      rcases List.mem_cons.mp hm with rfl | hm
      · simp
      · -- the first device has another address
        have hne : d.key ≠ e.key := not_hasAddress_iff_key.mp (hd e hm)
        simpa [hne] using ih hrest hm

/-! ### What intents do to the map -/

/-- To drop the devices with an address is to erase its key. -/
theorem registry_dropAddress (h : Distinct devices) (address : String) :
    registry (dropAddress devices address) = (registry devices).erase (Text.lower address) := by
  refine Finmap.ext_lookup fun key => Option.ext fun e => ?_
  rw [lookup_registry_eq_some_iff (h.dropAddress address), mem_dropAddress,
    not_hasAddress_iff_key]
  by_cases hk : key = Text.lower address
  · subst hk
    rw [Finmap.lookup_erase]
    constructor
    · rintro ⟨⟨-, hne⟩, he⟩
      exact absurd he hne
    · rintro ⟨⟩
  · rw [Finmap.lookup_erase_ne hk, lookup_registry_eq_some_iff h]
    constructor
    · rintro ⟨⟨he, -⟩, hek⟩
      exact ⟨he, hek⟩
    · rintro ⟨he, rfl⟩
      exact ⟨⟨he, hk⟩, rfl⟩

/-- An element of the map after an insertion: the new one, or an old one under another key. -/
theorem lookup_insert_eq_some_iff {m : Registry} :
    (m.insert d.key d).lookup key = some e ↔
      (key = d.key ∧ d = e) ∨ (key ≠ d.key ∧ m.lookup key = some e) := by
  by_cases hk : key = d.key
  · subst hk
    rw [Finmap.lookup_insert]
    simp
  · rw [Finmap.lookup_insert_of_ne _ hk]
    simp [hk]

/-- A device that is added takes the place of those with its address. -/
theorem registry_created (h : Distinct devices) (d : Device) :
    registry (dropAddress devices d.address ++ [d]) = (registry devices).insert d.key d := by
  have hd : Distinct (dropAddress devices d.address ++ [d]) :=
    (h.dropAddress _).append_singleton fun e he => (mem_dropAddress.mp he).2
  refine Finmap.ext_lookup fun key => Option.ext fun e => ?_
  rw [lookup_registry_eq_some_iff hd, List.mem_append, mem_dropAddress, List.mem_singleton,
    not_hasAddress_iff_key, lookup_insert_eq_some_iff, lookup_registry_eq_some_iff h]
  constructor
  · rintro ⟨⟨he, hne⟩ | rfl, rfl⟩
    · exact .inr ⟨hne, he, rfl⟩
    · exact .inl ⟨rfl, rfl⟩
  · rintro (⟨rfl, rfl⟩ | ⟨hne, he, rfl⟩)
    · exact ⟨.inr rfl, rfl⟩
    · exact ⟨.inl ⟨he, hne⟩, rfl⟩

/-- An edit that does not clash moves a device from the old address to the new one. -/
theorem registry_replaceAddress (h : Distinct devices) (hc : ¬Clashes devices address d) :
    registry (replaceAddress address d devices)
      = ((registry devices).erase (Text.lower address)).insert d.key d := by
  have hd := (distinct_replaceAddress_iff h).mpr hc
  rw [not_clashes_iff] at hc
  rw [← registry_dropAddress h]
  refine Finmap.ext_lookup fun key => Option.ext fun e => ?_
  rw [lookup_registry_eq_some_iff hd, mem_replaceAddress h, lookup_insert_eq_some_iff,
    lookup_registry_eq_some_iff (h.dropAddress address), mem_dropAddress]
  constructor
  · rintro ⟨rfl | ⟨he, hne⟩, rfl⟩
    · exact .inl ⟨rfl, rfl⟩
    · exact .inr ⟨not_hasAddress_iff_key.mp (hc e he hne), ⟨he, hne⟩, rfl⟩
  · rintro (⟨rfl, rfl⟩ | ⟨-, he, rfl⟩)
    · exact ⟨.inl rfl, rfl⟩
    · exact ⟨.inr he, rfl⟩

/-- What an intent does to the list, it does to the map. -/
theorem registry_devicesAfter (h : Distinct devices)
    (hc : ∀ address d, i = .deviceEdited address d → ¬Clashes devices address d) :
    registry (devicesAfter devices i) = registryAfter (registry devices) i := by
  cases i with
  | deviceCreated d => exact registry_created h d
  | deviceEdited address d => exact registry_replaceAddress h (hc address d rfl)
  | deviceDeleted address => exact registry_dropAddress h address
  | _ => rfl

/-! ### Places in the list -/

/-- An edited device keeps its place, and the others stay where they are. -/
theorem replaceAddress_eq_set (h : Distinct devices) (he : devices[n]? = some e)
    (ha : e.hasAddress address = true) : replaceAddress address d devices = devices.set n d := by
  induction devices generalizing n with
  | nil => cases he
  | cons f devices ih =>
    obtain ⟨hf, hrest⟩ := distinct_cons.mp h
    cases n with
    | zero =>
      obtain rfl : f = e := by simpa using he
      simp [replaceAddress, ha]
    | succ n =>
      rw [List.getElem?_cons_succ] at he
      -- the device in front has not the address of the one further back
      have hfa : f.hasAddress address = false := by
        refine Bool.eq_false_iff.mpr fun hfa => ?_
        have hfe := hf e (List.mem_of_getElem? he)
        rw [Device.hasAddress_of_hasAddress hfa ha] at hfe
        cases hfe
      simp [replaceAddress, hfa, ih hrest he]

/-- Without its replacement, a list reads as without what was replaced. -/
theorem filter_replaceAddress {p : Device → Bool} (hd : p d = false)
    (hp : ∀ e ∈ devices, e.hasAddress address = true → p e = false) :
    (replaceAddress address d devices).filter p = devices.filter p := by
  induction devices with
  | nil => simp [replaceAddress, hd]
  | cons f devices ih =>
    rw [List.forall_mem_cons] at hp
    unfold replaceAddress
    split
    · next hf => simp [hd, hp.1 hf]
    · simp [List.filter_cons, ih hp.2]

/-- What an intent is not about keeps its value and its order. -/
theorem filter_devicesAfter (devices : List Device) (i : Intent) :
    (devicesAfter devices i).filter (fun e => !i.concerns e)
      = devices.filter fun e => !i.concerns e := by
  cases i with
  | devicesFetched fetched => simp [Intent.concerns]
  | deviceCreated d =>
    simp only [devicesAfter, dropAddress, Intent.concerns, List.filter_append, List.filter_filter]
    simp [Device.hasAddress]
  | deviceEdited address d =>
    refine filter_replaceAddress ?_ fun e _ he => ?_
    · simp [Intent.concerns, Device.hasAddress]
    · simp [Intent.concerns, he]
  | deviceDeleted address =>
    simp only [devicesAfter, dropAddress, Intent.concerns, List.filter_filter, Bool.and_self]
  | _ => rfl

/-- How the devices after an intent follow from those before it, as a list. -/
structure Follows (i : Intent) (devices devices' : List Device) : Prop where
  distinct : Distinct devices'
  created : ∀ d, i = .deviceCreated d → devices'.getLast? = some d
  edited : ∀ address d n e, i = .deviceEdited address d → devices[n]? = some e →
    e.hasAddress address = true → devices' = devices.set n d
  others : devices'.filter (fun e => !i.concerns e) = devices.filter fun e => !i.concerns e

theorem follows_devicesAfter (h : Distinct devices)
    (hf : ∀ fetched, i = .devicesFetched fetched → Distinct fetched)
    (hc : ∀ address d, i = .deviceEdited address d → ¬Clashes devices address d) :
    Follows i devices (devicesAfter devices i) where
  distinct := (distinct_devicesAfter_iff h hf).mpr hc
  created := by
    rintro d rfl
    exact List.getLast?_concat
  edited := by
    rintro address d n e rfl he ha
    exact replaceAddress_eq_set h he ha
  others := filter_devicesAfter devices i

/-! ### Histories -/

variable {s : State} {is : List Intent}

/-- The list of devices is a finite map from addresses up to ASCII case.  Whatever intents are
applied, as long as the devices that are fetched have distinct addresses and no edit clashes,
the list reads as the map to which the same has been done: replaced as a whole, inserted into,
erased from, or both one after the other.  And with each intent the addresses stay distinct, a
created device comes last, an edited one keeps its place, and the devices that the intent is
not about keep their values and their order. -/
theorem registry_replay (hs : Distinct s.devices)
    (hf : ∀ fetched, .devicesFetched fetched ∈ is → Distinct fetched)
    (hc : ∀ before address d after, is = before ++ .deviceEdited address d :: after →
      ¬Clashes (s.replay before).devices address d) :
    registry (s.replay is).devices = is.foldl registryAfter (registry s.devices) ∧
      ∀ before i after, is = before ++ i :: after →
        Follows i (s.replay before).devices (s.replay (before ++ [i])).devices := by
  -- what each single step needs: distinct addresses before it
  have distinct : ∀ before after, is = before ++ after → Distinct (s.replay before).devices := by
    intro before after hl
    refine distinct_replay hs (fun fetched hm => hf fetched (hl ▸ List.mem_append_left _ hm)) ?_
    intro pre address d post hpre
    exact hc pre address d (post ++ after) (by simp [hl, hpre])
  have devices_concat : ∀ before i, (s.replay (before ++ [i])).devices
      = devicesAfter (s.replay before).devices i := by
    intro before i
    rw [replay_append]
    exact devices_after _ i
  refine ⟨?_, ?_⟩
  · -- the map follows the list over every part of the history
    suffices h : ∀ before after, is = before ++ after →
        registry (s.replay before).devices = before.foldl registryAfter (registry s.devices) from
      h is [] (List.append_nil _).symm
    intro before
    induction before using List.reverseRecOn with
    | nil => exact fun _ _ => rfl
    | append_singleton before i ih =>
      intro after hl
      rw [List.append_assoc] at hl
      rw [devices_concat, List.foldl_append, ← ih _ hl]
      refine registry_devicesAfter (distinct before _ hl) ?_
      rintro address d rfl
      exact hc before address d after hl
  · -- and each step does to the list what its intent says
    intro before i after hl
    rw [devices_concat]
    refine follows_devicesAfter (distinct before _ hl) ?_ ?_
    · rintro fetched rfl
      exact hf fetched (by simp [hl])
    · rintro address d rfl
      exact hc before address d after hl

/-- Two devices, of which the first is edited under its address in capitals, and then the
second is deleted likewise: the edited one is left, and can be found under its new address. -/
theorem registry_once_edited :
    let s : State := { devices := [{ address := "aa:01" }, { address := "cc:03" }] }
    let is : List Intent :=
      [.deviceEdited "AA:01" { address := "BB:02" }, .deviceDeleted "CC:03"]
    Distinct s.devices ∧ (registry (s.replay is).devices).lookup "bb:02"
      = some { address := "BB:02" } := by
  intro s is
  have hs : Distinct s.devices := by
    simp only [Distinct]
    decide
  refine ⟨hs, ?_⟩
  have hf : ∀ fetched, Intent.devicesFetched fetched ∈ is → Distinct fetched := by simp [is]
  have hr := registry_replay hs hf ?_
  · rw [hr.1]
    have hne : "bb:02" ≠ Text.lower "CC:03" := by decide
    show Finmap.lookup "bb:02" (Finmap.erase _ (Finmap.insert "bb:02" _ _)) = _
    rw [Finmap.lookup_erase_ne hne, Finmap.lookup_insert]
  · intro before address d after hl
    -- the first intent is the only edit
    rcases before with - | ⟨i, before⟩
    · obtain ⟨⟨rfl, rfl⟩, -⟩ : ("AA:01" = address ∧ _ = d) ∧ _ = after := by
        simpa [is] using hl
      simp only [Clashes]
      decide
    · have hm : Intent.deviceEdited address d ∈ [.deviceDeleted "CC:03"] := by
        simp only [is, List.cons_append, List.cons.injEq] at hl
        rw [hl.2]
        simp
      simp at hm

end State

end RunControl
