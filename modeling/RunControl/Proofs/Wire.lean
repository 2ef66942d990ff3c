/-
RunControl/Proofs/Wire.lean

The types that go over the wire (`Wire`) and what a text that was read comes to when it is
written again (`Wire.round_trip`): the same value is read from it.

The two types that keep what they do not know write every object with distinct keys, and each
unknown key with the value that it had last (`Keeps`).
-/
import RunControl.Proofs.Wire.Records

namespace RunControl

open Json Decode

/-! ### Keys -/

/-- No object inside a value has two members of one key. -/
inductive Json.Tidy : Json → Prop
  | null : Tidy .null
  | bool (b : Bool) : Tidy (.bool b)
  | int (i : Int) : Tidy (.int i)
  | double (d : Binary64) : Tidy (.double d)
  | string (s : String) : Tidy (.string s)
  | array {items : List Json} (h : ∀ a ∈ items, Tidy a) : Tidy (.array items)
  | object {members : List (String × Json)} (hkeys : (members.map (·.1)).Nodup)
    (h : ∀ m ∈ members, Tidy m.2) : Tidy (.object members)

/-- Of the members with one key only the last is kept, at every level. -/
theorem tidy_any {n : Nat} {doc : Document} {j : Json} (h : any n doc = some j) : Tidy j := by
  induction n generalizing doc j with
  | zero =>
    cases j with
    | array items =>
      obtain ⟨m, _, hm, -⟩ := any_eq_some h
      cases hm
    | object members =>
      obtain ⟨m, _, _, hm, -⟩ := any_eq_some h
      cases hm
    | _ => constructor
  | succ n ih =>
    cases j with
    | array items =>
      obtain ⟨_, ds, ⟨⟩, rfl, hds⟩ := any_eq_some h
      refine .array fun a ha => ?_
      obtain ⟨d, -, hd⟩ := exists_of_mem_mapM hds ha
      exact ih hd
    | object members =>
      obtain ⟨_, ds, ms, ⟨⟩, rfl, hms, rfl⟩ := any_eq_some h
      obtain ⟨ks, -, hks⟩ := Option.bind_eq_some_iff.1 hms
      refine .object (Dict.nodup_keys _) fun e he => ?_
      obtain ⟨d, -, hd⟩ := exists_of_mem_valuesOf hks (Dict.mem_of_mem_entries_ofList he)
      exact ih hd
    | _ => constructor

/-- What is written of a document by a record that keeps the members it does not know: no key
appears twice, and each unknown key is there with the value that it had last. -/
structure Keeps (known : List String) (levels : Nat) (doc : Document) (j : Json) : Prop where
  tidy : Tidy j
  last : ∃ members ms, doc = .object members ∧ j = .object ms ∧
    ∀ before key d after, members = before ++ (some key, d) :: after → key ∉ known →
      (∀ m ∈ after, m.1 ≠ some key) → ∃ a, any levels d = some a ∧ (key, a) ∈ ms

section Keeping

variable {n : Nat} {doc : Document} {known : List String} {M : Members} {m : Dict Json}
  {ms : List (String × Json)}

/-- A record that writes every member that it knows, and then the others. -/
theorem keeps_written (hM : membersOf known n doc = some M) (hm : M.extra = some m)
    (hms : ms.map (·.1) = known) (hknown : known.Nodup) (htidy : ∀ e ∈ ms, Tidy e.2) :
    Keeps known M.levels doc (.object (ms ++ m.entries)) where
  tidy := by
    refine .object ?_ (List.forall_mem_append.2 ⟨htidy, ?_⟩)
    · -- what is kept has none of the known keys
      rw [List.map_append, hms]
      refine hknown.append m.nodup_keys fun key hkey hkept => ?_
      obtain ⟨e, he, rfl⟩ := List.mem_map.1 hkept
      exact extra_not_known hM hm e he hkey
    · rw [M.extra_eq_map] at hm
      obtain ⟨entries, hentries, rfl⟩ := Option.map_eq_some_iff.1 hm
      intro e he
      obtain ⟨d, -, hd⟩ := exists_of_mem_valuesOf hentries (Dict.mem_of_mem_entries_ofList he)
      exact tidy_any hd
  last := by
    obtain ⟨members, _, -, rfl, -⟩ := membersOf_eq_some hM
    refine ⟨members, _, rfl, rfl, fun before key d after hmembers hkey hlast => ?_⟩
    obtain ⟨a, ha, hentry⟩ := extra_last hM hm hmembers hkey hlast
    exact ⟨a, ha, List.mem_append_right _ hentry⟩

theorem Network.keeps {c : Network} (h : Network.decode n doc = some c) :
    Keeps ["device_intf", "internet_intf"] (n - 1) doc c.toJson := by
  simp only [Network.decode, Option.bind_eq_bind, Option.bind_eq_some_iff, Option.pure_def,
    Option.some.injEq] at h
  obtain ⟨M, hM, device, -, internet, -, extra, hextra, rfl⟩ := h
  obtain ⟨_, _, rfl, -⟩ := membersOf_eq_some hM
  refine keeps_written hM hextra rfl (by decide) ?_
  simp [Tidy.string]

theorem SystemConfig.keeps {c : SystemConfig} (h : SystemConfig.decode n doc = some c) :
    Keeps ["network"] (n - 1) doc c.toJson := by
  simp only [SystemConfig.decode, Option.bind_eq_bind, Option.bind_eq_some_iff, Option.pure_def,
    Option.some.injEq] at h
  obtain ⟨M, hM, network, hnetwork, extra, hextra, rfl⟩ := h
  obtain ⟨_, _, rfl, -⟩ := membersOf_eq_some hM
  have htidy : Tidy network.toJson := by
    rcases Members.withDefault_eq_some hnetwork with rfl | ⟨doc, hdoc⟩
    · refine .object (by decide) ?_
      simp [Tidy.string, Dict.empty]
    · exact (Network.keeps hdoc).tidy
  show Keeps _ _ _ (.object ([("network", network.toJson)] ++ extra.entries))
  refine keeps_written hM hextra rfl (by decide) ?_
  simpa using htidy

end Keeping

/-! ### Types -/

/-- The types that go over the wire. -/
inductive Wire where
  | hostInterfaces
  | roles
  | systemConfig
  | network
  | testModule
  | device
  | devices
  | profile
  | profiles
  | question
  | standing
  | stage
  | testResult
  | tests
  | runStatus
  | systemVersion
  | startOrder
  | deviceEdit
  | errorAnswer
  | successAnswer
  deriving DecidableEq

namespace Wire

/-- The values of a type. -/
abbrev Value : Wire → Type
  | hostInterfaces => HostInterfaces
  | roles => Roles
  | systemConfig => SystemConfig
  | network => Network
  | testModule => TestModule
  | device => Device
  | devices => List Device
  | profile => Profile
  | profiles => List Profile
  | question => Profile.Question
  | standing => Profile.Standing
  | stage => Stage
  | testResult => TestResult
  | tests => Tests
  | runStatus => RunStatus
  | systemVersion => SystemVersion
  | startOrder => StartOrder
  | deviceEdit => DeviceEdit
  | errorAnswer => ErrorAnswer
  | successAnswer => SuccessAnswer

/-- Reads a value of a type. -/
def decode : (w : Wire) → Decoder w.Value
  | hostInterfaces => HostInterfaces.decode
  | roles => Roles.decode
  | systemConfig => SystemConfig.decode
  | network => Network.decode
  | testModule => TestModule.decode
  | device => Device.decode
  | devices => Decode.list Device.decode
  | profile => Profile.decode
  | profiles => Decode.list Profile.decode
  | question => Profile.Question.decode
  | standing => Profile.Standing.decode
  | stage => Stage.decode
  | testResult => TestResult.decode
  | tests => Tests.decode
  | runStatus => RunStatus.decode
  | systemVersion => SystemVersion.decode
  | startOrder => StartOrder.decode
  | deviceEdit => DeviceEdit.decode
  | errorAnswer => ErrorAnswer.decode
  | successAnswer => SuccessAnswer.decode

/-- The JSON value of a value. -/
def toJson : (w : Wire) → w.Value → Json
  | hostInterfaces => HostInterfaces.toJson
  | roles => Roles.toJson
  | systemConfig => SystemConfig.toJson
  | network => Network.toJson
  | testModule => TestModule.toJson
  | device => Device.toJson
  | devices => fun ds => .array (ds.map Device.toJson)
  | profile => Profile.toJson
  | profiles => fun ps => .array (ps.map Profile.toJson)
  | question => Profile.Question.toJson
  | standing => Profile.Standing.toJson
  | stage => Stage.toJson
  | testResult => TestResult.toJson
  | tests => Tests.toJson
  | runStatus => RunStatus.toJson
  | systemVersion => SystemVersion.toJson
  | startOrder => StartOrder.toJson
  | deviceEdit => DeviceEdit.toJson
  | errorAnswer => ErrorAnswer.toJson
  | successAnswer => SuccessAnswer.toJson

/-- The free-form values that a value keeps. -/
def kept : (w : Wire) → w.Value → List Json
  | systemConfig => SystemConfig.kept
  | network => Network.kept
  | profile => Profile.kept
  | profiles => List.flatMap Profile.kept
  | question => Profile.Question.kept
  | _ => fun _ => []

/-- The members that a type knows which keeps the others too. -/
def known? : Wire → Option (List String)
  | systemConfig => some ["network"]
  | network => some ["device_intf", "internet_intf"]
  | _ => none

/-- Every type is lawful. -/
theorem lawful (w : Wire) :
    Lawful levelLimit w.decode w.toJson fun v => ∀ j ∈ w.kept v, Exact j := by
  cases w with
  | hostInterfaces => exact HostInterfaces.lawful.mono (by decide) fun _ _ => trivial
  | roles => exact Roles.lawful.mono (by decide) fun _ _ => trivial
  | systemConfig => exact SystemConfig.lawful.mono (by decide) fun _ h => h
  | network => exact Network.lawful.mono (by decide) fun _ h => h
  | testModule => exact TestModule.lawful.mono (by decide) fun _ _ => trivial
  | device => exact Device.lawful.mono (by decide) fun _ _ => trivial
  | devices => exact Device.lawful.list.mono (by decide) fun _ _ _ _ => trivial
  | profile => exact Profile.lawful.mono (by decide) fun _ h => h
  | profiles =>
    exact Profile.lawful.list.mono (by decide) fun _ h p hp j hj =>
      h j (List.mem_flatMap.2 ⟨p, hp, hj⟩)
  | question => exact Profile.Question.lawful.mono (by decide) fun _ h => h
  | standing => exact Profile.Standing.lawful.mono (by decide) fun _ _ => trivial
  | stage => exact Stage.lawful.mono (by decide) fun _ _ => trivial
  | testResult => exact TestResult.lawful.mono (by decide) fun _ _ => trivial
  | tests => exact Tests.lawful.mono (by decide) fun _ _ => trivial
  | runStatus => exact RunStatus.lawful.mono (by decide) fun _ _ => trivial
  | systemVersion => exact SystemVersion.lawful.mono (by decide) fun _ _ => trivial
  | startOrder => exact StartOrder.lawful.mono (by decide) fun _ _ => trivial
  | deviceEdit => exact DeviceEdit.lawful.mono (by decide) fun _ _ => trivial
  | errorAnswer => exact ErrorAnswer.lawful.mono (by decide) fun _ _ => trivial
  | successAnswer => exact SuccessAnswer.lawful.mono (by decide) fun _ _ => trivial

/-- A type that keeps what it does not know writes a text's unknown keys. -/
theorem keeps {w : Wire} {known : List String} {n : Nat} {doc : Document} {v : w.Value}
    (hknown : w.known? = some known) (h : w.decode n doc = some v) :
    Keeps known (n - 1) doc (w.toJson v) := by
  cases w with
  | systemConfig =>
    cases hknown
    exact SystemConfig.keeps h
  | network =>
    cases hknown
    exact Network.keeps h
  | _ => cases hknown

/-- Whatever text a value of a type was read from, and however it is written there: the compact
text of the value is read as that value, and so writing it once more gives the same text, as
long as no free-form value that is kept holds a floating-point number.  And a type that keeps
what it does not know writes each unknown key of the text, with the value that it had last, and
no key twice. -/
theorem round_trip {w : Wire} {text : String} {v : w.Value}
    (h : ofText? w.decode text = some v) :
    ((∀ j ∈ w.kept v, Exact j) →
      ofText? w.decode (w.toJson v).compact = some v ∧
        (ofText? w.decode (w.toJson v).compact).map (fun v => (w.toJson v).compact)
          = some (w.toJson v).compact) ∧
      ∀ known, w.known? = some known → ∃ doc, Document.ofText? text = some doc ∧
        Keeps known (levelLimit - 1) doc (w.toJson v) := by
  refine ⟨fun hkept => ?_, fun known hknown => ?_⟩
  · have hagain := w.lawful.ofText? (Nat.le_refl _) h hkept
    exact ⟨hagain, by rw [hagain, Option.map_some]⟩
  · obtain ⟨doc, hdoc, hv⟩ := Option.bind_eq_some_iff.1 h
    exact ⟨doc, hdoc, keeps hknown hv⟩

/-- A configuration whose text gives one key twice: the second value counts, and the text that
is written in its place holds it once. -/
theorem round_trip_once_repeated :
    let twice := Json.object [("log", .null),
      ("network", .object [("device_intf", .string "eth0")]), ("log", .array [.bool true])]
    let c : SystemConfig :=
      { network := { deviceInterface := "eth0" }, extra := .ofList [("log", .array [.bool true])] }
    ofText? systemConfig.decode twice.compact = some c ∧
      ofText? systemConfig.decode c.toJson.compact = some c ∧
      ∃ doc, Document.ofText? twice.compact = some doc ∧ Keeps ["network"] 126 doc c.toJson := by
  intro twice c
  have htext : Document.ofText? twice.compact = some twice.document := by
    refine Document.ofText?_compact (.object ?_)
    simp [Exact.null, Exact.object, Exact.string, Exact.array, Exact.bool]
  have hread : ofText? systemConfig.decode twice.compact = some c := by
    rw [ofText?, htext]
    rfl
  have hkept : ∀ j ∈ systemConfig.kept c, Exact j := by
    intro j hj
    obtain rfl := List.mem_singleton.1 (show j ∈ [.array [.bool true]] from hj)
    exact .array (by simp [Exact.bool])
  obtain ⟨hagain, hkeeps⟩ := round_trip hread
  exact ⟨hread, (hagain hkept).1, hkeeps _ rfl⟩

end Wire

end RunControl
