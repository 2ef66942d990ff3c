/-
RunControl/Proofs/Wire/Records.lean

The types that go over the wire are lawful: what their decoders read is written as a document
that they read as the same value.  A record is written as the object of its members in order,
and so each law is put together from those of the members.  Where a record keeps free-form
values (`kept`), these must hold no floating-point number.
-/
import RunControl.Message
import RunControl.Profile
import RunControl.Proofs.Json.Lawful
import RunControl.RunStatus
import RunControl.SystemConfig

namespace RunControl

open Json Decode

/-! ### Names -/

theorem Profile.Standing.lawful : Lawful 0 decode toJson fun _ => True where
  exact {s} _ := .string s.name
  again {n doc s} _ _ _ := by
    show (Decode.name n (.string s.name)).map ofName = some s
    rw [Decode.name, Option.map_some, ofName_name]

theorem Stage.lawful : Lawful 0 decode toJson fun _ => True where
  exact {s} _ := .string s.name
  again {n doc s} _ _ _ := by
    show (Decode.name n (.string s.name)).map ofName = some s
    rw [Decode.name, Option.map_some, ofName_name]

/-! ### Interfaces and the configuration -/

theorem HostInterfaces.lawful :
    Lawful 1 HostInterfaces.decode HostInterfaces.toJson fun _ => True where
  exact _ := lawful_string.dict.exact fun _ _ => trivial
  again hk h _ := lawful_string.dict.again hk h fun _ _ => trivial

theorem Roles.lawful : Lawful 1 decode toJson fun _ => True where
  exact {r} _ := .object <| by
    simp only [List.forall_mem_append, exact_maybe_iff]
    simp [Exact.string]
  again {n doc r} _ h _ := by
    simp only [decode, Option.bind_eq_bind, Option.bind_eq_some_iff, Option.pure_def,
      Option.some.injEq] at h ⊢
    obtain ⟨M, hM, internet, hinternet, device, hdevice, rfl⟩ := h
    obtain rfl := recordOf_levels hM
    refine ⟨_, recordOf_written (by decide) ?_, internet, ?_, device, ?_, rfl⟩
    · exact keys_append_sublist (keys_maybe_sublist _ _) (keys_maybe_sublist _ _)
    · exact Members.optional_string hinternet (by simp [List.lookup_append])
    · exact Members.optional_string hdevice (by simp [List.lookup_append])

namespace Network

/-- The free-form values that a network section keeps. -/
def kept (c : Network) : List Json :=
  c.extra.entries.map (·.2)

theorem lawful : Lawful 1 decode toJson fun c => ∀ j ∈ c.kept, Exact j where
  exact {c} hkept := .object <| by
    have hextra : ∀ e ∈ c.extra.entries, Exact e.2 := List.forall_mem_map.1 hkept
    simp only [List.forall_mem_append, List.forall_mem_cons, Exact.string]
    exact ⟨⟨trivial, trivial, nofun⟩, hextra⟩
  again {n doc c} _ h hkept := by
    simp only [decode, Option.bind_eq_bind, Option.bind_eq_some_iff, Option.pure_def,
      Option.some.injEq] at h ⊢
    obtain ⟨M, hM, device, hdevice, internet, hinternet, extra, hextra, rfl⟩ := h
    obtain ⟨_, _, rfl, -⟩ := membersOf_eq_some hM
    refine ⟨_, membersOf_written (by simp) (by simp) (extra_not_known hM hextra), device, ?_,
      internet, ?_, extra, ?_, rfl⟩
    · exact Members.withDefault_string hdevice rfl
    · exact Members.withDefault_string hinternet rfl
    · exact Members.extra_again hextra (List.forall_mem_map.1 hkept)

end Network

namespace SystemConfig

/-- The free-form values that a configuration keeps. -/
def kept (c : SystemConfig) : List Json :=
  c.network.kept ++ c.extra.entries.map (·.2)

/-- A configuration is read back as it was written, if all that it keeps without knowing it is. -/
theorem lawful : Lawful 2 decode toJson fun c => ∀ j ∈ c.kept, Exact j where
  exact {c} hkept := .object <| by
    obtain ⟨hnetwork, hextra⟩ := List.forall_mem_append.1 hkept
    exact List.forall_mem_cons.2 ⟨Network.lawful.exact hnetwork, List.forall_mem_map.1 hextra⟩
  again {n doc c} hk h hkept := by
    simp only [decode, Option.bind_eq_bind, Option.bind_eq_some_iff, Option.pure_def,
      Option.some.injEq] at h ⊢
    obtain ⟨M, hM, network, hnetwork, extra, hextra, rfl⟩ := h
    obtain ⟨hnetworkKept, hextraKept⟩ := List.forall_mem_append.1 hkept
    obtain ⟨_, _, rfl, -⟩ := membersOf_eq_some hM
    have hlevels : 1 ≤ M.levels := Nat.le_of_succ_le_succ hk
    have hwritten : membersOf ["network"] (M.levels + 1)
        (Json.object ([("network", network.toJson)] ++ extra.entries)).document
          = some (M.written [("network", network.toJson)] extra.entries) :=
      membersOf_written (by simp) (by simp) (extra_not_known hM hextra)
    refine ⟨_, hwritten, network, ?_, extra, ?_, rfl⟩
    · obtain ⟨l, hl⟩ := Nat.exists_eq_add_of_le' hlevels
      exact Members.withDefault_again Network.lawful hlevels hnetwork hnetworkKept
        (by rw [hl]; rfl) rfl
    · exact Members.extra_again hextra (List.forall_mem_map.1 hextraKept)

end SystemConfig

/-! ### Devices -/

theorem TestModule.lawful : Lawful 1 decode toJson fun _ => True where
  exact {m} _ := .object <| by simp [Exact.bool]
  again {n doc m} _ h _ := by
    simp only [decode, Option.bind_eq_bind, Option.bind_eq_some_iff, Option.pure_def,
      Option.some.injEq] at h ⊢
    obtain ⟨M, hM, enabled, henabled, rfl⟩ := h
    obtain rfl := recordOf_levels hM
    refine ⟨_, recordOf_written (by decide) (List.Sublist.refl _), enabled, ?_, rfl⟩
    exact Members.withDefault_again lawful_bool (Nat.zero_le _) henabled trivial rfl rfl

/-- A device is read back as it was written.  Its firmware and its modules stand in the document
only if there are any, so what is missing there has to be read as none. -/
theorem Device.lawful : Lawful 3 decode toJson fun _ => True where
  exact {d} _ := .object <| by
    have hmodules : Exact (ofDict TestModule.toJson d.modules) :=
      TestModule.lawful.dict.exact fun _ _ => trivial
    rw [leftOut_eq_maybe]
    simp only [List.forall_mem_append, exact_maybe_iff]
    refine ⟨⟨by simp [Exact.string], by simp [Exact.string]⟩, ?_⟩
    cases d.modules.isEmpty <;> simp [hmodules]
  again {n doc d} hk h _ := by
    simp only [decode, Option.bind_eq_bind, Option.bind_eq_some_iff, Option.pure_def,
      Option.some.injEq] at h ⊢
    obtain ⟨M, hM, address, haddress, manufacturer, hmanufacturer, model, hmodel, firmware,
      hfirmware, modules, hmodules, rfl⟩ := h
    obtain rfl := recordOf_levels hM
    have hlevels : 2 ≤ M.levels := Nat.le_of_succ_le_succ hk
    rw [toJson, leftOut_eq_maybe]
    -- a member left out when it is empty is one left out when it equals its default
    have hleft : ∀ {j}, (if modules.isEmpty then none else some j : Option Json)
        = if modules = .empty then none else some j := by
      simp only [Dict.isEmpty_eq_true_iff, implies_true]
    rw [hleft]
    refine ⟨_, recordOf_written (by decide) ?_, address, ?_, manufacturer, ?_, model, ?_, firmware,
      ?_, modules, ?_, rfl⟩
    · exact keys_append_sublist (keys_append_sublist (List.Sublist.refl _)
        (keys_maybe_sublist _ _)) (keys_maybe_sublist _ _)
    · exact Members.required_string haddress rfl
    · exact Members.withDefault_string hmanufacturer rfl
    · exact Members.withDefault_string hmodel rfl
    · exact Members.optional_string hfirmware
        (by simp [List.lookup_append])
    · exact Members.withDefault_leftOut TestModule.lawful.dict hlevels hmodules
        (fun _ _ => trivial)
        (by simp [List.lookup_append])

/-! ### Profiles -/

namespace Profile

namespace Question

/-- The free-form value that a question keeps. -/
def kept (q : Question) : List Json :=
  [q.answer]

theorem lawful : Lawful 1 decode toJson fun q => ∀ j ∈ q.kept, Exact j where
  exact {q} hkept := .object <| by
    simpa [Exact.string, kept] using hkept
  again {n doc q} _ h hkept := by
    simp only [decode, Option.bind_eq_bind, Option.bind_eq_some_iff, Option.pure_def,
      Option.some.injEq] at h ⊢
    obtain ⟨M, hM, question, hquestion, answer, hanswer, rfl⟩ := h
    obtain rfl := recordOf_levels hM
    refine ⟨_, recordOf_written (by decide) (List.Sublist.refl _), question, ?_, answer, ?_, rfl⟩
    · exact Members.required_string hquestion rfl
    · exact Members.withDefault_again lawful_any (Nat.zero_le _) hanswer
        (hkept answer (List.mem_singleton_self _)) rfl rfl

end Question

/-- The free-form values that a profile keeps. -/
def kept (p : Profile) : List Json :=
  p.questions.flatMap Question.kept

theorem forall_mem_kept {p : Profile} (h : ∀ j ∈ p.kept, Exact j) :
    ∀ q ∈ p.questions, ∀ j ∈ q.kept, Exact j :=
  fun q hq j hj => h j (List.mem_flatMap.2 ⟨q, hq, hj⟩)

/-- A profile is read back as it was written, if the free-form answers that it keeps are. -/
theorem lawful : Lawful 3 decode toJson fun p => ∀ j ∈ p.kept, Exact j where
  exact {p} hkept := .object <| by
    have hquestions : Exact (.array (p.questions.map Question.toJson)) :=
      Question.lawful.list.exact (forall_mem_kept hkept)
    rw [leftOut_eq_maybe]
    simp only [List.forall_mem_append, exact_maybe_iff]
    refine ⟨⟨⟨⟨by simp [Exact.string], ?_⟩, by simp [Exact.string]⟩, by simp [Exact.string]⟩, ?_⟩
    · simp [Exact.string, Standing.lawful.exact]
    · cases p.questions.isEmpty <;> simp [hquestions]
  again {n doc p} hk h hkept := by
    simp only [decode, Option.bind_eq_bind, Option.bind_eq_some_iff, Option.pure_def,
      Option.some.injEq] at h ⊢
    obtain ⟨M, hM, id, hid, name, hname, standing, hstanding, created, hcreated, risk, hrisk,
      questions, hquestions, rfl⟩ := h
    obtain rfl := recordOf_levels hM
    have hlevels : 2 ≤ M.levels := Nat.le_of_succ_le_succ hk
    rw [toJson, leftOut_eq_maybe]
    simp only [List.isEmpty_iff]
    refine ⟨_, recordOf_written (by decide) ?_, id, ?_, name, ?_, standing, ?_, created, ?_, risk,
      ?_, questions, ?_, rfl⟩
    · exact keys_append_sublist (keys_append_sublist (keys_append_sublist (keys_append_sublist
        (keys_maybe_sublist _ _) (List.Sublist.refl _)) (keys_maybe_sublist _ _))
        (keys_maybe_sublist _ _)) (keys_maybe_sublist _ _)
    · exact Members.optional_string hid (by simp [List.lookup_append])
    · exact Members.required_string hname (by simp [List.lookup_append])
    · exact Members.withDefault_again Standing.lawful (Nat.zero_le _) hstanding trivial rfl
        (by simp [List.lookup_append])
    · exact Members.optional_string hcreated
        (by simp [List.lookup_append])
    · exact Members.optional_string hrisk
        (by simp [List.lookup_append])
    · exact Members.withDefault_leftOut Question.lawful.list hlevels hquestions
        (forall_mem_kept hkept) (by simp [List.lookup_append])

end Profile

/-! ### The status of a run -/

theorem TestResult.lawful : Lawful 1 decode toJson fun _ => True where
  exact {r} _ := .object <| by simp [Exact.string]
  again {n doc r} _ h _ := by
    simp only [decode, Option.bind_eq_bind, Option.bind_eq_some_iff, Option.pure_def,
      Option.some.injEq] at h ⊢
    obtain ⟨M, hM, name, hname, description, hdescription, result, hresult, rfl⟩ := h
    obtain rfl := recordOf_levels hM
    refine ⟨_, recordOf_written (by decide) (List.Sublist.refl _), name, ?_, description, ?_,
      result, ?_, rfl⟩
    · exact Members.required_string hname rfl
    · exact Members.withDefault_string hdescription rfl
    · exact Members.withDefault_string hresult rfl

theorem Tests.lawful : Lawful 3 decode toJson fun _ => True where
  exact {t} _ := .object <| by
    have hresults : Exact (.array (t.results.map TestResult.toJson)) :=
      TestResult.lawful.list.exact fun _ _ => trivial
    simp [Exact.int, hresults]
  again {n doc t} hk h _ := by
    simp only [decode, Option.bind_eq_bind, Option.bind_eq_some_iff, Option.pure_def,
      Option.some.injEq] at h ⊢
    obtain ⟨M, hM, total, htotal, results, hresults, rfl⟩ := h
    obtain rfl := recordOf_levels hM
    have hlevels : 2 ≤ M.levels := Nat.le_of_succ_le_succ hk
    obtain ⟨l, hl⟩ := Nat.exists_eq_add_of_le' hlevels
    refine ⟨_, recordOf_written (by decide) (List.Sublist.refl _), total, ?_, results, ?_, rfl⟩
    · exact Members.withDefault_again (lawful_below _) (Nat.zero_le _) htotal trivial
        rfl rfl
    · exact Members.withDefault_again TestResult.lawful.list hlevels hresults
        (fun _ _ => trivial) (by rw [hl]; rfl) rfl

/-- No device is written as nothing. -/
theorem Device.document_toJson_ne_null (d : Device) : d.toJson.document ≠ .null := nofun

/-- The status of a run is read back as it was written, with all that is nested in it: the device
and the results are three levels further down. -/
theorem RunStatus.lawful : Lawful 4 decode toJson fun _ => True where
  exact {s} _ := .object <| by
    simp only [List.forall_mem_append, exact_maybe_iff]
    simp [Exact.string, Stage.lawful.exact, Device.lawful.exact, Tests.lawful.exact]
  again {n doc s} hk h _ := by
    simp only [decode, Option.bind_eq_bind, Option.bind_eq_some_iff, Option.pure_def,
      Option.some.injEq] at h ⊢
    obtain ⟨M, hM, stage, hstage, device, hdevice, started, hstarted, finished, hfinished, tests,
      htests, report, hreport, rfl⟩ := h
    obtain rfl := recordOf_levels hM
    have hlevels : 3 ≤ M.levels := Nat.le_of_succ_le_succ hk
    obtain ⟨l, hl⟩ := Nat.exists_eq_add_of_le' hlevels
    refine ⟨_, recordOf_written (by decide) ?_, stage, ?_, device, ?_, started, ?_, finished, ?_,
      tests, ?_, report, ?_, rfl⟩
    · exact keys_append_sublist (keys_append_sublist (keys_append_sublist (keys_append_sublist
        (keys_append_sublist (List.Sublist.refl _) (keys_maybe_sublist _ _))
        (keys_maybe_sublist _ _)) (keys_maybe_sublist _ _)) (List.Sublist.refl _))
        (keys_maybe_sublist _ _)
    · exact Members.withDefault_again Stage.lawful (Nat.zero_le _) hstage trivial rfl rfl
    · exact Members.optional_again Device.lawful hlevels hdevice (fun _ _ => trivial)
        Device.document_toJson_ne_null (by simp [List.lookup_append])
    · exact Members.optional_string hstarted
        (by simp [List.lookup_append])
    · exact Members.optional_string hfinished
        (by simp [List.lookup_append])
    · exact Members.withDefault_again Tests.lawful hlevels htests trivial (by rw [hl]; rfl)
        (by simp [List.lookup_append])
    · exact Members.optional_string hreport
        (by simp [List.lookup_append])

/-! ### Messages -/

/-- The message about the version is read back, whichever of its parts are missing. -/
theorem SystemVersion.lawful : Lawful 1 decode toJson fun _ => True where
  exact {v} _ := .object <| by
    simp only [List.forall_mem_append, exact_maybe_iff]
    simp [Exact.string, Exact.bool]
  again {n doc v} _ h _ := by
    simp only [decode, Option.bind_eq_bind, Option.bind_eq_some_iff, Option.pure_def,
      Option.some.injEq] at h ⊢
    obtain ⟨M, hM, installed, hinstalled, latest, hlatest, latestUrl, hlatestUrl, available,
      havailable, rfl⟩ := h
    obtain rfl := recordOf_levels hM
    refine ⟨_, recordOf_written (by decide) ?_, installed, ?_, latest, ?_, latestUrl, ?_,
      available, ?_, rfl⟩
    · exact keys_append_sublist (keys_append_sublist (keys_append_sublist
        (keys_maybe_sublist _ _) (keys_maybe_sublist _ _)) (keys_maybe_sublist _ _))
        (List.Sublist.refl _)
    · exact Members.optional_string hinstalled
        (by simp [List.lookup_append])
    · exact Members.optional_string hlatest
        (by simp [List.lookup_append])
    · exact Members.optional_string hlatestUrl
        (by simp [List.lookup_append])
    · exact Members.withDefault_again lawful_bool (Nat.zero_le _) havailable trivial rfl
        (by simp [List.lookup_append])

theorem StartDevice.lawful : Lawful 1 decode toJson fun _ => True where
  exact {d} _ := .object <| by
    simp only [List.forall_mem_append, exact_maybe_iff]
    simp [Exact.string]
  again {n doc d} _ h _ := by
    simp only [decode, Option.bind_eq_bind, Option.bind_eq_some_iff, Option.pure_def,
      Option.some.injEq] at h ⊢
    obtain ⟨M, hM, address, haddress, firmware, hfirmware, rfl⟩ := h
    obtain rfl := recordOf_levels hM
    refine ⟨_, recordOf_written (by decide) ?_, address, ?_, firmware, ?_, rfl⟩
    · exact keys_append_sublist (List.Sublist.refl _) (keys_maybe_sublist _ _)
    · exact Members.required_string haddress rfl
    · exact Members.optional_string hfirmware
        (by simp)

theorem StartOrder.lawful : Lawful 2 decode toJson fun _ => True where
  exact {o} _ := .object <| by simp [StartDevice.lawful.exact]
  again {n doc o} hk h _ := by
    simp only [decode, Option.bind_eq_bind, Option.bind_eq_some_iff, Option.pure_def,
      Option.some.injEq] at h ⊢
    obtain ⟨M, hM, device, hdevice, rfl⟩ := h
    obtain rfl := recordOf_levels hM
    refine ⟨_, recordOf_written (by decide) (List.Sublist.refl _), device, ?_, rfl⟩
    exact Members.required_again StartDevice.lawful (Nat.le_of_succ_le_succ hk) hdevice trivial rfl

theorem DeviceEdit.lawful : Lawful 4 decode toJson fun _ => True where
  exact {e} _ := .object <| by simp [Exact.string, Device.lawful.exact]
  again {n doc e} hk h _ := by
    simp only [decode, Option.bind_eq_bind, Option.bind_eq_some_iff, Option.pure_def,
      Option.some.injEq] at h ⊢
    obtain ⟨M, hM, address, haddress, device, hdevice, rfl⟩ := h
    obtain rfl := recordOf_levels hM
    refine ⟨_, recordOf_written (by decide) (List.Sublist.refl _), address, ?_, device, ?_, rfl⟩
    · exact Members.required_string haddress rfl
    · exact Members.required_again Device.lawful (Nat.le_of_succ_le_succ hk) hdevice trivial rfl

theorem ErrorAnswer.lawful : Lawful 1 decode toJson fun _ => True where
  exact {a} _ := .object <| by simp [Exact.string]
  again {n doc a} _ h _ := by
    simp only [decode, Option.bind_eq_bind, Option.bind_eq_some_iff, Option.pure_def,
      Option.some.injEq] at h ⊢
    obtain ⟨M, hM, error, herror, rfl⟩ := h
    obtain rfl := recordOf_levels hM
    exact ⟨_, recordOf_written (by decide) (List.Sublist.refl _), error,
      Members.required_string herror rfl, rfl⟩

theorem SuccessAnswer.lawful : Lawful 1 decode toJson fun _ => True where
  exact {a} _ := .object <| by simp [Exact.string]
  again {n doc a} _ h _ := by
    simp only [decode, Option.bind_eq_bind, Option.bind_eq_some_iff, Option.pure_def,
      Option.some.injEq] at h ⊢
    obtain ⟨M, hM, success, hsuccess, rfl⟩ := h
    obtain rfl := recordOf_levels hM
    exact ⟨_, recordOf_written (by decide) (List.Sublist.refl _), success,
      Members.required_string hsuccess rfl, rfl⟩

end RunControl
