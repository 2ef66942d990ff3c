/-
RunControl/Proofs/Faults.lean

What a complete response of the backend means for the call that it answers.

A success is a reply, for a command whatever the body says, for any other call if the body can be
read as what was asked for.  Every other response is a fault, and of three kinds: a refusal if
the call has the status among those that refuse it (`Call.Refused`); else a lack of configuration
if the status says so (`Call.Unconfigured`) or the message does, in letters of either case
(`Text.Says`); else an error of the backend.  The message is found in the body
(`Response.Message`).

Main statement: no two of these overlap, and nothing else can come of a response
(`Call.read_classifies`).
-/
import RunControl.Client

namespace RunControl

/-! ### Messages -/

namespace Text

/-- A text says something, in letters of either case. -/
def Says (s part : String) : Prop :=
  ∃ before said after : String, s = before ++ said ++ after ∧ alike said part = true

theorem toList_lower (s : String) : (lower s).toList = s.toList.map Char.toLower :=
  String.toList_ofList

/-- To look for lower-case letters in a lowered text is to look for them in either case. -/
theorem mentions_lower_iff {s part : String} (hp : lower part = part) :
    mentions (lower s) part = true ↔ Says s part := by
  rw [mentions, occursIn_iff, toList_lower]
  constructor
  · rintro ⟨before, after, h⟩
    -- lowering keeps every letter in its place, so the text itself is cut at the same two places
    obtain ⟨front, after', hs, hfront, rfl⟩ := List.map_eq_append_iff.mp h
    obtain ⟨before', said, rfl, rfl, hsaid⟩ := List.map_eq_append_iff.mp hfront
    refine ⟨.ofList before', .ofList said, .ofList after', ?_, ?_⟩
    · rw [← String.ofList_append, ← String.ofList_append, ← hs, String.ofList_toList]
    · rw [alike_iff, hp]
      apply String.toList_injective
      rw [toList_lower, String.toList_ofList, hsaid]
  · rintro ⟨before, said, after, rfl, ha⟩
    rw [alike_iff, hp] at ha
    refine ⟨before.toList.map Char.toLower, after.toList.map Char.toLower, ?_⟩
    rw [String.toList_append, String.toList_append, List.map_append, List.map_append,
      ← toList_lower said, ha]

end Text

/-- The message in the body of a response that is no success: the error that the body names, or
else what it says between blanks. -/
inductive Http.Message (text : String) : String → Prop
  | named {answer : ErrorAnswer} (h : Json.Decode.ofText? ErrorAnswer.decode text = some answer) :
    Message text answer.error
  | plain (h : Json.Decode.ofText? ErrorAnswer.decode text = none) (hb : Text.trim text ≠ "") :
    Message text (Text.trim text)
  | blank (h : Json.Decode.ofText? ErrorAnswer.decode text = none) (hb : Text.trim text = "") :
    Message text "empty response"

theorem message_errorMessage (text : String) : Http.Message text (errorMessage text) := by
  unfold errorMessage
  split
  · next answer h => exact .named h
  · next h =>
    split
    · next hb => exact .blank h (String.isEmpty_iff.mp hb)
    · next hb => exact .plain h fun he => hb (String.isEmpty_iff.mpr he)

/-- A message says that the backend has not been configured. -/
def TellsUnconfigured (message : String) : Prop :=
  Text.Says message "not configured" ∨ Text.Says message "configuration missing"

theorem mentionsConfiguration_iff {message : String} :
    mentionsConfiguration message = true ↔ TellsUnconfigured message := by
  rw [mentionsConfiguration, Bool.or_eq_true, Text.mentions_lower_iff (by decide),
    Text.mentions_lower_iff (by decide)]
  rfl

namespace Call

/-! ### Statuses -/

/-- The backend understands a call and refuses it with a status. -/
inductive Refused : Call → Nat → Prop
  | startRun (device : Device) {status : Nat} (h : status ∈ [400, 404, 409]) :
    Refused (.startRun device) status
  | stopRun : Refused .stopRun 404
  | createDevice (device : Device) {status : Nat} (h : status ∈ [400, 403, 404, 409]) :
    Refused (.createDevice device) status
  | editDevice (address : String) (device : Device) {status : Nat}
      (h : status ∈ [400, 403, 404, 409]) :
    Refused (.editDevice address device) status
  | deleteDevice (device : Device) {status : Nat} (h : status ∈ [400, 403, 404, 409]) :
    Refused (.deleteDevice device) status

/-- The backend says with a status that it has not been configured. -/
inductive Unconfigured : Call → Nat → Prop
  | systemConfig : Unconfigured .systemConfig 404
  | startRun (device : Device) : Unconfigured (.startRun device) 500

/-- What the value is called that a call asks for. -/
def valueName? : Call → Option String
  | interfaces => some "interfaces"
  | systemConfig => some "system config"
  | systemStatus => some "system status"
  | devices => some "devices"
  | riskProfiles => some "risk profiles"
  | version => some "system version"
  | startRun _ => some "start response"
  | stopRun | createDevice _ | editDevice .. | deleteDevice _ => none

variable {call : Call} {status : Nat} {message : String}

theorem mem_refusals_iff : status ∈ call.refusals ↔ call.Refused status := by
  constructor
  · intro h
    cases call with
    | startRun device => exact .startRun device h
    | stopRun =>
      rw [List.mem_singleton.mp h]
      exact .stopRun
    | createDevice device => exact .createDevice device h
    | editDevice address device => exact .editDevice address device h
    | deleteDevice device => exact .deleteDevice device h
    | _ => cases h
  · intro h
    cases h with
    | stopRun => exact List.mem_singleton_self _
    | startRun _ h | createDevice _ h | editDevice _ _ h | deleteDevice _ h => exact h

theorem unconfiguredStatus?_eq_some_iff :
    call.unconfiguredStatus? = some status ↔ call.Unconfigured status := by
  constructor
  · intro h
    cases call with
    | systemConfig =>
      cases h
      exact .systemConfig
    | startRun device =>
      cases h
      exact .startRun device
    | _ => cases h
  · intro h
    cases h <;> rfl

/-! ### Faults -/

theorem faultOf_of_refused (h : call.Refused status) :
    call.faultOf status message = .rejected status message := by
  rw [faultOf, if_pos (List.contains_iff_mem.mpr (mem_refusals_iff.mpr h))]

theorem faultOf_of_unconfigured (h : ¬call.Refused status)
    (hu : call.Unconfigured status ∨ TellsUnconfigured message) :
    call.faultOf status message = .unconfigured message := by
  rw [← unconfiguredStatus?_eq_some_iff, ← mentionsConfiguration_iff] at hu
  rw [← mem_refusals_iff, ← List.contains_iff_mem] at h
  rw [faultOf, if_neg h, if_pos (by simpa using hu)]

theorem faultOf_of_neither (h : ¬call.Refused status)
    (hu : ¬(call.Unconfigured status ∨ TellsUnconfigured message)) :
    call.faultOf status message = .backend status message := by
  rw [← unconfiguredStatus?_eq_some_iff, ← mentionsConfiguration_iff] at hu
  rw [← mem_refusals_iff, ← List.contains_iff_mem] at h
  rw [faultOf, if_neg h, if_neg (by simpa using hu)]

/-! ### Responses -/

theorem replyName_eq {what : String} (h : call.valueName? = some what) : call.replyName = what := by
  cases call <;> cases h <;> rfl

/-- A command has no use for the body of a success. -/
theorem reply?_isSome (h : call.valueName? = none) (text : String) :
    (call.reply? text).isSome = true := by
  cases call <;> first | rfl | cases h

/-- Every complete response means exactly one thing.  With a success status a command has been
carried out, whatever the body; any other call has the value that the body can be read as, or a
fault that names what could not be read.  With another status there is a fault with the message
of the body: a refusal with that status exactly if the call is refused by it, otherwise a lack of
configuration exactly if the status or the message says so, otherwise an error of the backend with
that status. -/
theorem read_classifies (call : Call) (r : Http.Response) :
    (200 ≤ r.status ∧ r.status < 300 →
      (call.valueName? = none → ∃ reply, call.read r = .ok reply) ∧
      ∀ what, call.valueName? = some what →
        (∃ reply, call.reply? r.text = some reply ∧ call.read r = .ok reply) ∨
        (call.reply? r.text = none ∧
          ∃ message, call.read r = .error (.undecodable what message))) ∧
    (¬(200 ≤ r.status ∧ r.status < 300) →
      ∃ message fault, Http.Message r.text message ∧ call.read r = .error fault ∧
        (fault = .rejected r.status message ↔ call.Refused r.status) ∧
        (fault = .unconfigured message ↔ ¬call.Refused r.status ∧
          (call.Unconfigured r.status ∨ TellsUnconfigured message)) ∧
        (fault = .backend r.status message ↔ ¬call.Refused r.status ∧
          ¬(call.Unconfigured r.status ∨ TellsUnconfigured message))) := by
  have hsuccess : r.isSuccess = true ↔ 200 ≤ r.status ∧ r.status < 300 := by
    simp [Http.Response.isSuccess]
  refine ⟨fun h => ⟨fun hn => ?_, fun what hw => ?_⟩, fun h => ?_⟩
  · obtain ⟨reply, hreply⟩ := Option.isSome_iff_exists.mp (reply?_isSome hn r.text)
    exact ⟨reply, read_ok_iff.mpr ⟨hsuccess.mpr h, hreply⟩⟩
  · cases hreply : call.reply? r.text with
    | some reply => exact .inl ⟨reply, rfl, read_ok_iff.mpr ⟨hsuccess.mpr h, hreply⟩⟩
    | none =>
      refine .inr ⟨rfl, "not valid", ?_⟩
      rw [read, if_pos (hsuccess.mpr h), hreply, ← replyName_eq hw]
  · have hread : call.read r = .error (call.faultOf r.status (errorMessage r.text)) := by
      rw [read, if_neg (mt hsuccess.mp h)]
    refine ⟨errorMessage r.text, _, message_errorMessage r.text, hread, ?_⟩
    -- the three cases exclude each other, and so do the three faults
    by_cases hr : call.Refused r.status
    · simp [faultOf_of_refused hr, hr]
    · by_cases hu : call.Unconfigured r.status ∨ TellsUnconfigured (errorMessage r.text)
      · simp [faultOf_of_unconfigured hr hu, hr, hu]
      · simp [faultOf_of_neither hr hu, hr, hu]

end Call

end RunControl
