/-
RunControl/Proofs/Settings/Checked.lean

What a check makes sure of.  An address needs a scheme and a host (`isUrl_iff`), and an interval
has to be long enough; settings pass if what is set of these is so (`check_eq_ok_iff`).  Whatever
is not set has a default, so the program can work with settings that pass (`Passes.runnable`).
-/
import Mathlib.Data.Option.Basic
import RunControl.Proofs.Text.Trimming
import RunControl.Settings

namespace RunControl.Settings

open Text

variable {s t : Settings}

/-! ### Addresses -/

/-- A text has a scheme and behind it something that does not start with a slash. -/
def HasHost (url : String) : Prop :=
  ∃ scheme ∈ ["http://", "https://"], ∃ (c : Char) (rest : List Char),
    c ≠ '/' ∧ url.toList = scheme.toList ++ c :: rest

theorem afterScheme?_eq_some_iff {url : String} {cs : List Char} :
    afterScheme? url = some cs ↔
      ∃ scheme ∈ ["http://", "https://"], url.toList = scheme.toList ++ cs := by
  have strip (scheme : String) (cs : List Char) :
      (if scheme.toList.isPrefixOf url.toList = true then
          some (url.toList.drop scheme.toList.length) else none) = some cs ↔
        url.toList = scheme.toList ++ cs := by
    rw [Option.ite_none_right_eq_some, List.isPrefixOf_iff_prefix, Option.some.injEq]
    constructor
    · rintro ⟨⟨rest, h⟩, rfl⟩
      rw [← h, List.drop_left]
    · intro h
      rw [h]
      exact ⟨List.prefix_append _ _, List.drop_left⟩
  refine (Option.orElse_eq_some _ _ _).trans ?_
  rw [strip, strip, Option.eq_none_iff_forall_ne_some]
  simp only [List.mem_cons, List.not_mem_nil, or_false, exists_eq_or_imp, exists_eq_left]
  refine or_congr_right ⟨And.right, fun h => ⟨fun cs' hcs' => ?_, h⟩⟩
  -- the fifth characters of the two schemes differ
  have hcs := (strip _ _).mp hcs'
  rw [h] at hcs
  cases hcs

theorem isUrl_iff {url : String} : isUrl url = true ↔ HasHost (trim url) := by
  unfold isUrl HasHost
  constructor
  · intro h
    split at h
    · next c rest hsome =>
      obtain ⟨scheme, hmem, hurl⟩ := afterScheme?_eq_some_iff.mp hsome
      exact ⟨scheme, hmem, c, rest, bne_iff_ne.mp h, hurl⟩
    · cases h
  · rintro ⟨scheme, hmem, c, rest, hc, hurl⟩
    rw [afterScheme?_eq_some_iff.mpr ⟨scheme, hmem, hurl⟩]
    exact bne_iff_ne.mpr hc

@[simp] theorem isUrl_trim (url : String) : isUrl (trim url) = isUrl url := by
  rw [Bool.eq_iff_iff, isUrl_iff, isUrl_iff, trim_trim]

theorem checkUrl_eq_ok_iff {url : String} : checkUrl url = .ok () ↔ isUrl url = true := by
  unfold checkUrl
  split <;> simp_all

theorem HasHost.not_isEmpty {url : String} (h : HasHost url) : url.isEmpty = false := by
  obtain ⟨scheme, hmem, c, rest, hc, hurl⟩ := h
  refine Bool.eq_false_iff.mpr fun hempty => ?_
  rw [String.isEmpty_iff.mp hempty] at hurl
  exact absurd hurl.symm (by simp)

/-! ### Settings that have been checked -/

/-- What a check makes sure of. -/
structure Passes (s : Settings) : Prop where
  url : ∀ url, s.apiUrl = some url → isUrl url = true
  interval : ∀ p, s.polling = some p → leastInterval ≤ p.effectiveInterval

/-- What the program needs to work. -/
structure Runnable (s : Settings) : Prop where
  url : HasHost s.effectiveUrl
  interval : leastInterval ≤ s.effectivePolling.effectiveInterval
  timeout : 1 ≤ s.effectivePolling.effectiveTimeout

theorem check_of_not_isUrl {url : String} (h : s.apiUrl = some url) (hbad : isUrl url = false) :
    s.check = .error (.invalidUrl (trim url)) := by
  have hurl : checkUrl url = .error (.invalidUrl (trim url)) :=
    if_neg (Bool.eq_false_iff.mp hbad)
  rw [check, h]
  simp only [hurl]
  rfl

/-- If the address is all right or missing, the interval alone decides. -/
theorem check_of_isUrl (h : ∀ url, s.apiUrl = some url → isUrl url = true) :
    s.check =
      match s.polling with
      | some p =>
        if p.effectiveInterval < leastInterval then
          .error (.intervalTooShort p.effectiveInterval)
        else .ok s
      | none => .ok s := by
  have hpolling (p : Polling) :
      (checkInterval p >>= fun _ => .ok s) =
        if p.effectiveInterval < leastInterval then
          .error (.intervalTooShort p.effectiveInterval)
        else .ok s := by
    unfold checkInterval
    split <;> rfl
  unfold check
  cases hs : s.apiUrl with
  | none =>
    cases s.polling with
    | none => rfl
    | some p => exact hpolling p
  | some url =>
    simp only [checkUrl_eq_ok_iff.mpr (h url hs)]
    cases s.polling with
    | none => rfl
    | some p => exact hpolling p

theorem check_of_short {p : Polling} (hurl : ∀ url, s.apiUrl = some url → isUrl url = true)
    (h : s.polling = some p) (hshort : p.effectiveInterval < leastInterval) :
    s.check = .error (.intervalTooShort p.effectiveInterval) := by
  rw [check_of_isUrl hurl, h]
  exact if_pos hshort

/-- The check lets through exactly what passes it, and changes nothing about it. -/
theorem check_eq_ok_iff : s.check = .ok t ↔ s.Passes ∧ s = t := by
  constructor
  · -- whatever does not pass is an error, of the address first
    intro h
    have hurl : ∀ url, s.apiUrl = some url → isUrl url = true := by
      intro url hs
      refine Bool.not_eq_false _ ▸ fun hbad => ?_
      rw [check_of_not_isUrl hs hbad] at h
      cases h
    have hinterval : ∀ p, s.polling = some p → leastInterval ≤ p.effectiveInterval := by
      intro p hs
      refine Nat.not_lt.mp fun hshort => ?_
      rw [check_of_short hurl hs hshort] at h
      cases h
    refine ⟨⟨hurl, hinterval⟩, ?_⟩
    rw [check_of_isUrl hurl] at h
    split at h
    · next p hs =>
      rw [if_neg (Nat.not_lt.mpr (hinterval p hs))] at h
      exact Except.ok.inj h
    · exact Except.ok.inj h
  · rintro ⟨⟨hurl, hinterval⟩, rfl⟩
    rw [check_of_isUrl hurl]
    split
    · next p hs => exact if_neg (Nat.not_lt.mpr (hinterval p hs))
    · rfl

/-- An address that has been checked is not blank, so it is the one that counts. -/
theorem Passes.effectiveUrl_eq {url : String} (h : s.Passes) (hs : s.apiUrl = some url) :
    s.effectiveUrl = trim url := by
  have hempty := (isUrl_iff.mp (h.url url hs)).not_isEmpty
  simp [effectiveUrl, hs, hempty]

theorem one_le_effectiveTimeout (p : Polling) : 1 ≤ p.effectiveTimeout := by
  unfold Polling.effectiveTimeout
  split <;> omega

/-- Whatever is missing has a default with which the program can work. -/
theorem Passes.runnable (h : s.Passes) : s.Runnable where
  url := by
    cases hs : s.apiUrl with
    | none =>
      have hdefault : s.effectiveUrl = defaultUrl := by rw [effectiveUrl, hs]
      rw [hdefault]
      exact ⟨"http://", by simp, '1', "27.0.0.1:8000".toList, by decide, rfl⟩
    | some url =>
      rw [h.effectiveUrl_eq hs]
      exact isUrl_iff.mp (h.url url hs)
  interval := by
    cases hs : s.polling with
    | none =>
      rw [effectivePolling, hs]
      decide
    | some p =>
      rw [effectivePolling, hs]
      exact h.interval p hs
  timeout := one_le_effectiveTimeout s.effectivePolling

/-- Settings that have been read have been checked. -/
theorem passes_of_load {file : File} (h : load file = .ok s) : s.Passes := by
  unfold load ofText at h
  split at h
  · cases h
    exact ⟨nofun, nofun⟩
  · cases h
  · split at h
    · split at h
      · obtain ⟨hpasses, rfl⟩ := check_eq_ok_iff.mp h
        exact hpasses
      · cases h
    · cases h

end RunControl.Settings
