/-
RunControl/Proofs/Settings/Overrides.lean

What overriding makes of settings.  Settings that have been checked can be overridden by an address
and an interval that would pass the check themselves (`Passes.overridden_iff`); if one of them
would not, the error is about the address first and about the interval second.  What comes out
passes the check again, so the program can work with it.

Overriding changes the two values that are overridden and nothing else, whether or not there was a
value before, so of two overrides that follow each other the later one wins
(`overridden_overridden`).
-/
import RunControl.Proofs.Settings.Checked

namespace RunControl.Settings

open Text

variable {s t : Settings} {url : Option String} {interval : Option Nat}

/-- The settings with other values, before they are checked. -/
def overridden (s : Settings) (url : Option String) (interval : Option Nat) : Settings :=
  { s with
    apiUrl := (url.map trim).or s.apiUrl
    polling := (interval.map fun interval => { s.effectivePolling with interval }).or s.polling }

theorem withOverrides_eq (s : Settings) (url : Option String) (interval : Option Nat) :
    s.withOverrides url interval = (s.overridden url interval).check := by
  cases url <;> cases interval <;> rfl

/-- Of two overrides that follow each other the later one wins. -/
theorem overridden_overridden (s : Settings) (url url' : Option String)
    (interval interval' : Option Nat) :
    (s.overridden url interval).overridden url' interval' =
      s.overridden (url'.or url) (interval'.or interval) := by
  cases url <;> cases url' <;> cases interval <;> cases interval' <;> rfl

/-- The interval is overridden and the timeout stays, be they written down or defaults. -/
theorem effectivePolling_overridden (s : Settings) (url : Option String) (interval : Option Nat) :
    (s.overridden url interval).effectivePolling =
      { s.effectivePolling with interval := interval.getD s.effectivePolling.interval } := by
  cases interval <;> rfl

/-- The interval is long enough, or stands for the default. -/
def LongEnough (interval : Nat) : Prop :=
  interval = 0 ∨ leastInterval ≤ interval

theorem longEnough_iff {p : Polling} :
    LongEnough p.interval ↔ leastInterval ≤ p.effectiveInterval := by
  unfold LongEnough Polling.effectiveInterval leastInterval
  split <;> omega

/-- What the command line adds to settings that pass the check is all that can fail it. -/
theorem Passes.overridden_iff (h : s.Passes) :
    (s.overridden url interval).Passes ↔
      (∀ a, url = some a → checkUrl a = .ok ()) ∧ ∀ i, interval = some i → LongEnough i := by
  constructor
  · rintro ⟨hurl, hinterval⟩
    refine ⟨?_, ?_⟩
    · rintro a rfl
      rw [checkUrl_eq_ok_iff, ← isUrl_trim]
      exact hurl _ rfl
    · rintro i rfl
      exact longEnough_iff (p := { s.effectivePolling with interval := i }).mpr (hinterval _ rfl)
  · rintro ⟨hurl, hinterval⟩
    refine ⟨fun a ha => ?_, fun p hp => ?_⟩
    · cases url with
      | none => exact h.url a ha
      | some a' =>
        cases ha
        rw [isUrl_trim]
        exact checkUrl_eq_ok_iff.mp (hurl a' rfl)
    · cases interval with
      | none => exact h.interval p hp
      | some i =>
        cases hp
        exact longEnough_iff.mp (hinterval i rfl)

theorem Passes.effectiveUrl_overridden (h : s.Passes)
    (hurl : ∀ a, url = some a → checkUrl a = .ok ()) :
    (s.overridden url interval).effectiveUrl = (url.map trim).getD s.effectiveUrl := by
  cases url with
  | none => rfl
  | some a =>
    have hpasses : (s.overridden (some a) none).Passes := h.overridden_iff.mpr ⟨hurl, nofun⟩
    exact (hpasses.effectiveUrl_eq rfl).trans (trim_trim a)

/-- What has come out of overriding settings. -/
structure Overrides (s : Settings) (url : Option String) (interval : Option Nat) (t : Settings) :
    Prop where
  url_eq : t.effectiveUrl = (url.map trim).getD s.effectiveUrl
  interval_eq : t.effectivePolling.interval = interval.getD s.effectivePolling.interval
  timeout_eq : t.effectivePolling.timeout = s.effectivePolling.timeout
  logLevel_eq : t.logLevel = s.logLevel
  extra_eq : t.extra = s.extra
  runnable : t.Runnable
  /-- Overriding again is overriding once with the later values, where there are such. -/
  again : ∀ (url' : Option String) (interval' : Option Nat),
    t.withOverrides url' interval' = s.withOverrides (url'.or url) (interval'.or interval)

theorem Passes.overrides (h : s.Passes) (hok : s.withOverrides url interval = .ok t) :
    s.Overrides url interval t := by
  rw [withOverrides_eq] at hok
  obtain ⟨hpasses, rfl⟩ := check_eq_ok_iff.mp hok
  obtain ⟨hurl, -⟩ := h.overridden_iff.mp hpasses
  have hpolling := effectivePolling_overridden s url interval
  exact {
    url_eq := h.effectiveUrl_overridden hurl
    interval_eq := by rw [hpolling]
    timeout_eq := by rw [hpolling]
    logLevel_eq := rfl
    extra_eq := rfl
    runnable := hpasses.runnable
    again := fun url' interval' => by
      rw [withOverrides_eq, withOverrides_eq, overridden_overridden] }

/-- Settings that were read from a file can be overridden by what would pass the check in their
place; the address is checked first.  They are then settings with which the program can work, and
of several overrides the last one counts. -/
theorem overrides_of_load {file : File} (h : load file = .ok s) (url : Option String)
    (interval : Option Nat) :
    ((∃ t, s.withOverrides url interval = .ok t) ↔
      (∀ a, url = some a → checkUrl a = .ok ()) ∧ ∀ i, interval = some i → LongEnough i) ∧
    (∀ a e, url = some a → checkUrl a = .error e → s.withOverrides url interval = .error e) ∧
    (∀ i, (∀ a, url = some a → checkUrl a = .ok ()) → interval = some i → ¬LongEnough i →
      s.withOverrides url interval = .error (.intervalTooShort i)) ∧
    ∀ t, s.withOverrides url interval = .ok t → s.Overrides url interval t := by
  have hpasses := passes_of_load h
  refine ⟨?_, ?_, ?_, fun t => hpasses.overrides⟩
  · simp only [withOverrides_eq, check_eq_ok_iff, exists_and_left, exists_eq', and_true]
    exact hpasses.overridden_iff
  · rintro a e rfl he
    unfold checkUrl at he
    split at he
    · cases he
    · next hbad =>
      have hbad' : isUrl (trim a) = false := by rwa [isUrl_trim, ← Bool.not_eq_true]
      rw [← Except.error.inj he, withOverrides_eq, check_of_not_isUrl rfl hbad', trim_trim]
  · rintro i hurl rfl hshort
    -- such an interval does not stand for the default
    have heffective : ({ s.effectivePolling with interval := i } : Polling).effectiveInterval = i :=
      if_neg fun hzero => hshort (.inl hzero)
    have hlt : ({ s.effectivePolling with interval := i } : Polling).effectiveInterval
        < leastInterval := by
      rw [heffective]
      exact Nat.not_le.mp fun hle => hshort (.inr hle)
    have hurl' : (s.overridden url none).Passes := hpasses.overridden_iff.mpr ⟨hurl, nofun⟩
    rw [withOverrides_eq, check_of_short (s := s.overridden url (some i)) hurl'.url rfl hlt,
      heffective]

/-- A file with an address and two intervals, and overrides for the address and one of the
intervals. -/
theorem overrides_of_load_file :
    ∃ s t, load (.bytes (Utf8.encode
        "api_url = 'http://a:1'\npolling = [9000, 1000]".toList)) = .ok s ∧
      s.withOverrides (some " http://b:2 ") (some 500) = .ok t ∧
      t.effectiveUrl = "http://b:2" ∧ t.effectivePolling.interval = 500 ∧
      t.effectivePolling.timeout = 1000 ∧ t.Runnable := by
  have hread :
      (match load (.bytes (Utf8.encode
          "api_url = 'http://a:1'\npolling = [9000, 1000]".toList)) with
        | .ok s => s.polling
        | .error _ => none) = some ⟨9000, 1000⟩ := by
    decide +kernel
  split at hread
  · next s hload =>
    obtain ⟨hok, -, -, hout⟩ := overrides_of_load hload (some " http://b:2 ") (some 500)
    have hurl : ∀ a, some " http://b:2 " = some a → checkUrl a = .ok () := by
      rintro a ⟨⟩
      exact checkUrl_eq_ok_iff.mpr (by decide)
    have hinterval : ∀ i, some 500 = some i → LongEnough i := by
      rintro i ⟨⟩
      exact .inr (by decide)
    obtain ⟨t, ht⟩ := hok.mpr ⟨hurl, hinterval⟩
    have hover := hout t ht
    have htimeout : t.effectivePolling.timeout = 1000 := by
      rw [hover.timeout_eq, effectivePolling, hread]
      rfl
    exact ⟨s, t, hload, ht, hover.url_eq, hover.interval_eq, htimeout, hover.runnable⟩
  · cases hread

end RunControl.Settings
