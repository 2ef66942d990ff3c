/-
RunControl/Proofs/Timestamp/Elapsed.lean

How long a run took.  A time that can be read states a point in time (`States`), and what a
status says about its run is the difference of two such points (`RunStatus.elapsed?_exact`):

* it is exact, down to nanoseconds, and there is one exactly if the end is not before the start;
* lengths of time add up, nanoseconds being carried over into seconds;
* a time is the same on the clocks of all zones;
* without two times that can be read there is no length.

The instants that can be read lie within 2^39 seconds of the start of the year 0
(`Timestamp.inRange_of_parse?`), so no difference comes near what signed seconds of 64 bits hold.
-/
import Mathlib.Data.Option.Basic
import RunControl.Proofs.Timestamp.Notation
import RunControl.RunSummary

namespace RunControl

open Calendar Text Timestamp

/-! ### Lengths of time -/

namespace Elapsed

/-- The nanoseconds of a length of time. -/
def total (e : Elapsed) : Int :=
  e.seconds * nanosPerSecond + e.nanos

/-- No time at all. -/
instance : Zero Elapsed where
  zero := ⟨0, 0⟩

/-- One length of time after another; whole seconds are carried over from the nanoseconds. -/
instance : Add Elapsed where
  add e e' :=
    { seconds := e.seconds + e'.seconds + (e.nanos + e'.nanos) / nanosPerSecond
      nanos := (e.nanos + e'.nanos) % nanosPerSecond }

variable {e e' : Elapsed} {x y z : Int}

theorem add_seconds :
    (e + e').seconds = e.seconds + e'.seconds + (e.nanos + e'.nanos) / nanosPerSecond :=
  rfl

theorem add_nanos : (e + e').nanos = (e.nanos + e'.nanos) % nanosPerSecond :=
  rfl

theorem total_add : (e + e').total = e.total + e'.total := by
  simp only [total, add_seconds, add_nanos, nanosPerSecond]
  omega

theorem between?_eq_some_iff :
    between? x y = some e ↔ e.nanos < nanosPerSecond ∧ y - x = e.total := by
  obtain ⟨seconds, nanos⟩ := e
  unfold between? total
  cases y - x with
  | ofNat n =>
    simp only [Option.some.injEq, Elapsed.mk.injEq, Int.ofNat_eq_natCast, nanosPerSecond]
    omega
  | negSucc n =>
    simp only [reduceCtorEq, false_iff, nanosPerSecond]
    omega

theorem isSome_between? : (between? x y).isSome = true ↔ x ≤ y := by
  unfold between?
  cases h : y - x with
  | ofNat n =>
    rw [Int.ofNat_eq_natCast] at h
    simp only [Option.isSome_some, true_iff]
    omega
  | negSucc n =>
    simp only [Option.isSome_none, Bool.false_eq_true, false_iff]
    omega

/-- Lengths of time that follow each other add up. -/
theorem between?_trans (h : between? x y = some e) (h' : between? y z = some e') :
    between? x z = some (e + e') := by
  obtain ⟨-, hxy⟩ := between?_eq_some_iff.mp h
  obtain ⟨-, hyz⟩ := between?_eq_some_iff.mp h'
  refine between?_eq_some_iff.mpr ⟨?_, ?_⟩
  · rw [add_nanos]
    exact Nat.mod_lt _ (by decide)
  · rw [total_add]
    omega

/-- Time passes both ways only between an instant and itself. -/
theorem eq_zero_of_between? (h : between? x y = some e) (h' : between? y x = some e') :
    e = 0 := by
  -- one instant is then not before the other, nor the other before it
  obtain rfl : x = y := by
    have hxy : x ≤ y := isSome_between?.mp (by rw [h]; rfl)
    have hyx : y ≤ x := isSome_between?.mp (by rw [h']; rfl)
    exact Int.le_antisymm hxy hyx
  have hzero : between? x x = some 0 :=
    between?_eq_some_iff.mpr ⟨by decide, Int.sub_self x⟩
  exact Option.some.inj (h.symm.trans hzero)

end Elapsed

namespace Timestamp

/-! ### What is read -/

variable {s : String} {x : Instant}

/-- The text of a point in time, which may stand between blanks. -/
inductive States (s : String) : Moment → Prop
  | rfc3339 (w : Rfc3339) (h : Text.trim s = w.text) : States s w.moment
  | plain (p : Plain) (h : Text.trim s = p.text) : States s p.moment

/-- A text that is in the notation of RFC 3339 is read in it. -/
theorem parse?_of_text {w : Rfc3339} (h : Text.trim s = w.text) :
    parse? s = some w.moment.instant := by
  have hchars : trimChars s.toList = w.chars := String.ofList_injective h
  refine (Option.orElse_eq_some _ _ _).mpr (.inl ?_)
  rw [hchars]
  exact whole?_scanOffsetTime_iff.mpr ⟨w, rfl, rfl⟩

/-- The texts in the notation of RFC 3339 are those of its records. -/
theorem isSome_scanOffsetTime_iff (s : String) :
    (Scan.whole? scanOffsetTime (trimChars s.toList)).isSome = true ↔
      ∃ w : Rfc3339, Text.trim s = w.text := by
  rw [Option.isSome_iff_exists]
  constructor
  · rintro ⟨x, hx⟩
    obtain ⟨w, hw, -⟩ := whole?_scanOffsetTime_iff.mp hx
    exact ⟨w, congrArg String.ofList hw⟩
  · rintro ⟨w, hw⟩
    exact ⟨_, whole?_scanOffsetTime_iff.mpr ⟨w, String.ofList_injective hw, rfl⟩⟩

/-- Whatever is read is the text of the point in time that it is read as. -/
theorem exists_states_of_parse? (h : parse? s = some x) :
    ∃ m, States s m ∧ m.instant = x := by
  rcases (Option.orElse_eq_some _ _ _).mp h with h | ⟨-, h⟩
  · obtain ⟨w, hw, hx⟩ := whole?_scanOffsetTime_iff.mp h
    exact ⟨w.moment, .rfc3339 w (congrArg String.ofList hw), hx⟩
  · obtain ⟨p, hp, hx⟩ := exists_of_whole?_scanPlain h
    exact ⟨p.moment, .plain p (congrArg String.ofList hp), hx⟩

theorem inRange_of_parse? (h : parse? s = some x) : InRange x := by
  obtain ⟨m, -, rfl⟩ := exists_states_of_parse? h
  exact m.inRange_instant

/-! ### The same time on another clock -/

/-- The second record shows what a clock shows that is so many minutes ahead of the one of the
first, and says so in its distance from UTC. -/
structure Rfc3339.Shifted (w w' : Rfc3339) (minutes : Int) : Prop where
  clock : w.clock.Apart w'.clock minutes
  zone : w'.zone.offset = w.zone.offset + minutes
  second : w'.second = w.second
  fraction : w'.fraction = w.fraction

/-- An instant depends on the clock only through its distance from UTC. -/
theorem Rfc3339.Shifted.instant_eq {w w' : Rfc3339} {minutes : Int}
    (h : w.Shifted w' minutes) : w'.moment.instant = w.moment.instant := by
  have hclock : w'.clock.minutes - w'.zone.offset = w.clock.minutes - w.zone.offset := by
    rw [h.clock.minutes_eq, h.zone]
    omega
  simp only [Moment.instant_eq, moment, hclock, h.second, h.fraction]

end Timestamp

/-! ### How long a run took -/

/-- What the exact length of time from one written time to another has to be. -/
structure Measures (took? : Option String → Option String → Option Elapsed) : Prop where
  /-- Times that can be read are apart by what the points in time are that they state. -/
  difference : ∀ {a b}, (parse? a).isSome = true → (parse? b).isSome = true →
    ∃ m m' k, States a m ∧ States b m' ∧ m.clock.Apart m'.clock k ∧
      ∀ e, took? (some a) (some b) = some e ↔ e.nanos < nanosPerSecond ∧ e.total = m.span m' k
  /-- Of two times that can be read one is not before the other. -/
  ordered : ∀ {a b}, (parse? a).isSome = true → (parse? b).isSome = true →
    (took? (some a) (some b)).isSome = true ∨ (took? (some b) (some a)).isSome = true
  /-- Neither is before the other only if no time lies between them. -/
  zero : ∀ {a b e e'}, took? a b = some e → took? b a = some e' → e = 0 ∧ e' = 0
  /-- From one time to another and on to a third. -/
  trans : ∀ {a b c e e'}, took? a b = some e → took? b c = some e' → took? a c = some (e + e')
  /-- It does not matter on which clock a time in the notation of RFC 3339 is read off. -/
  clock : ∀ {a a' minutes} {w w' : Rfc3339}, Text.trim a = w.text → Text.trim a' = w'.text →
    w.Shifted w' minutes →
    ∀ b, took? (some a) b = took? (some a') b ∧ took? b (some a) = took? b (some a')
  /-- Both times have to be there and to be readable. -/
  unread : ∀ {a b}, a.bind parse? = none ∨ b.bind parse? = none → took? a b = none

namespace RunStatus

/-- How long the run of a status took, had it started and finished at these times. -/
def took? (s : RunStatus) (started finished : Option String) : Option Elapsed :=
  ({ s with started, finished } : RunStatus).elapsed?

variable {s : RunStatus} {started finished : Option String} {e : Elapsed}

theorem took?_eq (s : RunStatus) (started finished : Option String) :
    s.took? started finished =
      (started.bind parse?).bind fun x => (finished.bind parse?).bind (Elapsed.between? x) := by
  cases started <;> cases finished <;> simp [took?, elapsed?]

theorem took?_eq_some_iff :
    s.took? started finished = some e ↔
      ∃ x y, started.bind parse? = some x ∧ finished.bind parse? = some y ∧
        Elapsed.between? x y = some e := by
  simp only [took?_eq, Option.bind_eq_some_iff, exists_and_left]

/-- The time that a run took obeys the laws of a length of time: each of them is the same law of
instants, once both texts are read. -/
theorem measures_took? (s : RunStatus) : Measures s.took? where
  difference {a b} ha hb := by
    obtain ⟨x, hx⟩ := Option.isSome_iff_exists.mp ha
    obtain ⟨y, hy⟩ := Option.isSome_iff_exists.mp hb
    obtain ⟨m, hm, rfl⟩ := exists_states_of_parse? hx
    obtain ⟨m', hm', rfl⟩ := exists_states_of_parse? hy
    -- two moments are a whole number of nanoseconds apart
    obtain ⟨k, hk, hspan⟩ := m.exists_apart m'
    refine ⟨m, m', k, hm, hm', hk, fun e => ?_⟩
    rw [took?_eq, Option.bind_some, Option.bind_some, hx, hy, ← hspan]
    exact Elapsed.between?_eq_some_iff.trans (and_congr_right fun _ => eq_comm)
  ordered {a b} ha hb := by
    obtain ⟨x, hx⟩ := Option.isSome_iff_exists.mp ha
    obtain ⟨y, hy⟩ := Option.isSome_iff_exists.mp hb
    simp only [took?_eq, Option.bind_some, hx, hy, Elapsed.isSome_between?]
    exact Int.le_total x y
  zero h h' := by
    obtain ⟨x, y, hx, hy, he⟩ := took?_eq_some_iff.mp h
    obtain ⟨y', x', hy', hx', he'⟩ := took?_eq_some_iff.mp h'
    obtain rfl : x = x' := Option.some.inj (hx.symm.trans hx')
    obtain rfl : y = y' := Option.some.inj (hy.symm.trans hy')
    exact ⟨Elapsed.eq_zero_of_between? he he', Elapsed.eq_zero_of_between? he' he⟩
  trans h h' := by
    obtain ⟨x, y, hx, hy, he⟩ := took?_eq_some_iff.mp h
    obtain ⟨y', z, hy', hz, he'⟩ := took?_eq_some_iff.mp h'
    obtain rfl : y = y' := Option.some.inj (hy.symm.trans hy')
    exact took?_eq_some_iff.mpr ⟨x, z, hx, hz, Elapsed.between?_trans he he'⟩
  clock {a a' minutes w w'} ha ha' h b := by
    -- both name the same instant, so nothing that reads them can tell them apart
    have hsame : parse? a' = parse? a := by
      rw [parse?_of_text ha, parse?_of_text ha', h.instant_eq]
    simp only [took?_eq, Option.bind_some, hsame, and_self]
  unread {a b} h := by
    rw [took?_eq]
    rcases h with h | h
    · rw [h, Option.bind_none]
    · rw [h]
      exact Option.bind_fun_none _

/-- What a status says about the time that its run took.  It depends on the two times alone, and
is the exact length of time between them.  What can be read in the notation of RFC 3339 is what
its records write.  Signed seconds of 64 bits hold each instant that can be read, and the
difference of any two. -/
theorem elapsed?_exact (s : RunStatus) :
    (∀ t : RunStatus, t.elapsed? = s.took? t.started t.finished) ∧
      Measures s.took? ∧
      (∀ a : String, (Scan.whole? scanOffsetTime (trimChars a.toList)).isSome = true ↔
        ∃ w : Rfc3339, Text.trim a = w.text) ∧
      ∀ {a b x y}, parse? a = some x → parse? b = some y →
        x.natAbs < Nat.pow 2 63 * nanosPerSecond ∧
          (y - x).natAbs < Nat.pow 2 63 * nanosPerSecond := by
  refine ⟨fun t => ?_, measures_took? s, isSome_scanOffsetTime_iff, fun hx hy => ?_⟩
  · rw [took?_eq, ← took?_eq t]
    rfl
  · have hx := inRange_of_parse? hx
    have hy := inRange_of_parse? hy
    simp only [InRange, nanosPerSecond, Nat.pow_eq] at hx hy ⊢
    omega

example (s : RunStatus) :
    s.took? (some "2016-12-31T23:59:59.25Z") (some " 2017-01-01T00:59:60+01:00 ") =
      some ⟨0, 749999999⟩ := by
  rfl

end RunStatus

end RunControl
