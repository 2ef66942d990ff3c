/-
RunControl/Proofs/Timestamp/Clock.lean

What clocks show, and the points in time that are stated with their help.  A clock goes from one
minute to the next through the hours, the days and the calendar (`Clock.Next`), and two of its
readings are so many minutes apart as it takes to get from one to the other (`Clock.Apart`).
These are the minutes that are counted from the start of the year 0 (`Clock.apart_iff`).

A point in time is stated by what a clock shows, a second with its nanoseconds, and the distance
of the clock from UTC (`Moment`).  Two such points are apart by what these four are apart
(`Moment.exists_apart`).
-/
import RunControl.Proofs.Calendar
import RunControl.Timestamp

namespace RunControl

open Calendar Timestamp

/-! ### Clocks -/

/-- The hours and minutes of a day. -/
structure HourMinute.Valid (t : HourMinute) : Prop where
  hour : t.hour < 24
  minute : t.minute < 60

/-- What a clock shows that has a calendar, down to minutes. -/
structure Clock where
  date : Date
  time : HourMinute
  valid : time.Valid

namespace Clock

variable {c c' c'' : Clock} {k l : Int}

/-- The minutes from the start of the year 0 on this clock. -/
def minutes (c : Clock) : Int :=
  c.date.dayNumber * 1440 + c.time.minutes

/-- A minute later. -/
inductive Next (c c' : Clock) : Prop
  | minute (date : c'.date = c.date) (hour : c'.time.hour = c.time.hour)
      (minute : c'.time.minute = c.time.minute + 1)
  | hour (last : c.time.minute = 59) (date : c'.date = c.date)
      (hour : c'.time.hour = c.time.hour + 1) (minute : c'.time.minute = 0)
  | day (last : c.time.minute = 59) (evening : c.time.hour = 23) (date : c.date.Next c'.date)
      (hour : c'.time.hour = 0) (minute : c'.time.minute = 0)

theorem exists_next (c : Clock) : ∃ c', c.Next c' := by
  have hhour := c.valid.hour
  have hminute := c.valid.minute
  by_cases hm : c.time.minute < 59
  · exact ⟨⟨c.date, ⟨c.time.hour, c.time.minute + 1⟩, ⟨hhour, Nat.succ_lt_succ hm⟩⟩,
      .minute rfl rfl rfl⟩
  · have hlast : c.time.minute = 59 := by omega
    by_cases hh : c.time.hour < 23
    · exact ⟨⟨c.date, ⟨c.time.hour + 1, 0⟩, ⟨Nat.succ_lt_succ hh, Nat.zero_lt_succ _⟩⟩,
        .hour hlast rfl rfl rfl⟩
    · have hevening : c.time.hour = 23 := by omega
      obtain ⟨date, hdate⟩ := c.date.exists_next
      exact ⟨⟨date, ⟨0, 0⟩, ⟨by decide, by decide⟩⟩, .day hlast hevening hdate rfl rfl⟩

theorem Next.minutes_eq (h : c.Next c') : c'.minutes = c.minutes + 1 := by
  cases h with
  | minute hdate hhour hminute =>
    rw [minutes, minutes, HourMinute.minutes, HourMinute.minutes, hdate, hhour, hminute]
    omega
  | hour hlast hdate hhour hminute =>
    rw [minutes, minutes, HourMinute.minutes, HourMinute.minutes, hdate, hhour, hminute, hlast]
    omega
  | day hlast hevening hdate hhour hminute =>
    rw [minutes, minutes, HourMinute.minutes, HourMinute.minutes, hdate.dayNumber_eq, hhour,
      hminute, hlast, hevening]
    omega

theorem minutes_inj : c.minutes = c'.minutes ↔ c = c' := by
  refine ⟨fun h => ?_, congrArg minutes⟩
  obtain ⟨date, ⟨hour, minute⟩, hhour, hminute⟩ := c
  obtain ⟨date', ⟨hour', minute'⟩, hhour', hminute'⟩ := c'
  simp only [minutes, HourMinute.minutes] at h hhour hminute hhour' hminute'
  -- the time of a day is less than 1440 minutes
  obtain rfl : date = date' := Date.dayNumber_inj.mp (by omega)
  obtain rfl : hour = hour' := by omega
  obtain rfl : minute = minute' := by omega
  rfl

/-- The second clock shows what the first one does so many minutes later, or earlier if there are
less than none. -/
inductive Apart (c : Clock) : Clock → Int → Prop
  | here : Apart c c 0
  | later {c' c'' : Clock} {k : Int} (h : Apart c c' k) (next : c'.Next c'') : Apart c c'' (k + 1)
  | earlier {c' c'' : Clock} {k : Int} (h : Apart c c' k) (next : c''.Next c') : Apart c c'' (k - 1)

namespace Apart

theorem minutes_eq (h : c.Apart c' k) : c'.minutes = c.minutes + k := by
  induction h with
  | here => exact (Int.add_zero _).symm
  | later h hn ih =>
    rw [hn.minutes_eq, ih]
    omega
  | earlier h hn ih =>
    rw [hn.minutes_eq] at ih
    omega

theorem trans (h : c.Apart c' k) (h' : c'.Apart c'' l) : c.Apart c'' (k + l) := by
  induction h' with
  | here => rwa [Int.add_zero]
  | later h hn ih =>
    rw [← Int.add_assoc]
    exact ih.later hn
  | earlier h hn ih =>
    rw [← Int.add_sub_assoc]
    exact ih.earlier hn

theorem symm (h : c.Apart c' k) : c'.Apart c (-k) := by
  induction h with
  | here => exact .here
  | @later c' c'' k h hn ih =>
    have hk : 0 - 1 + -k = -(k + 1) := by omega
    rw [← hk]
    exact (here.earlier hn).trans ih
  | @earlier c' c'' k h hn ih =>
    have hk : 0 + 1 + -k = -(k - 1) := by omega
    rw [← hk]
    exact (here.later hn).trans ih

/-- A clock can go on for any number of minutes. -/
theorem exists_later (c : Clock) (n : Nat) : ∃ c', c.Apart c' n := by
  induction n with
  | zero => exact ⟨c, .here⟩
  | succ n ih =>
    obtain ⟨c', h⟩ := ih
    obtain ⟨c'', hn⟩ := c'.exists_next
    exact ⟨c'', h.later hn⟩

end Apart

/-- The minutes that are counted tell how far two readings are apart. -/
theorem apart_iff : c.Apart c' k ↔ c'.minutes = c.minutes + k := by
  have later : ∀ {c c' : Clock} {n : Nat}, c'.minutes = c.minutes + n → c.Apart c' n := by
    intro c c' n h
    obtain ⟨c'', hc⟩ := Apart.exists_later c n
    obtain rfl : c'' = c' := minutes_inj.mp (hc.minutes_eq.trans h.symm)
    exact hc
  refine ⟨Apart.minutes_eq, fun h => ?_⟩
  obtain ⟨n, rfl | rfl⟩ := k.eq_nat_or_neg
  · exact later h
  · exact (later (by omega)).symm

end Clock

/-! ### Points in time -/

/-- A point in time as it is stated. -/
structure Moment where
  clock : Clock
  second : Nat
  nanos : Nat
  /-- How many minutes the clock is ahead of UTC. -/
  offset : Int
  year_gt : -10000 < clock.date.year
  year_lt : clock.date.year < 10000
  second_lt : second < 60
  nanos_lt : nanos < nanosPerSecond
  offset_gt : -1440 < offset
  offset_lt : offset < 1440

/-- Less than 2^39 seconds before or after the start of the year 0. -/
def Timestamp.InRange (x : Int) : Prop :=
  -(Nat.pow 2 39 * nanosPerSecond : Int) < x ∧ x < (Nat.pow 2 39 * nanosPerSecond : Int)

namespace Moment

/-- The instant of a point in time. -/
def instant (m : Moment) : Int :=
  Timestamp.instant m.clock.date m.clock.time m.second m.nanos m.offset

theorem instant_eq (m : Moment) :
    m.instant = ((m.clock.minutes - m.offset) * 60 + m.second) * nanosPerSecond + m.nanos :=
  rfl

/-- The nanoseconds from one point in time to another, if their clocks show what is so many
minutes apart. -/
def span (m m' : Moment) (minutes : Int) : Int :=
  ((minutes - (m'.offset - m.offset)) * 60 + (m'.second - m.second)) * nanosPerSecond +
    (m'.nanos - m.nanos)

theorem exists_apart (m m' : Moment) :
    ∃ k, m.clock.Apart m'.clock k ∧ m'.instant - m.instant = m.span m' k := by
  refine ⟨m'.clock.minutes - m.clock.minutes, Clock.apart_iff.mpr (by omega), ?_⟩
  simp only [instant_eq, span, nanosPerSecond]
  omega

/-- Years have four digits at most. -/
theorem inRange_instant (m : Moment) : InRange m.instant := by
  have hyear := m.year_gt
  have hyear' := m.year_lt
  -- the years around it bound a date from both sides
  have hfirst : daysBeforeYear (-9999) ≤ m.clock.date.dayNumber :=
    Int.le_trans (daysBeforeYear_le (by omega)) m.clock.date.daysBeforeYear_le_dayNumber
  have hlast : m.clock.date.dayNumber < daysBeforeYear 10000 :=
    Int.lt_of_lt_of_le m.clock.date.dayNumber_lt (daysBeforeYear_le (by omega))
  have hhour := m.clock.valid.hour
  have hminute := m.clock.valid.minute
  have hsecond := m.second_lt
  have hnanos := m.nanos_lt
  have hoffset := m.offset_gt
  have hoffset' := m.offset_lt
  have hfirstDay : daysBeforeYear (-9999) = -3652059 := by decide
  have hlastDay : daysBeforeYear 10000 = 3652425 := by decide
  rw [hfirstDay] at hfirst
  rw [hlastDay] at hlast
  simp only [InRange, instant_eq, Clock.minutes, HourMinute.minutes, nanosPerSecond,
    Nat.pow_eq] at hnanos ⊢
  omega

end Moment

end RunControl
