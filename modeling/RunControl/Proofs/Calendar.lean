/-
RunControl/Proofs/Calendar.lean

Where dates stand among the days.  The months of a year fill it (`daysBeforeMonth_thirteen`), so
a date lies between the first day of its year and that of the next one
(`Date.daysBeforeYear_le_dayNumber`, `Date.dayNumber_lt`), and day numbers compare as year, month
and day do (`Date.dayNumber_lt_iff`).

The calendar itself goes from one day to the next (`Date.Next`), and the day numbers count along
(`Date.Next.dayNumber_eq`); no two dates have the same one (`Date.dayNumber_inj`).
-/
import Mathlib.Order.Monotone.Basic
import RunControl.Calendar

namespace RunControl.Calendar

/-! ### Months and years -/

theorem daysInMonth_pos (year : Int) (month : Nat) : 1 ≤ daysInMonth year month := by
  unfold daysInMonth
  split
  · split <;> decide
  all_goals decide

theorem daysInMonth_le (year : Int) (month : Nat) : daysInMonth year month ≤ 31 := by
  unfold daysInMonth
  split
  · split <;> decide
  all_goals decide

/-- The next month begins where a month ends. -/
theorem daysBeforeMonth_succ (year : Int) {month : Nat} (h : 1 ≤ month) :
    daysBeforeMonth year (month + 1) = daysBeforeMonth year month + daysInMonth year month := by
  cases month with
  | zero => cases h
  | succ month => rfl

theorem daysBeforeMonth_mono (year : Int) : Monotone (daysBeforeMonth year) := by
  refine monotone_nat_of_le_succ fun month => ?_
  cases month with
  | zero => exact Nat.le_refl _
  | succ month => exact Nat.le_add_right ..

/-- After the twelfth month the year is over. -/
theorem daysBeforeMonth_thirteen (year : Int) :
    daysBeforeMonth year 13 = if isLeapYear year then 366 else 365 := by
  cases h : isLeapYear year <;> simp [daysBeforeMonth, daysInMonth, h]

theorem daysBeforeYear_add_one (year : Int) :
    daysBeforeYear (year + 1) = daysBeforeYear year + daysBeforeMonth year 13 := by
  rw [daysBeforeYear_succ, daysBeforeMonth_thirteen]
  split <;> rfl

theorem daysBeforeYear_le {year year' : Int} (h : year ≤ year') :
    daysBeforeYear year ≤ daysBeforeYear year' := by
  unfold daysBeforeYear
  omega

namespace Date

variable {d d' : Date}

theorem of?_eq_some_iff {year : Int} {month day : Nat} :
    of? year month day = some d ↔ d.year = year ∧ d.month = month ∧ d.day = day := by
  unfold of?
  constructor
  · intro h
    split at h
    · cases h
      exact ⟨rfl, rfl, rfl⟩
    · cases h
  · rintro ⟨rfl, rfl, rfl⟩
    exact dif_pos ⟨⟨d.month_pos, d.month_le⟩, d.day_pos, d.day_le⟩

/-! ### The order of dates -/

theorem daysBeforeYear_le_dayNumber (d : Date) : daysBeforeYear d.year ≤ d.dayNumber := by
  unfold dayNumber
  omega

/-- A date comes before the next month begins. -/
theorem dayNumber_lt_of_month_lt {month : Nat} (h : d.month < month) :
    d.dayNumber < daysBeforeYear d.year + daysBeforeMonth d.year month := by
  have hmonth : daysBeforeMonth d.year d.month + daysInMonth d.year d.month
      ≤ daysBeforeMonth d.year month := by
    rw [← daysBeforeMonth_succ d.year d.month_pos]
    exact daysBeforeMonth_mono d.year h
  have hday := d.day_le
  have hpos := d.day_pos
  unfold dayNumber
  omega

theorem dayNumber_lt (d : Date) : d.dayNumber < daysBeforeYear (d.year + 1) := by
  rw [daysBeforeYear_add_one]
  exact dayNumber_lt_of_month_lt (Nat.lt_succ_of_le d.month_le)

theorem year_le_of_dayNumber_le (h : d.dayNumber ≤ d'.dayNumber) : d.year ≤ d'.year := by
  refine Int.not_lt.mp fun hlt => ?_
  have hyear : daysBeforeYear (d'.year + 1) ≤ daysBeforeYear d.year := daysBeforeYear_le hlt
  have hle := d.daysBeforeYear_le_dayNumber
  have hlt' := d'.dayNumber_lt
  omega

theorem month_le_of_dayNumber_le (hy : d.year = d'.year) (h : d.dayNumber ≤ d'.dayNumber) :
    d.month ≤ d'.month := by
  refine Nat.not_lt.mp fun hlt => ?_
  have hlt' := dayNumber_lt_of_month_lt hlt
  rw [← hy] at hlt'
  unfold dayNumber at h hlt'
  omega

/-- Different dates have different day numbers. -/
theorem dayNumber_inj : d.dayNumber = d'.dayNumber ↔ d = d' := by
  refine ⟨fun h => ?_, congrArg dayNumber⟩
  have hyear : d.year = d'.year :=
    Int.le_antisymm (year_le_of_dayNumber_le (Int.le_of_eq h))
      (year_le_of_dayNumber_le (Int.le_of_eq h.symm))
  have hmonth : d.month = d'.month :=
    Nat.le_antisymm (month_le_of_dayNumber_le hyear (Int.le_of_eq h))
      (month_le_of_dayNumber_le hyear.symm (Int.le_of_eq h.symm))
  have hday : d.day = d'.day := by
    have hpos := d.day_pos
    have hpos' := d'.day_pos
    rw [dayNumber, dayNumber, hyear, hmonth] at h
    omega
  cases d
  cases d'
  cases hyear
  cases hmonth
  cases hday
  rfl

/-- The place of a date when dates are sorted by year, month and day; a year has room for 12
months and a month for 31 days. -/
def rank (d : Date) : Int :=
  (d.year * 13 + d.month) * 32 + d.day

theorem rank_lt_of_dayNumber_lt (h : d.dayNumber < d'.dayNumber) : d.rank < d'.rank := by
  have hyear := year_le_of_dayNumber_le (Int.le_of_lt h)
  have hmonth := d.month_le
  have hday := d.day_le.trans (daysInMonth_le ..)
  unfold rank
  by_cases hy : d.year = d'.year
  · have hmonth' := month_le_of_dayNumber_le hy (Int.le_of_lt h)
    by_cases hm : d.month = d'.month
    · have hpos := d.day_pos
      rw [dayNumber, dayNumber, hy, hm] at h
      omega
    · omega
  · omega

/-- Day numbers compare as years, months and days do. -/
theorem dayNumber_lt_iff : d.dayNumber < d'.dayNumber ↔ d.rank < d'.rank := by
  refine ⟨rank_lt_of_dayNumber_lt, fun h => ?_⟩
  rcases Int.lt_trichotomy d.dayNumber d'.dayNumber with hlt | heq | hgt
  · exact hlt
  · rw [dayNumber_inj.mp heq] at h
    exact absurd h (Int.lt_irrefl _)
  · exact absurd (rank_lt_of_dayNumber_lt hgt) (Int.lt_asymm h)

/-! ### From day to day -/

/-- The day after a date: the next one of its month, or the first one of the next month, or that
of the next year. -/
inductive Next (d d' : Date) : Prop
  | day (year : d'.year = d.year) (month : d'.month = d.month) (day : d'.day = d.day + 1)
  | month (last : d.day = daysInMonth d.year d.month) (year : d'.year = d.year)
      (month : d'.month = d.month + 1) (day : d'.day = 1)
  | year (last : d.day = daysInMonth d.year d.month) (december : d.month = 12)
      (year : d'.year = d.year + 1) (month : d'.month = 1) (day : d'.day = 1)

theorem exists_next (d : Date) : ∃ d', d.Next d' := by
  by_cases hday : d.day < daysInMonth d.year d.month
  · exact ⟨⟨d.year, d.month, d.day + 1, d.month_pos, d.month_le, Nat.le_add_left .., hday⟩,
      .day rfl rfl rfl⟩
  · have hlast : d.day = daysInMonth d.year d.month :=
      Nat.le_antisymm d.day_le (Nat.not_lt.mp hday)
    by_cases hmonth : d.month < 12
    · exact ⟨⟨d.year, d.month + 1, 1, Nat.le_add_left .., hmonth, Nat.le_refl 1,
        daysInMonth_pos ..⟩, .month hlast rfl rfl rfl⟩
    · have hdecember : d.month = 12 := Nat.le_antisymm d.month_le (Nat.not_lt.mp hmonth)
      exact ⟨⟨d.year + 1, 1, 1, Nat.le_refl 1, by decide, Nat.le_refl 1, daysInMonth_pos ..⟩,
        .year hlast hdecember rfl rfl rfl⟩

/-- Day numbers count the days. -/
theorem Next.dayNumber_eq (h : d.Next d') : d'.dayNumber = d.dayNumber + 1 := by
  have hpos := d.day_pos
  have hend := daysBeforeMonth_succ d.year d.month_pos
  cases h with
  | day hyear hmonth hday =>
    rw [dayNumber, dayNumber, hyear, hmonth, hday]
    omega
  | month hlast hyear hmonth hday =>
    rw [dayNumber, dayNumber, hyear, hmonth, hday, hend]
    omega
  | year hlast hdecember hyear hmonth hday =>
    have hfirst : daysBeforeMonth (d.year + 1) 1 = 0 := rfl
    rw [hdecember] at hend hlast
    rw [dayNumber, dayNumber, hyear, hmonth, hday, hdecember, hfirst, daysBeforeYear_add_one, hend]
    omega

end Date

end RunControl.Calendar
