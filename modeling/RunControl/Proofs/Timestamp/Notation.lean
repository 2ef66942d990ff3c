/-
RunControl/Proofs/Timestamp/Notation.lean

How points in time are written.  A text in the notation of RFC 3339 is taken apart into what is
written in it (`Rfc3339`): a date, a separator, a time of day, a second, the digits of a fraction,
and a distance from UTC.  The texts of such records are exactly those that are read, and they are
read as the points in time that the records state (`whole?_scanOffsetTime_iff`).  What is read in
the plain notation is the text of a record, too (`Plain`, `exists_of_whole?_scanPlain`).

The proof follows the scan from its parts: each has an equivalence of its own, and a text is put
together from theirs.
-/
import RunControl.Proofs.Text.Scanning
import RunControl.Proofs.Timestamp.Clock

namespace RunControl

open Calendar Text

variable {cs r : List Char}

/-! ### Times of day -/

namespace HourMinute

/-- Two digits for the hours, a colon, and two for the minutes. -/
def chars (t : HourMinute) : List Char :=
  padded 2 t.hour ++ ':' :: padded 2 t.minute

theorem scan_eq_some_iff {t : HourMinute} :
    scan cs = some (t, r) ↔ t.Valid ∧ cs = t.chars ++ r := by
  simp only [scan, Scan.bind_eq_some_iff, Scan.pure_eq_some_iff, Scan.one_eq_some_iff,
    Scan.numberBelow_eq_some_iff (by decide : 24 ≤ Nat.pow 10 2),
    Scan.numberBelow_eq_some_iff (by decide : 60 ≤ Nat.pow 10 2)]
  constructor
  · rintro ⟨hour, _, ⟨hh, rfl⟩, _, _, ⟨-, rfl⟩, minute, _, ⟨hm, rfl⟩, rfl, rfl⟩
    exact ⟨⟨hh, hm⟩, by simp [chars]⟩
  · rintro ⟨⟨hh, hm⟩, rfl⟩
    exact ⟨_, _, ⟨hh, by simp [chars]⟩, _, _, ⟨rfl, rfl⟩, _, _, ⟨hm, rfl⟩, rfl, rfl⟩

end HourMinute

namespace Timestamp

/-! ### Dates -/

/-- A date whose year is written with these four digits. -/
def dateChars (year : Nat) (date : Date) : List Char :=
  padded 4 year ++ '-' :: padded 2 date.month ++ '-' :: padded 2 date.day

theorem scanDateOf_eq_some_iff {sign : Int} {date : Date} :
    scanDateOf sign cs = some (date, r) ↔
      ∃ year : Nat, year < 10000 ∧ date.year = sign * year ∧ cs = dateChars year date ++ r := by
  simp only [scanDateOf, Scan.bind_eq_some_iff, Scan.number_eq_some_iff, Scan.one_eq_some_iff,
    Scan.lift_eq_some_iff, Date.of?_eq_some_iff]
  constructor
  · rintro ⟨year, _, ⟨hy, rfl⟩, _, _, ⟨-, rfl⟩, month, _, ⟨-, rfl⟩, _, _, ⟨-, rfl⟩, day, _,
      ⟨-, rfl⟩, ⟨hyear, rfl, rfl⟩, rfl⟩
    exact ⟨year, hy, hyear, by simp [dateChars]⟩
  · rintro ⟨year, hy, hyear, rfl⟩
    have hmonth : date.month < Nat.pow 10 2 := Nat.lt_of_le_of_lt date.month_le (by decide)
    have hday : date.day < Nat.pow 10 2 :=
      Nat.lt_of_le_of_lt (date.day_le.trans (daysInMonth_le ..)) (by decide)
    exact ⟨year, _, ⟨hy, by simp [dateChars]⟩, _, _, ⟨rfl, rfl⟩, _, _, ⟨hmonth, rfl⟩,
      _, _, ⟨rfl, rfl⟩, _, _, ⟨hday, rfl⟩, ⟨hyear, rfl, rfl⟩, rfl⟩

/-! ### Fractions -/

/-- The digits of a fraction behind a point, or nothing. -/
def fractionChars : List Char → List Char
  | [] => []
  | d :: ds => '.' :: d :: ds

/-- Nothing that a fraction could go on with. -/
def StopsFraction (r : List Char) : Prop :=
  ∀ c, r.head? = some c → c ≠ '.' ∧ c.isDigit = false

theorem exists_of_scanFraction {nanos : Nat} (h : scanFraction cs = some (nanos, r)) :
    ∃ digits, (∀ c ∈ digits, c.isDigit = true) ∧ fractionNanos digits = nanos ∧
      cs = fractionChars digits ++ r := by
  unfold scanFraction at h
  split at h
  · obtain ⟨digits, ht, rfl⟩ := Scan.map_eq_some_iff.mp h
    obtain ⟨⟨hne, hd⟩, rfl, -⟩ := Scan.takeSome_eq_some_iff.mp ht
    refine ⟨digits, hd, rfl, ?_⟩
    cases digits with
    | nil => exact absurd rfl hne
    | cons d ds => rfl
  · cases h
    exact ⟨[], nofun, rfl, rfl⟩

theorem scanFraction_append {digits : List Char} (hd : ∀ c ∈ digits, c.isDigit = true)
    (hr : StopsFraction r) :
    scanFraction (fractionChars digits ++ r) = some (fractionNanos digits, r) := by
  cases digits with
  | nil =>
    unfold scanFraction
    split
    · next rest he => exact absurd rfl (hr '.' (congrArg List.head? he)).1
    · rfl
  | cons d ds =>
    refine Scan.map_eq_some_iff.mpr ⟨d :: ds, Scan.takeSome_eq_some_iff.mpr ?_, rfl⟩
    exact ⟨⟨List.cons_ne_nil _ _, hd⟩, rfl, fun c hc => (hr c hc).2⟩

theorem fractionNanos_lt {digits : List Char} (hd : ∀ c ∈ digits, c.isDigit = true) :
    fractionNanos digits < nanosPerSecond := by
  -- nine digits are left, whatever was written, so the number is below 10 ^ 9
  have hlen : ((digits ++ List.replicate 9 '0').take 9).length = 9 := by simp
  have hall : ∀ c ∈ (digits ++ List.replicate 9 '0').take 9, c.isDigit = true := by
    intro c hc
    rcases List.mem_append.mp (List.mem_of_mem_take hc) with hc | hc
    · exact hd c hc
    · rw [List.eq_of_mem_replicate hc]
      decide
  have hlt := (padded_ofDigits hall).2
  rwa [hlen] at hlt

/-! ### Distances from UTC -/

/-- A distance from UTC, as it is written. -/
inductive Zone where
  | utc (c : Char) (h : c = 'Z' ∨ c = 'z')
  | ahead (t : HourMinute) (h : t.Valid)
  | behind (t : HourMinute) (h : t.Valid)

namespace Zone

/-- The distance in minutes. -/
def offset : Zone → Int
  | utc .. => 0
  | ahead t _ => t.minutes
  | behind t _ => -t.minutes

/-- The text of a distance. -/
def chars : Zone → List Char
  | utc c _ => [c]
  | ahead t _ => '+' :: t.chars
  | behind t _ => '-' :: t.chars

theorem offset_bounds (z : Zone) : -1440 < z.offset ∧ z.offset < 1440 := by
  cases z with
  | utc c h => simp [offset]
  | ahead t h | behind t h =>
    have hh := h.hour
    have hm := h.minute
    simp only [offset, HourMinute.minutes]
    omega

theorem stopsFraction (z : Zone) (r : List Char) : StopsFraction (z.chars ++ r) := by
  intro c hc
  cases z with
  | utc d h =>
    cases hc
    rcases h with rfl | rfl <;> decide
  | ahead t h | behind t h =>
    cases hc
    decide

end Zone

/-- What is read as an offset: one of the three notations of a zone, of which exactly as much is
read as was written. -/
theorem scanOffset_eq_some_iff {offset : Int} :
    scanOffset cs = some (offset, r) ↔ ∃ z : Zone, z.offset = offset ∧ cs = z.chars ++ r := by
  rw [scanOffset, Scan.bind_eq_some_iff]
  simp only [Scan.char_eq_some_iff]
  constructor
  · -- the first character decides which of the notations it is
    rintro ⟨c, t, ⟨hc, rfl⟩, h⟩
    split at h
    · next hp =>
      obtain rfl : c = '+' := by simpa using hp
      obtain ⟨t', rest, ht, hend⟩ := Scan.bind_eq_some_iff.mp h
      obtain ⟨hv, rfl⟩ := HourMinute.scan_eq_some_iff.mp ht
      obtain ⟨rfl, rfl⟩ := Scan.pure_eq_some_iff.mp hend
      exact ⟨.ahead t' hv, rfl, rfl⟩
    · next hp =>
      split at h
      · next hm =>
        obtain rfl : c = '-' := by simpa using hm
        obtain ⟨t', rest, ht, hend⟩ := Scan.bind_eq_some_iff.mp h
        obtain ⟨hv, rfl⟩ := HourMinute.scan_eq_some_iff.mp ht
        obtain ⟨rfl, rfl⟩ := Scan.pure_eq_some_iff.mp hend
        exact ⟨.behind t' hv, rfl, rfl⟩
      · next hm =>
        have hz : c = 'Z' ∨ c = 'z' := by simpa [hp, hm, or_assoc] using hc
        obtain ⟨rfl, rfl⟩ := Scan.pure_eq_some_iff.mp h
        exact ⟨.utc c hz, rfl, rfl⟩
  · rintro ⟨z, rfl, rfl⟩
    cases z with
    | utc c h =>
      refine ⟨c, r, ⟨?_, rfl⟩, ?_⟩
      · rcases h with rfl | rfl <;> decide
      · rcases h with rfl | rfl <;> rfl
    | ahead t h =>
      refine ⟨'+', _, ⟨by decide, rfl⟩, ?_⟩
      exact Scan.bind_eq_some_iff.mpr ⟨t, r, HourMinute.scan_eq_some_iff.mpr ⟨h, rfl⟩, rfl⟩
    | behind t h =>
      refine ⟨'-', _, ⟨by decide, rfl⟩, ?_⟩
      exact Scan.bind_eq_some_iff.mpr ⟨t, r, HourMinute.scan_eq_some_iff.mpr ⟨h, rfl⟩, rfl⟩

/-! ### The notation of RFC 3339 -/

/-- What is written in the notation of RFC 3339. -/
structure Rfc3339 where
  date : Date
  separator : Char
  time : HourMinute
  second : Nat
  /-- The digits behind the point; without any there is no point either. -/
  fraction : List Char
  zone : Zone
  year_nonneg : 0 ≤ date.year
  year_lt : date.year < 10000
  separator_ascii : separator.toNat < 128
  separator_not_digit : separator.isDigit = false
  time_valid : time.Valid
  second_le : second ≤ 60
  digits : ∀ c ∈ fraction, c.isDigit = true
  /-- A leap second stands only where one can be inserted. -/
  leap : second = 60 → endsMonth date time zone.offset = true

namespace Rfc3339

/-- The text of a record. -/
def chars (w : Rfc3339) : List Char :=
  dateChars w.date.year.toNat w.date ++ w.separator :: w.time.chars ++ ':' :: padded 2 w.second ++
    fractionChars w.fraction ++ w.zone.chars

/-- The text of a record as a string. -/
def text (w : Rfc3339) : String :=
  String.ofList w.chars

/-- The clock that is read off. -/
def clock (w : Rfc3339) : Clock :=
  ⟨w.date, w.time, w.time_valid⟩

/-- The point in time that is stated; a leap second is the last nanosecond of the second before
it. -/
def moment (w : Rfc3339) : Moment where
  clock := w.clock
  second := min w.second 59
  nanos := if w.second < 60 then fractionNanos w.fraction else nanosPerSecond - 1
  offset := w.zone.offset
  year_gt := Int.lt_of_lt_of_le (by decide) w.year_nonneg
  year_lt := w.year_lt
  second_lt := Nat.lt_succ_of_le (Nat.min_le_right ..)
  nanos_lt := by
    split
    · exact fractionNanos_lt w.digits
    · decide
  offset_gt := w.zone.offset_bounds.1
  offset_lt := w.zone.offset_bounds.2

/-- What the scan goes by. -/
theorem instant_moment (w : Rfc3339) :
    w.moment.instant =
      if w.second < 60 then
        Timestamp.instant w.date w.time w.second (fractionNanos w.fraction) w.zone.offset
      else Timestamp.instant w.date w.time 59 (nanosPerSecond - 1) w.zone.offset := by
  have hle := w.second_le
  unfold Moment.instant moment
  dsimp only [clock]
  split
  · rw [Nat.min_eq_left (by omega)]
  · rw [Nat.min_eq_right (by omega)]

end Rfc3339

/-- What is read in the notation of RFC 3339, and as which instant. -/
theorem scanOffsetTime_eq_some_iff {x : Instant} :
    scanOffsetTime cs = some (x, r) ↔ ∃ w : Rfc3339, cs = w.chars ++ r ∧ w.moment.instant = x := by
  simp only [scanOffsetTime, scanDate, Scan.bind_eq_some_iff, scanDateOf_eq_some_iff,
    Scan.char_eq_some_iff, HourMinute.scan_eq_some_iff, Scan.one_eq_some_iff,
    Scan.numberBelow_eq_some_iff (by decide : 61 ≤ Nat.pow 10 2), scanOffset_eq_some_iff]
  constructor
  · rintro ⟨date, _, ⟨year, hy, hyear, rfl⟩, separator, _, ⟨hsep, rfl⟩, time, _, ⟨htime, rfl⟩,
      _, _, ⟨-, rfl⟩, second, _, ⟨hsecond, rfl⟩, nanos, _, hfraction, _, _, ⟨zone, rfl, rfl⟩, h⟩
    obtain ⟨fraction, hdigits, rfl, rfl⟩ := exists_of_scanFraction hfraction
    simp only [Bool.and_eq_true, decide_eq_true_eq, Bool.not_eq_true'] at hsep
    -- what the parts make together, once a leap second is known to be allowed
    have record (hleap : second = 60 → endsMonth date time zone.offset = true) :
        ∃ w : Rfc3339, w.chars = dateChars year date ++ separator :: time.chars ++
            ':' :: padded 2 second ++ fractionChars fraction ++ zone.chars ∧
          w.moment.instant =
            if second < 60 then instant date time second (fractionNanos fraction) zone.offset
            else instant date time 59 (nanosPerSecond - 1) zone.offset := by
      refine ⟨⟨date, separator, time, second, fraction, zone, by omega, by omega, hsep.1, hsep.2,
        htime, by omega, hdigits, hleap⟩, ?_, Rfc3339.instant_moment _⟩
      have htoNat : date.year.toNat = year := by omega
      rw [Rfc3339.chars, htoNat]
    split at h
    · -- an ordinary second
      next hs =>
      obtain ⟨w, hchars, hinstant⟩ := record (by omega)
      obtain ⟨rfl, rfl⟩ := Scan.pure_eq_some_iff.mp h
      exact ⟨w, by simp [hchars], by rw [hinstant, if_pos hs]⟩
    · next hs =>
      split at h
      · -- a leap second where one can be inserted
        next hleap =>
        obtain ⟨w, hchars, hinstant⟩ := record fun _ => hleap
        obtain ⟨rfl, rfl⟩ := Scan.pure_eq_some_iff.mp h
        exact ⟨w, by simp [hchars], by rw [hinstant, if_neg hs]⟩
      · exact absurd h Scan.not_failure_eq_some
  · rintro ⟨w, rfl, rfl⟩
    have hnonneg := w.year_nonneg
    have hlt := w.year_lt
    have hle := w.second_le
    refine ⟨w.date, _, ⟨w.date.year.toNat, by omega, by omega, ?_⟩, w.separator, _, ⟨?_, rfl⟩,
      w.time, _, ⟨w.time_valid, rfl⟩, _, _, ⟨rfl, rfl⟩, w.second, _, ⟨by omega, rfl⟩, _, _,
      scanFraction_append w.digits (w.zone.stopsFraction r), _, _, ⟨w.zone, rfl, rfl⟩, ?_⟩
    · simp [Rfc3339.chars]
    · simp [w.separator_ascii, w.separator_not_digit]
    · rw [Rfc3339.instant_moment]
      split
      · rfl
      · rw [if_pos (w.leap (by omega))]
        rfl

theorem whole?_scanOffsetTime_iff {x : Instant} :
    Scan.whole? scanOffsetTime cs = some x ↔
      ∃ w : Rfc3339, cs = w.chars ∧ w.moment.instant = x := by
  simp only [Scan.whole?_eq_some_iff, scanOffsetTime_eq_some_iff, List.append_nil]

/-! ### The plain notation -/

/-- What may stand in front of a year. -/
inductive Sign where
  | none
  | plus
  | minus

namespace Sign

/-- The text of a sign. -/
def chars : Sign → List Char
  | none => []
  | plus => ['+']
  | minus => ['-']

/-- What a year counts with it. -/
def value : Sign → Int
  | none => 1
  | plus => 1
  | minus => -1

theorem value_bounds (s : Sign) : s.value = 1 ∨ s.value = -1 := by
  cases s <;> simp [value]

end Sign

/-- What is written in the plain notation. -/
structure Plain where
  sign : Sign
  /-- The year without its sign. -/
  year : Nat
  date : Date
  time : HourMinute
  second : Nat
  year_lt : year < 10000
  year_eq : date.year = sign.value * year
  time_valid : time.Valid
  second_lt : second < 60

namespace Plain

/-- The text of a record. -/
def chars (p : Plain) : List Char :=
  p.sign.chars ++ dateChars p.year p.date ++ ' ' :: p.time.chars ++ ':' :: padded 2 p.second

/-- The text of a record as a string. -/
def text (p : Plain) : String :=
  String.ofList p.chars

/-- The point in time that is stated, in UTC. -/
def moment (p : Plain) : Moment where
  clock := ⟨p.date, p.time, p.time_valid⟩
  second := p.second
  nanos := 0
  offset := 0
  year_gt := by
    have hlt := p.year_lt
    rw [p.year_eq]
    rcases p.sign.value_bounds with h | h <;> rw [h] <;> omega
  year_lt := by
    have hlt := p.year_lt
    rw [p.year_eq]
    rcases p.sign.value_bounds with h | h <;> rw [h] <;> omega
  second_lt := p.second_lt
  nanos_lt := by decide
  offset_gt := by decide
  offset_lt := by decide

end Plain

theorem exists_of_scanSignedDate {date : Date} (h : scanSignedDate cs = some (date, r)) :
    ∃ (sign : Sign) (year : Nat), year < 10000 ∧ date.year = sign.value * year ∧
      cs = sign.chars ++ dateChars year date ++ r := by
  unfold scanSignedDate scanDate at h
  split at h
  · obtain ⟨year, hy, hyear, rfl⟩ := scanDateOf_eq_some_iff.mp h
    exact ⟨.plus, year, hy, hyear, rfl⟩
  · obtain ⟨year, hy, hyear, rfl⟩ := scanDateOf_eq_some_iff.mp h
    exact ⟨.minus, year, hy, hyear, rfl⟩
  · obtain ⟨year, hy, hyear, rfl⟩ := scanDateOf_eq_some_iff.mp h
    exact ⟨.none, year, hy, hyear, rfl⟩

/-- What is read in the plain notation is the text of a record. -/
theorem exists_of_whole?_scanPlain {x : Instant} (h : Scan.whole? scanPlain cs = some x) :
    ∃ p : Plain, cs = p.chars ∧ p.moment.instant = x := by
  simp only [Scan.whole?_eq_some_iff, scanPlain, Scan.bind_eq_some_iff,
    HourMinute.scan_eq_some_iff, Scan.one_eq_some_iff,
    Scan.numberBelow_eq_some_iff (by decide : 60 ≤ Nat.pow 10 2), Scan.pure_eq_some_iff] at h
  obtain ⟨date, _, hdate, _, _, ⟨-, rfl⟩, time, _, ⟨htime, rfl⟩, _, _, ⟨-, rfl⟩, second, _,
    ⟨hsecond, rfl⟩, rfl, rfl⟩ := h
  obtain ⟨sign, year, hy, hyear, rfl⟩ := exists_of_scanSignedDate hdate
  refine ⟨⟨sign, year, date, time, second, hy, hyear, htime, hsecond⟩, ?_, rfl⟩
  simp [Plain.chars]

/-- A date that begins with a digit has no sign. -/
theorem scanSignedDate_append {date : Date} {year : Nat} (h : year < 10000)
    (hyear : date.year = year) :
    scanSignedDate (dateChars year date ++ r) = some (date, r) := by
  obtain ⟨d, ds, hd, hdigit⟩ := exists_padded_eq_cons 3 year
  unfold scanSignedDate
  rw [dateChars, hd]
  split
  · next he =>
    cases he
    cases hdigit
  · next he =>
    cases he
    cases hdigit
  · rw [← hd]
    exact scanDateOf_eq_some_iff.mpr ⟨year, h, by rw [Int.one_mul, hyear], rfl⟩

/-- Without a sign it is read as what the record states. -/
theorem whole?_scanPlain_of_unsigned (p : Plain) (h : p.sign = .none) :
    Scan.whole? scanPlain p.chars = some p.moment.instant := by
  have hyear : p.date.year = p.year := by
    rw [p.year_eq, h]
    exact Int.one_mul _
  have hchars : p.chars =
      dateChars p.year p.date ++ ' ' :: (p.time.chars ++ ':' :: (padded 2 p.second ++ [])) := by
    simp [Plain.chars, h, Sign.chars]
  simp only [Scan.whole?_eq_some_iff, scanPlain, Scan.bind_eq_some_iff,
    HourMinute.scan_eq_some_iff, Scan.one_eq_some_iff,
    Scan.numberBelow_eq_some_iff (by decide : 60 ≤ Nat.pow 10 2), Scan.pure_eq_some_iff]
  rw [hchars]
  exact ⟨p.date, _, scanSignedDate_append p.year_lt hyear, _, _, ⟨rfl, rfl⟩, p.time, _,
    ⟨p.time_valid, rfl⟩, _, _, ⟨rfl, rfl⟩, p.second, _, ⟨p.second_lt, rfl⟩, rfl, rfl⟩

end Timestamp

end RunControl
