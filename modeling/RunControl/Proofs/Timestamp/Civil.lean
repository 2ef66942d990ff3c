/-
RunControl/Proofs/Timestamp/Civil.lean

The notations of a civil time.  A date and a time of day in UTC, down to seconds, is written in
the plain notation and, in two ways, in that of RFC 3339 (`Civil.Form`).  All three are read as
the same instant (`Civil.parse?_of_standsIn`), although the notation of RFC 3339 is tried first:
it needs a distance from UTC, for which the plain notation has no room.

Texts in the plain notation compare as the instants do (`Civil.ordered_chars`), since the years,
months and days of a calendar compare as its day numbers do.  So a status tells how long its run
took exactly if the text of the start does not come after that of the end
(`RunStatus.notations_agree`).
-/
import RunControl.Proofs.Text.Ordered
import RunControl.Proofs.Text.Trimming
import RunControl.Proofs.Timestamp.Elapsed

namespace RunControl

open Calendar Text Timestamp

theorem Text.isBlank_of_isDigit {c : Char} (h : c.isDigit = true) : isBlank c = false := by
  obtain ⟨hl, hu⟩ : 48 ≤ c.toNat ∧ c.toNat ≤ 57 := Char.isDigit_iff_toNat.mp h
  simp only [isBlank, Bool.or_eq_false_iff, Bool.and_eq_false_iff, decide_eq_false_iff_not,
    beq_eq_false_iff_ne]
  omega

theorem HourMinute.Valid.minutes_lt {t : HourMinute} (h : t.Valid) : t.minutes < 1440 := by
  have hhour := h.hour
  have hminute := h.minute
  unfold minutes
  omega

/-- A date with a year of four digits and a time of day. -/
structure Civil where
  date : Date
  time : HourMinute
  second : Nat
  year_nonneg : 0 ≤ date.year
  year_lt : date.year < 10000
  time_valid : time.Valid
  second_lt : second < 60

namespace Civil

/-- The instant in UTC. -/
def instant (c : Civil) : Int :=
  Timestamp.instant c.date c.time c.second 0 0

/-- The date and the time of day with a character between them. -/
def chars (c : Civil) (separator : Char) : List Char :=
  dateChars c.date.year.toNat c.date ++ separator :: c.time.chars ++ ':' :: padded 2 c.second

/-- How a civil time is written. -/
inductive Form where
  /-- `YYYY-MM-DD hh:mm:ss` -/
  | plain
  /-- `YYYY-MM-DDThh:mm:ssZ` -/
  | zulu
  /-- `YYYY-MM-DD hh:mm:ss+00:00` -/
  | offset

/-- The text of a civil time. -/
def write (c : Civil) : Form → List Char
  | .plain => c.chars ' '
  | .zulu => c.chars 'T' ++ ['Z']
  | .offset => c.chars ' ' ++ "+00:00".toList

variable {c c' : Civil} {s : String} {x : Instant}

/-! ### No blanks at the ends -/

theorem exists_chars_eq_cons (c : Civil) (separator : Char) :
    ∃ d ds, c.chars separator = d :: ds ∧ d.isDigit = true := by
  obtain ⟨d, ds, h, hd⟩ := exists_padded_eq_cons 3 c.date.year.toNat
  exact ⟨d, _, congrArg (· ++ _ ++ _ ++ _ ++ _) h, hd⟩

theorem exists_write_eq_cons (c : Civil) (f : Form) :
    ∃ d ds, c.write f = d :: ds ∧ d.isDigit = true := by
  cases f with
  | plain => exact c.exists_chars_eq_cons ' '
  | zulu | offset =>
    obtain ⟨d, ds, h, hd⟩ := c.exists_chars_eq_cons _
    exact ⟨d, _, congrArg (· ++ _) h, hd⟩

theorem exists_write_eq_concat (c : Civil) (f : Form) :
    ∃ ds d, c.write f = ds ++ [d] ∧ isBlank d = false := by
  cases f with
  | plain =>
    -- the second is written last, with two digits
    have hd : (Nat.digitChar (c.second % 10)).isDigit = true :=
      isDigit_digitChar _ (Nat.mod_lt _ (by decide))
    refine ⟨dateChars c.date.year.toNat c.date ++ ' ' :: c.time.chars ++
      ':' :: padded 1 (c.second / 10), _, ?_, isBlank_of_isDigit hd⟩
    simp [write, chars, padded]
  | zulu => exact ⟨_, 'Z', rfl, by decide⟩
  | offset => exact ⟨c.chars ' ' ++ "+00:0".toList, '0', by simp [write], by decide⟩

theorem trimmed_write (c : Civil) (f : Form) : Trimmed (c.write f) where
  head d h := by
    obtain ⟨d', ds, hw, hd⟩ := c.exists_write_eq_cons f
    rw [hw] at h
    cases h
    exact isBlank_of_isDigit hd
  last d h := by
    obtain ⟨ds, d', hw, hd⟩ := c.exists_write_eq_concat f
    rw [hw, List.getLast?_concat] at h
    cases h
    exact hd

/-! ### One instant -/

/-- The notation of RFC 3339 needs a distance from UTC. -/
theorem length_chars_rfc3339 (w : Rfc3339) : 20 ≤ w.chars.length := by
  have hzone : 1 ≤ w.zone.chars.length := by
    cases w.zone <;> simp [Zone.chars]
  simp only [Rfc3339.chars, dateChars, HourMinute.chars, List.length_append, List.length_cons,
    length_padded]
  omega

theorem length_chars (c : Civil) (separator : Char) : (c.chars separator).length = 19 := by
  simp [chars, dateChars, HourMinute.chars]

/-- What is written in the notation of RFC 3339. -/
def rfc3339 (c : Civil) (separator : Char) (zone : Zone) (hascii : separator.toNat < 128)
    (hdigit : separator.isDigit = false) : Rfc3339 where
  date := c.date
  separator
  time := c.time
  second := c.second
  fraction := []
  zone
  year_nonneg := c.year_nonneg
  year_lt := c.year_lt
  separator_ascii := hascii
  separator_not_digit := hdigit
  time_valid := c.time_valid
  second_le := Nat.le_of_lt c.second_lt
  digits := List.forall_mem_nil _
  leap h := absurd h (Nat.ne_of_lt c.second_lt)

/-- What is written in the plain notation. -/
def toPlain (c : Civil) : Plain where
  sign := .none
  year := c.date.year.toNat
  date := c.date
  time := c.time
  second := c.second
  year_lt := by
    have hlt := c.year_lt
    omega
  year_eq := by
    rw [Int.toNat_of_nonneg c.year_nonneg]
    exact (Int.one_mul _).symm
  time_valid := c.time_valid
  second_lt := c.second_lt

theorem trimChars_of_standsIn {f : Form} (h : StandsIn (c.write f) s) :
    trimChars s.toList = c.write f := by
  refine h.trimChars_eq (c.trimmed_write f) ?_
  obtain ⟨d, ds, hw, -⟩ := c.exists_write_eq_cons f
  rw [hw]
  exact List.cons_ne_nil d ds

/-- What the notation of RFC 3339 writes with no distance from UTC. -/
theorem instant_rfc3339 {separator : Char} {zone : Zone} (hascii : separator.toNat < 128)
    (hdigit : separator.isDigit = false) (hzone : zone.offset = 0) :
    (c.rfc3339 separator zone hascii hdigit).moment.instant = c.instant := by
  rw [Rfc3339.instant_moment]
  show (if c.second < 60 then Timestamp.instant c.date c.time c.second 0 zone.offset else _) = _
  rw [if_pos c.second_lt, hzone]
  rfl

/-- The plain notation is not taken for that of RFC 3339. -/
theorem parse?_of_plain (h : trimChars s.toList = c.chars ' ') : parse? s = some c.instant := by
  have hnone : Scan.whole? scanOffsetTime (c.chars ' ') = none := by
    refine Option.eq_none_iff_forall_ne_some.mpr fun x hx => ?_
    obtain ⟨w, hw, -⟩ := whole?_scanOffsetTime_iff.mp hx
    have hlong := length_chars_rfc3339 w
    rw [← hw, length_chars] at hlong
    exact absurd hlong (by decide)
  refine (Option.orElse_eq_some _ _ _).mpr (.inr ⟨?_, ?_⟩)
  · rw [h, hnone]
  · rw [h]
    exact whole?_scanPlain_of_unsigned c.toPlain rfl

/-- However it is written, a civil time is read as its instant. -/
theorem parse?_of_standsIn {f : Form} (h : StandsIn (c.write f) s) :
    parse? s = some c.instant := by
  have hs := trimChars_of_standsIn h
  cases f with
  | plain => exact parse?_of_plain hs
  | zulu =>
    have hw : Text.trim s = (c.rfc3339 'T' (.utc 'Z' (.inl rfl)) (by decide) rfl).text := by
      refine congrArg String.ofList (hs.trans ?_)
      simp [write, chars, Rfc3339.chars, rfc3339, fractionChars, Zone.chars]
    rw [parse?_of_text hw, instant_rfc3339 _ _ rfl]
  | offset =>
    have hzero : HourMinute.Valid ⟨0, 0⟩ := ⟨by decide, by decide⟩
    have hw : Text.trim s = (c.rfc3339 ' ' (.ahead ⟨0, 0⟩ hzero) (by decide) rfl).text := by
      refine congrArg String.ofList (hs.trans ?_)
      simp [write, chars, Rfc3339.chars, rfc3339, fractionChars, Zone.chars, HourMinute.chars,
        padded]
    rw [parse?_of_text hw, instant_rfc3339 _ _ rfl]

/-! ### The order of instants -/

/-- The seconds from the start of the year 0. -/
def seconds (c : Civil) : Int :=
  (c.date.dayNumber * 1440 + c.time.minutes) * 60 + c.second

theorem instant_eq (c : Civil) : c.instant = c.seconds * nanosPerSecond := by
  rw [instant, Timestamp.instant, Int.sub_zero]
  exact Int.add_zero _

theorem ordered_two {i j : Nat} (hi : i < 100) (hj : j < 100) :
    Ordered (padded 2 i) (padded 2 j) i j :=
  ordered_padded hi hj

theorem ordered_four {i j : Nat} (hi : i < 10000) (hj : j < 10000) :
    Ordered (padded 4 i) (padded 4 j) i j :=
  ordered_padded hi hj

/-- Dates from year 0 to 9999 are sorted as their texts are: year, month and day have fixed
widths. -/
theorem ordered_dateChars (c c' : Civil) :
    Ordered (dateChars c.date.year.toNat c.date) (dateChars c'.date.year.toNat c'.date)
      c.date.dayNumber c'.date.dayNumber := by
  have hnonneg := c.year_nonneg
  have hnonneg' := c'.year_nonneg
  have hlt := c.year_lt
  have hlt' := c'.year_lt
  have hmonth := c.date.month_le
  have hmonth' := c'.date.month_le
  have hday := c.date.day_le.trans (daysInMonth_le ..)
  have hday' := c'.date.day_le.trans (daysInMonth_le ..)
  have hyears := ordered_four (i := c.date.year.toNat) (j := c'.date.year.toNat)
    (by omega) (by omega)
  have hmonths := ordered_two (i := c.date.month) (j := c'.date.month) (by omega) (by omega)
  have hdays := ordered_two (i := c.date.day) (j := c'.date.day) (by omega) (by omega)
  have hdate := (hyears.append (w := 13) (hmonths.cons '-') (by omega) (by omega)).append (w := 32)
    (hdays.cons '-') (by omega) (by omega)
  rw [List.append_assoc, List.append_assoc] at hdate
  refine hdate.of_iff ?_ ?_
  · rw [Int.toNat_of_nonneg hnonneg, Int.toNat_of_nonneg hnonneg']
    exact Date.dayNumber_lt_iff.symm
  · rw [Int.toNat_of_nonneg hnonneg, Int.toNat_of_nonneg hnonneg']
    exact Date.dayNumber_lt_iff.symm

theorem ordered_timeChars (c c' : Civil) :
    Ordered c.time.chars c'.time.chars c.time.minutes c'.time.minutes := by
  have hhour := c.time_valid.hour
  have hhour' := c'.time_valid.hour
  have hminute := c.time_valid.minute
  have hminute' := c'.time_valid.minute
  have hhours := ordered_two (i := c.time.hour) (j := c'.time.hour) (by omega) (by omega)
  have hminutes := ordered_two (i := c.time.minute) (j := c'.time.minute) (by omega) (by omega)
  have htime := hhours.append (w := 60) (hminutes.cons ':') (by omega) (by omega)
  refine htime.of_iff ?_ ?_
  · simp only [HourMinute.minutes]
    omega
  · simp only [HourMinute.minutes]
    omega

/-- Texts compare as the times that they are written for. -/
theorem ordered_chars (c c' : Civil) (separator : Char) :
    Ordered (c.chars separator) (c'.chars separator) c.seconds c'.seconds := by
  have htime := c.time_valid.minutes_lt
  have htime' := c'.time_valid.minutes_lt
  have hsecond := c.second_lt
  have hsecond' := c'.second_lt
  have hseconds := ordered_two (i := c.second) (j := c'.second) (by omega) (by omega)
  have hminutes := (ordered_dateChars c c').append (w := 1440)
    ((ordered_timeChars c c').cons separator) (by omega) (by omega)
  exact hminutes.append (w := 60) (hseconds.cons ':') (by omega) (by omega)

end Civil

/-! ### Texts in the plain notation -/

/-- What is left of a text when its digits are made zeros. -/
def outline (cs : List Char) : List Char :=
  cs.map fun c => if c.isDigit then '0' else c

/-- Trimmed, the text looks like a civil time in the plain notation; whether there are such a day
and such a time of day is left open. -/
def LooksPlain (s : String) : Prop :=
  outline (trimChars s.toList) = "0000-00-00 00:00:00".toList

theorem outline_padded (n k : Nat) : outline (padded n k) = List.replicate n '0' := by
  refine List.eq_replicate_iff.mpr ⟨by rw [outline, List.length_map, length_padded], ?_⟩
  intro c hc
  obtain ⟨d, hd, rfl⟩ := List.mem_map.mp hc
  exact if_pos (isDigit_of_mem_padded hd)

variable {s : String} {x : Instant}

/-- Whatever is written in the plain notation looks so. -/
theorem Civil.looksPlain {c : Civil} (h : StandsIn (c.write .plain) s) : LooksPlain s := by
  have houtline (cs ds : List Char) : outline (cs ++ ds) = outline cs ++ outline ds :=
    List.map_append
  have hcons (d : Char) (ds : List Char) :
      outline (d :: ds) = (if d.isDigit then '0' else d) :: outline ds :=
    rfl
  rw [LooksPlain, trimChars_of_standsIn h, write, chars, dateChars, HourMinute.chars]
  simp only [houtline, hcons, outline_padded]
  rfl

/-- What looks like a civil time and can be read is one. -/
theorem LooksPlain.exists_civil (h : LooksPlain s) (hx : parse? s = some x) :
    ∃ c : Civil, trimChars s.toList = c.chars ' ' ∧ c.instant = x := by
  obtain ⟨m, hm, rfl⟩ := exists_states_of_parse? hx
  cases hm with
  | rfc3339 w hw =>
    -- nothing in that notation is so short
    have hlen : (outline w.chars).length = 19 := by
      rw [← String.ofList_injective hw]
      exact congrArg List.length h
    have hlong := Civil.length_chars_rfc3339 w
    rw [outline, List.length_map] at hlen
    omega
  | plain p hp =>
    have hchars : trimChars s.toList = p.chars := String.ofList_injective hp
    have hout : outline p.chars = "0000-00-00 00:00:00".toList := hchars ▸ h
    obtain ⟨sign, year, date, time, second, hlt, hyear, htime, hsecond⟩ := p
    cases sign with
    | plus | minus => cases hout
    | none =>
      have hdate : date.year = year := by
        rw [hyear]
        exact Int.one_mul _
      refine ⟨⟨date, time, second, by omega, by omega, htime, hsecond⟩, ?_, rfl⟩
      rw [hchars]
      simp [Plain.chars, Sign.chars, Civil.chars, hdate]

namespace RunStatus

open Elapsed

/-- A status tells how long its run took exactly if it did not end before it started, and between
times in the plain notation that is how their texts compare. -/
theorem isSome_took?_iff (s : RunStatus) {a b : String} (ha : LooksPlain a) (hb : LooksPlain b)
    (hsa : (parse? a).isSome = true) (hsb : (parse? b).isSome = true) :
    (s.took? (some a) (some b)).isSome = true ↔ Text.trim a ≤ Text.trim b := by
  obtain ⟨x, hx⟩ := Option.isSome_iff_exists.mp hsa
  obtain ⟨y, hy⟩ := Option.isSome_iff_exists.mp hsb
  obtain ⟨c, hc, rfl⟩ := ha.exists_civil hx
  obtain ⟨c', hc', rfl⟩ := hb.exists_civil hy
  have horder : Text.trim b < Text.trim a ↔ c'.seconds < c.seconds := by
    rw [← (Civil.ordered_chars c c' ' ').gt, ← hc, ← hc']
    show (Text.trim b).toList < (Text.trim a).toList ↔ _
    rw [Text.trim, Text.trim, String.toList_ofList, String.toList_ofList]
  have hinstant : c.instant ≤ c'.instant ↔ ¬c'.seconds < c.seconds := by
    rw [c.instant_eq, c'.instant_eq, nanosPerSecond]
    omega
  rw [took?_eq, Option.bind_some, Option.bind_some, hx, hy]
  show (between? c.instant c'.instant).isSome = true ↔ ¬Text.trim b < Text.trim a
  rw [isSome_between?, hinstant, horder]

/-- Whichever notation a time is in, it is read as the same instant, so that how long a run took
does not depend on it.  Between times in the plain notation it can be told from their texts
whether there is a length of time. -/
theorem notations_agree (s : RunStatus) :
    (∀ (c : Civil) (f g : Civil.Form) (a b : String),
      StandsIn (c.write f) a → StandsIn (c.write g) b →
        parse? a = some c.instant ∧ parse? b = some c.instant ∧
        { s with started := some a }.elapsed? = { s with started := some b }.elapsed? ∧
        { s with finished := some a }.elapsed? = { s with finished := some b }.elapsed?) ∧
      ∀ a b : String, LooksPlain a → LooksPlain b →
        (parse? a).isSome = true → (parse? b).isSome = true →
          ({ s with started := some a, finished := some b }.elapsed?.isSome = true ↔
            Text.trim a ≤ Text.trim b) := by
  refine ⟨fun c f g a b ha hb => ?_, fun a b => s.isSome_took?_iff⟩
  have hsame : parse? a = parse? b := by
    rw [Civil.parse?_of_standsIn ha, Civil.parse?_of_standsIn hb]
  refine ⟨Civil.parse?_of_standsIn ha, Civil.parse?_of_standsIn hb, ?_, ?_⟩
  · show s.took? (some a) s.finished = s.took? (some b) s.finished
    rw [took?_eq, took?_eq, Option.bind_some, Option.bind_some, hsame]
  · show s.took? s.started (some a) = s.took? s.started (some b)
    rw [took?_eq, took?_eq, Option.bind_some, Option.bind_some, hsame]

example (s : RunStatus) :
    s.took? (some "2024-02-29 23:59:59") (some "\u20282024-03-01T00:00:00Z\n") =
      some ⟨1, 0⟩ := by
  rfl

end RunStatus

end RunControl
