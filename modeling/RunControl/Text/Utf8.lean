/-
RunControl/Text/Utf8.lean

Bytes and characters.  `step?` reads one character off a run of bytes by the
table of well-formed UTF-8; `decode?` reads a whole run and refuses ill-formed
ones, while `decodeLossy` puts U+FFFD for every longest ill-formed piece that
starts like a character, and goes on after it.
-/

namespace RunControl.Text.Utf8

/-- The replacement character U+FFFD. -/
def replacement : Char := '\uFFFD'

/-- The number of bytes after a first byte, with the range its second byte must
lie in; `none` for a byte that starts no character of more than one byte. -/
def lead? (b : Nat) : Option (Nat × Nat × Nat) :=
  if 0xC2 ≤ b ∧ b ≤ 0xDF then some (1, 0x80, 0xBF)
  else if b = 0xE0 then some (2, 0xA0, 0xBF)
  else if b = 0xED then some (2, 0x80, 0x9F)
  else if 0xE1 ≤ b ∧ b ≤ 0xEF then some (2, 0x80, 0xBF)
  else if b = 0xF0 then some (3, 0x90, 0xBF)
  else if 0xF1 ≤ b ∧ b ≤ 0xF3 then some (3, 0x80, 0xBF)
  else if b = 0xF4 then some (3, 0x80, 0x8F)
  else none

/-- The payload of a first byte that `count` bytes follow. -/
def leadBits (count b : Nat) : Nat :=
  match count with
  | 1 => b % 0x20
  | 2 => b % 0x10
  | _ => b % 0x08

/-- Reads `count` more bytes, the first of them between `low` and `high`. The
answer holds the code point, if the bytes are well formed, and the bytes after
the longest piece that could still have become a character. -/
def tail : Nat → Nat → Nat → Nat → List UInt8 → Option Nat × List UInt8
  | 0, _, _, code, bs => (some code, bs)
  | _ + 1, _, _, _, [] => (none, [])
  | count + 1, low, high, code, b :: bs =>
    if low ≤ b.toNat ∧ b.toNat ≤ high then
      tail count 0x80 0xBF (code * 0x40 + b.toNat % 0x40) bs
    else (none, b :: bs)

theorem tail_length (count low high code : Nat) (bs : List UInt8) :
    (tail count low high code bs).2.length ≤ bs.length := by
  induction count generalizing low high code bs with
  | zero => simp [tail]
  | succ n ih =>
    cases bs with
    | nil => simp [tail]
    | cons b r =>
      rw [tail]
      split
      · exact Nat.le_succ_of_le (ih _ _ _ r)
      · exact Nat.le_refl _

/-- Reads one character: itself, or `none` for an ill-formed piece, and the
bytes after it. -/
def step (b : UInt8) (bs : List UInt8) : Option Char × List UInt8 :=
  if b.toNat < 0x80 then (some (Char.ofNat b.toNat), bs)
  else
    match lead? b.toNat with
    | none => (none, bs)
    | some (count, low, high) =>
      let (code, rest) := tail count low high (leadBits count b.toNat) bs
      (code.map Char.ofNat, rest)

theorem step_length (b : UInt8) (bs : List UInt8) : (step b bs).2.length ≤ bs.length := by
  unfold step
  split
  · exact Nat.le_refl _
  · split
    · exact Nat.le_refl _
    · exact tail_length ..

/-- The characters of a run of bytes, `none` standing for each ill-formed piece. -/
def pieces : List UInt8 → List (Option Char)
  | [] => []
  | b :: bs => (step b bs).1 :: pieces (step b bs).2
termination_by bs => bs.length
decreasing_by exact Nat.lt_succ_of_le (step_length b bs)

/-- The text that well-formed bytes stand for. -/
def decode? (bs : List UInt8) : Option String :=
  ((pieces bs).mapM id).map String.ofList

/-- The text of any bytes, U+FFFD in place of each ill-formed piece. -/
def decodeLossy (bs : List UInt8) : String :=
  String.ofList ((pieces bs).map (·.getD replacement))

/-- The bytes of one character. -/
def encodeChar (c : Char) : List UInt8 :=
  let n := c.toNat
  if n < 0x80 then [n.toUInt8]
  else if n < 0x800 then [(0xC0 + n / 0x40).toUInt8, (0x80 + n % 0x40).toUInt8]
  else if n < 0x10000 then
    [(0xE0 + n / 0x1000).toUInt8, (0x80 + n / 0x40 % 0x40).toUInt8, (0x80 + n % 0x40).toUInt8]
  else
    [(0xF0 + n / 0x40000).toUInt8, (0x80 + n / 0x1000 % 0x40).toUInt8,
      (0x80 + n / 0x40 % 0x40).toUInt8, (0x80 + n % 0x40).toUInt8]

/-- The bytes of a run of characters. -/
def encode (cs : List Char) : List UInt8 :=
  cs.flatMap encodeChar

end RunControl.Text.Utf8
