/-
RunControl/Url/Punycode.lean

Names in other letters than those of ASCII, written in ASCII (RFC 3492).  The
ASCII characters come first; the others follow as a row of numbers in base 36,
each saying how far to move on through all pairs of a character and a place.
-/

namespace RunControl.Url.Punycode

/-- The digit of a value below 36: the letters first. -/
def digit (n : Nat) : Char :=
  if n < 26 then Char.ofNat (97 + n) else Char.ofNat (22 + n)

/-- The greatest value that the digit at a place can have if it is the last. -/
def threshold (place bias : Nat) : Nat :=
  min 26 (max 1 (place - bias))

/-- The digits of a number, the least significant first. -/
def digits (bias place n : Nat) : List Char :=
  let t := threshold place bias
  if n < t then [digit n]
  else digit (t + (n - t) % (36 - t)) :: digits bias (place + 36) ((n - t) / (36 - t))
termination_by n
decreasing_by
  have h : 1 ≤ threshold place bias := by unfold threshold; omega
  exact Nat.lt_of_le_of_lt (Nat.div_le_self _ _) (by omega)

/-- How often a number can be divided by 35 until it is at most 455, and what is
left. -/
def reduce (n : Nat) : Nat × Nat :=
  if 455 < n then
    let (count, rest) := reduce (n / 35)
    (count + 1, rest)
  else (0, n)
termination_by n
decreasing_by omega

/-- The bias after a number, which was the `count`-th. -/
def adapt (n count : Nat) (isFirst : Bool) : Nat :=
  let n := if isFirst then n / 700 else n / 2
  let (steps, rest) := reduce (n + n / count)
  36 * steps + 36 * rest / (rest + 38)

/-- What has been written, the distance moved since, and how many characters
have been placed. -/
structure Progress where
  written : List Char
  distance : Nat := 0
  bias : Nat := 72
  placed : Nat

/-- Passes one character of the name while those with the code `code` are placed. -/
def pass (basic code : Nat) (p : Progress) (c : Char) : Progress :=
  if c.toNat < code then { p with distance := p.distance + 1 }
  else if c.toNat = code then
    { written := p.written ++ digits p.bias 36 p.distance
      distance := 0
      bias := adapt p.distance (p.placed + 1) (p.placed = basic)
      placed := p.placed + 1 }
  else p

/-- Places the characters with each of the codes, which increase; those below
`next` have been placed. -/
def placeAll (name : List Char) (basic : Nat) : List Nat → Nat → Progress → List Char
  | [], _, p => p.written
  | code :: codes, next, p =>
    let p := { p with distance := p.distance + (code - next) * (p.placed + 1) }
    let p := name.foldl (pass basic code) p
    placeAll name basic codes (code + 1) { p with distance := p.distance + 1 }

/-- A name in ASCII. -/
def encode (name : List Char) : List Char :=
  let basic := name.filter (·.toNat < 128)
  let codes := (name.map Char.toNat).filter (128 ≤ ·)
  let start := if basic.isEmpty then [] else basic ++ ['-']
  placeAll name basic.length (codes.mergeSort.eraseDups) 128
    { written := start, placed := basic.length }

/-! ### Back to the name -/

/-- The value of a digit. -/
def value? (c : Char) : Option Nat :=
  if c.isAlpha then some (c.toLower.toNat - 97)
  else if c.isDigit then some (c.toNat - 22)
  else none

/-- What has been read of the numbers: the characters placed so far, and the part
of a number that has not come to its last digit. -/
structure Reading where
  placed : List Char
  /-- The code of the character placed last. -/
  code : Nat := 128
  /-- The place after it. -/
  position : Nat := 0
  bias : Nat := 72
  number : Nat := 0
  weight : Nat := 1
  place : Nat := 36

/-- Places the character that a number stands for. -/
def Reading.put? (r : Reading) (number : Nat) : Option Reading :=
  let count := r.placed.length + 1
  let sum := r.position + number
  let code := r.code + sum / count
  if code.isValidChar then
    let spot := sum % count
    some
      { placed := r.placed.take spot ++ Char.ofNat code :: r.placed.drop spot
        code
        position := spot + 1
        bias := adapt number count (r.position = 0) }
  else none

/-- Reads one digit. -/
def Reading.next? (r : Reading) (c : Char) : Option Reading := do
  let d ← value? c
  let t := threshold r.place r.bias
  let number := r.number + d * r.weight
  if d < t then r.put? number
  else some { r with number, weight := r.weight * (36 - t), place := r.place + 36 }

/-- The name that is written in ASCII. -/
def decode? (cs : List Char) : Option (List Char) := do
  let tail := (cs.reverse.takeWhile (· != '-')).reverse
  let basic := cs.take (cs.length - tail.length - 1)
  let r ← tail.foldlM Reading.next? { placed := basic }
  if r.place = 36 then some r.placed else none

end RunControl.Url.Punycode
