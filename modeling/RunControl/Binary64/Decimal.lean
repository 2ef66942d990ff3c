/-
RunControl/Binary64/Decimal.lean

Decimal texts of binary floating-point numbers.  A number is written with the
fewest digits that read back as it, and of those with the ones nearest to it.

The reals that round to a number form an interval around it; its ends belong to
it exactly if the significand is even.  For 1, 2, ... 17 digits the value's two
neighbours on the decimal grid are tested against the interval in exact
arithmetic, and the first grid with a neighbour inside decides.  Where the
point stands and when an exponent is written is up to a `Layout`.
-/
import RunControl.Binary64
import RunControl.Text.Ascii

namespace RunControl.Binary64

/-! ### The shortest digits -/

/-- The number of digits of a natural number in base ten. -/
def digitCount (n : Nat) : Nat :=
  (Nat.toDigits 10 n).length

/-- The `k` with `10 ^ (k - 1) ≤ num / den < 10 ^ k`, for a positive quotient. -/
def decimalMagnitude (num den : Nat) : Int :=
  if den ≤ num then digitCount (num / den) else 1 - digitCount ((den - 1) / num)

/-- The reals that round to one number: a common denominator, the numerators of
the ends and of the number itself, and whether the ends belong to it. -/
structure RoundingInterval where
  low : Nat
  value : Nat
  high : Nat
  den : Nat
  closed : Bool

/-- The reals that round to the positive number `m * 2 ^ e`.  Below a power of
two the next number is half as far away as above it. -/
def RoundingInterval.around (m : Nat) (e : Int) : RoundingInterval :=
  let gap := if m = Nat.pow 2 52 ∧ minExponent < e then 1 else 2
  let (unit, den) := scale 1 1 (e - 2)
  ⟨(4 * m - gap) * unit, 4 * m * unit, (4 * m + 2) * unit, den, m % 2 == 0⟩

/-- Whether `c * 10 ^ k` lies in the interval. -/
def RoundingInterval.holds (i : RoundingInterval) (c : Nat) (k : Int) : Bool :=
  let x := c * Nat.pow 10 k.toNat * i.den
  let up := Nat.pow 10 (-k).toNat
  if i.closed then i.low * up ≤ x && x ≤ i.high * up else i.low * up < x && x < i.high * up

/-- Of the two multiples of `10 ^ k` next to the value, the one inside the
interval; if both are, the nearer one, or the even one at equal distance. -/
def RoundingInterval.onGrid? (i : RoundingInterval) (k : Int) : Option Nat :=
  let num := i.value * Nat.pow 10 (-k).toNat
  let den := i.den * Nat.pow 10 k.toNat
  let c := num / den
  match i.holds c k, i.holds (c + 1) k with
  | true, true => some (roundHalfEven num den)
  | true, false => some c
  | false, true => some (c + 1)
  | false, false => none

/-- Searches the grids of `digits`, `digits + 1`, … significant digits. -/
def RoundingInterval.search (i : RoundingInterval) (magnitude : Int) :
    Nat → Nat → Nat × Int
  | 0, _ => (i.value / i.den, 0)
  | more + 1, digits =>
    let k := magnitude - digits
    match i.onGrid? k with
    | some c => (c, k)
    | none => i.search magnitude more (digits + 1)

/-- The digits of `c` without the zeros at their end, and the number of those. -/
def significantDigits (c : Nat) : List Char × Nat :=
  let ds := (Nat.toDigits 10 c).reverse
  let kept := ds.dropWhile (· == '0')
  (kept.reverse, ds.length - kept.length)

/-- Digits `d₁ d₂ …` and a magnitude `k` such that `0.d₁d₂… * 10 ^ k` is the
shortest decimal that rounds to the positive number `m * 2 ^ e`. -/
def shortest (m : Nat) (e : Int) : List Char × Int :=
  let i := RoundingInterval.around m e
  let (c, k) := i.search (decimalMagnitude i.value i.den) 17 1
  let (ds, zeros) := significantDigits c
  (ds, ds.length + zeros + k)

/-! ### Layout -/

/-- How digits are laid out: the magnitudes at which the point is put among the
digits, and whether a positive exponent gets a sign. -/
structure Layout where
  leastPlain : Int
  greatestPlain : Int
  plus : Bool

/-- The decimal text of an integer exponent. -/
def Layout.exponent (l : Layout) (x : Int) : String :=
  if x < 0 then "-" ++ Text.decimal x.natAbs
  else if l.plus then "+" ++ Text.decimal x.natAbs
  else Text.decimal x.natAbs

/-- The text of `0.d₁d₂… * 10 ^ k`. -/
def Layout.place (l : Layout) (ds : List Char) (k : Int) : String :=
  if l.leastPlain ≤ k ∧ k ≤ l.greatestPlain then
    if k ≤ 0 then
      "0." ++ String.ofList (List.replicate (-k).toNat '0' ++ ds)
    else if ds.length ≤ k.toNat then
      String.ofList (ds ++ List.replicate (k.toNat - ds.length) '0') ++ ".0"
    else
      String.ofList (ds.take k.toNat) ++ "." ++ String.ofList (ds.drop k.toNat)
  else
    match ds with
    | [] => "0.0"
    | [d] => String.ofList [d] ++ "e" ++ l.exponent (k - 1)
    | d :: r => String.ofList (d :: '.' :: r) ++ "e" ++ l.exponent (k - 1)

/-- The text of a number in a layout. -/
def Layout.write (l : Layout) : Binary64 → String
  | .nan => "NaN"
  | .infinite negative => if negative then "-inf" else "inf"
  | .finite negative m e =>
    let body :=
      if m = 0 then "0.0"
      else
        let (ds, k) := shortest m e
        l.place ds k
    if negative then "-" ++ body else body

/-! ### Reading -/

/-- The number nearest to `0.d₁d₂… * 10 ^ k` for digits `d₁ d₂ …`. Beyond `10 ^ 310`
every number is infinite, and below `10 ^ -330` every number is zero. -/
def ofDigits (negative : Bool) (digits : List Char) (k : Int) : Binary64 :=
  let kept := digits.dropWhile (· == '0')
  let magnitude := k - (digits.length - kept.length : Nat)
  let exponent := magnitude - kept.length
  if kept.isEmpty || magnitude < -330 then .finite negative 0 minExponent
  else if 310 < magnitude then .infinite negative
  else if 0 ≤ exponent then
    ofRatio negative (Text.ofDigits kept * Nat.pow 10 exponent.toNat) 1 0
  else ofRatio negative (Text.ofDigits kept) (Nat.pow 10 (-exponent).toNat) 0

end RunControl.Binary64
