/-
RunControl/Binary64.lean

Binary floating-point numbers of 64 bits, in exact arithmetic.  A finite number
is a sign, a significand below `2 ^ 53` and an exponent of two; every operation
rounds an exact quotient of naturals to the nearest such number, a tie to the
even significand.  `ofRatio` is that rounding; products, quotients and powers
of ten are instances of it.
-/

namespace RunControl

/-- A binary floating-point number of 64 bits.  A finite one stands for
`± significand * 2 ^ exponent`. -/
inductive Binary64 where
  | finite (negative : Bool) (significand : Nat) (exponent : Int)
  | infinite (negative : Bool)
  | nan
  deriving DecidableEq, Inhabited

namespace Binary64

/-! ### Rounding -/

/-- The natural number next to `num / den`, the even one of two at equal distance. -/
def roundHalfEven (num den : Nat) : Nat :=
  let q := num / den
  let r := num % den
  if 2 * r < den then q
  else if den < 2 * r then q + 1
  else if q % 2 = 0 then q else q + 1

/-- The least exponent of a finite number. -/
def minExponent : Int := -1074

/-- The greatest exponent of a finite number. -/
def maxExponent : Int := 971

/-- Numerator and denominator of `num / den * 2 ^ shift`. -/
def scale (num den : Nat) (shift : Int) : Nat × Nat :=
  if 0 ≤ shift then (num * Nat.pow 2 shift.toNat, den)
  else (num, den * Nat.pow 2 (-shift).toNat)

/-- The exponent at which `num / den` is rounded: the least one, not below
`minExponent`, at which the quotient has at most 53 bits. -/
def roundingExponent (num den : Nat) : Int :=
  let low := max ((num.log2 : Int) - den.log2 - 53) minExponent
  let (n, d) := scale num den (-low)
  if n / d < Nat.pow 2 53 then low else low + 1

/-- The number nearest to `num / den * 2 ^ shift`, with the given sign; infinite
if it lies beyond the greatest finite number. -/
def ofRatio (negative : Bool) (num den : Nat) (shift : Int) : Binary64 :=
  let (num, den) := scale num den shift
  if num = 0 then .finite negative 0 minExponent
  else
    let exponent := roundingExponent num den
    let (n, d) := scale num den (-exponent)
    let significand := roundHalfEven n d
    let (significand, exponent) :=
      if significand = Nat.pow 2 53 then (Nat.pow 2 52, exponent + 1) else (significand, exponent)
    if maxExponent < exponent then .infinite negative
    else .finite negative significand exponent

/-- The number nearest to a natural number. -/
def ofNat (n : Nat) : Binary64 :=
  ofRatio false n 1 0

/-- The number nearest to a power of ten. -/
def powerOfTen (k : Nat) : Binary64 :=
  ofNat (Nat.pow 10 k)

/-! ### Operations -/

/-- Whether the sign is minus. -/
def isNegative : Binary64 → Bool
  | finite negative _ _ => negative
  | infinite negative => negative
  | nan => false

/-- Whether the number is finite. -/
def isFinite : Binary64 → Bool
  | finite .. => true
  | _ => false

/-- Whether the number is one of the two zeros. -/
def isZero : Binary64 → Bool
  | finite _ m _ => m == 0
  | _ => false

/-- The number with its sign flipped. -/
def neg : Binary64 → Binary64
  | finite negative m e => finite (!negative) m e
  | infinite negative => infinite (!negative)
  | nan => nan

/-- The product of two finite numbers, rounded. -/
def mul : Binary64 → Binary64 → Binary64
  | finite s m e, finite s' m' e' => ofRatio (s != s') (m * m') 1 (e + e')
  | _, _ => nan

/-- The quotient of a finite number by a finite number other than zero, rounded. -/
def div : Binary64 → Binary64 → Binary64
  | finite s m e, finite s' m' e' => if m' = 0 then nan else ofRatio (s != s') m m' (e - e')
  | _, _ => nan

/-- Numeric equality: the two zeros are equal, and no number equals `nan`. -/
def same (a b : Binary64) : Bool :=
  match a, b with
  | nan, _ => false
  | _, nan => false
  | a, b => (a.isZero && b.isZero) || a == b

end Binary64

end RunControl
