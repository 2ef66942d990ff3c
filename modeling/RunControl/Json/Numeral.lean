/-
RunControl/Json/Numeral.lean

Numbers as they are written in a JSON text, and what they stand for.

A numeral without fraction and exponent is an integer if it fits 64 bits, signed
below zero and unsigned from zero on; `-0` is the negative zero.  Every other
numeral is a floating-point number, and the reading is approximate: the leading
digits that fit 64 bits are taken as one integer, rounded, and multiplied or
divided by a rounded power of ten.  A numeral that becomes infinite on the way
stands for nothing.
-/
import RunControl.Json

namespace RunControl.Json

/-- A number as written: sign, digits before the point, digits after it, and
the exponent, if there is one. -/
structure Numeral where
  negative : Bool
  whole : List Char
  fraction : Option (List Char)
  exponent : Option Int
  deriving DecidableEq

namespace Numeral

/-- Appends digits to `n` as long as the result fits 64 bits; the digits that
are left over come back too. -/
def absorb (n : Nat) : List Char → Nat × List Char
  | [] => (n, [])
  | d :: ds =>
    let m := 10 * n + Text.digitValue d
    if m < Nat.pow 2 64 then absorb m ds else (n, d :: ds)

/-- Multiplies by a power of ten, one rounding per step; `none` if the result
is infinite. -/
def scaleTen (f : Binary64) (exponent : Int) : Option Binary64 :=
  if f.isZero then some f
  else if 308 < exponent then none
  else if 0 ≤ exponent then
    let g := f.mul (Binary64.powerOfTen exponent.toNat)
    if g.isFinite then some g else none
  else if -308 ≤ exponent then
    some (f.div (Binary64.powerOfTen (-exponent).toNat))
  else scaleTen (f.div (Binary64.powerOfTen 308)) (exponent + 308)
termination_by (-exponent).toNat
decreasing_by omega

/-- The floating-point number that a numeral stands for. -/
def toBinary64? (n : Numeral) : Option Binary64 :=
  let fraction := n.fraction.getD []
  let (whole, left) := absorb 0 n.whole
  let (significand, leftOver) := absorb whole fraction
  let exponent :=
    (left.length : Int) - (fraction.length - leftOver.length : Nat) + n.exponent.getD 0
  (scaleTen (Binary64.ofNat significand) exponent).map fun f =>
    if n.negative then f.neg else f

/-- The integer that a numeral stands for, if it stands for one. -/
def toInt? (n : Numeral) : Option Int :=
  match n.fraction, n.exponent with
  | none, none =>
    let m := Text.ofDigits n.whole
    if n.negative then
      if 0 < m ∧ m ≤ Nat.pow 2 63 then some (-(m : Int)) else none
    else if m < Nat.pow 2 64 then some m else none
  | _, _ => none

/-- The value that a numeral stands for. -/
def toJson? (n : Numeral) : Option Json :=
  match n.toInt? with
  | some i => some (.int i)
  | none => n.toBinary64?.map .double

end Numeral

end RunControl.Json
