import BitcodeWrapper.Decimal.Nearest
import BitcodeWrapper.Decimal.Shortest

/-!
The digits of a binary fraction to a given number of places, rounded to the nearest; a half goes to the
even neighbour.
-/
namespace BitcodeWrapper.Decimal

/-- The digits of a number, with zeros in front up to a width. -/
def paddedDigits (width n : Nat) : List Char :=
  let digits := Nat.toDigits 10 n
  List.replicate (width - digits.length) '0' ++ digits

/-- A fraction of whole numbers. -/
structure Ratio where
  numerator : Nat
  denominator : Nat
  deriving Repr, DecidableEq

namespace Ratio

/-- The magnitude of a finite number. -/
def ofFloat (x : Float) : Ratio :=
  let b := binaryOfBits (x.toBits.toNat % Nat.pow 2 63)
  ⟨b.significand * Nat.pow 2 b.exponent.toNat, Nat.pow 2 (-b.exponent).toNat⟩

/-- The fraction in units of `10 ^ exponent`, rounded. -/
def inUnits (r : Ratio) (exponent : Int) : Nat :=
  roundToEven (r.numerator * Nat.pow 10 (-exponent).toNat) (r.denominator * Nat.pow 10 exponent.toNat)

/-- The exponent of the first digit. -/
def exponent (r : Ratio) : Int :=
  if r.numerator = 0 then 0
  else if r.denominator ≤ r.numerator then (digitCount (r.numerator / r.denominator) : Int) - 1
  else
    let k := digitCount (r.denominator / r.numerator)
    if Nat.pow 10 (k - 1) * r.numerator = r.denominator then 1 - (k : Int) else -(k : Int)

/-- The digits before and after the point. -/
def fixed (r : Ratio) (places : Nat) : List Char × List Char :=
  let digits := paddedDigits (places + 1) (r.inUnits (-(places : Int)))
  (digits.take (digits.length - places), digits.drop (digits.length - places))

/-- One digit before the point, the digits after it, and the power of ten that they are for. -/
def scientific (r : Ratio) (places : Nat) : List Char × List Char × Int :=
  let e := r.exponent
  let n := r.inUnits (e - places)
  let (n, e) := if digitCount n = places + 2 then (n / 10, e + 1) else (n, e)
  let digits := paddedDigits (places + 1) n
  (digits.take 1, digits.drop 1, e)

end Ratio

end BitcodeWrapper.Decimal
