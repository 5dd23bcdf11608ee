/-!
The floating-point number nearest to a fraction; of two that are equally near, the one with the even
significand.
-/
namespace BitcodeWrapper.Decimal

/-- The whole number nearest to `n / d`, and the even one of two. -/
def roundToEven (n d : Nat) : Nat :=
  let q := n / d
  let r := n % d
  if 2 * r < d || (2 * r = d && q % 2 = 0) then q else q + 1

/-- The exponents of the lowest bit, from that of the smallest numbers to that of the greatest. -/
def leastExponent : Int := -1074

def greatestExponent : Int := 971

/-- The fraction `n / d` in units of `2 ^ exponent`. -/
def inUnits (n d : Nat) (exponent : Int) : Nat × Nat :=
  (n * Nat.pow 2 (-exponent).toNat, d * Nat.pow 2 exponent.toNat)

/-- The exponent for which `n / d` has 53 bits before the point. -/
def exponentOf (n d : Nat) : Int :=
  let e : Int := n.log2 - d.log2 - 53
  let (x, y) := inUnits n d e
  if x < Nat.pow 2 53 * y then e else e + 1

def assemble (significand : Nat) (exponent : Int) : Float :=
  if exponent > greatestExponent then 1.0 / 0.0
  else if significand < Nat.pow 2 52 then Float.ofBits (UInt64.ofNat significand)
  else
    let biased := (exponent - leastExponent + 1).toNat
    Float.ofBits (UInt64.ofNat (biased * Nat.pow 2 52 + (significand - Nat.pow 2 52)))

def nearest (n d : Nat) : Float :=
  if n = 0 then 0.0
  else
    let e := max (exponentOf n d) leastExponent
    let (x, y) := inUnits n d e
    let significand := roundToEven x y
    if significand = Nat.pow 2 53 then assemble (Nat.pow 2 52) (e + 1) else assemble significand e

/-- The number `digits * 10 ^ exponent`, which is settled by its magnitude far from the numbers that there
are. -/
def nearestScaled (digits : Nat) (exponent : Int) : Float :=
  let magnitude : Int := (Nat.toDigits 10 digits).length + exponent
  if digits = 0 || magnitude < -330 then 0.0
  else if magnitude > 330 then 1.0 / 0.0
  else nearest (digits * Nat.pow 10 exponent.toNat) (Nat.pow 10 (-exponent).toNat)

end BitcodeWrapper.Decimal
