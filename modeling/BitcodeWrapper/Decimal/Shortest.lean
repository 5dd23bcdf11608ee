/-!
The text of a binary fraction: the fewest digits that read back as the same fraction, and of those
the nearest. The search is exact; it tries one digit, two digits and so on to seventeen.
-/
namespace BitcodeWrapper.Decimal

/-- The positive number `significand * 2 ^ exponent`, with the numbers that read back as it on both
sides: half a unit above and half a unit, or a quarter at a power of two, below. -/
structure Binary where
  significand : Nat
  exponent : Int
  atPowerOfTwo : Bool

namespace Binary

def denominator (b : Binary) : Nat := 4 * Nat.pow 2 (-b.exponent).toNat

def unit (b : Binary) : Nat := Nat.pow 2 b.exponent.toNat

def numerator (b : Binary) : Nat := 4 * b.significand * b.unit

def lower (b : Binary) : Nat := b.numerator - if b.atPowerOfTwo then b.unit else 2 * b.unit

def upper (b : Binary) : Nat := b.numerator + 2 * b.unit

/-- Says whether `n / d` reads back as the number; the two ends do if the significand is even. -/
def readsBack (b : Binary) (n d : Nat) : Bool :=
  let x := n * b.denominator
  if b.significand % 2 = 0 then b.lower * d ≤ x && x ≤ b.upper * d
  else b.lower * d < x && x < b.upper * d

end Binary

/-- The number `digits * 10 ^ exponent`. -/
structure Scaled where
  digits : Nat
  exponent : Int
  deriving Repr, DecidableEq

def digitCount (n : Nat) : Nat := (Nat.toDigits 10 n).length

/-- The place of the highest digit: the number is below `10 ^ magnitude`, and not below a tenth of it. -/
def magnitude (b : Binary) : Int :=
  if b.denominator ≤ b.numerator then digitCount (b.numerator / b.denominator)
  else
    let k := digitCount (b.denominator / b.numerator)
    if Nat.pow 10 (k - 1) * b.numerator = b.denominator then 2 - (k : Int) else 1 - (k : Int)

/-- The nearest number on the grid of `10 ^ exponent` that reads back. -/
def onGrid? (b : Binary) (exponent : Int) : Option Scaled :=
  let up := Nat.pow 10 exponent.toNat
  let down := Nat.pow 10 (-exponent).toNat
  let n := b.numerator * down
  let d := b.denominator * up
  let below := n / d
  let fits (q : Nat) : Bool := b.readsBack (q * up) down
  let nearer := if 2 * (n % d) < d || (2 * (n % d) = d && below % 2 = 0) then below else below + 1
  if fits nearer then some ⟨nearer, exponent⟩
  else if fits below then some ⟨below, exponent⟩
  else if fits (below + 1) then some ⟨below + 1, exponent⟩
  else none

def shortest (b : Binary) : Scaled :=
  let place := magnitude b
  let counts : List Nat := (List.range 17).map (· + 1)
  (counts.findSome? fun (count : Nat) => onGrid? b (place - (count : Int))).getD ⟨b.significand, b.exponent⟩

/-- Positional between a ten-thousandth and ten to the sixteenth, with an exponent of at least two
digits beyond. -/
def Scaled.text (s : Scaled) : String :=
  let all := Nat.toDigits 10 s.digits
  let digits := (all.reverse.dropWhile (· == '0')).reverse
  let count : Int := digits.length
  let point : Int := all.length + s.exponent
  let written : List Char :=
    if -4 < point && point ≤ 16 then
      if point ≤ 0 then ['0', '.'] ++ List.replicate (-point).toNat '0' ++ digits
      else if count ≤ point then digits ++ List.replicate (point - count).toNat '0' ++ ['.', '0']
      else digits.take point.toNat ++ ['.'] ++ digits.drop point.toNat
    else
      let power := point - 1
      let magnitude := Nat.toDigits 10 power.natAbs
      digits.take 1 ++ (if digits.length ≤ 1 then [] else '.' :: digits.drop 1) ++
        ['e', if power < 0 then '-' else '+'] ++
        (if magnitude.length < 2 then '0' :: magnitude else magnitude)
  String.ofList written

def binaryOfBits (bits : Nat) : Binary :=
  let fraction : Nat := bits % Nat.pow 2 52
  let biased : Nat := bits / Nat.pow 2 52 % Nat.pow 2 11
  if biased = 0 then ⟨fraction, -1074, false⟩
  else ⟨Nat.pow 2 52 + fraction, (biased : Int) - 1075, fraction == 0 && 1 < biased⟩

def floatText (x : Float) : String :=
  let bits := x.toBits.toNat
  let sign := if Nat.pow 2 63 ≤ bits then "-" else ""
  let fraction := bits % Nat.pow 2 52
  let biased := bits / Nat.pow 2 52 % Nat.pow 2 11
  if biased = 2047 then
    if fraction = 0 then sign ++ "inf" else "nan"
  else if biased = 0 && fraction = 0 then sign ++ "0.0"
  else sign ++ (shortest (binaryOfBits bits)).text

end BitcodeWrapper.Decimal
