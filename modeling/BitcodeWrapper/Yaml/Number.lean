import BitcodeWrapper.Decimal.Integer
import BitcodeWrapper.Decimal.Nearest
import BitcodeWrapper.Text.Blank
import BitcodeWrapper.Text.Digit
import BitcodeWrapper.Yaml.Cursor

/-!
The values of scalars that are numbers. Underscores group digits and mean nothing; parts between colons
count in sixties. Each part may have a sign of its own, blanks around it and digits of any script.
-/
namespace BitcodeWrapper.Yaml.Number

/-- The separators of ASCII are no blanks around a number. -/
def isOuterBlank (c : Char) : Bool :=
  Text.isBlank c && !(28 ≤ c.toNat && c.toNat ≤ 31)

/-- A part of a number without the blanks around it, in the digits of ASCII. -/
def trimmed (cs : List Char) : List Char :=
  (((cs.dropWhile isOuterBlank).reverse.dropWhile isOuterBlank).reverse).map Text.standardDigit

def digit? (base : Nat) (c : Char) : Option Nat :=
  (hexValue? c).filter (· < base)

def natural? (base : Nat) (cs : List Char) : Option Nat :=
  if cs.isEmpty then none
  else if base = 10 then Decimal.natural? cs
  else (cs.mapM (digit? base)).map (·.foldl (fun n d => n * base + d) 0)

def splitSign : List Char → Bool × List Char
  | '-' :: cs => (true, cs)
  | '+' :: cs => (false, cs)
  | cs => (false, cs)

/-- The letters that say which base digits are in. -/
def baseLetters : Nat → List Char
  | 2 => ['b', 'B']
  | 8 => ['o', 'O']
  | 16 => ['x', 'X']
  | _ => []

/-- Takes off a zero and a letter for the base. -/
def withoutBase (base : Nat) : List Char → List Char
  | '0' :: c :: cs => if (baseLetters base).contains c then cs else '0' :: c :: cs
  | cs => cs

def integer? (base : Nat) (cs : List Char) : Option Int :=
  let (isNegative, digits) := splitSign (trimmed cs)
  (natural? base (withoutBase base digits)).map fun n => if isNegative then -(n : Int) else n

def parts (cs : List Char) : List (List Char) :=
  match cs with
  | [] => [[]]
  | ':' :: cs => [] :: parts cs
  | c :: cs =>
    match parts cs with
    | [] => [[c]]
    | p :: ps => (c :: p) :: ps

def ungrouped (text : String) : List Char := text.toList.filter (· != '_')

/-- An integer in base two, eight, ten or sixteen, or in sixties. -/
def int? (text : String) : Option Int :=
  let (isNegative, cs) := splitSign (ungrouped text)
  let magnitude : Option Int :=
    match cs with
    | ['0'] => some 0
    | '0' :: 'b' :: digits => integer? 2 digits
    | '0' :: 'x' :: digits => integer? 16 digits
    | '0' :: digits => integer? 8 ('0' :: digits)
    | cs => ((parts cs).mapM (integer? 10)).map (·.foldl (fun n d => n * 60 + d) 0)
  magnitude.map fun n => if isNegative then -n else n

def infinity : Float := 1.0 / 0.0

def notANumber : Float := 0.0 / 0.0

/-- A number with digits before or after its point, and perhaps an exponent. -/
def decimal? (cs : List Char) : Option Float := do
  let whole := cs.takeWhile Char.isDigit
  let rest := cs.dropWhile Char.isDigit
  let (fraction, rest) :=
    match rest with
    | '.' :: rest => (rest.takeWhile Char.isDigit, rest.dropWhile Char.isDigit)
    | _ => ([], rest)
  let exponent ←
    match rest with
    | [] => some 0
    | c :: rest =>
      if c != 'e' then none
      else
        let (isNegative, digits) := splitSign rest
        if digits.isEmpty || !digits.all Char.isDigit then none
        else
          let n := Decimal.digitsValue digits
          some (if isNegative then -(n : Int) else n)
  let digits := whole ++ fraction
  if digits.isEmpty then none
  else return Decimal.nearestScaled (Decimal.digitsValue digits) (exponent - fraction.length)

def real? (cs : List Char) : Option Float :=
  let (isNegative, cs) := splitSign (trimmed cs)
  let magnitude :=
    if cs = "inf".toList || cs = "infinity".toList then some infinity
    else if cs = "nan".toList then some notANumber
    else decimal? cs
  magnitude.map fun x => if isNegative then -x else x

/-- Adds up parts in sixties, the last one first. The power of sixty that a part counts for is rounded
once, and must not be too great. -/
def sixties : (base : Nat) → (sum : Float) → List Float → Option Float
  | _, sum, [] => some sum
  | base, sum, x :: parts =>
    let power := Decimal.nearest base 1
    if power.isInf then none else sixties (base * 60) (sum + x * power) parts

/-- The number after a sign, in small letters. -/
def splitNumber (text : String) : Bool × List Char :=
  splitSign ((ungrouped text).map Char.toLower)

/-- Says whether a number is the one that is none, by its own name. -/
def isNamedNotANumber (text : String) : Bool :=
  (splitNumber text).2 = ".nan".toList

def float? (text : String) : Option Float :=
  let (isNegative, cs) := splitNumber text
  let magnitude :=
    if cs = ".inf".toList then some infinity
    else if cs = ".nan".toList then some notANumber
    else if cs.contains ':' then ((parts cs).mapM real?).bind (sixties 1 0.0 ·.reverse)
    else real? cs
  magnitude.map fun x => if isNegative then -x else x

end BitcodeWrapper.Yaml.Number
