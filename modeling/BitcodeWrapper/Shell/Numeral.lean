/-!
Integers of sixty-four bits, as scripts write them: with a sign and blanks before them, in base ten, or
eight after a zero, or sixteen after `0x`.
-/
namespace BitcodeWrapper.Shell.Numeral

def wordSize : Nat := 18446744073709551616

def greatest : Int := 9223372036854775807

def least : Int := -9223372036854775808

/-- The number of sixty-four bits with a sign that has the same bits. -/
def wrap (n : Int) : Int := Int.bmod n wordSize

/-- The same bits without a sign. -/
def unsigned (n : Int) : Nat := (n % wordSize).toNat

def isSpace (c : Char) : Bool := c = ' ' || (9 ≤ c.toNat && c.toNat ≤ 13)

def digitValue (c : Char) : Nat :=
  if c.isDigit then c.toNat - 48
  else if 'a' ≤ c && c ≤ 'z' then c.toNat - 87
  else if 'A' ≤ c && c ≤ 'Z' then c.toNat - 55
  else 99

/-- Digits of a base, and what follows them. -/
def digits (base : Nat) (cs : List Char) : Nat × List Char :=
  let run := cs.takeWhile fun c => digitValue c < base
  (run.foldl (fun n c => n * base + digitValue c) 0, cs.drop run.length)

/-- A number in the base that its first digits name. -/
def based (cs : List Char) : Nat × List Char :=
  match cs with
  | '0' :: 'x' :: d :: rest | '0' :: 'X' :: d :: rest =>
    if digitValue d < 16 then digits 16 (d :: rest) else digits 8 cs
  | '0' :: _ => digits 8 cs
  | _ => digits 10 cs

structure Reading where
  isNegative : Bool
  magnitude : Nat
  rest : List Char

def Reading.value (r : Reading) : Int := if r.isNegative then -(r.magnitude : Int) else r.magnitude

/-- Reads a number from the front of a text, if there is one. -/
def read? (isDecimal : Bool) (cs : List Char) : Option Reading :=
  let cs := cs.dropWhile isSpace
  let (isNegative, cs) := match cs with
    | '-' :: rest => (true, rest)
    | '+' :: rest => (false, rest)
    | _ => (false, cs)
  if cs.head?.any Char.isDigit then
    let (magnitude, rest) := if isDecimal then digits 10 cs else based cs
    some ⟨isNegative, magnitude, rest⟩
  else none

/-- Reads a text that is a number and nothing else but blanks. -/
def whole? (isDecimal : Bool) (s : String) : Option Int :=
  match read? isDecimal s.toList with
  | some r =>
    if r.rest.all isSpace && least ≤ r.value && r.value ≤ greatest then some r.value else none
  | none => none

end BitcodeWrapper.Shell.Numeral
