/-!
Integers in decimal digits, of which there may be only so many.
-/
namespace BitcodeWrapper.Decimal

/-- The most digits that an integer is read or written with. -/
def digitLimit : Nat := 4300

/-- The text of an integer, unless it has too many digits. -/
def integerText? (n : Int) : Option String :=
  if n.natAbs < Nat.pow 10 digitLimit then some (toString n) else none

/-- What decimal digits stand for, each by its distance from the zero. -/
def digitsValue (cs : List Char) : Nat :=
  cs.foldl (fun n c => n * 10 + (c.toNat - 48)) 0

/-- Reads digits, unless there are too many. -/
def natural? (cs : List Char) : Option Nat :=
  if cs.isEmpty || digitLimit < cs.length || !cs.all Char.isDigit then none else some (digitsValue cs)

end BitcodeWrapper.Decimal
