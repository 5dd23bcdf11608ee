import BitcodeWrapper.Yaml.Value

/-!
The order of the members of a set. Numbers stand in a table of places, each at the first free one of the
places that its residue leads to. Members of other kinds have no order of their own.
-/
namespace BitcodeWrapper.Yaml.Members

/-- A prime, by which the residues of numbers are taken. -/
def modulus : Nat := Nat.pow 2 61 - 1

/-- A residue has the sign of its number. Minus one is given up for minus two. -/
def signed (isNegative : Bool) (residue : Nat) : Int :=
  if !isNegative then residue
  else if residue = 1 then -2
  else -(residue : Int)

/-- The residue of a number. Doubling a number sixty-one times does not change it. -/
def residue : Int ⊕ Float → Int
  | .inl n => signed (n < 0) (n.natAbs % modulus)
  | .inr x =>
    if x.isInf then if x < 0.0 then -314159 else 314159
    else
      let b := Decimal.binaryOfBits (x.toBits.toNat % Nat.pow 2 63)
      signed (x < 0.0) (b.significand * Nat.pow 2 (b.exponent % 61).toNat % modulus)

/-- A residue as a word of sixty-four bits. -/
def word (residue : Int) : Nat := (residue % (Nat.pow 2 64 : Nat)).toNat

/-- How many places there are for some members: a power of two. -/
def tableSize (members : Nat) : Nat :=
  if members < 5 then 8 else Nat.pow 2 ((2 * members).log2 + 1)

/-- The places next to each other that are tried together. -/
def neighbours (size start : Nat) : List Nat :=
  if start + 9 < size then List.range' start 10 else [start]

/-- The first free place of those that a residue leads to. -/
def freePlace (size : Nat) (taken : List Nat) : (fuel start perturbation : Nat) → Nat
  | 0, start, _ => start
  | fuel + 1, start, perturbation =>
    match (neighbours size start).find? (!taken.contains ·) with
    | some place => place
    | none =>
      freePlace size taken fuel ((start * 5 + 1 + perturbation / 32) % size) (perturbation / 32)

/-- Puts members at their places, one after the other. -/
def places (size : Nat) (members : List (Int × Value)) : List (Nat × Value) :=
  members.foldl (fun placed m =>
    let h := word m.1
    placed ++ [(freePlace size (placed.map (·.1)) (64 + size) (h % size) h, m.2)]) []

/-- The members in the order that a set has them in. -/
def ordered (members : List Value) : List Value :=
  match members.mapM fun m => m.number?.map fun n => (residue n, m) with
  | none => members
  | some numbers => ((places (tableSize members.length) numbers).mergeSort (·.1 ≤ ·.1)).map (·.2)

end BitcodeWrapper.Yaml.Members
