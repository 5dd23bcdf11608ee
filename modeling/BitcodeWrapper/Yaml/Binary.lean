import BitcodeWrapper.Text.Utf8

/-!
Bytes that are written with the letters, six bits each.
-/
namespace BitcodeWrapper.Yaml.Binary

/-- The six bits of a letter. -/
def sextet? (c : Char) : Option Nat :=
  if 'A' ≤ c && c ≤ 'Z' then some (c.toNat - 65)
  else if 'a' ≤ c && c ≤ 'z' then some (c.toNat - 71)
  else if c.isDigit then some (c.toNat + 4)
  else if c = '+' then some 62
  else if c = '/' then some 63
  else none

/-- Reads groups of four letters. Other characters are skipped, and what follows a group that is filled
up with equals signs is not read. The state is the letters of the group so far and the signs seen. -/
def decode (group : List Nat) (signs : Nat) : List Char → Option Bytes
  | [] => if group.isEmpty then some [] else none
  | c :: cs =>
    if c = '=' then
      if 2 ≤ group.length && 4 ≤ group.length + signs + 1 then some []
      else decode group (if 2 ≤ group.length then signs + 1 else signs) cs
    else
      match sextet? c, group with
      | none, _ => decode group signs cs
      | some x, [] => decode [x] 0 cs
      | some x, [a] => (decode [a, x] 0 cs).map (UInt8.ofNat (a * 4 + x / 16) :: ·)
      | some x, [a, b] => (decode [a, b, x] 0 cs).map (UInt8.ofNat (b % 16 * 16 + x / 4) :: ·)
      | some x, _ :: _ :: b :: _ => (decode [] 0 cs).map (UInt8.ofNat (b % 4 * 64 + x) :: ·)

/-- The bytes of a text, which must be of ASCII throughout. -/
def bytes? (text : String) : Option Bytes :=
  if text.toList.all (·.toNat < 128) then decode [] 0 text.toList else none

end BitcodeWrapper.Yaml.Binary
