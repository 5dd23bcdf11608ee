import BitcodeWrapper.Text.Printable
import BitcodeWrapper.Text.Utf8

/-!
Quoted text. The quote is an apostrophe, or a double quote where the text holds apostrophes and no
double quote. What cannot be printed is written as an escape of two, four or eight digits.
-/
namespace BitcodeWrapper.Text

def apostrophe : Char := '\x27'

def doubleQuote : Char := '\x22'

def backslash : Char := '\x5c'

def hexDigit (n : Nat) : Char :=
  if n % 16 < 10 then Char.ofNat (48 + n % 16) else Char.ofNat (87 + n % 16)

/-- The last `width` hexadecimal digits of a number, the highest first. -/
def hexDigits : (width : Nat) → Nat → List Char
  | 0, _ => []
  | width + 1, n => hexDigits width (n / 16) ++ [hexDigit n]

theorem length_hexDigits (width n : Nat) : (hexDigits width n).length = width := by
  induction width generalizing n with
  | zero => rfl
  | succ width ih => simp [hexDigits, ih]

def quoteFor (hasApostrophe hasDoubleQuote : Bool) : Char :=
  if hasApostrophe && !hasDoubleQuote then doubleQuote else apostrophe

/-- The escapes that quoted text and quoted bytes share. -/
def commonEscape? (quote c : Char) : Option (List Char) :=
  if c == quote || c == backslash then some [backslash, c]
  else if c == '\t' then some [backslash, 't']
  else if c == '\n' then some [backslash, 'n']
  else if c == '\r' then some [backslash, 'r']
  else none

def quotedChar (quote c : Char) : List Char :=
  (commonEscape? quote c).getD <|
    if isPrintable c then [c]
    else if c.toNat < 0x100 then [backslash, 'x'] ++ hexDigits 2 c.toNat
    else if c.toNat < 0x10000 then [backslash, 'u'] ++ hexDigits 4 c.toNat
    else [backslash, 'U'] ++ hexDigits 8 c.toNat

def quotedChars (cs : List Char) : List Char :=
  let quote := quoteFor (cs.contains apostrophe) (cs.contains doubleQuote)
  quote :: cs.flatMap (quotedChar quote) ++ [quote]

def quoted (s : String) : String :=
  String.ofList (quotedChars s.toList)

def quotedByte (quote : Char) (b : UInt8) : List Char :=
  let c := Char.ofNat b.toNat
  (commonEscape? quote c).getD <|
    if 32 ≤ b.toNat && b.toNat < 127 then [c] else [backslash, 'x'] ++ hexDigits 2 b.toNat

/-- Quoted bytes carry the mark `b`. -/
def quotedBytes (bytes : Bytes) : String :=
  let quote := quoteFor (bytes.any (·.toNat == apostrophe.toNat))
    (bytes.any (·.toNat == doubleQuote.toNat))
  String.ofList ('b' :: quote :: bytes.flatMap (quotedByte quote) ++ [quote])

end BitcodeWrapper.Text
