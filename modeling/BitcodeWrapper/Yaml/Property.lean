import BitcodeWrapper.Decimal.Integer
import BitcodeWrapper.Text.Utf8
import BitcodeWrapper.Yaml.Cursor
import BitcodeWrapper.Yaml.Token

/-!
Reading anchors, aliases, tags and directives.
-/
namespace BitcodeWrapper.Yaml

open Scan

def isNameChar (c : Char) : Bool := c.isAlphanum || c = '-' || c = '_'

def isUriChar (c : Char) : Bool :=
  c.isAlphanum || "-;/?:@&=+$,_.!~*\x27()[]".toList.contains c

namespace Uri

/-- A run of escapes, each a percent sign and two digits, spells the bytes of a text. -/
def escapes : List Char → Except Error (Bytes × List Char)
  | '%' :: rest =>
    match rest with
    | a :: b :: rest =>
      match hexValue? a, hexValue? b with
      | some x, some y => do
        let (bytes, rest) ← escapes rest
        return (UInt8.ofNat (x * 16 + y) :: bytes, rest)
      | _, _ => throw .illFormed
    | _ => throw .illFormed
  | rest => return ([], rest)

def text : (fuel : Nat) → List Char → Except Error (List Char × List Char)
  | 0, cs => return ([], cs)
  | fuel + 1, cs => do
    let run := cs.takeWhile isUriChar
    let rest := cs.dropWhile isUriChar
    if rest.head? != some '%' then return (run, rest)
    let (bytes, rest) ← escapes rest
    match Text.Utf8.decode? bytes with
    | none => throw .illFormed
    | some s =>
      let (more, rest) ← text fuel rest
      return (run ++ s.toList ++ more, rest)

/-- A part of a tag's name, which cannot be empty. -/
def read : Scan String := do
  let cs ← reading fun cs => text cs.length cs
  require (!cs.isEmpty)
  return String.ofList cs

end Uri

namespace Property

def name : Scan String := do
  let cs ← takeWhile isNameChar
  require (!cs.isEmpty)
  return String.ofList cs

/-- The name of an anchor or alias, after its sign. -/
def anchorName : Scan String := do
  skip 1
  let name ← name
  let next ← peek
  require (isGap next || next.any ("?:,]\x7d%@\x60".toList.contains ·))
  return name

/-- A handle is one exclamation mark, two of them, or a name between two. -/
def handle : Scan String := do
  require ((← peek) = some '!')
  skip 1
  if (← peek) = some ' ' then return "!"
  let name ← takeWhile isNameChar
  require ((← peek) = some '!')
  skip 1
  return String.ofList ('!' :: name ++ ['!'])

def isHandle (cs : List Char) : Bool :=
  (cs.takeWhile fun c => !endsWord (some c)).contains '!'

def tagBody : Scan WrittenTag := do
  match ((← get).rest.drop 1) with
  | '<' :: _ =>
    skip 2
    let name ← Uri.read
    require ((← peek) = some '>')
    skip 1
    return .verbatim name
  | rest =>
    if isGap rest.head? then
      skip 1
      return .verbatim "!"
    let handle ← if isHandle rest then handle else do skip 1; pure "!"
    return .shorthand handle (← Uri.read)

def tag : Scan WrittenTag := do
  let written ← tagBody
  require (endsWord (← peek))
  return written

def digits : Scan Nat := do
  let cs ← takeWhile Char.isDigit
  require (!cs.isEmpty)
  match Decimal.natural? cs with
  | some n => return n
  | none => throw .noValue

def version : Scan Directive := do
  skipWhile (· = ' ')
  let major ← digits
  require ((← peek) = some '.')
  skip 1
  let _ ← digits
  require (endsWord (← peek))
  return .version major

def handleExpansion : Scan Directive := do
  skipWhile (· = ' ')
  let handle ← handle
  require ((← peek) = some ' ')
  skipWhile (· = ' ')
  let expansion ← Uri.read
  require (endsWord (← peek))
  return .handle handle expansion

/-- A directive takes the rest of its line. Those of other names mean nothing here. -/
def directive : Scan Directive := do
  skip 1
  let name ← name
  require (endsWord (← peek))
  let d ←
    if name = "YAML" then version
    else if name = "TAG" then handleExpansion
    else do
      skipWhile (!isBreak ·)
      pure .other
  restOfLine
  return d

end Property

end BitcodeWrapper.Yaml
