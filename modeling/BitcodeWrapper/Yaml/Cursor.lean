/-!
A place in a YAML text, and the steps that reading takes from there. Line ends have been brought to
newlines before; a few other characters end a line as well.
-/
namespace BitcodeWrapper.Yaml

inductive Error where
  /-- The text is not a document of this format. -/
  | illFormed
  /-- A scalar has the form of a date, a number or the like, but there is no such value. -/
  | noValue
  /-- Collections are nested deeper than can be read. -/
  | tooDeep
  deriving Repr, DecidableEq

def byteOrderMark : Char := '\ufeff'

/-- The characters that a text may hold. -/
def isAllowed (c : Char) : Bool :=
  let n := c.toNat
  c = '\t' || c = '\n' || (0x20 ≤ n && n ≤ 0x7e) || n = 0x85 || (0xa0 ≤ n && n ≤ 0xd7ff) ||
    (0xe000 ≤ n && n ≤ 0xfffd) || 0x10000 ≤ n

def isBreak (c : Char) : Bool :=
  c = '\n' || c = '\u0085' || c = '\u2028' || c = '\u2029'

def isIndentBlank (c : Char) : Bool := c = ' ' || c = '\t'

/-- The end of the text ends a line too. -/
def endsLine : Option Char → Bool
  | some c => isBreak c
  | none => true

def endsWord (next : Option Char) : Bool := next = some ' ' || endsLine next

def isGap (next : Option Char) : Bool := next = some '\t' || endsWord next

structure Cursor where
  rest : List Char
  index : Nat
  line : Nat
  column : Nat
  deriving Repr, DecidableEq

namespace Cursor

def ofText (text : List Char) : Cursor := ⟨text, 0, 0, 0⟩

/-- A byte order mark takes no column. -/
def next (c : Cursor) : Cursor :=
  match c.rest with
  | [] => c
  | ch :: rest =>
    if isBreak ch then ⟨rest, c.index + 1, c.line + 1, 0⟩
    else ⟨rest, c.index + 1, c.line, if ch = byteOrderMark then c.column else c.column + 1⟩

def advance (c : Cursor) : Nat → Cursor
  | 0 => c
  | n + 1 => c.next.advance n

end Cursor

abbrev Scan := EStateM Error Cursor

namespace Scan

def require (condition : Bool) : Scan Unit :=
  if condition then pure () else throw .illFormed

def peek : Scan (Option Char) := return (← get).rest.head?

def skip (n : Nat) : Scan Unit := modify (·.advance n)

def takeWhile (p : Char → Bool) : Scan (List Char) := do
  let run := (← get).rest.takeWhile p
  skip run.length
  return run

def skipWhile (p : Char → Bool) : Scan Unit := do
  let _ ← takeWhile p

/-- Moves on by what a function of the rest of the text reads. -/
def reading {α : Type} (f : List Char → Except Error (α × List Char)) : Scan α := do
  let rest := (← get).rest
  match f rest with
  | .error e => throw e
  | .ok (a, after) =>
    skip (rest.length - after.length)
    return a

/-- Reads one line break. The separators of Unicode stand for themselves, all others for a newline. -/
def lineBreak : Scan (List Char) := do
  match ← peek with
  | some c =>
    if !isBreak c then return []
    skip 1
    return if c = '\u2028' || c = '\u2029' then [c] else ['\n']
  | none => return []

/-- Reads what is left of a line that may hold nothing but a comment. -/
def restOfLine : Scan Unit := do
  skipWhile (· = ' ')
  if (← peek) = some '#' then skipWhile (!isBreak ·)
  require (endsLine (← peek))
  let _ ← lineBreak

end Scan

/-- Says whether a line that starts here separates documents. -/
def isSeparator : List Char → Bool
  | '-' :: '-' :: '-' :: rest => isGap rest.head?
  | '.' :: '.' :: '.' :: rest => isGap rest.head?
  | _ => false

def hexValue? (c : Char) : Option Nat :=
  if '0' ≤ c && c ≤ '9' then some (c.toNat - 48)
  else if 'a' ≤ c && c ≤ 'f' then some (c.toNat - 87)
  else if 'A' ≤ c && c ≤ 'F' then some (c.toNat - 55)
  else none

end BitcodeWrapper.Yaml
