import BitcodeWrapper.Text.Loose
import BitcodeWrapper.Yaml.Cursor

/-!
Reading scalars: quoted, plain and in blocks. A single line break inside a scalar that is folded
stands for a blank, and of several in a row the first one is dropped.
-/
namespace BitcodeWrapper.Yaml

open Scan

/-- What the line breaks between two lines of a folded scalar stand for. -/
def folded (first more : List Char) : List Char :=
  if first != ['\n'] then first ++ more
  else if more.isEmpty then [' ']
  else more

/-- The text that a line break stands for. -/
def breakText (c : Char) : List Char :=
  if c = '\u2028' || c = '\u2029' then [c] else ['\n']

namespace Quoted

open Text (Point)

def escapes : List (Char × Char) :=
  [('0', '\x00'), ('a', '\x07'), ('b', '\x08'), ('t', '\t'), ('\t', '\t'), ('n', '\n'),
    ('v', '\x0b'), ('f', '\x0c'), ('r', '\r'), ('e', '\x1b'), (' ', ' '), ('\x22', '\x22'),
    ('\\', '\\'), ('/', '/'), ('N', '\u0085'), ('_', '\u00a0'), ('L', '\u2028'), ('P', '\u2029')]

def codeLengths : List (Char × Nat) := [('x', 2), ('u', 4), ('U', 8)]

/-- Reads a character by its number. Numbers between the characters stand for lone surrogates, also where
two of them make a pair, and numbers beyond the last one for nothing. -/
def code (length : Nat) (cs : List Char) : Except Error (Point × List Char) :=
  match (cs.take length).mapM hexValue? with
  | some digits =>
    let n := digits.foldl (fun n d => n * 16 + d) 0
    if digits.length < length then throw .illFormed
    else if 0x110000 ≤ n then throw .noValue
    else return (.ofNat n, cs.drop length)
  | none => throw .illFormed

/-- The further line breaks after one, and the blanks that begin their lines. -/
def breaks : (fuel : Nat) → List Char → Except Error (List Char × List Char)
  | 0, cs => return ([], cs)
  | fuel + 1, cs => do
    if isSeparator cs then throw .illFormed
    match cs.dropWhile isIndentBlank with
    | [] => return ([], [])
    | c :: rest =>
      if !isBreak c then return ([], c :: rest)
      let (more, rest) ← breaks fuel rest
      return (breakText c ++ more, rest)

/-- Reads from blanks or a line break on; blanks around line breaks are dropped. -/
def gap (cs : List Char) : Except Error (List Char × List Char) :=
  match cs.dropWhile isIndentBlank with
  | [] => throw .illFormed
  | c :: rest =>
    if isBreak c then do
      let (more, rest) ← breaks (rest.length + 1) rest
      return (folded (breakText c) more, rest)
    else return (cs.takeWhile isIndentBlank, c :: rest)

/-- Reads after a backslash. -/
def escape (cs : List Char) : Except Error (List Point × List Char) :=
  match cs with
  | [] => throw .illFormed
  | c :: rest =>
    match escapes.lookup c, codeLengths.lookup c with
    | some meant, _ => return ([.char meant], rest)
    | none, some length => do
      let (meant, rest) ← code length rest
      return ([meant], rest)
    | none, none => do
      if !isBreak c then throw .illFormed
      let (more, rest) ← breaks (rest.length + 1) rest
      return (more.map .char, rest)

/-- Reads up to the closing quote. -/
def body (isDouble : Bool) : (fuel : Nat) → List Char → Except Error (List Point × List Char)
  | 0, _ => throw .illFormed
  | _, [] => throw .illFormed
  | fuel + 1, c :: rest => do
    if c = '\x22' && isDouble then return ([], rest)
    if c = '\x27' && !isDouble && rest.head? != some '\x27' then return ([], rest)
    let (piece, rest) ←
      if c = '\x27' && !isDouble then pure ([Point.char c], rest.drop 1)
      else if c = '\\' && isDouble then escape rest
      else if isIndentBlank c || isBreak c then do
        let (between, rest) ← gap (c :: rest)
        pure (between.map Point.char, rest)
      else pure ([Point.char c], rest)
    let (more, rest) ← body isDouble fuel rest
    return (piece ++ more, rest)

/-- Reads a scalar from its opening quote on. -/
def scan : Scan LooseText := do
  let quote ← peek
  skip 1
  return ⟨← reading fun cs => body (quote = some '\x22') (cs.length + 1) cs⟩

end Quoted

namespace Plain

/-- A colon ends a plain scalar before a gap, and in a flow before the flow's signs as well. -/
def stops (inFlow : Bool) : List Char → Bool
  | [] => true
  | c :: rest =>
    isGap (some c) ||
      (c = ':' && (isGap rest.head? || (inFlow && rest.head?.any (",[]\x7b\x7d".toList.contains ·)))) ||
      (inFlow && ",?[]\x7b\x7d".toList.contains c)

def run (inFlow : Bool) : List Char → List Char
  | [] => []
  | c :: rest => if stops inFlow (c :: rest) then [] else c :: run inFlow rest

/-- The further line breaks after one; `none` where a line separates documents. -/
def breaks : (fuel : Nat) → Scan (Option (List Char))
  | 0 => return some []
  | fuel + 1 => do
    skipWhile (· = ' ')
    match ← lineBreak with
    | [] => return some []
    | text =>
      if isSeparator (← get).rest then return none
      return (← breaks fuel).map (text ++ ·)

/-- What stands between two runs of a plain scalar, and whether a line ends there. It is empty where
the scalar ends. -/
def gap : Scan (List Char × Bool) := do
  let blanks ← takeWhile (· = ' ')
  match ← lineBreak with
  | [] => return (blanks, false)
  | first =>
    let rest := (← get).rest
    if isSeparator rest then return ([], true)
    match ← breaks (rest.length + 1) with
    | none => return ([], true)
    | some more => return (folded first more, true)

/-- Reads on after `between`, which follows what was read so far. The answer says as well whether a line
ended after the last run. -/
def body (indent : Nat) (inFlow : Bool) :
    (fuel : Nat) → (between : List Char) → (atNewLine : Bool) → Scan (List Char × Bool)
  | 0, _, atNewLine => return ([], atNewLine)
  | fuel + 1, between, atNewLine => do
    let rest := (← get).rest
    let run := if rest.head? = some '#' then [] else run inFlow rest
    if run.isEmpty then return ([], atNewLine)
    skip run.length
    let (next, atNewLine) ← gap
    let here ← get
    if next.isEmpty || here.rest.head? = some '#' || (!inFlow && here.column < indent) then
      return (between ++ run, atNewLine)
    let (more, atNewLine) ← body indent inFlow fuel next atNewLine
    return (between ++ run ++ more, atNewLine)

def scan (indent : Nat) (inFlow : Bool) : Scan (String × Bool) := do
  let (cs, atNewLine) ← body indent inFlow ((← get).rest.length + 1) [] false
  return (String.ofList cs, atNewLine)

/-- Says whether a plain scalar can start here. -/
def canStart (inFlow : Bool) : List Char → Bool
  | [] => false
  | c :: rest =>
    !(isGap (some c) || "-?:,[]\x7b\x7d#&*!|>\x27\x22%@\x60".toList.contains c) ||
      (!isGap rest.head? && (c = '-' || (!inFlow && (c = '?' || c = ':'))))

end Plain

namespace Block

/-- What becomes of the line breaks at the end: all kept, one kept, none kept. -/
inductive Ending where
  | keep
  | clip
  | strip
  deriving Repr, DecidableEq

structure Header where
  ending : Ending
  indent : Option Nat
  deriving Repr, DecidableEq

def ending? : Scan (Option Ending) := do
  match ← peek with
  | some '+' => skip 1; return some .keep
  | some '-' => skip 1; return some .strip
  | _ => return none

def indent? : Scan (Option Nat) := do
  match ← peek with
  | some c =>
    if !c.isDigit then return none
    require (c != '0')
    skip 1
    return some (c.toNat - 48)
  | none => return none

/-- The two marks after the sign of a block come in any order. -/
def header : Scan Header := do
  let h ←
    match ← ending? with
    | some ending => pure ⟨ending, ← indent?⟩
    | none =>
      let indent ← indent?
      let ending ← if indent.isSome then ending? else pure none
      pure ⟨ending.getD .clip, indent⟩
  require (endsWord (← peek))
  return h

/-- The blank lines before a block and the most columns that one of them has. -/
def leadingLines : (fuel : Nat) → Scan (List Char × Nat)
  | 0 => return ([], 0)
  | fuel + 1 => do
    skipWhile (· = ' ')
    let width := (← get).column
    match ← lineBreak with
    | [] => return ([], width)
    | text =>
      let (more, widest) ← leadingLines fuel
      return (text ++ more, max width widest)

def skipIndent (indent : Nat) : Scan Unit := do
  let here ← get
  skip (min (here.rest.takeWhile (· = ' ')).length (indent - here.column))

/-- The blank lines between two lines of a block. -/
def breaks (indent : Nat) : (fuel : Nat) → Scan (List Char)
  | 0 => return []
  | fuel + 1 => do
    skipIndent indent
    match ← lineBreak with
    | [] => return []
    | text => return text ++ (← breaks indent fuel)

def isInside (indent : Nat) (here : Cursor) : Bool :=
  here.column = indent && !here.rest.isEmpty

/-- The lines of a block, from `blankLines` on. Where the text is folded, lines that begin with a blank
keep their line breaks. -/
def lines (isFolded : Bool) (ending : Ending) (indent : Nat) :
    (fuel : Nat) → (blankLines : List Char) → Scan (List Char)
  | 0, _ => return []
  | fuel + 1, blankLines => do
    let startsInked := !(← peek).any isIndentBlank
    let line ← takeWhile (!isBreak ·)
    let text ← lineBreak
    let more ← breaks indent ((← get).rest.length + 1)
    let here ← get
    let read := blankLines ++ line
    if isInside indent here then
      let joint :=
        if isFolded && text = ['\n'] && startsInked && !here.rest.head?.any isIndentBlank then
          if more.isEmpty then [' '] else []
        else text
      return read ++ joint ++ (← lines isFolded ending indent fuel more)
    else
      return read ++ (match ending with
        | .keep => text ++ more
        | .clip => text
        | .strip => [])

/-- Reads a block from its sign on. It is indented deeper than `outer`, and at least by one column. -/
def scan (outer : Int) : Scan String := do
  let isFolded := (← peek) = some '>'
  skip 1
  let header ← header
  restOfLine
  let least := (max (outer + 1) 1).toNat
  let fuel := (← get).rest.length + 1
  let (indent, first) ←
    match header.indent with
    | some n =>
      let indent := least + n - 1
      pure (indent, ← breaks indent fuel)
    | none =>
      let (first, widest) ← leadingLines fuel
      pure (max least widest, first)
  let text ←
    if isInside indent (← get) then lines isFolded header.ending indent fuel first
    else pure (if header.ending = .keep then first else [])
  return String.ofList text

end Block

end BitcodeWrapper.Yaml
