import BitcodeWrapper.Shell.Syntax
import BitcodeWrapper.Text.Word

/-!
Tokens of a script, and the reader that they are taken from. A backslash before a line end joins two
lines.
-/
namespace BitcodeWrapper.Shell

inductive Token where
  | endOfScript
  | newline
  | operator (text : String)
  /-- The signs of a redirection, without its target. -/
  | redirection (stream : Nat) (signs : String)
  | word (word : Word)
  /-- A word with a meaning of its own, where a command may begin. -/
  | reserved (text : String)

def reservedWords : List String :=
  ["!", "case", "do", "done", "elif", "else", "esac", "fi", "for", "if", "in", "then", "until", "while",
    "\x7b", "\x7d"]

/-- The tokens that end a list of commands. -/
def listEnds : List String :=
  [")", ";;", "do", "done", "elif", "else", "esac", "fi", "then", "\x7d"]

namespace Token

def isText (t : Token) (text : String) : Bool :=
  match t with
  | operator s => s == text
  | reserved s => s == text
  | _ => false

def isNewline : Token → Bool
  | newline => true
  | _ => false

def endsList : Token → Bool
  | endOfScript => true
  | operator s | reserved s => listEnds.contains s
  | _ => false

/-- How messages name a token. -/
def description : Token → String
  | endOfScript => "end of file"
  | newline => "newline"
  | operator s | reserved s => "\"" ++ s ++ "\""
  | redirection _ _ => "redirection"
  | word _ => "word"

end Token

def isNameStart (c : Char) : Bool := c.isAlpha || c == '_'

def isNameChar (c : Char) : Bool := Text.isAsciiWord c

/-- Says whether a text can name a variable. -/
def isName (s : String) : Bool :=
  s.toList.head?.any isNameStart && s.toList.all isNameChar

def isSpecialParameter (c : Char) : Bool :=
  c.isDigit || ['@', '*', '#', '?', '$', '!', '-'].contains c

def endsWord (c : Char) : Bool :=
  [' ', '\t', '\n', ';', '&', '|', '<', '>', '(', ')'].contains c

/-- Appends a character to the parts read so far, the last one first. -/
def pushLiteral (c : Char) (isQuoted : Bool) : List Part → List Part
  | .literal s q :: parts =>
    if q == isQuoted then .literal (s.push c) q :: parts
    else .literal (String.singleton c) isQuoted :: .literal s q :: parts
  | parts => .literal (String.singleton c) isQuoted :: parts

/-- A word that begins with a name and an equals sign binds a variable. -/
def assignment? : Word → Option (String × Word)
  | .literal s false :: parts =>
    let name := s.toList.takeWhile isNameChar
    match s.toList.dropWhile isNameChar with
    | '=' :: value =>
      if name.head?.any isNameStart then
        let parts := if value.isEmpty then parts else .literal (String.ofList value) false :: parts
        some (String.ofList name, parts)
      else none
    | _ => none
  | _ => none

/-- A text in the script that a redirection waits for. -/
structure Awaited where
  number : Nat
  mark : List Char
  stripsTabs : Bool
  /-- The text is taken as it is. -/
  isVerbatim : Bool

/-- An alias whose text is being read, how much will be left after it, and whether the word after it may
be an alias as well. -/
structure Expanding where
  name : String
  left : Nat
  goesOn : Bool

structure Reader where
  rest : List Char
  line : Nat
  /-- A token that was read too early. -/
  pushed : Option Token
  awaited : List Awaited
  documents : List (Nat × Word)
  nextDocument : Nat
  aliases : List (String × String)
  expanding : List Expanding
  /-- The text in the script that is being read, if it has expansions. -/
  mark : Option Awaited
  /-- The mark of that text has been read. -/
  isEnded : Bool

/-- A reader at the start of a text. -/
def Reader.start (text : String) : Reader :=
  { rest := text.toList
    line := 1
    pushed := none
    awaited := []
    documents := []
    nextDocument := 0
    aliases := []
    expanding := []
    mark := none
    isEnded := false }

/-- Reading fails with a message about the line that the reader has come to. -/
abbrev Read := EStateM String Reader

namespace Read

/-- The next character, whatever it is. -/
def peekRaw : Read (Option Char) := return (← get).rest.head?

def advance : Read Unit :=
  modify fun r =>
    match r.rest with
    | [] => r
    | c :: rest => { r with rest, line := if c = '\n' then r.line + 1 else r.line }

/-- Drops joints of lines from the front, and counts them. -/
def unjoined (line : Nat) : List Char → Nat × List Char
  | '\\' :: '\n' :: rest => unjoined (line + 1) rest
  | rest => (line, rest)

/-- The next character after joints of lines. -/
def peek : Read (Option Char) := do
  modify fun r =>
    let (line, rest) := unjoined r.line r.rest
    { r with line, rest }
  peekRaw

/-- Takes the next character if it is this one. -/
def accept (c : Char) : Read Bool := do
  if (← peek) = some c then
    advance
    return true
  return false

/-- Takes characters as long as they satisfy a condition. -/
def takeWhile (p : Char → Bool) : (fuel : Nat) → Read (List Char)
  | 0 => return []
  | fuel + 1 => do
    match ← peek with
    | some c =>
      if !p c then return []
      advance
      return c :: (← takeWhile p fuel)
    | none => return []

def takeAll (p : Char → Bool) : Read (List Char) := do
  takeWhile p ((← get).rest.length + 1)

/-- Takes characters up to the next one that is not to be taken, joints of lines included. -/
def takeRaw (p : Char → Bool) : Read (List Char) := do
  let run := (← get).rest.takeWhile p
  modify fun r => { r with rest := r.rest.drop run.length, line := r.line + run.count '\n' }
  return run

def push (t : Token) : Read Unit := modify fun r => { r with pushed := some t }

/-- The longest message about a token. -/
def messageLimit : Nat := 63

/-- Refuses a token, perhaps since another one should stand there. -/
def unexpected {α : Type} (t : Token) (expected : Option Token) : Read α :=
  let text := t.description ++ " unexpected" ++
    (match expected with
    | some e => " (expecting " ++ e.description ++ ")"
    | none => "")
  throw (String.ofList (text.toList.take messageLimit))

/-- Skips blanks and a comment before a token. -/
def skipBlanks : (fuel : Nat) → Read Unit
  | 0 => pure ()
  | fuel + 1 => do
    match ← peek with
    | some ' ' | some '\t' =>
      advance
      skipBlanks fuel
    | some '#' =>
      let _ ← takeRaw (· != '\n')
      skipBlanks fuel
    | _ => pure ()

/-- The operators of one or two characters; the longest one counts. -/
def operator? : Read (Option String) := do
  match ← peek with
  | some c =>
    if c = '(' || c = ')' then
      advance
      return some (String.singleton c)
    else if c = '&' || c = '|' || c = ';' then
      advance
      return some (if ← accept c then String.ofList [c, c] else String.singleton c)
    else return none
  | none => return none

/-- The signs of a redirection. -/
def redirectSigns : Read String := do
  if ← accept '>' then
    if ← accept '>' then return ">>"
    if ← accept '|' then return ">|"
    if ← accept '&' then return ">&"
    return ">"
  advance
  if ← accept '<' then
    return if ← accept '-' then "<<-" else "<<"
  if ← accept '&' then return "<&"
  if ← accept '>' then return "<>"
  return "<"

/-- The alias that a word stands for, unless its own text is being read. -/
def alias? (text : String) : Read (Option String) := do
  let r ← get
  let isExpanding := r.expanding.any fun e => e.name = text && e.left ≤ r.rest.length
  return if isExpanding then none else r.aliases.lookup text

def expandAlias (name value : String) : Read Unit :=
  modify fun r =>
    let goesOn := value.toList.getLast?.any fun c => c = ' ' || c = '\t'
    { r with
      rest := value.toList ++ r.rest, expanding := ⟨name, r.rest.length, goesOn⟩ :: r.expanding }

/-- Forgets the aliases whose text has been read, and says whether one of them goes on. -/
def passAliases : Read Bool := do
  let r ← get
  let (passed, others) := r.expanding.partition fun e => r.rest.length < e.left
  set { r with expanding := others }
  return passed.any (·.goesOn)

/-- At the start of a line of a text in the script: takes the mark that ends the text. -/
def passMark : Read Unit :=
  modify fun r =>
    match r.mark with
    | none => r
    | some a =>
      let rest := if a.stripsTabs then r.rest.dropWhile (· = '\t') else r.rest
      let line := rest.takeWhile (· != '\n')
      if line = a.mark then
        { r with
          rest := rest.drop (line.length + 1), isEnded := true
          line := if line.length < rest.length then r.line + 1 else r.line }
      else { r with rest }

/-- The next character of a word or of a text in the script, up to its mark. -/
def peekPart : Read (Option Char) := do
  if (← get).isEnded then return none
  peek

/-- The lines up to one that is a mark, and what follows it. -/
def verbatimText (a : Awaited) : (fuel : Nat) → List Char → List Char × List Char
  | 0, cs => ([], cs)
  | fuel + 1, cs =>
    if cs.isEmpty then ([], [])
    else
      let cs := if a.stripsTabs then cs.dropWhile (· = '\t') else cs
      let line := cs.takeWhile (· != '\n')
      let rest := cs.drop (line.length + 1)
      if line = a.mark then ([], rest)
      else
        let ends := if cs.length = line.length then [] else ['\n']
        let (more, after) := verbatimText a fuel rest
        (line ++ ends ++ more, after)

end Read

/-- What is read first: whether newlines are passed over, reserved words have their meaning, aliases are
replaced, and expansions are left alone. -/
structure Mode where
  skipsNewlines : Bool
  isCommandStart : Bool
  replacesAliases : Bool
  isMark : Bool

namespace Mode

def plain : Mode := ⟨false, false, false, false⟩

/-- At the start of a command, on this line or a later one. -/
def inner : Mode := ⟨true, true, true, false⟩

/-- At the start of a command on this line. -/
def outer : Mode := ⟨false, true, true, false⟩

def argument : Mode := ⟨false, false, true, false⟩

def pattern : Mode := ⟨true, true, false, false⟩

def mark : Mode := ⟨false, false, false, true⟩

end Mode

end BitcodeWrapper.Shell
