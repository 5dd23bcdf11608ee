import BitcodeWrapper.Shell.Glob

/-!
Fields: what a word becomes when it is cut at separators. Blanks around a separator go with it, and
blanks alone separate as well.
-/
namespace BitcodeWrapper.Shell

/-- A character of an expanded word, or a mark between two of them. -/
inductive Glyph where
  /-- A character cuts fields only if it came from an expansion. -/
  | char (c : Char) (isQuoted splits : Bool)
  /-- A field ends here, as at a blank. -/
  | boundary
  /-- A field is here even if nothing else is. -/
  | keep
  deriving Repr, DecidableEq

/-- The text of a field; quoted characters are marked. -/
abbrev Field := List (Char × Bool)

def Field.text (f : Field) : String := String.ofList (f.map (·.1))

namespace Glyph

def ofText (isQuoted splits : Bool) (text : String) : List Glyph :=
  text.toList.map fun c => char c isQuoted splits

/-- What a quotation holds. -/
def ofQuoted (text : String) : List Glyph := keep :: ofText true false text

/-- The same in an expansion: what is not quoted cuts fields. -/
def expanded : Glyph → Glyph
  | char c false _ => char c false true
  | g => g

def character? : Glyph → Option (Char × Bool)
  | char c isQuoted _ => some (c, isQuoted)
  | _ => none

/-- A word that is not cut. -/
def whole (gs : List Glyph) : Field := gs.filterMap character?

def text (gs : List Glyph) : String := (whole gs).text

def pattern (gs : List Glyph) : List Wildcard := Wildcard.ofText (whole gs)

end Glyph

/-- The separators that may stand around others. -/
def blanks : List Char := [' ', '\t', '\n']

namespace Field

/-- Cuts a word. The field that is being read, if there is one, is held with its last character first;
`absorbs` says that another separator still belongs to the blanks before it. -/
def cutFrom (separators : List Char) : (absorbs : Bool) → Option Field → List Glyph → List Field
  | _, none, [] => []
  | _, some f, [] => [f.reverse]
  | _, current, .keep :: gs => cutFrom separators false (some (current.getD [])) gs
  | _, some f, .boundary :: gs => f.reverse :: cutFrom separators true none gs
  | absorbs, none, .boundary :: gs => cutFrom separators absorbs none gs
  | absorbs, current, .char c isQuoted splits :: gs =>
    if splits && separators.contains c then
      let isBlank := blanks.contains c
      match current with
      | some f => f.reverse :: cutFrom separators isBlank none gs
      | none =>
        if isBlank then cutFrom separators absorbs none gs
        else if absorbs then cutFrom separators false none gs
        else [] :: cutFrom separators false none gs
    else cutFrom separators false (some ((c, isQuoted) :: current.getD [])) gs

def cut (separators : List Char) (gs : List Glyph) : List Field := cutFrom separators false none gs

end Field

/-- A line that has been read, where escaped characters do not separate. -/
abbrev Line := List (Char × Bool)

namespace Line

def separates (separators : List Char) (x : Char × Bool) : Bool := !x.2 && separators.contains x.1

def isBlank (separators : List Char) (x : Char × Bool) : Bool :=
  separates separators x && blanks.contains x.1

/-- The first field, and what comes after its separator. -/
def first (separators : List Char) (l : Line) : Line × Line :=
  let isGap := separates separators
  let rest := (l.dropWhile fun x => !isGap x).dropWhile (isBlank separators)
  (l.takeWhile fun x => !isGap x,
    match rest with
    | x :: more => if isGap x then more.dropWhile (isBlank separators) else rest
    | [] => [])

def text (l : Line) : String := String.ofList (l.map (·.1))

/-- Where the last field of a line ends if something is cut off behind it: blanks, or one separator if
there is no other. Escaped characters are passed over. -/
def end? (separators : List Char) (l : Line) : Option Nat :=
  let step (state : Option Nat × Bool × Bool) (x : (Char × Bool) × Nat) : Option Nat × Bool × Bool :=
    let (found, isAfter, absorbs) := state
    if x.1.2 then state
    else if isBlank separators x.1 then (some (found.getD x.2), true, absorbs || !isAfter)
    else if separates separators x.1 then
      if !isAfter then (some x.2, true, false)
      else (if absorbs then found else none, true, false)
    else (none, isAfter, false)
  (l.zipIdx.foldl step (none, false, false)).1

/-- Cuts a line into a number of fields. The last one takes all that is left. -/
def fieldsFrom (separators : List Char) : (count : Nat) → Line → List String
  | 0, _ => []
  | 1, l =>
    [text (match end? separators l with
      | some n => l.take n
      | none => l)]
  | count + 1, l =>
    let (f, rest) := first separators l
    text f :: fieldsFrom separators count rest

def fields (separators : List Char) (count : Nat) (l : Line) : List String :=
  fieldsFrom separators count (l.dropWhile (isBlank separators))

end Line

end BitcodeWrapper.Shell
