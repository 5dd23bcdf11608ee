import BitcodeWrapper.Text.Blank
import BitcodeWrapper.Text.Quoted

/-!
The text of lists, tuples and mappings, and the wrapped text of a command, which is cut into lines
where it does not fit into eighty columns.
-/
namespace BitcodeWrapper.Text

def commaSeparated (items : List String) : String :=
  String.intercalate ", " items

def bracketed (items : List String) : String :=
  "[" ++ commaSeparated items ++ "]"

/-- A tuple of one item keeps a comma, which tells it from a plain item in brackets. -/
def tupled : List String → String
  | [item] => "(" ++ item ++ ",)"
  | items => "(" ++ commaSeparated items ++ ")"

def braced (entries : List (String × String)) : String :=
  "\x7b" ++ commaSeparated (entries.map fun e => e.1 ++ ": " ++ e.2) ++ "\x7d"

def quotedList (items : List String) : String :=
  bracketed (items.map quoted)

def yesOrNo (b : Bool) : String :=
  if b then "True" else "False"

def orNone (written : Option String) : String := written.getD "None"

namespace Wrapped

def width : Nat := 80

/-- Cuts a line after each run of blanks. -/
def blankRuns : List Char → List (List Char)
  | [] => []
  | c :: cs =>
    match blankRuns cs with
    | [] => [[c]]
    | (d :: run) :: runs =>
      if isBlank c && !isBlank d then [c] :: (d :: run) :: runs else (c :: d :: run) :: runs
    | [] :: runs => [c] :: runs

/-- Gathers pieces into chunks whose quoted form keeps within the limit; the last piece of all has
`reserved` columns less. -/
def gather (limit reserved : Nat) (isLastLine : Bool) :
    List Char → List (List Char) → List String
  | current, [] => if current.isEmpty then [] else [String.ofList (quotedChars current)]
  | current, piece :: pieces =>
    let room := if isLastLine && pieces.isEmpty then limit - reserved else limit
    if (quotedChars (current ++ piece)).length > room then
      (if current.isEmpty then [] else [String.ofList (quotedChars current)]) ++
        gather limit reserved isLastLine piece pieces
    else gather limit reserved isLastLine (current ++ piece) pieces

def chunksOfLines (limit reserved : Nat) : List (List Char) → List String
  | [] => []
  | line :: lines =>
    let isLast := lines.isEmpty
    let room := if isLast then limit - reserved else limit
    let written := quotedChars line
    (if written.length ≤ room then [String.ofList written]
      else gather limit reserved isLast [] (blankRuns line)) ++
      chunksOfLines limit reserved lines

/-- One item of a wrapped list, which stands one column in from the bracket. -/
def item (s : String) : String :=
  let whole := quoted s
  if whole.length ≤ width - 2 then whole
  else String.intercalate "\n " (chunksOfLines (width - 1) 1 (linesWithEnds s.toList))

def list (items : List String) : String :=
  let whole := quotedList items
  if whole.length ≤ width then whole
  else "[" ++ String.intercalate ",\n " (items.map item) ++ "]"

end Wrapped

end BitcodeWrapper.Text
