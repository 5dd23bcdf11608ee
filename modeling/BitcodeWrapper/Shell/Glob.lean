/-!
Wildcards: a star for any text, a question mark for one character, a bracket for one of a set. A
quoted character stands for itself.
-/
namespace BitcodeWrapper.Shell

inductive Wildcard where
  | star
  | any
  | set (isNegated : Bool) (ranges : List (Char × Char))
  | char (c : Char)
  deriving Repr, DecidableEq

namespace Wildcard

/-- Where a character stands in ranges: those that are no ASCII come first. -/
def rank (c : Char) : Int := if c.toNat < 128 then c.toNat else (c.toNat : Int) - 256

def covers (c : Char) : Wildcard → Bool
  | star => false
  | any => true
  | set isNegated ranges => ranges.any (fun r => rank r.1 ≤ rank c && rank c ≤ rank r.2) != isNegated
  | char d => c == d

/-- The characters of a named class. -/
def classRanges? : String → Option (List (Char × Char))
  | "alnum" => some [('0', '9'), ('A', 'Z'), ('a', 'z')]
  | "alpha" => some [('A', 'Z'), ('a', 'z')]
  | "blank" => some [('\t', '\t'), (' ', ' ')]
  | "cntrl" => some [('\x00', '\x1f'), ('\x7f', '\x7f')]
  | "digit" => some [('0', '9')]
  | "graph" => some [('!', '~')]
  | "lower" => some [('a', 'z')]
  | "print" => some [(' ', '~')]
  | "punct" => some [('!', '/'), (':', '@'), ('[', '\x60'), ('\x7b', '~')]
  | "space" => some [('\t', '\r'), (' ', ' ')]
  | "upper" => some [('A', 'Z')]
  | "xdigit" => some [('0', '9'), ('A', 'F'), ('a', 'f')]
  | _ => none

/-- Reads the name of a class up to its closing bracket. -/
def class? (cs : List (Char × Bool)) : Option (List (Char × Char) × List (Char × Bool)) :=
  match cs with
  | ('[', false) :: (':', false) :: rest =>
    let name := rest.takeWhile fun x => x.1.isLower
    match classRanges? (String.ofList (name.map (·.1))), rest.drop name.length with
    | some rs, (':', false) :: (']', false) :: after => some (rs, after)
    | _, _ => none
  | _ => none

/-- The ranges of a bracket that has been opened, and what follows it; a bracket that comes first is one
of the set. -/
def ranges? : (fuel : Nat) → (isFirst : Bool) → List (Char × Bool) →
    Option (List (Char × Char) × List (Char × Bool))
  | 0, _, _ => none
  | fuel + 1, isFirst, cs =>
    let joined (rs : List (Char × Char)) (rest : List (Char × Bool)) :=
      (ranges? fuel false rest).map fun (more, after) => (rs ++ more, after)
    match class? cs, cs with
    | some (rs, rest), _ => joined rs rest
    | none, [] => none
    | none, (a, q) :: rest =>
      if a = ']' && !q && !isFirst then some ([], rest)
      else
        match rest with
        | ('-', false) :: (b, q) :: more =>
          if b = ']' && !q then some ([(a, a), ('-', '-')], more) else joined [(a, b)] more
        | _ => joined [(a, a)] rest

/-- A backslash that is no quotation itself quotes the character after it. -/
def unescape : List (Char × Bool) → List (Char × Bool)
  | ('\\', false) :: (c, _) :: rest => (c, true) :: unescape rest
  | x :: rest => x :: unescape rest
  | [] => []

def compile : (fuel : Nat) → List (Char × Bool) → List Wildcard
  | 0, _ | _, [] => []
  | fuel + 1, (c, isQuoted) :: rest =>
    if isQuoted then char c :: compile fuel rest
    else if c = '*' then star :: compile fuel rest
    else if c = '?' then any :: compile fuel rest
    else if c = '[' then
      let isNegated := rest.head? = some ('!', false)
      match ranges? (rest.length + 1) true (if isNegated then rest.drop 1 else rest) with
      | some (rs, after) => set isNegated rs :: compile fuel after
      | none => char c :: compile fuel rest
    else char c :: compile fuel rest

/-- The pattern that a text is, some characters of which are quoted. -/
def ofText (cs : List (Char × Bool)) : List Wildcard := compile cs.length (unescape cs)

/-- The text that a pattern without wildcards stands for. -/
def plain? : List Wildcard → Option String
  | [] => some ""
  | char c :: ws => (plain? ws).map fun s => String.singleton c ++ s
  | _ :: _ => none

def matchesAll : List Wildcard → List Char → Bool
  | [], cs => cs.isEmpty
  | star :: ws, [] => matchesAll ws []
  | star :: ws, c :: cs => matchesAll ws (c :: cs) || matchesAll (star :: ws) cs
  | _ :: _, [] => false
  | w :: ws, c :: cs => w.covers c && matchesAll ws cs
termination_by ws cs => ws.length + cs.length

/-- Of several texts that are joined by NUL, only the first one counts. -/
def matchesFirst (ws : List Wildcard) (cs : List Char) : Bool :=
  matchesAll ws (cs.takeWhile (· != '\x00'))

/-- The length of a matching piece at the front: the shortest one, or the longest. -/
def front? (ws : List Wildcard) (longest : Bool) (cs : List Char) : Option Nat :=
  let lengths := List.range (cs.length + 1)
  (if longest then lengths.reverse else lengths).find? fun n => matchesFirst ws (cs.take n)

/-- How much stands before a matching piece at the back. -/
def back? (ws : List Wildcard) (longest : Bool) (cs : List Char) : Option Nat :=
  let lengths := List.range (cs.length + 1)
  (if longest then lengths else lengths.reverse).find? fun n => matchesFirst ws (cs.drop n)

end Wildcard

end BitcodeWrapper.Shell
