import BitcodeWrapper.Pattern.Basic

/-!
The written form of patterns. Text is cut into tokens, and the tokens are gathered with one open
frame for each open bracket.
-/
namespace BitcodeWrapper.Pattern

inductive Token where
  | cls (cls : CharClass)
  | start
  | stop
  | opening
  | closing
  | bar
  | times (least : Nat) (most : Option Nat)
  deriving Repr, DecidableEq

/-- The escapes that stand for a class or for one character. -/
def escape? (c : Char) : Option ClassItem :=
  if c == 'w' then some (.word false)
  else if c == 'W' then some (.word true)
  else if c == 's' then some (.blank false)
  else if c == 'S' then some (.blank true)
  else if c == 'n' then some (.range '\n' '\n')
  else if c == 't' then some (.range '\t' '\t')
  else if c == 'r' then some (.range '\r' '\r')
  else if c == 'f' then some (.range '\x0c' '\x0c')
  else if c == 'v' then some (.range '\x0b' '\x0b')
  else if c == 'a' then some (.range '\x07' '\x07')
  else if c.isAlphanum then none
  else some (.range c c)

/-- One end of a class range, or a class of its own. -/
def classAtom? : List Char → Option (ClassItem × List Char)
  | [] => none
  | '\\' :: [] => none
  | '\\' :: c :: rest => (escape? c).map (·, rest)
  | c :: rest => some (.range c c, rest)

def rangeOf? : ClassItem → ClassItem → Option ClassItem
  | .range a _, .range b _ => if a ≤ b then some (.range a b) else none
  | _, _ => none

/-- Reads a class up to its closing bracket. A bracket that comes first is an item. -/
def classItems? : (fuel : Nat) → List ClassItem → List Char → Option (List ClassItem × List Char)
  | 0, _, _ => none
  | fuel + 1, items, cs =>
    match cs with
    | [] => none
    | ']' :: rest =>
      if items.isEmpty then oneItem fuel items cs else some (items.reverse, rest)
    | _ => oneItem fuel items cs
where
  oneItem (fuel : Nat) (items : List ClassItem) (cs : List Char) :
      Option (List ClassItem × List Char) :=
    match classAtom? cs with
    | none => none
    | some (low, '-' :: rest) =>
      match rest with
      | [] => none
      | ']' :: rest => some ((.range '-' '-' :: low :: items).reverse, rest)
      | _ =>
        match classAtom? rest with
        | none => none
        | some (high, rest) =>
          match rangeOf? low high with
          | none => none
          | some item => classItems? fuel (item :: items) rest
    | some (item, rest) => classItems? fuel (item :: items) rest

def class? (cs : List Char) : Option (CharClass × List Char) :=
  match cs with
  | '^' :: rest => (classItems? (rest.length + 1) [] rest).map fun (items, rest) => (⟨true, items⟩, rest)
  | _ => (classItems? (cs.length + 1) [] cs).map fun (items, rest) => (⟨false, items⟩, rest)

def number? (digits : List Char) : Option Nat :=
  if digits.isEmpty then none
  else some (digits.foldl (fun n c => n * 10 + (c.toNat - 48)) 0)

/-- What follows an opening brace, if it counts repetitions. -/
def braces? (cs : List Char) : Option (Nat × Option Nat × List Char) :=
  let low := cs.takeWhile Char.isDigit
  match cs.dropWhile Char.isDigit with
  | '}' :: rest => (number? low).map fun n => (n, some n, rest)
  | ',' :: rest =>
    let high := rest.takeWhile Char.isDigit
    match rest.dropWhile Char.isDigit with
    | '}' :: rest => some ((number? low).getD 0, number? high, rest)
    | _ => none
  | _ => none

def token? : List Char → Option (Token × List Char)
  | [] => none
  | c :: rest =>
    if c == '.' then some (.cls .anyInLine, rest)
    else if c == '^' then some (.start, rest)
    else if c == '$' then some (.stop, rest)
    else if c == '(' then some (.opening, rest)
    else if c == ')' then some (.closing, rest)
    else if c == '|' then some (.bar, rest)
    else if c == '*' then some (.times 0 none, rest)
    else if c == '+' then some (.times 1 none, rest)
    else if c == '?' then some (.times 0 (some 1), rest)
    else if c == '[' then (class? rest).map fun (cls, rest) => (.cls cls, rest)
    else if c == '\\' then
      match rest with
      | [] => none
      | d :: rest => (escape? d).map fun item => (.cls ⟨false, [item]⟩, rest)
    else if c == '\x7b' then
      match braces? rest with
      | some (least, most, rest) => some (.times least most, rest)
      | none => some (.cls (.single c), rest)
    else some (.cls (.single c), rest)

def tokens? : (fuel : Nat) → List Char → Option (List Token)
  | _, [] => some []
  | 0, _ :: _ => none
  | fuel + 1, cs =>
    match token? cs with
    | none => none
    | some (t, rest) => (tokens? fuel rest).map (t :: ·)

/-- What a repetition may be put on: not an anchor, and not a repetition. A question mark after a
repetition asks for the shortest one, which matches the same texts. -/
inductive Repeatable where
  | yes
  | repeated
  | no
  deriving Repr, DecidableEq

structure Item where
  pattern : Pattern
  repeatable : Repeatable

/-- An open bracket: the alternatives behind and the items so far, the last one first. -/
structure Frame where
  alternatives : Option Pattern
  items : List Item

namespace Frame

def blank : Frame := ⟨none, []⟩

def push (f : Frame) (p : Pattern) (r : Repeatable) : Frame :=
  { f with items := ⟨p, r⟩ :: f.items }

def sequence (f : Frame) : Pattern :=
  match f.items.reverse.map (·.pattern) with
  | [] => .empty
  | p :: ps => ps.foldl .seq p

def close (f : Frame) : Pattern :=
  match f.alternatives with
  | none => f.sequence
  | some p => .alt p f.sequence

def bar (f : Frame) : Frame :=
  ⟨some f.close, []⟩

def repeated (p : Pattern) (least : Nat) : Option Nat → Pattern
  | none => if least = 0 then .star p else if least = 1 then .plus p else .seq (p.power least) (.star p)
  | some most =>
    if least = most then p.power least
    else if least = 0 && most = 1 then .option p
    else .seq (p.power least) (p.upTo (most - least))

def times? (f : Frame) (least : Nat) (most : Option Nat) : Option Frame :=
  if most.any (· < least) then none
  else match f.items with
    | [] => none
    | ⟨p, .yes⟩ :: items => some { f with items := ⟨repeated p least most, .repeated⟩ :: items }
    | ⟨p, .repeated⟩ :: items =>
      if least = 0 && most = some 1 then some { f with items := ⟨p, .no⟩ :: items } else none
    | ⟨_, .no⟩ :: _ => none

end Frame

def gather? : List Token → Frame → List Frame → Option Pattern
  | [], top, [] => some top.close
  | [], _, _ :: _ => none
  | .cls cls :: ts, top, frames => gather? ts (top.push (.one cls) .yes) frames
  | .start :: ts, top, frames => gather? ts (top.push .atStart .no) frames
  | .stop :: ts, top, frames => gather? ts (top.push .atStop .no) frames
  | .opening :: ts, top, frames => gather? ts .blank (top :: frames)
  | .closing :: ts, top, below :: frames => gather? ts (below.push top.close .yes) frames
  | .closing :: _, _, [] => none
  | .bar :: ts, top, frames => gather? ts top.bar frames
  | .times least most :: ts, top, frames =>
    match top.times? least most with
    | none => none
    | some top => gather? ts top frames

/-- Reads a pattern, or finds it ill formed. -/
def ofString? (s : String) : Option Pattern :=
  (tokens? s.length s.toList).bind fun ts => gather? ts .blank []

end BitcodeWrapper.Pattern
