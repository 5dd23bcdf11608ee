import BitcodeWrapper.Shell.State

/-!
Conditions of `test` and of square brackets.
-/
namespace BitcodeWrapper.Shell.Condition

inductive OperatorKind where
  | unary
  | binary
  | negation
  | conjunction
  | disjunction
  | opening
  | closing
  deriving Repr, DecidableEq

def unaryOperators : List String :=
  ["-r", "-w", "-x", "-e", "-f", "-d", "-c", "-b", "-p", "-u", "-g", "-k", "-s", "-t", "-z", "-n", "-h",
    "-O", "-G", "-L", "-S"]

def binaryOperators : List String :=
  ["=", "!=", "<", ">", "-eq", "-ne", "-ge", "-gt", "-le", "-lt", "-nt", "-ot", "-ef"]

def kind? (s : String) : Option OperatorKind :=
  if unaryOperators.contains s then some .unary
  else if binaryOperators.contains s then some .binary
  else match s with
    | "!" => some .negation
    | "-a" => some .conjunction
    | "-o" => some .disjunction
    | "(" => some .opening
    | ")" => some .closing
    | _ => none

/-- The files that conditions are about. -/
structure Sight where
  files : Files
  here : Location

namespace Sight

def entry? (s : Sight) (path : String) : Option (Location × Entry) :=
  (s.files.stat s.here (Octets.toText path)).toOption

/-- Files may always be read and written, and executed if one of their permission bits says so. -/
def holds (s : Sight) (operator path : String) : Bool :=
  let entry := (s.entry? path).map (·.2)
  match operator with
  | "-h" | "-L" =>
    match s.files.find s.here false (Octets.toText path) with
    | .ok ⟨_, some (.link _)⟩ => true
    | _ => false
  | "-f" =>
    match entry with
    | some (.file _ _) | some .shell => true
    | _ => false
  | "-d" => entry == some .directory
  | "-c" => entry == some .sink
  | "-x" =>
    match entry with
    | some .directory => true
    | some e => Files.Entry.mayExecute e
    | none => false
  | "-s" =>
    match entry with
    | some (.file content _) => !content.isEmpty
    | some .sink => false
    | some _ => true
    | none => false
  | "-b" | "-p" | "-u" | "-g" | "-k" | "-S" => false
  | _ => entry.isSome

end Sight

structure Reading where
  /-- The current word and those after it. -/
  words : List String
  sight : Sight

abbrev Eval := EStateM String Reading

def wrong {α : Type} (operator message : String) : Eval α :=
  throw (if operator = "" then message else operator ++ ": " ++ message)

def number (s : String) : Eval Int :=
  match Numeral.whole? true s with
  | some n => return n
  | none => throw ("Illegal number: " ++ s)

/-- Says whether an operator of one operand is rather an operand itself. -/
def isOperand (rest : List String) : Bool :=
  match rest with
  | [] => true
  | [_] => false
  | s :: _ => kind? s == some .binary

/-- What the first of some words is: an operator, or an operand. -/
def lexical (words : List String) : Option OperatorKind :=
  match words with
  | [] => none
  | s :: rest =>
    match kind? s with
    | some .unary => if isOperand rest then none else some .unary
    | some .opening => if rest.isEmpty then none else some .opening
    | k => k

def current : Eval (List String) := return (← get).words

def move (n : Nat) : Eval Unit := modify fun r => { r with words := r.words.drop n }

def compare (a operator b : String) : Eval Bool := do
  match operator with
  | "=" => return a == b
  | "!=" => return a != b
  | "<" => return a < b
  | ">" => return b < a
  | "-nt" | "-ot" => return false
  | "-ef" =>
    let sight := (← get).sight
    match sight.entry? a, sight.entry? b with
    | some (x, _), some (y, _) => return x == y
    | _, _ => return false
  | operator =>
    let m ← number a
    let n ← number b
    return match operator with
      | "-eq" => m == n
      | "-ne" => m != n
      | "-ge" => n ≤ m
      | "-gt" => n < m
      | "-le" => m ≤ n
      | _ => m < n

mutual

/-- Each part leaves its last word as the current one. -/
def disjunction : (fuel : Nat) → Eval Bool
  | 0 => wrong "" "too deep"
  | fuel + 1 => do
    let a ← conjunction fuel
    if lexical ((← current).drop 1) != some .disjunction then return a
    move 2
    let b ← disjunction fuel
    return a || b

def conjunction : (fuel : Nat) → Eval Bool
  | 0 => wrong "" "too deep"
  | fuel + 1 => do
    let a ← negation fuel
    if lexical ((← current).drop 1) != some .conjunction then return a
    move 2
    let b ← conjunction fuel
    return a && b

def negation : (fuel : Nat) → Eval Bool
  | 0 => wrong "" "too deep"
  | fuel + 1 => do
    let words ← current
    if lexical words != some .negation then primary fuel
    else
      if words.length = 1 then return true
      move 1
      return !(← negation fuel)

def primary : (fuel : Nat) → Eval Bool
  | 0 => wrong "" "too deep"
  | fuel + 1 => do
    let words ← current
    match words with
    | [] => return false
    | a :: rest =>
      match lexical words with
      | some .opening =>
        move 1
        if lexical rest = some .closing then return false
        let b ← disjunction fuel
        move 1
        if lexical (← current) != some .closing then wrong "" "closing paren expected"
        return b
      | some .unary =>
        move 1
        match rest with
        | [] => wrong a "argument expected"
        | b :: _ =>
          match a with
          | "-z" => return b == ""
          | "-n" => return b != ""
          | "-t" =>
            let _ ← number b
            return false
          | _ => return (← get).sight.holds a b
      | _ =>
        match rest with
        | operator :: rest =>
          if lexical (operator :: rest) = some .binary then
            match rest with
            | [] => wrong operator "argument expected"
            | b :: _ =>
              move 2
              compare a operator b
          else return a != ""
        | [] => return a != ""

end

/-- A condition and what the rules for few words make of it. -/
def whole : (fuel : Nat) → List String → Eval Bool
  | 0, _ => wrong "" "too deep"
  | _, [] => return false
  | fuel + 1, words => do
    let evaluated (words : List String) : Eval Bool := do
      modify fun r => { r with words }
      let b ← disjunction (4 * words.length + 8)
      match ← current with
      | a :: _ :: _ => wrong a "unexpected operator"
      | _ => return b
    let isBracketed := words.head? = some "(" && words.getLast? = some ")"
    match words with
    | [a, operator, b] =>
      if kind? operator == some .binary then compare a operator b
      else if isBracketed then evaluated [operator]
      else if a = "!" then return !(← whole fuel [operator, b])
      else evaluated words
    | [a, b, c, d] =>
      if isBracketed then evaluated [b, c]
      else if a = "!" then return !(← whole fuel [b, c, d])
      else evaluated words
    | _ => evaluated words

/-- The truth of a condition, or what is wrong with it. -/
def evaluate (sight : Sight) (words : List String) : Except String Bool :=
  match (whole 3 words).run ⟨words, sight⟩ with
  | .ok b _ => .ok b
  | .error message _ => .error message

end BitcodeWrapper.Shell.Condition
