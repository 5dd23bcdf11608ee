import BitcodeWrapper.Shell.Numeral
import BitcodeWrapper.Shell.Token

/-!
Arithmetic of scripts, on numbers of sixty-four bits. An expression is worked out as it is read, so the
first mistake counts, be it of form or of value.
-/
namespace BitcodeWrapper.Shell.Arithmetic

open Numeral (wrap unsigned)

inductive Symbol where
  | number (n : Int)
  | name (s : String)
  | sign (s : String)
  /-- A character that no expression has. -/
  | stray
  deriving Repr, DecidableEq

def signs : List String :=
  ["<<=", ">>=", "<<", ">>", "<=", ">=", "==", "!=", "&&", "||", "+=", "-=", "*=", "/=", "%=", "&=",
    "|=", "^=", "+", "-", "*", "/", "%", "<", ">", "&", "|", "^", "!", "~", "(", ")", "?", ":", "="]

def symbols : (fuel : Nat) → List Char → List Symbol
  | _, [] => []
  | 0, _ :: _ => [.stray]
  | fuel + 1, c :: rest =>
    if c = ' ' || c = '\t' || c = '\n' then symbols fuel rest
    else if c.isDigit then
      let (n, after) := Numeral.based (c :: rest)
      .number (min n Numeral.greatest) :: symbols fuel after
    else if isNameStart c then
      .name (String.ofList (c :: rest.takeWhile isNameChar)) :: symbols fuel (rest.dropWhile isNameChar)
    else
      match signs.find? fun s => s.toList.isPrefixOf (c :: rest) with
      | some s => .sign s :: symbols fuel ((c :: rest).drop s.length)
      | none => [.stray]

def ofBool (b : Bool) : Int := if b then 1 else 0

/-- The binary operators that bind more tightly than the logical ones, the tightest first. -/
def levels : List (List String) :=
  [["*", "/", "%"], ["+", "-"], ["<<", ">>"], ["<", ">", "<=", ">="], ["==", "!="], ["&"], ["^"], ["|"]]

def level? (s : String) : Option Nat := levels.findIdx? (·.contains s)

/-- The result of an operator, unless it divides by zero. -/
def combine? (s : String) (a b : Int) : Option Int :=
  match s with
  | "|" => some (wrap (Int.ofNat (unsigned a ||| unsigned b)))
  | "^" => some (wrap (Int.ofNat (unsigned a ^^^ unsigned b)))
  | "&" => some (wrap (Int.ofNat (unsigned a &&& unsigned b)))
  | "==" => some (ofBool (a == b))
  | "!=" => some (ofBool (a != b))
  | "<=" => some (ofBool (a ≤ b))
  | ">=" => some (ofBool (b ≤ a))
  | "<" => some (ofBool (a < b))
  | ">" => some (ofBool (b < a))
  | "<<" => some (wrap (a * Nat.pow 2 (b % 64).toNat))
  | ">>" => some (Int.fdiv a (Nat.pow 2 (b % 64).toNat))
  | "+" => some (wrap (a + b))
  | "-" => some (wrap (a - b))
  | "*" => some (wrap (a * b))
  | "/" => if b = 0 then none else some (wrap (Int.tdiv a b))
  | "%" => if b = 0 then none else some (Int.tmod a b)
  | _ => none

inductive Mistake where
  /-- The expression is wrong. -/
  | form (message : String)
  /-- A variable does not hold a number. -/
  | value (text : String)
  deriving Repr, DecidableEq

structure Evaluation where
  symbols : List Symbol
  /-- The value of a variable, if it has one. -/
  lookup : String → Option String
  assigned : List (String × Int)

abbrev Eval := EStateM Mistake Evaluation

def wrong {α : Type} (message : String) : Eval α := throw (.form message)

def peek : Eval (Option Symbol) := return (← get).symbols.head?

def drop : Eval Unit := modify fun e => { e with symbols := e.symbols.drop 1 }

def accept (s : String) : Eval Bool := do
  if (← peek) = some (.sign s) then
    drop
    return true
  return false

def valueOf (name : String) : Eval Int := do
  let e ← get
  match e.assigned.lookup name with
  | some n => return n
  | none =>
    match e.lookup name with
    | none | some "" => return 0
    | some text =>
      match Numeral.whole? false text with
      | some n => return n
      | none => throw (.value text)

/-- The operator of an assignment: none of its own, or one before the equals sign. -/
def assignmentOperator? : Option Symbol → Option String
  | some (.sign "=") => some ""
  | some (.sign s) =>
    if ["<<=", ">>=", "+=", "-=", "*=", "/=", "%=", "&=", "|=", "^="].contains s then
      some (String.ofList s.toList.dropLast)
    else none
  | _ => none

/-- Works an operator out, unless its result is not needed. -/
def apply (isIdle : Bool) (s : String) (a b : Int) : Eval Int :=
  if isIdle then return b
  else
    match combine? s a b with
    | some n => return n
    | none => wrong "division by zero"

mutual

def assignment : (fuel : Nat) → (isIdle : Bool) → Eval Int
  | 0, _ => wrong "expecting primary"
  | fuel + 1, isIdle => do
    let symbols := (← get).symbols
    match symbols with
    | .name x :: rest =>
      match assignmentOperator? rest.head? with
      | none => conditional fuel isIdle
      | some operator =>
        drop
        drop
        let n ← assignment fuel isIdle
        if isIdle then return n
        let n ← if operator = "" then pure n else apply false operator (← valueOf x) n
        modify fun e => { e with assigned := (x, n) :: e.assigned }
        return n
    | _ => conditional fuel isIdle

def conditional : (fuel : Nat) → (isIdle : Bool) → Eval Int
  | 0, _ => wrong "expecting primary"
  | fuel + 1, isIdle => do
    let a ← disjunction fuel isIdle
    if !(← accept "?") then return a
    let b ← assignment fuel (isIdle || a = 0)
    if !(← accept ":") then wrong "expecting ':'"
    let c ← conditional fuel (isIdle || a != 0)
    return if a != 0 then b else c

def disjunction : (fuel : Nat) → (isIdle : Bool) → Eval Int
  | 0, _ => wrong "expecting primary"
  | fuel + 1, isIdle => do
    let a ← conjunction fuel isIdle
    if !(← accept "||") then return a
    let b ← disjunction fuel (isIdle || a != 0)
    return ofBool (a != 0 || b != 0)

def conjunction : (fuel : Nat) → (isIdle : Bool) → Eval Int
  | 0, _ => wrong "expecting primary"
  | fuel + 1, isIdle => do
    let a ← primary fuel isIdle
    let a ← operation fuel isIdle levels.length a
    if !(← accept "&&") then return a
    let b ← conjunction fuel (isIdle || a = 0)
    return ofBool (a != 0 && b != 0)

/-- Applies the operators that follow, as long as they bind more tightly than a level. -/
def operation : (fuel : Nat) → (isIdle : Bool) → (outer : Nat) → (a : Int) → Eval Int
  | 0, _, _, _ => wrong "expecting primary"
  | fuel + 1, isIdle, outer, a => do
    match ← peek with
    | some (.sign s) =>
      match level? s with
      | some level =>
        if outer ≤ level then return a
        drop
        let b ← primary fuel isIdle
        let b ← operation fuel isIdle level b
        operation fuel isIdle outer (← apply isIdle s a b)
      | none => return a
    | _ => return a

def primary : (fuel : Nat) → (isIdle : Bool) → Eval Int
  | 0, _ => wrong "expecting primary"
  | fuel + 1, isIdle => do
    let next ← peek
    drop
    match next with
    | some (.number n) => return n
    | some (.name x) => if isIdle then return 0 else valueOf x
    | some (.sign "(") =>
      let n ← assignment fuel isIdle
      if !(← accept ")") then wrong "expecting ')'"
      return n
    | some (.sign "+") => primary fuel isIdle
    | some (.sign "-") => return wrap (-(← primary fuel isIdle))
    | some (.sign "!") => return ofBool ((← primary fuel isIdle) = 0)
    | some (.sign "~") => return -(← primary fuel isIdle) - 1
    | _ => wrong "expecting primary"

end

/-- The value of an expression, and the variables that it sets, the first one first. -/
def evaluate (lookup : String → Option String) (expression : String) :
    Except Mistake (Int × List (String × Int)) :=
  let symbols := symbols expression.length expression.toList
  let whole : Eval Int := do
    let n ← assignment (16 * symbols.length + 16) false
    if (← peek).isSome then wrong "expecting EOF"
    return n
  match whole.run ⟨symbols, lookup, []⟩ with
  | .ok n e => .ok (n, e.assigned.reverse)
  | .error m _ => .error m

end BitcodeWrapper.Shell.Arithmetic
