import BitcodeWrapper.Shell.Arithmetic
import BitcodeWrapper.Shell.Pathname
import BitcodeWrapper.Shell.State

/-!
Words expanded: home directories, parameters, output of commands and arithmetic, then fields and paths.
How a command gives its output is not known here, so it is handed in.
-/
namespace BitcodeWrapper.Shell

/-- What the value of a word is for: fields, one text, or the value of a variable. -/
inductive Use where
  | fields
  | text
  | binding
  deriving Repr, DecidableEq

namespace State

/-- What stands between arguments that are joined. -/
def joint (s : State) : Option Char :=
  match s.value? "IFS" with
  | some text => text.toList.head?
  | none => some ' '

/-- The home directory of a user, or of the one who runs the script. -/
def home? (s : State) (user : String) : Option String :=
  if user = "" then s.value? "HOME" else s.accounts.get? user

/-- All arguments. In quotes each of them is a field of its own, if they are asked for that way. -/
def allArguments (s : State) (use : Use) (name : String) (isQuoted : Bool) : List Glyph :=
  let texts := s.arguments.map fun a =>
    if isQuoted && name = "@" then Glyph.ofQuoted a else Glyph.ofText isQuoted (!isQuoted) a
  if use = .fields && (!isQuoted || name = "@") then List.intercalate [.boundary] texts
  else List.intercalate (s.joint.toList.map fun c => .char c isQuoted (!isQuoted)) texts

/-- The value of a parameter, if it is set. -/
def glyphs? (s : State) (use : Use) (name : String) (isQuoted : Bool) : Option (List Glyph) :=
  if name = "@" || name = "*" then some (s.allArguments use name isQuoted)
  else (s.parameter? name).map (Glyph.ofText isQuoted (!isQuoted))

end State

namespace Expansion

def plain (cs : List Char) : List Glyph := cs.map fun c => .char c false false

/-- A tilde at the front stands for a home directory, if the user's name ends before a slash or with the
text. -/
def tilde (home? : String → Option String) (isWhole : Bool) (cs : List Char) : List Glyph :=
  match cs with
  | '~' :: rest =>
    let user := rest.takeWhile (· != Path.slash)
    if user.length = rest.length && !isWhole then plain cs
    else
      match home? (String.ofList user) with
      | some home => Glyph.ofText true false home ++ plain (rest.drop user.length)
      | none => plain cs
  | _ => plain cs

/-- Paths of a list, which has a colon between each two. -/
def tildes (home? : String → Option String) (isEnd : Bool) : (isStart : Bool) → List String → List Glyph
  | _, [] => []
  | isStart, path :: paths =>
    let gs := if isStart then tilde home? (isEnd || !paths.isEmpty) path.toList else plain path.toList
    if paths.isEmpty then gs else gs ++ plain [':'] ++ tildes home? isEnd true paths

/-- Text without quotes, which may begin or end its word. -/
def unquoted (home? : String → Option String) (use : Use) (isStart isEnd : Bool) (text : String) :
    List Glyph :=
  if use = .binding then tildes home? isEnd isStart (text.splitOn ":")
  else if isStart then tilde home? isEnd text.toList
  else plain text.toList

def unit? : Glyph → Option Char
  | .char c _ _ => some c
  | .boundary => some '\x00'
  | .keep => none

def dropUnits : Nat → List Glyph → List Glyph
  | 0, gs => gs
  | _, [] => []
  | n + 1, g :: gs => if (unit? g).isSome then dropUnits n gs else g :: dropUnits (n + 1) gs

def takeUnits : Nat → List Glyph → List Glyph
  | _, [] => []
  | n, .keep :: gs => .keep :: takeUnits n gs
  | 0, _ => []
  | n + 1, g :: gs => g :: takeUnits n gs

/-- Refuses a parameter that has no value, if that is not allowed. -/
def demandSet (name : String) : Sh Unit := do
  if ← Sh.hasFlag 'u' then Sh.fail (name ++ ": parameter not set")

def calculate (expression : String) : Sh String := do
  let s ← get
  let lookup (name : String) : Option String := s.parameter? name
  match Arithmetic.evaluate lookup expression with
  | .ok (n, assigned) =>
    for (name, value) in assigned do
      Sh.assignVariable name (toString value) false
    return toString n
  | .error (.form message) =>
    Sh.fail ("arithmetic expression: " ++ message ++ ": \"" ++ expression ++ "\"")
  | .error (.value text) => Sh.fail ("Illegal number: " ++ text)

mutual

/-- Expands the parts of a word that follow each other. -/
def parts (substitute : Command → Sh String) : (fuel : Nat) → Use → (isStart : Bool) → List Part →
    Sh (List Glyph)
  | 0, _, _, _ => throw (.killed 9)
  | _, _, _, [] => return []
  | fuel + 1, use, isStart, p :: rest => do
    let front ← part substitute fuel use isStart rest.isEmpty p
    return front ++ (← parts substitute fuel use false rest)

def part (substitute : Command → Sh String) : (fuel : Nat) → Use → (isStart isEnd : Bool) → Part →
    Sh (List Glyph)
  | 0, _, _, _, _ => throw (.killed 9)
  | fuel + 1, use, isStart, isEnd, p => do
    let kept (isQuoted : Bool) (gs : List Glyph) : List Glyph := if isQuoted then .keep :: gs else gs
    let shown (isQuoted : Bool) (text : String) : List Glyph :=
      kept isQuoted (Glyph.ofText isQuoted (!isQuoted) text)
    match p with
    | .literal text true => return Glyph.ofQuoted text
    | .literal text false =>
      let s ← get
      return unquoted s.home? use isStart isEnd text
    | .arithmetic expression isQuoted =>
      let gs ← parts substitute fuel .text false expression
      return shown isQuoted (← calculate (Glyph.text gs))
    | .command body isQuoted => return shown isQuoted (← substitute body)
    | .parameter name operation word isQuoted =>
      let value := (← get).glyphs? use name isQuoted
      let isNull := match value with
        | some gs => gs.all fun g => (unit? g).isNone
        | none => true
      let isMissing (colon : Bool) : Bool := if colon then isNull else value.isNone
      let replacement : Sh (List Glyph) := do
        let gs ← parts substitute fuel use true word
        return kept isQuoted (if isQuoted then gs else gs.map Glyph.expanded)
      let demanded : Sh (List Glyph) := do
        if value.isNone then demandSet name
        return value.getD []
      match operation with
      | .bad => Sh.fail "Bad substitution"
      | .plain =>
        let gs ← demanded
        return if name = "@" then gs else kept isQuoted gs
      | .length =>
        let _ ← demanded
        return shown isQuoted (toString ((value.getD []).filterMap unit?).length)
      | .useDefault colon =>
        if isMissing colon then replacement
        else return kept isQuoted (value.getD [])
      | .useAlternative colon =>
        if isMissing colon then return kept isQuoted []
        replacement
      | .assignDefault colon =>
        if isMissing colon then
          let gs ← parts substitute fuel .text true word
          if !isName name then Sh.fail (name ++ ": bad variable name")
          Sh.assignVariable name (Glyph.text gs) false
        return kept isQuoted (((← get).glyphs? use name isQuoted).getD [])
      | .demand colon =>
        if isMissing colon then
          let gs ← parts substitute fuel .text true word
          let message := if word.isEmpty then "parameter not set" ++ (if colon then " or null" else "")
            else Glyph.text gs
          Sh.fail (name ++ ": " ++ message)
        return kept isQuoted (value.getD [])
      | .cutFront longest =>
        let gs ← demanded
        if value.isNone then return kept isQuoted []
        let ws := Glyph.pattern (← parts substitute fuel .text true word)
        return kept isQuoted (match Wildcard.front? ws longest (gs.filterMap unit?) with
          | some n => dropUnits n gs
          | none => gs)
      | .cutBack longest =>
        let gs ← demanded
        if value.isNone then return kept isQuoted []
        let ws := Glyph.pattern (← parts substitute fuel .text true word)
        return kept isQuoted (match Wildcard.back? ws longest (gs.filterMap unit?) with
          | some n => takeUnits n gs
          | none => gs)

end

/-- The value of a word as one text. -/
def text (substitute : Command → Sh String) (fuel : Nat) (use : Use) (w : Word) : Sh String :=
  return Glyph.text (← parts substitute fuel use true w)

def pattern (substitute : Command → Sh String) (fuel : Nat) (w : Word) : Sh (List Wildcard) :=
  return Glyph.pattern (← parts substitute fuel .text true w)

/-- The fields of a word. -/
def fields (substitute : Command → Sh String) (fuel : Nat) (w : Word) : Sh (List String) := do
  let gs ← parts substitute fuel .fields true w
  let s ← get
  let cut := Field.cut s.separators gs
  return if s.flags.contains 'f' then cut.map Field.text
    else cut.flatMap (Pathname.expand s.world.files s.here)

end Expansion

end BitcodeWrapper.Shell
