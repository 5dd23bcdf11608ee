import BitcodeWrapper.Shell.Parser
import BitcodeWrapper.Shell.State

/-!
Commands that are part of the shell: their names, and how they read their arguments.
-/
namespace BitcodeWrapper.Shell.Builtin

def names : List String :=
  specialBuiltins ++ ["[", "alias", "bg", "cd", "chdir", "command", "echo", "false", "fg", "getopts", "hash",
    "jobs", "kill", "printf", "pwd", "read", "test", "true", "type", "ulimit", "umask", "unalias", "wait"]

def isSpecial (name : String) : Bool := specialBuiltins.contains name

/-- Those that bind variables: their arguments that look like assignments are not cut into fields. -/
def binds (name : String) : Bool := ["alias", "export", "local", "readonly"].contains name

/-- The options in one word. Those that are `valued` take what follows them. -/
def letters (plain valued : List Char) (rest : List String) :
    List Char → Except String (List (Char × String) × List String)
  | [] => .ok ([], rest)
  | c :: cs =>
    if plain.contains c then
      (letters plain valued rest cs).map fun (os, rest) => ((c, "") :: os, rest)
    else if valued.contains c then
      match cs, rest with
      | [], [] => .error ("No arg for -" ++ String.singleton c ++ " option")
      | [], value :: rest => .ok ([(c, value)], rest)
      | cs, rest => .ok ([(c, String.ofList cs)], rest)
    else .error ("Illegal option -" ++ String.singleton c)

def optionsFrom (plain valued : List Char) : (fuel : Nat) → List String →
    Except String (List (Char × String) × List String)
  | 0, args => .ok ([], args)
  | fuel + 1, args =>
    match args with
    | "--" :: rest => .ok ([], rest)
    | a :: rest =>
      match a.toList with
      | '-' :: c :: cs => do
        let (os, rest) ← letters plain valued rest (c :: cs)
        let (more, rest) ← optionsFrom plain valued fuel rest
        return (os ++ more, rest)
      | _ => .ok ([], args)
    | [] => .ok ([], [])

/-- Takes options off the front of the arguments. -/
def options (plain valued : String) (args : List String) :
    Sh (List (Char × String) × List String) := do
  match optionsFrom plain.toList valued.toList args.length args with
  | .ok result => return result
  | .error message => Sh.fail message

/-- The number that an argument is. -/
def number (s : String) : Sh Nat := do
  match Numeral.whole? true s with
  | some n => if 0 ≤ n && n < 2147483648 then return n.toNat
  | none => pure ()
  Sh.fail ("Illegal number: " ++ s)

/-- A text in quotation marks; those that it has itself stand between double ones. -/
def quotedFrom : (fuel : Nat) → List Char → List Char
  | 0, _ => []
  | fuel + 1, cs =>
    let text := cs.takeWhile (· != '\x27')
    let marks := (cs.drop text.length).takeWhile (· = '\x27')
    let rest := cs.drop (text.length + marks.length)
    ['\x27'] ++ text ++ ['\x27'] ++ (if marks.isEmpty then [] else ['"'] ++ marks ++ ['"']) ++
      (if rest.isEmpty then [] else quotedFrom fuel rest)

def quoted (s : String) : String := String.ofList (quotedFrom (s.length + 1) s.toList)

/-- A name, and the value after its equals sign, if it has one. -/
def binding (s : String) : String × Option String :=
  let name := s.toList.takeWhile (· != '=')
  (String.ofList name,
    if name.length = s.length then none else some (String.ofList (s.toList.drop (name.length + 1))))

end BitcodeWrapper.Shell.Builtin
