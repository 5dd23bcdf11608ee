import BitcodeWrapper.Host.Files

/-!
What runs when a file is executed. A script names its interpreter in its first line; in the end every
program is the shell with some arguments.
-/
namespace BitcodeWrapper.Files

def headLimit : Nat := 256

def isGap (c : Char) : Bool := c == ' ' || c == '\t'

/-- The interpreter that the first line of a script names, and the one argument it may give. -/
def interpreter? (content : Bytes) : Option (String × Option String) :=
  match content with
  | 35 :: 33 :: rest =>
    let head := rest.take (headLimit - 2)
    let line := (Text.Utf8.decodeLossy (head.takeWhile (· != 10))).toList.dropWhile isGap
    let program := line.takeWhile fun c => !isGap c
    let after := ((line.dropWhile fun c => !isGap c).dropWhile isGap).reverse.dropWhile isGap
    if program.isEmpty then none
    else if rest.length > head.length && !head.contains 10 && program.length = line.length then none
    else some (String.ofList program,
      if after.isEmpty then none else some (String.ofList after.reverse))
  | _ => none

/-- The texts that a program is started with, its environment among them: the length of the longest one,
and the room that all take. -/
structure Load where
  longest : Nat
  room : Nat
  deriving Repr, DecidableEq

namespace Load

def longestText : Nat := 131071

def roomLimit : Nat := 2097152

/-- Each text ends with a NUL and has an address. -/
def ofLengths (lengths : List Nat) : Load :=
  ⟨lengths.foldl max 0, lengths.foldl (fun n length => n + length + 9) 0⟩

/-- Texts that take the place of others have no address of their own. -/
def swap (l : Load) (gone given : List String) : Load :=
  let bytes (texts : List String) := texts.foldl (fun n t => n + t.utf8ByteSize + 1) 0
  { l with room := l.room - bytes gone + bytes given }

def isTooGreat (l : Load) : Bool := longestText < l.longest || roomLimit < l.room

end Load

/-- The arguments that the shell is started with when `path` is executed with `args`, whose first
element is the name of the program. Interpreters may be scripts themselves, up to a limit. -/
def execute (fs : Files) (here : Location) : (depth : Nat) → Load → (path : String) → List String →
    Except Errno (List String)
  | depth, load, path, args =>
    match fs.stat here path with
    | .error e => .error e
    | .ok (_, .shell) => if load.isTooGreat then .error .listTooLong else .ok args
    | .ok (_, .file content isExecutable) =>
      if !isExecutable then .error .permissionDenied
      else if load.isTooGreat then .error .listTooLong
      else
        match interpreter? content with
        | none => .error .notExecutableFormat
        | some (program, option) =>
          match depth with
          | 0 => .error .tooManyLinks
          | depth + 1 =>
            let given := program :: option.toList ++ [path]
            execute fs here depth (load.swap (args.take 1) given) program (given ++ args.drop 1)
    | .ok _ => .error .permissionDenied

def interpreterLimit : Nat := 5

/-- Executes a file with texts of these lengths. The path is one more of them. -/
def start (fs : Files) (here : Location) (lengths : List Nat) (path : String) (args : List String) :
    Except Errno (List String) :=
  fs.execute here interpreterLimit ((Load.ofLengths lengths).swap [] [path]) path args

/-- Tries the programs one after the other. A missing one is passed over; of the other refusals the
first is remembered. -/
def startFirst (fs : Files) (here : Location) (lengths : List Nat) (args : List String)
    (remembered : Option Errno) : (last : Errno) → List String → Except Errno (List String)
  | last, [] => .error (remembered.getD last)
  | _, path :: paths =>
    match fs.start here lengths path args with
    | .ok shellArgs => .ok shellArgs
    | .error e =>
      let isMissing := e == .noSuchFile || e == .notDirectory
      startFirst fs here lengths args (if isMissing then remembered else remembered.or (some e)) e paths

end BitcodeWrapper.Files
