import BitcodeWrapper.Bindings
import BitcodeWrapper.Host.Executable
import BitcodeWrapper.Host.Search
import BitcodeWrapper.Shell.Numeral
import BitcodeWrapper.Shell.Octets
import BitcodeWrapper.Shell.Token

/-!
The state of a running script: open files, which processes share, and what is a process's own.
-/
namespace BitcodeWrapper.Shell

/-- The outputs of a command, as the one that started it sees them. -/
inductive Stream where
  | output
  | diagnostics
  deriving Repr, DecidableEq

inductive Target where
  | stream (s : Stream)
  | file (location : Location)
  /-- Gathers what is written, the last piece first. -/
  | pipe (pieces : List Bytes)
  /-- Gives bytes to read. -/
  | text (content : Bytes)
  | nothing
  deriving Repr, DecidableEq

structure OpenFile where
  target : Target
  position : Nat
  mayRead : Bool
  mayWrite : Bool
  appends : Bool
  deriving Repr, DecidableEq

/-- What processes share. -/
structure World where
  files : Files
  opened : Array OpenFile
  /-- What was printed, the last piece first. -/
  printed : List (Stream × Bytes)
  /-- The signals that the script's first process got from others, the last one first. -/
  sent : List Nat

namespace World

/-- Puts bytes into a file at a position, over what is there. -/
def overwrite (files : Files) (loc : Location) (position : Nat) (bytes : Bytes) : Files :=
  match files.get? loc with
  | some (.file content isExecutable) =>
    let before := content.take position
    let gap := List.replicate (position - before.length) 0
    files.put loc (.file (before ++ gap ++ bytes ++ content.drop (position + bytes.length)) isExecutable)
  | _ => files

def size (files : Files) (loc : Location) : Nat :=
  match files.get? loc with
  | some (.file content _) => content.length
  | _ => 0

/-- Writes to an open file, if it is open for that. -/
def write? (w : World) (id : Nat) (bytes : Bytes) : Option World := do
  let o ← w.opened[id]?
  if !o.mayWrite then none
  else
    match o.target with
    | .stream s => some { w with printed := (s, bytes) :: w.printed }
    | .file loc =>
      if bytes.isEmpty then some w
      else
        let position := if o.appends then size w.files loc else o.position
        some { w with
          files := overwrite w.files loc position bytes
          opened := w.opened.setIfInBounds id { o with position := position + bytes.length } }
    | .pipe pieces =>
      some { w with opened := w.opened.setIfInBounds id { o with target := .pipe (bytes :: pieces) } }
    | _ => some w

/-- What is left to read from an open file. -/
def unread (w : World) (id : Nat) : Bytes :=
  match w.opened[id]? with
  | none => []
  | some o =>
    if !o.mayRead then []
    else
      match o.target with
      | .text content => content.drop o.position
      | .file loc =>
        match w.files.get? loc with
        | some (.file content _) => content.drop o.position
        | _ => []
      | _ => []

def skip (w : World) (id count : Nat) : World :=
  match w.opened[id]? with
  | some o =>
    { w with opened := w.opened.setIfInBounds id { o with position := o.position + count } }
  | none => w

def add (w : World) (o : OpenFile) : Nat × World :=
  (w.opened.size, { w with opened := w.opened.push o })

/-- What a pipe has gathered. -/
def gathered (w : World) (id : Nat) : Bytes :=
  match w.opened[id]? with
  | some ⟨.pipe pieces, _, _, _, _⟩ => pieces.reverse.flatten
  | _ => []

end World

structure Variable where
  value : Option String
  isExported : Bool
  isReadOnly : Bool
  deriving Repr, DecidableEq

/-- Why commands are not followed by the next one. -/
inductive Stop where
  | ended
  /-- A mistake that has been reported. -/
  | failed
  | killed (signal : Nat)
  | breaks (loops : Nat)
  | continues (loops : Nat)
  | returns
  deriving Repr, DecidableEq

/-- How a process ends: with a status, or by a signal. -/
inductive Ending where
  | status (n : Nat)
  | signal (n : Nat)
  deriving Repr, DecidableEq

/-- The status that tells of an ending. -/
def Ending.code : Ending → Nat
  | status n => n % 256
  | signal n => 128 + n

structure State where
  world : World
  /-- This is the process that the script began with. -/
  isFirst : Bool
  here : Location
  /-- The current directory by the names that led to it. -/
  directory : String
  /-- The home directories of users. -/
  accounts : Bindings
  name : String
  arguments : List String
  /-- Which open file each stream is. -/
  streams : List (Nat × Nat)
  bound : List (String × Variable)
  /-- The variables that each running function has of its own, as they were before. -/
  hidden : List (List (String × Option Variable))
  functions : List (String × Command)
  aliases : List (String × String)
  documents : List (Nat × Word)
  nextDocument : Nat
  /-- The letters of the options that are set. -/
  flags : List Char
  /-- The status to end with, as long as a trap runs. -/
  saved : Option Nat
  /-- What is done about signals; number zero is the end of the script. -/
  traps : List (Nat × String)
  /-- The signals that came in and are not dealt with. -/
  signals : List Nat
  status : Nat
  /-- The status of the last command whose output became text of the current one. -/
  inner : Nat
  line : Nat
  /-- The line that the reader of commands has come to. -/
  readerLine : Nat
  /-- The builtin that runs. -/
  builtin : Option String
  /-- How many loops are running. -/
  loops : Nat
  /-- How many functions are running, one in the other. -/
  depth : Nat
  mask : Nat
  /-- What the running builtin has printed. -/
  unwritten : String
  optionIndex : Nat
  optionOffset : Option Nat
  lastBackground : Option Nat
  /-- How commands in the background ended. -/
  finished : List (Nat × Ending)

/-- A computation of a script. -/
abbrev Sh := EStateM Stop State

/-- The value of a variable. -/
def State.value? (s : State) (name : String) : Option String :=
  (s.bound.lookup name).bind (·.value)

namespace Sh

def writeTo (stream : Nat) (text : String) : Sh Bool := do
  let s ← get
  match s.streams.lookup stream with
  | none => return false
  | some id =>
    match s.world.write? id (Octets.toBytes text) with
    | some world =>
      set { s with world }
      return true
    | none => return false

/-- Says something about the line that runs. -/
def complain (text : String) : Sh Unit := do
  let s ← get
  let builtin := match s.builtin with
    | some name => name ++ ": "
    | none => ""
  let _ ← writeTo 2 (s.name ++ ": " ++ toString s.line ++ ": " ++ builtin ++ text ++ "\n")

def setStatus (status : Nat) : Sh Unit := modify fun s => { s with status }

/-- Reports a mistake and gives up. -/
def fail {α : Type} (text : String) : Sh α := do
  complain text
  setStatus 2
  throw .failed

/-- Refuses what the script says, at the line that its reader has come to. -/
def refuse {α : Type} (message : String) : Sh α := do
  modify fun s => { s with line := s.readerLine }
  fail ("Syntax error: " ++ message)

/-- Does something first and something else in the end, however the first thing ended. -/
def andFinally {α : Type} (body : Sh α) (ending : Sh Unit) : Sh α := do
  let result ←
    try
      body
    catch stop =>
      ending
      throw stop
  ending
  return result

def print (text : String) : Sh Unit :=
  modify fun s => { s with unwritten := s.unwritten ++ text }

/-- Writes what was printed, and says whether that could be done. -/
def flush : Sh Bool := do
  let text := (← get).unwritten
  modify fun s => { s with unwritten := "" }
  if text = "" then return true
  writeTo 1 text

def hasFlag (c : Char) : Sh Bool := return (← get).flags.contains c

def named? (name : String) : Sh (Option Variable) := return (← get).bound.lookup name

def putVariable (name : String) (v : Variable) : Sh Unit :=
  modify fun s => { s with bound := (name, v) :: s.bound.filter (·.1 != name) }

def eraseVariable (name : String) : Sh Unit :=
  modify fun s => { s with bound := s.bound.filter (·.1 != name) }

/-- The value of a variable. -/
def value? (name : String) : Sh (Option String) := return (← get).value? name

/-- Some variables change what the script itself does. -/
def notice (name value : String) : Sh Unit := do
  if name = "OPTIND" then
    modify fun s =>
      { s with optionIndex := max 1 (value.toNat?.getD 1), optionOffset := none }

/-- Binds a variable. `exports` says that commands will see it. -/
def assignVariable (name value : String) (exports : Bool) : Sh Unit := do
  let old ← named? name
  if old.any (·.isReadOnly) then fail (name ++ ": is read only")
  let all ← hasFlag 'a'
  putVariable name ⟨some value, old.any (·.isExported) || exports || all, false⟩
  notice name value

/-- Keeps a variable as it is now, to be put back when the running function returns. -/
def hideVariable (name : String) : Sh Unit := do
  let old ← named? name
  modify fun s =>
    { s with
      hidden := match s.hidden with
        | frame :: frames => ((name, old) :: frame) :: frames
        | [] => [] }

/-- Puts back what a function hides, the last variable first. -/
def restoreHidden : Sh Unit := do
  match (← get).hidden with
  | [] => pure ()
  | frame :: frames =>
    modify fun s => { s with hidden := frames }
    for (name, old) in frame do
      match old with
      | some v => putVariable name v
      | none => eraseVariable name

/-- The environment of the commands that the script starts. -/
def environment : Sh Bindings :=
  return (← get).bound.filterMap fun (name, v) =>
    if v.isExported then v.value.map (name, ·) else none

end Sh

namespace State

/-- The search list of a script that inherits none. -/
def standardSearch : String := "/usr/local/sbin:/usr/local/bin:/usr/sbin:/usr/bin:/sbin:/bin"

def processNumber : Nat := 4711

/-- The flags in the order that they are shown in. -/
def flagLetters : List Char :=
  ['e', 'f', 'I', 'i', 'm', 'n', 's', 'x', 'v', 'V', 'E', 'C', 'a', 'b', 'u', 'p']

/-- The value of a parameter other than all arguments. -/
def parameter? (s : State) (name : String) : Option String :=
  match name with
  | "#" => some (toString s.arguments.length)
  | "?" => some (toString s.status)
  | "$" => some (toString processNumber)
  | "-" => some (String.ofList (flagLetters.filter s.flags.contains).reverse)
  | "!" => s.lastBackground.map toString
  | "0" => some s.name
  | _ =>
    match name.toNat? with
    | some 0 => some s.name
    | some n => s.arguments[n - 1]?
    | none => s.value? name

/-- A script just before its first command. Variables whose names are no names are not inherited. -/
def start (world : World) (here : Location) (accounts environment : Bindings)
    (streams : List (Nat × Nat)) (ignored : List (Nat × String)) : State :=
  let inherited : Bindings := environment.filter fun e => isName e.1
  let known := ["IFS", "OPTIND", "PPID", "PS1", "PS2", "PS4", "PWD"]
  let own : List (String × Variable) :=
    [("IFS", ⟨some " \t\n", false, false⟩), ("OPTIND", ⟨some "1", false, false⟩),
      ("PPID", ⟨some (toString (processNumber - 1)), false, false⟩), ("PS1", ⟨some "# ", false, false⟩),
      ("PS2", ⟨some "> ", false, false⟩), ("PS4", ⟨some "+ ", false, false⟩),
      ("PWD", ⟨some (Octets.ofText (Location.text here)), true, false⟩)]
  let search : List (String × Variable) :=
    if (inherited.get? Host.searchVariable).isSome then []
    else [(Host.searchVariable, ⟨some standardSearch, false, false⟩)]
  { world, here, accounts, streams
    isFirst := true
    directory := Octets.ofText (Location.text here)
    name := "sh"
    arguments := []
    bound := own ++ search ++
      (inherited.filter fun e => !known.contains e.1).map fun e => (e.1, ⟨some e.2, true, false⟩)
    hidden := []
    functions := []
    aliases := []
    documents := []
    nextDocument := 0
    flags := []
    saved := none
    traps := ignored
    signals := []
    status := 0
    inner := 0
    line := 0
    readerLine := 0
    builtin := none
    loops := 0
    depth := 0
    mask := 18
    unwritten := ""
    optionIndex := 1
    optionOffset := none
    lastBackground := none
    finished := [] }

def separators (s : State) : List Char :=
  ((s.value? "IFS").getD " \t\n").toList

end State

end BitcodeWrapper.Shell
