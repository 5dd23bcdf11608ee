import BitcodeWrapper.Shell.Builtin.Place
import BitcodeWrapper.Shell.Builtin.Process
import BitcodeWrapper.Shell.Builtin.Setting
import BitcodeWrapper.Shell.Condition
import BitcodeWrapper.Shell.Printing

/-!
The commands of the shell that run no other commands.
-/
namespace BitcodeWrapper.Shell.Builtin

def printFormatted (args : List String) : Sh Nat := do
  let (_, args) ← options "" "" args
  match args with
  | [] => Sh.fail "usage: printf format [arg ...]"
  | format :: args =>
    let (text, complaints, wrong?) := Printing.printf format args
    for complaint in complaints do Sh.complain complaint
    Sh.print text
    match wrong? with
    | some message => Sh.fail message
    | none => return if complaints.isEmpty then 0 else 1

def test (words : List String) : Sh Nat := do
  let s ← get
  match Condition.evaluate ⟨s.world.files, s.here⟩ words with
  | .ok b => return if b then 0 else 1
  | .error message => Sh.fail message

/-- The last argument has to begin with a bracket. -/
def bracketTest (args : List String) : Sh Nat :=
  if args.getLast?.any (·.startsWith "]") then test args.dropLast else Sh.fail "missing ]"

/-- Leaves or goes on with loops, as many of those that run as are asked for. -/
def leaveLoops (stop : Nat → Stop) (args : List String) : Sh Nat := do
  let n ← match args with
    | [] => pure 1
    | a :: _ =>
      let n ← number a
      if n = 0 then Sh.fail ("Illegal number: " ++ a)
      pure n
  let loops := (← get).loops
  if loops = 0 then return 0
  Sh.setStatus 0
  throw (stop (min n loops))

def exit (args : List String) : Sh Nat := do
  match args with
  | a :: _ => Sh.setStatus (← number a)
  | [] => modify fun s => { s with status := s.saved.getD s.status }
  throw .ended

def leaveFunction (args : List String) : Sh Nat := do
  match args with
  | a :: _ => Sh.setStatus (← number a)
  | [] => pure ()
  throw .returns

def find? (name : String) : Option (List String → Sh Nat) :=
  match name with
  | ":" | "true" => some fun _ => return 0
  | "false" => some fun _ => return 1
  | "echo" => some fun args => do
    Sh.print (Printing.echo args)
    return 0
  | "printf" => some printFormatted
  | "test" => some test
  | "[" => some bracketTest
  | "exit" => some exit
  | "return" => some leaveFunction
  | "break" => some (leaveLoops .breaks)
  | "continue" => some (leaveLoops .continues)
  | "shift" => some shift
  | "export" => some exportMark
  | "readonly" => some readOnlyMark
  | "unset" => some unset
  | "local" => some localVariables
  | "set" => some setOptions
  | "read" => some read
  | "getopts" => some getOptions
  | "alias" => some setAliases
  | "unalias" => some removeAliases
  | "cd" | "chdir" => some changeDirectory
  | "pwd" => some showDirectory
  | "type" => some describeAll
  | "hash" => some lookUp
  | "kill" => some kill
  | "trap" => some trap
  | "wait" => some wait
  | "umask" => some umask
  | "times" => some fun _ => times
  | "ulimit" => some limits
  | "jobs" => some fun _ => return 0
  | "fg" | "bg" => some fun _ => Sh.fail "No current job"
  | _ => none

end BitcodeWrapper.Shell.Builtin
