import BitcodeWrapper.Host.Basic
import BitcodeWrapper.Runner
import BitcodeWrapper.Shell.Run

/-!
Child processes. A command is searched for in the search list of the child, and what it printed on its
two outputs is kept in order.
-/
namespace BitcodeWrapper

namespace Host

/-- Where the program of a command may be. -/
def programPaths (environment : Bindings) (name : String) : List String :=
  if Path.directory name != "" then [name]
  else
    (searchDirectories ((environment.get? searchVariable).getD standardSearch)).map fun d =>
      Path.join d name

/-- The lengths of the texts that a command is started with. -/
def textLengths (command : List String) (environment : Bindings) : List Nat :=
  command.map (·.utf8ByteSize) ++ environment.map fun e => e.1.utf8ByteSize + 1 + e.2.utf8ByteSize

/-- Neither names nor values can hold a NUL, and a name cannot hold an equals sign. -/
def isPassable (command : List String) (environment : Bindings) : Bool :=
  !command.any Files.hasNul &&
    environment.all fun e => !Files.hasNul e.1 && !Files.hasNul e.2 && !e.1.toList.contains '='

end Host

namespace Shell.Finished

/-- A child killed by a signal has its negated number as return code. -/
def code (f : Finished) : Int :=
  match f.ending with
  | .signal n => -(n : Int)
  | .status n => (n % 256 : Nat)

def both (f : Finished) : Bytes := f.printed.reverse.flatMap (·.2)

def on (f : Finished) (stream : Stream) : Bytes := bytesOn stream f.printed

end Shell.Finished

namespace Action

/-- Runs a command to its end. -/
def spawn (command : List String) (environment : Option Bindings) : Action Shell.Finished := do
  let h ← get
  let env := environment.getD h.environment
  if !Host.isPassable command env then throw .invalidValue
  let name := command.headD ""
  let lengths := Host.textLengths command env
  match h.files.startFirst h.here lengths command none .noSuchFile (Host.programPaths env name) with
  | .error e => throw (.os (.on e name))
  | .ok shellArgs =>
    let finished := Shell.start Shell.stepLimit h.files h.here h.accounts env shellArgs
    set { h with files := finished.files }
    return finished

end Action

/-- Runs commands as child processes. Output and diagnostics come back as one. -/
def Runner.processes : Runner := fun command environment => do
  Action.debug (Log.announcementText ++ Text.Wrapped.list command ++ "\nin: " ++
    Location.text (← get).here)
  let finished ←
    try
      Action.spawn command environment
    catch
      | .os e =>
        Action.log .error ("Conjunct Failed to execute: " ++ Text.Wrapped.list command)
        throw (.os e)
      | fault => throw fault
  Action.debug (command.headD "" ++ " returned " ++ toString finished.code)
  return ⟨finished.code, finished.both⟩

end BitcodeWrapper
